import AttestationService.Proofs.Files.Walking

/-!
What the operations on a tree of files leave as it was. Making directories only adds to a tree, and
the paths that they were made for lead to them; removing and making a socket change one place, which
the path names.
-/

namespace AttestationService.Files

namespace Path

theorem trimReversed_suffix (path : Path) : trimReversed path <:+ path := by
  fun_induction trimReversed path with
  | case1 => exact List.suffix_refl _
  | case2 => exact List.suffix_refl _
  | case3 _ _ ih => exact ih.trans (List.suffix_cons ..)
  | case4 _ _ _ _ _ ih => exact ih.trans (List.suffix_cons ..)
  | case5 => exact List.suffix_refl _

theorem parent?_prefix {path up : Path} (step : path.parent? = some up) : up <+: path := by
  unfold parent? cutLast? at step
  simp only at step
  split at step
  · cases step
  · cases step
    rw [← List.reverse_suffix]
    simp only [List.reverse_reverse]
    exact (trimReversed_suffix _).trans ((List.dropWhile_suffix _).trans (trimReversed_suffix _))

inductive IsAbove : Path → Path → Prop
  | parent {path up : Path} (step : path.parent? = some up) : IsAbove up path
  | further {path up outer : Path} (step : path.parent? = some up) (above : IsAbove outer up) :
      IsAbove outer path

theorem above_of_holder {fuel : Nat} {path up : Path} (holder : up ∈ path.holders fuel) :
    up.IsAbove path := by
  induction fuel generalizing path with
  | zero => cases holder
  | succ fuel ih =>
      unfold holders at holder
      split at holder
      · cases holder
      · rename_i outer step
        split at holder
        · cases holder
        · rcases List.mem_cons.mp holder with rfl | holder
          · exact .parent step
          · exact .further step (ih holder)

end Path

namespace Tree

/-- The last name of the path stands in this directory. -/
structure Below (tree : Tree) (path : Path) (directory : Place) (name : Name) : Prop where
  some_ : path.isEmpty = false
  short : ¬ pathLimit ≤ path.length
  plain : Plain name
  isDirectory : tree.DirectoryAt directory
  leads : ∃ outer left, path.names = outer ++ [name] ∧
    tree.Leads linkLimit (tree.start path) outer left directory

section Paths
variable {tree after : Tree} {path : Path} {directory place : Place} {name : Name} {entry : Entry}

theorem Kept.start (kept : Kept tree after) (path : Path) : after.start path = tree.start path := by
  rw [Tree.start, Tree.start, kept.current]

theorem Below.kept (below : tree.Below path directory name) (kept : Kept tree after) :
    after.Below path directory name where
  some_ := below.some_
  short := below.short
  plain := below.plain
  isDirectory := below.isDirectory.kept kept
  leads := by
    obtain ⟨outer, left, named, leads⟩ := below.leads
    exact ⟨outer, left, named, kept.start path ▸ leads.kept kept⟩

theorem entryOf_ok {spot : Except OsError Spot} (led : entryOf spot = .ok (place, entry)) :
    spot = .ok (.taken place entry) := by
  unfold entryOf at led
  split at led <;> cases led
  rfl

theorem directoryAt_of (found : tree.find? place = some entry) (isDirectory : entry.isDirectory = true) :
    tree.DirectoryAt place := by
  cases entry with
  | directory mode => exact ⟨mode, found⟩
  | _ => cases isDirectory

theorem below_of_lastOf (last : tree.lastOf path = .ok (directory, .name name)) :
    tree.Below path directory name := by
  unfold lastOf at last
  -- Each case that is closed at once is a reason to refuse the path.
  split at last
  · cases last
  · rename_i some_
    split at last
    · cases last
    · rename_i short
      simp only at last
      split at last
      · cases last
      · rename_i place entry reached
        obtain ⟨found, left, leads⟩ := leads_of_walk (entryOf_ok reached)
        split at last
        · cases last
        · rename_i final named
          split at last
          · cases last
          · rename_i isDirectory
            split at last
            · cases last
            · rename_i dots
              split at last
              · cases last
              · rename_i notLong
                cases last
                obtain ⟨outer, same⟩ := List.getLast?_eq_some_iff.mp named
                rw [same, List.dropLast_concat] at leads
                have plain : Plain name :=
                  ⟨fun same => dots (.inl same), fun same => dots (.inr same), notLong⟩
                exact ⟨by simpa using some_, short, plain, directoryAt_of found (by simpa using isDirectory),
                  outer, left, same, leads⟩

theorem Below.resolve (below : tree.Below path directory name) : ∃ left, ∀ follow,
    tree.resolve follow path =
      tree.walk follow left directory (name :: if path.asksDirectory then [Files.here] else []) := by
  obtain ⟨outer, left, named, leads⟩ := below.leads
  refine ⟨left, fun follow => ?_⟩
  rw [Tree.resolve, below.some_, if_neg (by decide), if_neg below.short, named, List.append_assoc]
  exact leads.walk (.inl (List.cons_ne_nil _ _))

theorem Below.entryAt (below : tree.Below path directory name) (bare : path.asksDirectory = false)
    (found : tree.find? (name :: directory) = some entry) :
      tree.entryAt path = .ok (name :: directory, entry) := by
  obtain ⟨left, resolved⟩ := below.resolve
  have ended : tree.walk false left directory [name] = .ok (.taken (name :: directory) entry) := by
    rw [walk_plain below.isDirectory below.plain, found]
    cases entry with
    | link target => rfl
    | _ => exact walk_nil found
  rw [Tree.entryAt, resolved, bare, if_neg (by decide), ended]
  rfl

theorem Below.targetOf (below : tree.Below path directory name) (bare : path.asksDirectory = false)
    (found : tree.find? (name :: directory) = some entry) (noLink : ∀ target, entry ≠ .link target) :
    tree.targetOf path = .ok (name :: directory, entry) := by
  obtain ⟨left, resolved⟩ := below.resolve
  rw [Tree.targetOf, resolved, bare, if_neg (by decide), walk_into below.isDirectory below.plain found noLink,
    walk_nil found]
  rfl

theorem Below.targetOf_directory {mode : Nat} (below : tree.Below path directory name)
    (found : tree.find? (name :: directory) = some (.directory mode)) :
    tree.targetOf path = .ok (name :: directory, .directory mode) := by
  obtain ⟨left, resolved⟩ := below.resolve
  rw [Tree.targetOf, resolved, walk_into below.isDirectory below.plain found nofun]
  split
  · rw [walk_here ⟨mode, found⟩, walk_nil found]
    rfl
  · rw [walk_nil found]
    rfl

theorem resolve_ok {follow : Bool} {spot : Spot} (resolved : tree.resolve follow path = .ok spot) :
    path.isEmpty = false ∧ ¬ pathLimit ≤ path.length ∧
      tree.walk follow linkLimit (tree.start path)
        (path.names ++ if path.asksDirectory then [Files.here] else []) = .ok spot := by
  unfold Tree.resolve at resolved
  split at resolved
  · cases resolved
  · rename_i some_
    split at resolved
    · cases resolved
    · rename_i short
      exact ⟨by simpa using some_, short, resolved⟩

theorem entryAt_found (named : tree.entryAt path = .ok (place, entry)) : tree.find? place = some entry :=
  walk_found (resolve_ok (entryOf_ok named)).2.2

theorem targetOf_kept (kept : Kept tree after) (led : tree.targetOf path = .ok (place, entry)) :
    after.targetOf path = .ok (place, entry) := by
  obtain ⟨some_, short, walked⟩ := resolve_ok (entryOf_ok led)
  obtain ⟨found, left, leads⟩ := leads_of_walk walked
  have again := @Leads.walk _ true _ _ _ _ _ [] (leads.kept kept) (.inr rfl)
  rw [List.append_nil] at again
  rw [Tree.targetOf, Tree.resolve, some_, if_neg (by decide), if_neg short, kept.start, again,
    walk_nil (kept.places _ _ found)]
  rfl

end Paths

section Operations
variable {tree after : Tree} {path : Path} {mode : Nat} {place : Place}

theorem ne_of_free (free : tree.find? place = none) : place ≠ [] := by
  rintro rfl
  cases free

theorem ne_of_found {entry : Entry} (found : tree.find? place = some entry)
    (notDirectory : entry.isDirectory = false) :
    place ≠ [] := by
  rintro rfl
  cases found
  cases notDirectory

theorem put_kept (free : tree.find? place = none) (entry : Entry) : Kept tree (tree.put place entry) where
  current := rfl
  places other e found := by
    have different : other ≠ place := by
      rintro rfl
      rw [free] at found
      cases found
    rw [find?_put_other different, found]

theorem vacancy_ok (vacant : tree.vacancy path = .ok place) : ∃ directory name,
    place = name :: directory ∧ tree.Below path directory name ∧ tree.find? place = none := by
  unfold vacancy at vacant
  split at vacant
  · cases vacant
  · cases vacant
  · rename_i directory name last
    split at vacant
    · cases vacant
    · rename_i free
      cases vacant
      exact ⟨directory, name, rfl, below_of_lastOf last, free⟩

theorem unlink_ok (done : tree.unlink path = .ok after) :
    ∃ place entry, tree.entryAt path = .ok (place, entry) ∧
    tree.find? place = some entry ∧ entry.isDirectory = false ∧ after = tree.erase place := by
  unfold unlink at done
  split at done
  · cases done
  · cases done
  · rename_i directory name last
    split at done
    · cases done
    · rename_i entry found
      split at done
      · cases done
      · rename_i isDirectory
        split at done
        · cases done
        · rename_i asks
          cases done
          exact ⟨_, entry, (below_of_lastOf last).entryAt (by simpa using asks) found, found,
            by simpa using isDirectory, rfl⟩

theorem makeSocket_ok (made : tree.makeSocket path mode = .ok after) : ∃ directory name,
    tree.Below path directory name ∧ tree.find? (name :: directory) = none ∧ path.asksDirectory = false ∧
      after = tree.put (name :: directory) (.socket mode) := by
  unfold makeSocket at made
  split at made
  · cases made
  · rename_i place vacant
    split at made
    · cases made
    · rename_i asks
      cases made
      obtain ⟨directory, name, rfl, below, free⟩ := vacancy_ok vacant
      exact ⟨directory, name, below, free, by simpa using asks, rfl⟩

end Operations

/-- The tree has grown by directories at which these paths lead. -/
structure Grown (mode : Nat) (paths : Path → Prop) (before after : Tree) : Prop where
  kept : Kept before after
  made : ∀ place entry, after.find? place = some entry → before.find? place = some entry ∨
    entry = .directory mode ∧ ∃ path, paths path ∧ after.targetOf path = .ok (place, entry)

section Growth
variable {mode : Nat} {paths more : Path → Prop} {before between after : Tree} {path : Path}
  {result : Except OsError Unit}

theorem Grown.refl (tree : Tree) : Grown mode paths tree tree := ⟨⟨rfl, fun _ _ => id⟩, fun _ _ => .inl⟩

theorem Grown.trans (first : Grown mode paths before between) (second : Grown mode paths between after) :
    Grown mode paths before after where
  kept := first.kept.trans second.kept
  made place entry found := by
    -- a directory made first is still what its path leads to, since the tree only grew
    rcases second.made place entry found with earlier | made
    · rcases first.made place entry earlier with earliest | ⟨same, path, among, led⟩
      · exact .inl earliest
      · exact .inr ⟨same, path, among, targetOf_kept second.kept led⟩
    · exact .inr made

theorem Grown.weaken (grown : Grown mode paths before after) (wider : ∀ path, paths path → more path) :
    Grown mode more before after where
  kept := grown.kept
  made place entry found := (grown.made place entry found).imp_right
    fun ⟨same, path, among, led⟩ => ⟨same, path, wider path among, led⟩

theorem makeDirectory_grown (made : before.makeDirectory path mode = .ok after) :
    Grown mode (· = path) before after := by
  unfold makeDirectory at made
  split at made
  · cases made
  · rename_i place vacant
    cases made
    obtain ⟨directory, name, rfl, below, free⟩ := vacancy_ok vacant
    have kept := put_kept free (.directory mode)
    refine ⟨kept, fun place entry found => ?_⟩
    by_cases same : place = name :: directory
    · subst same
      have here : (before.put (name :: directory) (.directory mode)).find? (name :: directory) =
          some (.directory mode) := find?_put_same (ne_of_free free) _
      rw [here] at found
      cases found
      exact .inr ⟨rfl, path, rfl, (below.kept kept).targetOf_directory here⟩
    · rw [find?_put_other same] at found
      exact .inl found

theorem ensureDirectory_grown (made : before.ensureDirectory path mode = .ok after) :
    Grown mode (· = path) before after := by
  unfold ensureDirectory at made
  split at made
  · rename_i tree done
    cases made
    exact makeDirectory_grown done
  · split at made
    · cases made
      exact .refl _
    · cases made

theorem makeDirectories_grown {list : List Path} (done : makeDirectories mode list before = (result, after)) :
    Grown mode (· ∈ list) before after := by
  induction list generalizing before after result with
  | nil =>
      cases done
      exact .refl _
  | cons path outer ih =>
      unfold makeDirectories at done
      split at done
      · rename_i tree made
        cases done
        exact (ensureDirectory_grown made).weaken fun _ same => same ▸ List.mem_cons_self
      · split at done
        -- the holders were missing: they are made first, and then the directory is tried again
        · split at done
          · rename_i e tree outside
            cases done
            exact (ih outside).weaken fun _ => List.mem_cons_of_mem _
          · rename_i tree outside
            have outwards : Grown mode (· ∈ path :: outer) before tree :=
              (ih outside).weaken fun _ => List.mem_cons_of_mem _
            split at done
            · rename_i made again
              cases done
              exact outwards.trans ((ensureDirectory_grown again).weaken fun _ same =>
                same ▸ List.mem_cons_self)
            · cases done
              exact outwards
        · cases done
          exact .refl _

theorem makeWithHolders_grown (done : before.makeWithHolders path mode = (result, after)) :
    Grown mode (· ∈ path :: path.holders path.length) before after := by
  unfold makeWithHolders at done
  split at done
  · cases done
    exact .refl _
  · exact makeDirectories_grown done

end Growth

end Tree

end AttestationService.Files

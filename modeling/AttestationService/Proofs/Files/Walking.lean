import AttestationService.Files.Tree

/-!
Walking through a tree of files. Where names lead is said by a relation, which is kept when entries
are added, and the walk along a path is the walk from where its first names lead.
-/

namespace AttestationService.Files.Tree

section Places
variable {tree : Tree} {place other : Place}

theorem find?_of_ne (some_ : place ≠ []) :
    tree.find? place = (tree.entries.find? (·.1 == place)).map (·.2) := by
  rw [find?, List.isEmpty_eq_false_iff.mpr some_]
  rfl

theorem find?_erase_same (some_ : place ≠ []) : (tree.erase place).find? place = none := by
  have gone : (tree.erase place).entries.find? (·.1 == place) = none := by
    rw [List.find?_eq_none]
    intro e member
    simpa using (List.mem_filter.mp member).2
  rw [find?_of_ne some_, gone]
  rfl

theorem find?_erase_other (different : other ≠ place) :
    (tree.erase place).find? other = tree.find? other := by
  have same : (tree.erase place).entries.find? (·.1 == other) = tree.entries.find? (·.1 == other) := by
    rw [erase, List.find?_filter]
    congr 1
    funext e
    by_cases here : e.1 = other
    · simp [here, different]
    · simp [here]
  rw [find?, find?, same]

theorem find?_put_same (some_ : place ≠ []) (entry : Entry) :
    (tree.put place entry).find? place = some entry := by
  have first : (tree.put place entry).entries.find? (·.1 == place) = some (place, entry) :=
    List.find?_cons_of_pos (beq_self_eq_true place)
  rw [find?_of_ne some_, first]
  rfl

theorem find?_put_other (different : other ≠ place) (entry : Entry) :
    (tree.put place entry).find? other = tree.find? other := by
  have same : (tree.put place entry).entries.find? (·.1 == other) =
      (tree.erase place).entries.find? (·.1 == other) :=
    List.find?_cons_of_neg (by simpa using different.symm)
  refine Eq.trans ?_ (find?_erase_other different)
  unfold find?
  rw [same]

theorem put_put (first second : Entry) : (tree.put place first).put place second = tree.put place second := by
  unfold put erase
  simp [List.filter_filter]

end Places

/-- What was there is still there. -/
structure Kept (before after : Tree) : Prop where
  current : after.current = before.current
  places : ∀ place entry, before.find? place = some entry → after.find? place = some entry

theorem Kept.trans {before between after : Tree} (first : Kept before between) (second : Kept between after) :
    Kept before after where
  current := second.current.trans first.current
  places place entry found := second.places place entry (first.places place entry found)

def DirectoryAt (tree : Tree) (place : Place) : Prop := ∃ mode, tree.find? place = some (.directory mode)

theorem any_directory {tree : Tree} {place : Place} :
    (tree.find? place).any Entry.isDirectory = true ↔ tree.DirectoryAt place := by
  unfold DirectoryAt
  cases tree.find? place with
  | none => simp
  | some entry => cases entry <;> simp [Entry.isDirectory]

structure Plain (name : Name) : Prop where
  notHere : name ≠ here
  notAbove : name ≠ above
  short : ¬ nameLimit < name.length

/-- Where names lead, each followed through links, and how many links may still be followed then. -/
inductive Leads (tree : Tree) : Nat → Place → List Name → Nat → Place → Prop
  | done (links : Nat) (place : Place) : Leads tree links place [] links place
  | here {links left : Nat} {place goal : Place} {rest : List Name} (directory : tree.DirectoryAt place)
      (further : Leads tree links place rest left goal) :
        Leads tree links place (Files.here :: rest) left goal
  | above {links left : Nat} {place goal : Place} {rest : List Name} (directory : tree.DirectoryAt place)
      (further : Leads tree links place.tail rest left goal) :
        Leads tree links place (Files.above :: rest) left goal
  | into {links left : Nat} {place goal : Place} {name : Name} {rest : List Name} {entry : Entry}
      (directory : tree.DirectoryAt place) (plain : Plain name)
        (found : tree.find? (name :: place) = some entry)
      (noLink : ∀ target, entry ≠ .link target) (further : Leads tree links (name :: place) rest left goal) :
      Leads tree links place (name :: rest) left goal
  | link {links left : Nat} {place goal : Place} {name : Name} {rest : List Name} {target : Path}
      (directory : tree.DirectoryAt place) (plain : Plain name)
      (found : tree.find? (name :: place) = some (.link target))
      (further : Leads tree links (if target.isAbsolute then [] else place)
        (target.names ++ if target.asksDirectory then Files.here :: rest else rest) left goal) :
      Leads tree (links + 1) place (name :: rest) left goal

section Steps
variable {tree : Tree} {follow : Bool} {links : Nat} {place : Place} {name : Name}
  {rest : List Name} {entry : Entry}
  {target : Path}

theorem walk_nil (found : tree.find? place = some entry) :
    tree.walk follow links place [] = .ok (.taken place entry) := by
  rw [walk, found]

theorem walk_here (directory : tree.DirectoryAt place) :
    tree.walk follow links place (Files.here :: rest) = tree.walk follow links place rest := by
  rw [walk.eq_def]
  simp only
  rw [if_pos (any_directory.mpr directory), if_pos trivial]

theorem walk_above (directory : tree.DirectoryAt place) :
    tree.walk follow links place (Files.above :: rest) = tree.walk follow links place.tail rest := by
  rw [walk.eq_def]
  simp only
  rw [if_pos (any_directory.mpr directory), if_neg (by decide), if_pos trivial]

theorem walk_plain (directory : tree.DirectoryAt place) (plain : Plain name) :
    tree.walk follow links place (name :: rest) =
      match tree.find? (name :: place) with
      | none => if rest.isEmpty then .ok (.free (name :: place)) else .error .notFound
      | some (.link target) =>
        if rest.isEmpty ∧ !follow then .ok (.taken (name :: place) (.link target))
        else
          match links with
          | 0 => .error .tooManyLinks
          | left + 1 =>
            tree.walk follow left (if target.isAbsolute then [] else place)
              (target.names ++ if target.asksDirectory then Files.here :: rest else rest)
      | some _ => tree.walk follow links (name :: place) rest := by
  rw [walk.eq_def]
  simp only
  rewrite [if_pos (any_directory.mpr directory), if_neg plain.notHere, if_neg plain.notAbove,
    if_neg plain.short]
  cases tree.find? (name :: place) with
  | none => rfl
  | some entry => cases entry <;> rfl

theorem walk_into (directory : tree.DirectoryAt place) (plain : Plain name)
    (found : tree.find? (name :: place) = some entry) (noLink : ∀ target, entry ≠ .link target) :
    tree.walk follow links place (name :: rest) = tree.walk follow links (name :: place) rest := by
  rw [walk_plain directory plain, found]
  cases entry with
  | link target => exact absurd rfl (noLink target)
  | _ => rfl

theorem walk_link (directory : tree.DirectoryAt place) (plain : Plain name)
    (found : tree.find? (name :: place) = some (.link target)) (through : rest ≠ [] ∨ follow = true) :
    tree.walk follow (links + 1) place (name :: rest) =
      tree.walk follow links (if target.isAbsolute then [] else place)
        (target.names ++ if target.asksDirectory then Files.here :: rest else rest) := by
  rw [walk_plain directory plain, found]
  refine if_neg ?_
  rintro ⟨last, stays⟩
  rcases through with more | follows
  · exact more (List.isEmpty_iff.mp last)
  · rw [follows] at stays
    cases stays

end Steps

section Walks
variable {tree after : Tree} {follow : Bool} {links left : Nat} {place goal : Place} {names more : List Name}

theorem DirectoryAt.kept (directory : tree.DirectoryAt place) (kept : Kept tree after) :
    after.DirectoryAt place :=
  let ⟨mode, found⟩ := directory
  ⟨mode, kept.places _ _ found⟩

theorem Leads.kept (leads : Leads tree links place names left goal) (kept : Kept tree after) :
    Leads after links place names left goal := by
  induction leads with
  | done links place => exact .done links place
  | here directory _ ih => exact .here (directory.kept kept) ih
  | above directory _ ih => exact .above (directory.kept kept) ih
  | into directory plain found noLink _ ih =>
      exact .into (directory.kept kept) plain (kept.places _ _ found) noLink ih
  | link directory plain found _ ih => exact .link (directory.kept kept) plain (kept.places _ _ found) ih

theorem Leads.walk (leads : Leads tree links place names left goal) (through : more ≠ [] ∨ follow = true) :
    tree.walk follow links place (names ++ more) = tree.walk follow left goal more := by
  induction leads with
  | done => rfl
  | here directory _ ih => rw [List.cons_append, walk_here directory, ih]
  | above directory _ ih => rw [List.cons_append, walk_above directory, ih]
  | into directory plain found noLink _ ih =>
      rw [List.cons_append, walk_into directory plain found noLink, ih]
  | @link _ _ _ _ _ rest target directory plain found _ ih =>
      -- a link in the last place is followed only if the walk follows it, so more names or `follow`
      -- are needed
      have through : rest ++ more ≠ [] ∨ follow = true :=
        through.imp_left fun some_ none => some_ (List.append_eq_nil_iff.mp none).2
      rw [List.cons_append, walk_link directory plain found through, ← ih]
      by_cases asks : target.asksDirectory <;> simp [asks]

theorem leads_of_walk {entry : Entry} (ended : tree.walk true links place names = .ok (.taken goal entry)) :
    tree.find? goal = some entry ∧ ∃ left, Leads tree links place names left goal := by
  fun_induction Tree.walk tree true links place names with
  | case1 links place entry found =>
      cases ended
      exact ⟨found, links, .done links _⟩
  | case2 => cases ended
  | case3 links place rest directory ih =>
      obtain ⟨found, left, further⟩ := ih ended
      exact ⟨found, left, .here (any_directory.mp directory) further⟩
  | case4 links place rest directory _ ih =>
      obtain ⟨found, left, further⟩ := ih ended
      exact ⟨found, left, .above (any_directory.mp directory) further⟩
  | case5 => cases ended
  | case6 => cases ended
  | case7 => cases ended
  | case8 _ _ _ _ _ _ _ _ _ _ stays => cases stays.2
  | case9 => cases ended
  | case10 place name rest directory notHere notAbove short target found _ links further ih =>
      obtain ⟨found', left, further⟩ := ih ended
      exact ⟨found', left, .link (any_directory.mp directory) ⟨notHere, notAbove, short⟩ found further⟩
  | case11 links place name rest directory notHere notAbove short entry noLink found ih =>
      obtain ⟨found', left, further⟩ := ih ended
      exact ⟨found', left, .into (any_directory.mp directory) ⟨notHere, notAbove, short⟩ found noLink further⟩
  | case12 => cases ended

theorem walk_found {entry : Entry} (ended : tree.walk follow links place names = .ok (.taken goal entry)) :
    tree.find? goal = some entry := by
  fun_induction Tree.walk tree follow links place names with
  | case1 _ _ _ found =>
      cases ended
      exact found
  | case3 _ _ _ _ ih => exact ih ended
  | case4 _ _ _ _ _ ih => exact ih ended
  | case8 _ _ _ _ _ _ _ _ _ found _ =>
      cases ended
      exact found
  | case10 _ _ _ _ _ _ _ _ _ _ _ _ ih => exact ih ended
  | case11 _ _ _ _ _ _ _ _ _ _ _ ih => exact ih ended
  | _ => cases ended

end Walks

end AttestationService.Files.Tree

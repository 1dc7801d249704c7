import AttestationService.Listeners
import AttestationService.Proofs.Files.Growing
import Mathlib.Data.List.Permutation

/-!
What listening does to the files. The entry in the socket's way goes, unless it is a directory, the
directories that are missing come, and nothing else changes, whether or not a socket is made in the
end.
-/

namespace AttestationService

namespace Files

/-- What may happen to the files before a socket is made: the entry at its path goes, if that is no
directory, and directories come at paths above. -/
structure Tree.Readied (path : Path) (before after : Tree) : Prop where
  kept : ∀ place entry, before.find? place = some entry →
    after.find? place = some entry ∨ before.entryAt path = .ok (place, entry) ∧ entry.isDirectory = false
  made : ∀ place entry, after.find? place = some entry → before.find? place = some entry ∨
    entry = .directory Host.directoryMode ∧ ∃ up, up.IsAbove path ∧ after.targetOf up = .ok (place, entry)

theorem Tree.Readied.refl (path : Path) (tree : Tree) : Tree.Readied path tree tree :=
  ⟨fun _ _ => .inl, fun _ _ => .inl⟩

end Files

namespace Host
open Files
variable {host after : Host} {path : Path} {e : ListenError} {change : Except OsError Unit}
  {complaint : Option SystemError}

/-- The paths that put no socket in the tree: for the empty one the system chooses a name, and a
name that begins with a zero is not a file's. -/
def Hidden (path : Path) : Prop := path = [] ∨ path.head? = some 0

theorem hidden_zero (hidden : Hidden path) : path = [] ∨ ∃ rest, path = 0 :: rest := by
  rcases hidden with rfl | zero
  · exact .inl rfl
  · cases path with
    | nil => exact .inl rfl
    | cons c rest =>
        cases zero
        exact .inr ⟨rest, rfl⟩

theorem hasZero_cons (rest : Path) : hasZero (0 :: rest) = true := rfl

theorem clear_ok (cleared : host.clear path = .ok after) : after.hidden = host.hidden ∧
    (after.files = host.files ∧ (hasZero path = false →
      ∀ place entry, host.files.entryAt path ≠ .ok (place, entry)) ∨
      ∃ place entry, host.files.entryAt path = .ok (place, entry) ∧ host.files.find? place = some entry ∧
        entry.isDirectory = false ∧ after.files = host.files.erase place) := by
  unfold clear at cleared
  split at cleared
  · rename_i zero
    cases cleared
    exact ⟨rfl, .inl ⟨rfl, fun none => by rw [zero] at none; cases none⟩⟩
  · split at cleared
    · rename_i none
      cases cleared
      refine ⟨rfl, .inl ⟨rfl, fun _ place entry found => ?_⟩⟩
      rw [none] at found
      cases found
    · split at cleared
      · cases cleared
      · rename_i files unlinked
        cases cleared
        exact ⟨rfl, .inr (Tree.unlink_ok unlinked)⟩

theorem prepareDirectory_grown {result : Except ListenError Unit}
    (prepared : host.prepareDirectory path = (result, after)) : after.hidden = host.hidden ∧
      Tree.Grown directoryMode (·.IsAbove path) host.files after.files := by
  unfold prepareDirectory at prepared
  split at prepared
  · cases prepared
    exact ⟨rfl, .refl _⟩
  · rename_i directory step
    have above : ∀ up, up ∈ directory :: directory.holders directory.length → up.IsAbove path := by
      intro up among
      rcases List.mem_cons.mp among with rfl | holder
      · exact .parent step
      · exact .further step (Path.above_of_holder holder)
    split at prepared
    · cases prepared
      exact ⟨rfl, .refl _⟩
    · split at prepared
      · cases prepared
        exact ⟨rfl, .refl _⟩
      · split at prepared
        all_goals
          rename_i made
          cases prepared
          exact ⟨rfl, (Tree.makeWithHolders_grown made).weaken above⟩

theorem readied {cleared : Host} {result : Except ListenError Unit} (clear : host.clear path = .ok cleared)
    (prepared : cleared.prepareDirectory path = (result, after)) :
    after.hidden = host.hidden ∧ Tree.Readied path host.files after.files := by
  obtain ⟨sameNames, removed⟩ := clear_ok clear
  obtain ⟨sameAgain, grown⟩ := prepareDirectory_grown prepared
  refine ⟨sameAgain.trans sameNames, ?_⟩
  -- either nothing stood at the path, or the entry there is gone before the directories come
  rcases removed with ⟨same, _⟩ | ⟨place, entry, named, found, notDirectory, gone⟩
  · rw [same] at grown
    exact ⟨fun p e found => .inl (grown.kept.places p e found), grown.made⟩
  · rw [gone] at grown
    constructor
    · intro p e there
      by_cases same : p = place
      · rw [same, found] at there
        cases there
        exact .inr ⟨same ▸ named, notDirectory⟩
      · exact .inl (grown.kept.places p e ((Tree.find?_erase_other same).trans there))
    · intro p e there
      rcases grown.made p e there with earlier | made
      · by_cases same : p = place
        · rw [same, Tree.find?_erase_same (Tree.ne_of_found found notDirectory)] at earlier
          cases earlier
        · exact .inl ((Tree.find?_erase_other same).symm.trans earlier)
      · exact .inr made

theorem readied_without {cleared : Host} {result : Except ListenError Unit} {place : Place} {entry : Entry}
    (clear : host.clear path = .ok cleared) (prepared : cleared.prepareDirectory path = (result, after))
    (noZero : hasZero path = false) (found : host.files.entryAt path = .ok (place, entry)) :
    entry.isDirectory = false ∧ after.files.find? place ≠ some entry := by
  rcases (clear_ok clear).2 with ⟨_, none⟩ | ⟨other, entry', same, there, notDirectory, gone⟩
  · exact absurd found (none noZero place entry)
  · rw [found] at same
    cases same
    refine ⟨notDirectory, fun still => ?_⟩
    rcases (prepareDirectory_grown prepared).2.made place entry still with earlier | ⟨directory, _⟩
    · rw [gone, Tree.find?_erase_same (Tree.ne_of_found there notDirectory)] at earlier
      cases earlier
    · rw [directory] at notDirectory
      cases notDirectory

theorem bind_ok (bound : host.bind path = .ok after) : Hidden path ∧ after.files = host.files ∨
    hasZero path = false ∧ ∃ files, host.files.makeSocket path directoryMode = .ok files ∧
      after = { host with files } := by
  unfold bind at bound
  split at bound
  · cases bound
    exact .inl ⟨.inl rfl, rfl⟩
  · split at bound
    · cases bound
    · split at bound
      · cases bound
      · cases bound
        exact .inl ⟨.inr rfl, rfl⟩
  · split at bound
    · cases bound
    · rename_i noZero
      split at bound
      · cases bound
      · split at bound
        · cases bound
        · rename_i files made
          cases bound
          exact .inr ⟨by simpa using noZero, files, made, rfl⟩

/-- What comes of an answer to the change of a new socket's mode: a complaint if it is no, and the mode. -/
inductive Shared : Except OsError Unit → Option SystemError → Nat → Prop
  | done : Shared (.ok ()) none socketMode
  | refused (e : OsError) : Shared (.error e) (some (.os e)) directoryMode

theorem share_made {files : Tree} (noZero : hasZero path = false)
    (made : host.files.makeSocket path directoryMode = .ok files) :
    ∃ place mode complaint, host.files.find? place = none ∧ Shared change complaint mode ∧
      ({ host with files } : Host).share change path =
        (complaint, { host with files := host.files.put place (.socket mode) }) ∧
      (host.files.put place (.socket mode)).entryAt path = .ok (place, .socket mode) := by
  obtain ⟨directory, name, below, free, bare, rfl⟩ := Tree.makeSocket_ok made
  have some_ := Tree.ne_of_free free
  have kept := Tree.put_kept free (.socket directoryMode)
  -- the new socket is what the path leads to, so the change of mode finds it and no other entry
  have led := (below.kept kept).targetOf bare (Tree.find?_put_same some_ _) nofun
  have opened : (host.files.put (name :: directory) (.socket directoryMode)).chmod path socketMode =
      .ok (host.files.put (name :: directory) (.socket socketMode)) := by
    rw [Tree.chmod, led]
    exact congrArg Except.ok (Tree.put_put _ _)
  have there (mode : Nat) : (host.files.put (name :: directory) (.socket mode)).entryAt path =
      .ok (name :: directory, .socket mode) :=
    (below.kept (Tree.put_kept free _)).entryAt bare (Tree.find?_put_same some_ _)
  cases change with
  | ok =>
      refine ⟨name :: directory, socketMode, none, free, .done, ?_, there _⟩
      rw [share, noZero, if_neg (by decide), opened]
      rfl
  | error e =>
      refine ⟨name :: directory, directoryMode, some (.os e), free, .refused e, ?_, there _⟩
      rw [share, noZero, if_neg (by decide), opened]
      rfl

theorem openSocket_ok (opened : host.openSocket change path = (.ok complaint, after)) : ∃ cleared ready bound,
    host.clear path = .ok cleared ∧ cleared.prepareDirectory path = (.ok (), ready) ∧
      ready.bind path = .ok bound ∧
      bound.share change path = (complaint, after) := by
  unfold openSocket at opened
  split at opened
  · cases opened
  · rename_i cleared clear
    split at opened
    · cases opened
    · rename_i ready prepared
      split at opened
      · cases opened
      · rename_i bound made
        cases opened
        exact ⟨cleared, ready, bound, clear, prepared, made, rfl⟩

theorem openSocket_error (refused : host.openSocket change path = (.error e, after)) :
    host.clear path = .error e ∧ after = host ∨
      ∃ cleared result, host.clear path = .ok cleared ∧ cleared.prepareDirectory path = (result, after) := by
  unfold openSocket at refused
  split at refused
  · rename_i clear
    cases refused
    exact .inl ⟨clear, rfl⟩
  · rename_i cleared clear
    split at refused
    · rename_i prepared
      cases refused
      exact .inr ⟨cleared, _, clear, prepared⟩
    · rename_i ready prepared
      split at refused
      · cases refused
        exact .inr ⟨cleared, _, clear, prepared⟩
      · cases refused

theorem share_hidden (hidden : Hidden path) (host : Host) (change : Except OsError Unit) :
    ∃ e, host.share change path = (some e, host) := by
  rcases hidden_zero hidden with rfl | ⟨rest, rfl⟩
  · exact ⟨.os .notFound, by cases change <;> rfl⟩
  · exact ⟨.zeroInPath, if_pos (hasZero_cons rest)⟩

theorem clear_hidden (hidden : Hidden path) (cleared : host.clear path = .ok after) : after = host := by
  rcases hidden_zero hidden with rfl | ⟨rest, rfl⟩
  · cases cleared
    rfl
  · rw [clear, if_pos (hasZero_cons rest)] at cleared
    cases cleared
    rfl

theorem bind_hidden (hidden : Hidden path) (bound : host.bind path = .ok after) :
    after.files = host.files := by
  rcases hidden_zero hidden with rfl | ⟨rest, rfl⟩
  · cases bound
    rfl
  · rcases bind_ok bound with ⟨_, same⟩ | ⟨noZero, _⟩
    · exact same
    · rw [hasZero_cons] at noZero
      cases noZero

theorem prepareDirectory_hidden (hidden : Hidden path)
    (prepared : host.prepareDirectory path = (.ok (), after)) :
    after = host := by
  unfold prepareDirectory at prepared
  split at prepared
  · cases prepared
    rfl
  · rename_i directory step
    split at prepared
    · cases prepared
      rfl
    · rename_i some_
      -- a directory above would have a name with a zero in front, and no such directory is made
      have zero : hasZero directory = true := by
        obtain ⟨more, same⟩ := Path.parent?_prefix step
        cases directory with
        | nil => exact absurd rfl some_
        | cons c directory =>
            rcases hidden_zero hidden with rfl | ⟨rest, rfl⟩
            · cases same
            · cases same
              rfl
      rw [if_pos zero] at prepared
      cases prepared

theorem clear_refused {place : Place} {entry : Entry} (noZero : hasZero path = false)
    (found : host.files.entryAt path = .ok (place, entry)) (directory : entry.isDirectory = true) :
    ∃ cause, host.clear path = .error (.notRemoved cause) := by
  cases clear : host.clear path with
  | ok cleared =>
      rcases (clear_ok clear).2 with ⟨_, none⟩ | ⟨_, _, same, _, notDirectory, _⟩
      · exact absurd found (none noZero place entry)
      · rw [found] at same
        cases same
        rw [directory] at notDirectory
        cases notDirectory
  | error e =>
      unfold Host.clear at clear
      rw [noZero, if_neg (by decide), found] at clear
      simp only at clear
      split at clear
      · cases clear
        exact ⟨_, rfl⟩
      · cases clear

/-- A socket made at the path. `ready` is the tree in which it was made, and `place` was free there. -/
structure Opened (path : Path) (before after : Host) (ready : Tree) (place : Place) (mode : Nat) : Prop where
  readied : Tree.Readied path before.files ready
  replaced : ∀ p entry, before.files.entryAt path = .ok (p, entry) →
    entry.isDirectory = false ∧ ready.find? p ≠ some entry
  free : ready.find? place = none
  made : after = { before with files := ready.put place (.socket mode) }
  found : after.files.entryAt path = .ok (place, .socket mode)

theorem openSocket_opened (opened : host.openSocket change path = (.ok complaint, after))
    (seen : ¬ Hidden path) :
    ∃ ready place mode, Opened path host after ready place mode ∧ Shared change complaint mode := by
  obtain ⟨cleared, ready, bound, clear, prepared, made, sharing⟩ := openSocket_ok opened
  obtain ⟨sameNames, readied⟩ := readied clear prepared
  rcases bind_ok made with ⟨unseen, _⟩ | ⟨noZero, files, socket, rfl⟩
  · exact absurd unseen seen
  · obtain ⟨place, mode, told, free, answer, shared, found⟩ := share_made noZero socket
    rw [shared, sameNames] at sharing
    cases sharing
    exact ⟨ready.files, place, mode, ⟨readied, fun p entry => readied_without clear prepared noZero,
      free, rfl, found⟩,
      answer⟩

theorem openSocket_hidden (opened : host.openSocket change path = (.ok complaint, after))
    (hidden : Hidden path) :
    after.files = host.files ∧ complaint ≠ none := by
  obtain ⟨cleared, ready, bound, clear, prepared, made, sharing⟩ := openSocket_ok opened
  obtain ⟨e, shared⟩ := share_hidden hidden bound change
  rw [shared] at sharing
  cases sharing
  rw [bind_hidden hidden made, prepareDirectory_hidden hidden prepared, clear_hidden hidden clear]
  exact ⟨rfl, nofun⟩

theorem openSocket_failed (refused : host.openSocket change path = (.error e, after)) :
    after.hidden = host.hidden ∧ Tree.Readied path host.files after.files := by
  rcases openSocket_error refused with ⟨_, rfl⟩ | ⟨cleared, result, clear, prepared⟩
  · exact ⟨rfl, Tree.Readied.refl path _⟩
  · exact readied clear prepared

theorem openSocket_directory {place : Place} {entry : Entry} (seen : ¬ Hidden path)
    (found : host.files.entryAt path = .ok (place, entry)) (directory : entry.isDirectory = true) :
    ∃ e after, host.openSocket change path = (.error e, after) ∧ after.files.find? place = some entry ∧
      (hasZero path = false → after = host) := by
  cases opened : host.openSocket change path with
  | mk result after =>
      cases result with
      | ok _ =>
          obtain ⟨_, _, _, opened, _⟩ := openSocket_opened opened seen
          have other := (opened.replaced place entry found).1
          rw [directory] at other
          cases other
      | error e =>
          refine ⟨e, after, rfl, ?_, fun noZero => ?_⟩
          · rcases (openSocket_failed opened).2.kept place entry (Tree.entryAt_found found) with
              same | ⟨_, other⟩
            · exact same
            · rw [directory] at other
              cases other
          · obtain ⟨cause, refused⟩ := clear_refused noZero found directory
            rw [openSocket, refused] at opened
            cases opened
            rfl

/-- Listening changes no file without the port. With it, it changes at most the entry at the
socket's path and adds the directories above, and a directory at the path is refused. The new socket
is for every user if its mode may be changed, and it is listened on all the same if not. -/
theorem listen_framed (host : Host) (endpoint : String) (change : Except OsError Unit) (path : Path) :
    (∀ cause, host.listen endpoint (.error cause) change path =
      (.error (.portRefused endpoint cause), host)) ∧
    (∀ complaint after, host.listen endpoint (.ok ()) change path = (.ok complaint, after) →
      (¬ Hidden path → ∃ ready place mode, Opened path host after ready place mode ∧
        Shared change complaint mode) ∧
      (Hidden path → after.files = host.files ∧ complaint ≠ none)) ∧
    (∀ e after, host.listen endpoint (.ok ()) change path = (.error e, after) →
      after.hidden = host.hidden ∧ Tree.Readied path host.files after.files) ∧
    (¬ Hidden path → ∀ place entry, host.files.entryAt path = .ok (place, entry) → entry.isDirectory = true →
      ∃ e after, host.listen endpoint (.ok ()) change path = (.error e, after) ∧
        after.files.find? place = some entry ∧ (hasZero path = false → after = host)) :=
  ⟨fun _ => rfl, fun _ _ opened => ⟨openSocket_opened opened, openSocket_hidden opened⟩,
    fun _ _ => openSocket_failed,
    fun seen _ _ => openSocket_directory seen⟩

def linkedHost : Host := ⟨⟨[([[0x6C]], .link [0x74]), ([[0x74]], .file 0o644 [0x78])], []⟩, []⟩

/-- The link is replaced, and its file stays, although the socket keeps the mode that it was made with. -/
theorem listen_framed_linked : ∃ after, linkedHost.listen "127.0.0.1:0" (.ok ()) (.error .denied) [0x6C] =
      (.ok (some (.os .denied)), after) ∧
    (∃ place, after.files.entryAt [0x6C] = .ok (place, .socket 0o755)) ∧
    after.files.find? [[0x74]] = some (.file 0o644 [0x78]) := by
  have opened : linkedHost.listen "127.0.0.1:0" (.ok ()) (.error .denied) [0x6C] =
      (.ok (some (.os .denied)), ⟨⟨[([[0x6C]], .socket 0o755), ([[0x74]], .file 0o644 [0x78])], []⟩,
        []⟩) := by cbv
  have link : linkedHost.files.entryAt [0x6C] = .ok ([[0x6C]], .link [0x74]) := by cbv
  have seen : ¬ Hidden [0x6C] := by
    rintro (empty | zero)
    · cases empty
    · cases zero
  obtain ⟨ready, place, mode, socket, shared⟩ :=
    ((listen_framed linkedHost "127.0.0.1:0" (.error .denied) [0x6C]).2.1 _ _ opened).1 seen
  cases shared
  refine ⟨_, opened, ⟨place, socket.found⟩, ?_⟩
  rcases socket.readied.kept [[0x74]] (.file 0o644 [0x78]) rfl with still | ⟨named, _⟩
  · have other : [[0x74]] ≠ place := by
      rintro rfl
      rw [socket.free] at still
      cases still
    exact (congrArg (·.files.find? [[0x74]]) socket.made).trans ((Tree.find?_put_other other _).trans still)
  · rw [link] at named
    cases named

/-- The listening succeeds, and there is no socket at the path. -/
theorem listen_unnamed : ∃ complaint after,
    (⟨⟨[], []⟩, []⟩ : Host).listen "127.0.0.1:0" (.ok ()) (.ok ()) [] = (.ok complaint, after) ∧
      ∀ place mode, after.files.entryAt [] ≠ .ok (place, .socket mode) :=
  ⟨_, _, rfl, nofun⟩

end Host

end AttestationService

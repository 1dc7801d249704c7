import AttestationService.Proofs.Settings.Sources
import AttestationService.Proofs.Settings.Nodes

/-!
Settings from all their sources. Each setting is read from the highest source that gives it,
whatever the sources below say of it and whatever any source says of the others; nothing fails but a
value that is read and does not convert.
-/

namespace AttestationService

namespace Yaml

mutual

theorem Node.eq_of_same : ∀ {node other : Node}, node.same other = true → node = other
  | .null, other, same | .unusable, other, same => by
      cases other <;> first | rfl | cases same
  | .bool _, other, same | .integer _, other, same | .real _, other, same | .string _, other, same => by
      cases other <;> first | exact congrArg _ (eq_of_beq same) | cases same
  | .sequence _, other, same => by
      cases other <;> first | exact congrArg _ (eq_of_sameItems same) | cases same
  | .mapping _, other, same => by
      cases other <;> first | exact congrArg _ (eq_of_sameMembers same) | cases same

theorem eq_of_sameItems : ∀ {items others : List Node}, sameItems items others = true → items = others
  | [], [], _ => rfl
  | _ :: _, _ :: _, same => by
      obtain ⟨first, rest⟩ := Bool.and_eq_true_iff.mp same
      rw [Node.eq_of_same first, eq_of_sameItems rest]

theorem eq_of_sameMembers : ∀ {members others : List (Node × Node)},
    sameMembers members others = true → members = others
  | [], [], _ => rfl
  | (_, _) :: _, (_, _) :: _, same => by
      obtain ⟨both, rest⟩ := Bool.and_eq_true_iff.mp same
      obtain ⟨key, value⟩ := Bool.and_eq_true_iff.mp both
      rw [Node.eq_of_same key, Node.eq_of_same value, eq_of_sameMembers rest]

end

theorem documents_eq {text : List Char} {node : Node}
    (read : (documents? text).any (sameItems · [node]) = true) : documents? text = some [node] := by
  cases found : documents? text with
  | none =>
      rw [found] at read
      cases read
  | some nodes =>
      rw [found] at read
      rw [eq_of_sameItems read]

end Yaml

namespace Settings

open Yaml (Node)

/-- What a named file holds, and its name in error texts. -/
inductive Holds (tree : Files.Tree) : Option String → String → List (Node × Node) → Prop
  | nothing (origin : String) : Holds tree none origin []
  | mapping {name : String} {path : Files.Path} {nodes : List (Node × Node)}
      (located : locate tree name = .ok path)
      (text : Yaml.documents? (Utf8.lossy (withoutMark (contentOf tree path))) = some [.mapping nodes]) :
      Holds tree (some name) (relativeName tree path) nodes

def holding (text : String) : Files.Tree :=
  ⟨[([Utf8.encodeString "service.yaml"], .file 0o644 (Utf8.encodeString text))], []⟩

theorem holding_target (text : String) : (holding text).targetOf (Utf8.encodeString "/service.yaml") =
    .ok ([Utf8.encodeString "service.yaml"], .file 0o644 (Utf8.encodeString text)) := by
  have names : Files.Path.names (Utf8.encodeString "/service.yaml") =
      [Utf8.encodeString "service.yaml"] := by decide
  have whole : Files.Path.asksDirectory (Utf8.encodeString "/service.yaml") = false := by decide
  have absolute : Files.Path.isAbsolute (Utf8.encodeString "/service.yaml") = true := by decide
  have regular : Utf8.encodeString "service.yaml" ≠ Files.here ∧
      Utf8.encodeString "service.yaml" ≠ Files.above := by
    decide
  have size : (Utf8.encodeString "/service.yaml").length = 13 ∧
      (Utf8.encodeString "service.yaml").length = 12 ∧
      (Utf8.encodeString "/service.yaml").isEmpty = false := by decide
  rw [Files.Tree.targetOf, Files.Tree.resolve, names, whole, Files.Tree.start, absolute]
  simp [Files.Tree.walk, Files.Tree.find?, Files.Tree.entryOf, Files.Entry.isDirectory, Files.pathLimit,
    Files.nameLimit, holding, size, regular]

theorem holding_mapping {text : String} {nodes : List (Node × Node)}
    (spelled : Utf8.lossy (withoutMark (Utf8.encodeString text)) = text.toList)
    (parsed : Yaml.documents? text.toList = some [.mapping nodes]) :
    Holds (holding text) (some "service.yaml") "service.yaml" nodes := by
  have located : locate (holding text) "service.yaml" = .ok (Utf8.encodeString "/service.yaml") := by
    have joined : (holding text).currentPath.join (Utf8.encodeString "service.yaml") =
        Utf8.encodeString "/service.yaml" := rfl
    have extended : ((Files.Path.fileName? (Utf8.encodeString "/service.yaml")).bind extensionOf?).map
        extensions.contains = some true := by decide
    rw [locate, joined]
    simp only [Files.Tree.isFile, holding_target, Files.Entry.isFile, extended]
    rfl
  have content : contentOf (holding text) (Utf8.encodeString "/service.yaml") = Utf8.encodeString text := by
    rw [contentOf, holding_target]
  have name : relativeName (holding text) (Utf8.encodeString "/service.yaml") = "service.yaml" := rfl
  rw [← name]
  apply Holds.mapping located
  rw [content, spelled, parsed]

theorem port_parsed : Yaml.documents? "server:\n  port: high\n  read_timeout: 5s\n".toList = some [.mapping
    [(.string "server", .mapping [(.string "port", .string "high"),
      (.string "read_timeout", .string "5s")])]] :=
  Yaml.documents_eq (by decide +kernel)

theorem infinite_parsed : Yaml.documents? "server:\n  port: .inf\n".toList =
    some [.mapping [(.string "server", .mapping [(.string "port", .real ".inf")])]] :=
  Yaml.documents_eq (by decide +kernel)

theorem keyless_parsed : Yaml.documents? "other:\n  ~: 1\n".toList =
    some [.mapping [(.string "other", .mapping [(.null, .integer 1)])]] :=
  Yaml.documents_eq (by decide +kernel)

def effective (environment : Environment) (origin : String) (nodes : List (Node × Node))
    (overrides : Overrides) (s : Setting) : Option Value :=
  (overrides.value? s).or ((sectionsValue? origin nodes s).or (environment.value? s))

/-- Some setting is not given what it can be. -/
def Unconverted (environment : Environment) (origin : String) (nodes : List (Node × Node))
    (overrides : Overrides) : Prop :=
  ∃ (s : Setting) (value : Value) (mismatch : Mismatch),
    effective environment origin nodes overrides s = some value ∧ s.convert value = .error mismatch

section Loading
variable {tree : Files.Tree} {environment : Environment} {file : Option String} {overrides : Overrides}
  {origin : String} {nodes : List (Node × Node)}

theorem fileLayer_mapping {name : String} (holds : Holds tree (some name) origin nodes) :
    fileLayer tree name = ofMembers origin [] nodes := by
  cases holds with
  | mapping located text =>
      rw [fileLayer, located]
      simp only [bind, Except.bind]
      rw [ofContent, text]
      simp only [ofNode, bind, Except.bind]
      cases ofMembers (relativeName tree _) [] nodes with
      | ok made => rfl
      | error e => rfl

theorem gather_layers {middle : List (String × Value)} (holds : Holds tree file origin nodes)
    (said : ofMembers origin [] nodes = .ok middle) : gather tree environment file overrides =
      .ok (((Value.empty.lay environment.layer).lay middle).lay overrides.layer) := by
  cases holds with
  | nothing =>
      cases said
      rfl
  | mapping located text =>
      simp only [gather, fileLayer_mapping (.mapping located text), said]
      rfl

/-- The sources laid over one another give each setting what the highest of them gives it. -/
theorem gather_effective (proper : environment.Proper) (holds : Holds tree file origin nodes)
    (sections : IsSections nodes) (readable : ReadableMembers nodes) :
    ∃ value, gather tree environment file overrides = .ok value ∧ Sectioned value ∧
      ∀ s, fieldOf? value s = effective environment origin nodes overrides s := by
  obtain ⟨middle, said⟩ := (ofMembers_made origin [] nodes).mpr readable
  have bare : Sectioned Value.empty := ⟨⟨_, _, rfl⟩, nofun⟩
  obtain ⟨sectioned, lower⟩ := lay_layer bare (Environment.layer_entries proper)
  obtain ⟨sectioned, middling⟩ := lay_layer sectioned (sections_entries sections said)
  obtain ⟨sectioned, upper⟩ := lay_layer sectioned overrides.layer_entries
  refine ⟨_, gather_layers holds said, sectioned, ?_⟩
  intro s
  have nothing : fieldOf? Value.empty s = none := rfl
  rw [upper, middling, lower, Overrides.given_layer, given_sections sections said,
    Environment.given_layer proper, nothing, Option.or_none, effective]

section Gathered
variable {value : Value}

theorem load_gathered (gathered : gather tree environment file overrides = .ok value) :
    load tree environment file overrides = (ofValue value).mapError .field := by
  rw [load, gathered]
  rfl

theorem load_ok (gathered : gather tree environment file overrides = .ok value) (sectioned : Sectioned value)
    (settings : Settings) : load tree environment file overrides = .ok settings ↔
      ∀ s : Setting, s.Follows (s.of settings) (fieldOf? value s) := by
  rw [load_gathered gathered, mapError_ok, ofValue_ok sectioned]
  exact forall_congr' fun s => read_ok

theorem load_error (gathered : gather tree environment file overrides = .ok value)
    (sectioned : Sectioned value) {e : LoadError}
    (failed : load tree environment file overrides = .error e) :
    ∃ (s : Setting) (w : Value) (mismatch : Mismatch), fieldOf? value s = some w ∧
      s.convert w = .error mismatch ∧ e = .field ⟨mismatch, s.key⟩ := by
  rw [load_gathered gathered] at failed
  cases read : ofValue value with
  | ok settings =>
      rw [read] at failed
      cases failed
  | error e =>
      rw [read] at failed
      cases failed
      obtain ⟨s, unread⟩ := ofValue_error sectioned read
      obtain ⟨w, mismatch, found, converted, rfl⟩ := read_error unread
      exact ⟨s, w, mismatch, found, converted, rfl⟩

end Gathered

/-- Settings are loaded if the effective value of each converts, and are then these values or the defaults. -/
theorem load_layered (proper : environment.Proper) (holds : Holds tree file origin nodes)
    (sections : IsSections nodes) (readable : ReadableMembers nodes) :
    (∀ settings, load tree environment file overrides = .ok settings ↔
      ∀ s : Setting, s.Follows (s.of settings) (effective environment origin nodes overrides s)) ∧
    ((∃ e, load tree environment file overrides = .error e) ↔
      Unconverted environment origin nodes overrides) ∧
    ∀ e, load tree environment file overrides = .error e → e.context = "deserializing config" ∧
      ∃ (s : Setting) (value : Value) (mismatch : Mismatch),
        effective environment origin nodes overrides s = some value ∧ s.convert value = .error mismatch ∧
        e = .field ⟨mismatch, s.key⟩ := by
  obtain ⟨value, gathered, sectioned, same⟩ := gather_effective proper holds sections readable
  have taken := load_ok gathered sectioned
  have refused (e : LoadError) := load_error (e := e) gathered sectioned
  simp only [same] at taken refused
  refine ⟨taken, ⟨?_, ?_⟩, ?_⟩
  · rintro ⟨e, failed⟩
    obtain ⟨s, w, mismatch, found, converted, _⟩ := refused e failed
    exact ⟨s, w, mismatch, found, converted⟩
  · -- loaded settings would follow the value that does not convert
    rintro ⟨s, w, mismatch, found, converted⟩
    cases result : load tree environment file overrides with
    | error e => exact ⟨e, rfl⟩
    | ok settings =>
        have follows := (taken settings).mp result s
        rw [found, Setting.Follows, converted] at follows
        cases follows
  · intro e failed
    obtain ⟨s, w, mismatch, found, converted, rfl⟩ := refused e failed
    exact ⟨rfl, s, w, mismatch, found, converted, rfl⟩

theorem load_unreadable {name : String} (holds : Holds tree (some name) origin nodes)
    {e : FileError} (unreadable : ofMembers origin [] nodes = .error e) :
    load tree environment (some name) overrides = .error (.file e) := by
  simp only [load, gather, fileLayer_mapping holds, unreadable]
  rfl

end Loading

theorem load_layered_shadowed :
    load (holding "server:\n  port: high\n  read_timeout: 5s\n")
      [(Utf8.encodeString "App__Server__Port", Utf8.encodeString "none"),
        (Utf8.encodeString "HOME", Utf8.encodeString "/"),
        (Utf8.encodeString "APP__LOG__ENABLED", Utf8.encodeString "off")]
      (some "service.yaml") { Overrides.none with port := some 9000 } =
    .ok ⟨{ ServerSettings.default with port := 9000, readTimeout := .ofSeconds 5 }, .default,
      { LogSettings.default with enabled := false }⟩ := by
  have port : Environment.Names (Utf8.encodeString "App__Server__Port") .port := by decide
  have enabled : Environment.Names (Utf8.encodeString "APP__LOG__ENABLED") .enabled := by decide
  have home : Environment.keyOf? (Utf8.encodeString "HOME") = none := by decide
  have holds := holding_mapping (by decide) port_parsed
  apply ((load_layered ⟨?_, ?_⟩ holds ?_ ?_).1 _).mpr
  · intro s
    cases s <;> rfl
  · rw [List.forall_mem_cons, List.forall_mem_cons, List.forall_mem_singleton]
    exact ⟨.inr ⟨.port, port⟩, .inl home, .inr ⟨.enabled, enabled⟩⟩
  · rw [List.pairwise_cons, List.forall_mem_cons, List.forall_mem_singleton]
    refine ⟨⟨fun s _ => Environment.not_named home, ?_⟩, List.pairwise_pair.mpr ?_⟩
    · intro s named also
      rw [Environment.named_once named port] at also
      cases Environment.named_once also enabled
    · exact fun s named => absurd named (Environment.not_named home)
  · rw [IsSections, List.forall_mem_singleton]
    refine ⟨⟨"server", rfl, by decide⟩, fun s _ => ⟨_, rfl, ?_⟩⟩
    intro t _
    simp [IsSingle]
  · simp [ReadableMembers, Readable, keyOf?]

/-- What no setting is read from still fails as a whole: an infinity or a null key in the file. -/
theorem unread_refused :
    (Holds (holding "server:\n  port: .inf\n") (some "service.yaml") "service.yaml"
        [(.string "server", .mapping [(.string "port", .real ".inf")])] ∧
      IsSections [(.string "server", .mapping [(.string "port", .real ".inf")])] ∧
      ¬ Unconverted [] "service.yaml" [(.string "server", .mapping [(.string "port", .real ".inf")])]
        { Overrides.none with port := some 9000 } ∧
      load (holding "server:\n  port: .inf\n") [] (some "service.yaml")
        { Overrides.none with port := some 9000 } =
        .error (.file (.realUnreadable ".inf" "service.yaml"))) ∧
    (Holds (holding "other:\n  ~: 1\n") (some "service.yaml") "service.yaml"
        [(.string "other", .mapping [(.null, .integer 1)])] ∧
      IsSections [(.string "other", .mapping [(.null, .integer 1)])] ∧
      ¬ Unconverted [] "service.yaml" [(.string "other", .mapping [(.null, .integer 1)])] .none ∧
      load (holding "other:\n  ~: 1\n") [] (some "service.yaml") .none =
        .error (.file (.keyUnusable "Null" "service.yaml"))) ∧
    ∀ e, (LoadError.file e).context = "parsing config" := by
  have infinite := holding_mapping (by decide) infinite_parsed
  have keyless := holding_mapping (by decide) keyless_parsed
  refine ⟨⟨infinite, ?_, ?_, load_unreadable infinite rfl⟩, ⟨keyless, ?_, ?_, load_unreadable keyless rfl⟩,
    fun _ => rfl⟩
  · rw [IsSections, List.forall_mem_singleton]
    refine ⟨⟨"server", rfl, by decide⟩, fun s _ => ⟨_, rfl, ?_⟩⟩
    intro t _
    simp [IsSingle]
  · rintro ⟨s, value, mismatch, given, failed⟩
    cases s <;> cases given
    cases failed
  · rw [IsSections, List.forall_mem_singleton]
    have foreign (s : Setting) : "other" ≠ s.shape.name := by cases s <;> decide
    exact ⟨⟨"other", rfl, by decide⟩, fun s named => absurd (Option.some.inj named) (foreign s)⟩
  · rintro ⟨s, value, mismatch, given, failed⟩
    cases s <;> cases given

end Settings

end AttestationService

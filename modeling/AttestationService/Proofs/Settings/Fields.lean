import AttestationService.Proofs.Except
import AttestationService.Settings.Load

/-!
The single settings: where each stands among values in tables, how it is converted and what it is without a
value. What is read from tables of sections is each setting from its own place, and a failure is that of a
value that does not convert.
-/

namespace AttestationService.Settings

inductive Setting where
  | port | socketPath | readTimeout | writeTimeout | root | successMarker | elevate | enabled | path
  deriving DecidableEq, Repr

namespace Setting

def shape : Setting → Section
  | .port | .socketPath | .readTimeout | .writeTimeout => ServerSettings.shape
  | .root | .successMarker | .elevate => VerifierSettings.shape
  | .enabled | .path => LogSettings.shape

def field : Setting → String
  | .port => "port"
  | .socketPath => "socket_path"
  | .readTimeout => "read_timeout"
  | .writeTimeout => "write_timeout"
  | .root => "root"
  | .successMarker => "success_marker"
  | .elevate => "elevate"
  | .enabled => "enabled"
  | .path => "path"

def key (s : Setting) : String := s!"{s.shape.name}.{s.field}"

def Kind : Setting → Type
  | .port => UInt16
  | .socketPath | .root | .successMarker | .path => String
  | .readTimeout | .writeTimeout => Duration
  | .elevate | .enabled => Bool

def convert : (s : Setting) → Value → Except Mismatch s.Kind
  | .port => Value.toPort
  | .socketPath | .root | .successMarker | .path => Value.toText
  | .readTimeout | .writeTimeout => Value.toDuration
  | .elevate | .enabled => Value.toFlag

def of : (s : Setting) → Settings → s.Kind
  | .port, settings => settings.server.port
  | .socketPath, settings => settings.server.socketPath
  | .readTimeout, settings => settings.server.readTimeout
  | .writeTimeout, settings => settings.server.writeTimeout
  | .root, settings => settings.verifier.root
  | .successMarker, settings => settings.verifier.successMarker
  | .elevate, settings => settings.verifier.elevate
  | .enabled, settings => settings.log.enabled
  | .path, settings => settings.log.path

def default (s : Setting) : s.Kind := s.of ⟨.default, .default, .default⟩

/-- What the setting is if it is given a value or none. -/
def Follows (s : Setting) (a : s.Kind) : Option Value → Prop
  | none => a = s.default
  | some value => s.convert value = .ok a

theorem field_known (s : Setting) : s.field ∈ s.shape.fields := by
  cases s <;> decide

end Setting

def fieldOf? (v : Value) (s : Setting) : Option Value :=
  (Value.member s.shape.name v.membersOf.2).membersOf.2.lookup s.field

/-- A table in which every section that is given is a table itself. -/
def Sectioned (v : Value) : Prop :=
  (∃ origin members, v = .table origin members) ∧ ∀ s : Setting, ∀ w,
    v.membersOf.2.lookup s.shape.name = some w → ∃ origin fields, w = .table origin fields

def read (v : Value) (s : Setting) : Except FieldError s.Kind :=
  match fieldOf? v s with
  | none => .ok s.default
  | some value => (s.convert value).mapError (⟨·, s.key⟩)

section Given
variable {α : Type} {name : String}

theorem given_find (names : List String) (key : String → String) (fields : List (String × Value)) :
    (names.filterMap fun f => (fields.lookup f).map fun v => (⟨f, key f, v⟩ : Given)).find?
      (·.field == name) =
      if name ∈ names then (fields.lookup name).map fun v => ⟨name, key name, v⟩ else none := by
  induction names with
  | nil => rfl
  | cons first names ih =>
      by_cases here : first = name
      · subst here
        cases found : fields.lookup first with
        | none => simp [found, ih]
        | some v => simp [found]
      · have other : name ∈ first :: names ↔ name ∈ names := by simp [Ne.symm here]
        cases found : fields.lookup first with
        | none => simp [found, ih, other]
        | some v => simp [found, ih, other, here]

theorem field_given {shape : Section} (known : name ∈ shape.fields) (fields : List (String × Value))
    (convert : Value → Except Mismatch α) (default : α) :
    field (shape.fields.filterMap fun f =>
        (fields.lookup f).map fun v => ⟨f, s!"{shape.name}.{f}", v⟩) name convert default =
      match fields.lookup name with
      | none => .ok default
      | some v => (convert v).mapError (⟨·, s!"{shape.name}.{name}"⟩) := by
  unfold field
  rw [given_find shape.fields (fun f => s!"{shape.name}.{f}") fields, if_pos known]
  cases fields.lookup name with
  | none => rfl
  | some v => rfl

end Given

section Sections
variable {v : Value} {origin : Option String} {members fields : List (String × Value)}

theorem read_missing (s : Setting) (missing : members.lookup s.shape.name = none) :
    read (.table origin members) s = .ok s.default := by
  rw [read, fieldOf?, Value.member, Value.membersOf, missing]
  rfl

theorem read_given (s : Setting) {place : Option String}
    (found : members.lookup s.shape.name = some (.table place fields)) :
    read (.table origin members) s = field (s.shape.fields.filterMap fun f =>
      (fields.lookup f).map fun v => ⟨f, s!"{s.shape.name}.{f}", v⟩) s.field s.convert s.default := by
  rw [field_given s.field_known, read, fieldOf?, Value.member, Value.membersOf, found]
  rfl

theorem server_read (sectioned : Sectioned v) :
    sectionOf v ServerSettings.shape.name ServerSettings.ofValue .default = (do
      let port ← read v .port
      let socketPath ← read v .socketPath
      let readTimeout ← read v .readTimeout
      let writeTimeout ← read v .writeTimeout
      pure ⟨port, socketPath, readTimeout, writeTimeout⟩) := by
  obtain ⟨⟨origin, members, rfl⟩, tables⟩ := sectioned
  unfold sectionOf
  simp only
  cases found : members.lookup ServerSettings.shape.name with
  | none =>
      rw [read_missing .port found, read_missing .socketPath found, read_missing .readTimeout found,
        read_missing .writeTimeout found]
      rfl
  | some w =>
      obtain ⟨_, fields, rfl⟩ := tables .port w found
      rw [read_given .port found, read_given .socketPath found, read_given .readTimeout found,
        read_given .writeTimeout found]
      rfl

theorem verifier_read (sectioned : Sectioned v) :
    sectionOf v VerifierSettings.shape.name VerifierSettings.ofValue .default = (do
      let root ← read v .root
      let successMarker ← read v .successMarker
      let elevate ← read v .elevate
      pure ⟨root, successMarker, elevate⟩) := by
  obtain ⟨⟨origin, members, rfl⟩, tables⟩ := sectioned
  unfold sectionOf
  simp only
  cases found : members.lookup VerifierSettings.shape.name with
  | none =>
      rw [read_missing .root found, read_missing .successMarker found, read_missing .elevate found]
      rfl
  | some w =>
      obtain ⟨_, fields, rfl⟩ := tables .root w found
      rw [read_given .root found, read_given .successMarker found, read_given .elevate found]
      rfl

theorem log_read (sectioned : Sectioned v) :
    sectionOf v LogSettings.shape.name LogSettings.ofValue .default = (do
      let enabled ← read v .enabled
      let path ← read v .path
      pure ⟨enabled, path⟩) := by
  obtain ⟨⟨origin, members, rfl⟩, tables⟩ := sectioned
  unfold sectionOf
  simp only
  cases found : members.lookup LogSettings.shape.name with
  | none =>
      rw [read_missing .enabled found, read_missing .path found]
      rfl
  | some w =>
      obtain ⟨_, fields, rfl⟩ := tables .enabled w found
      rw [read_given .enabled found, read_given .path found]
      rfl

end Sections

section Reading
variable {v : Value}

theorem ofValue_ok (sectioned : Sectioned v) (settings : Settings) :
    ofValue v = .ok settings ↔ ∀ s : Setting, read v s = .ok (s.of settings) := by
  unfold ofValue
  rw [server_read sectioned, verifier_read sectioned, log_read sectioned]
  constructor
  · intro made
    simp only [bind_eq_ok] at made
    obtain ⟨_, ⟨_, port, _, socketPath, _, readTimeout, _, writeTimeout, server⟩,
      _, ⟨_, root, _, successMarker, _, elevate, verifier⟩, _, ⟨_, enabled, _, path, log⟩, whole⟩ := made
    cases server
    cases verifier
    cases log
    cases whole
    intro s
    cases s with
    | port => exact port
    | socketPath => exact socketPath
    | readTimeout => exact readTimeout
    | writeTimeout => exact writeTimeout
    | root => exact root
    | successMarker => exact successMarker
    | elevate => exact elevate
    | enabled => exact enabled
    | path => exact path
  · intro each
    rw [each .port, each .socketPath, each .readTimeout, each .writeTimeout, each .root, each .successMarker,
      each .elevate, each .enabled, each .path]
    rfl

theorem ofValue_error (sectioned : Sectioned v) {e : FieldError} (failed : ofValue v = .error e) :
    ∃ s : Setting, read v s = .error e := by
  unfold ofValue at failed
  rw [server_read sectioned, verifier_read sectioned, log_read sectioned] at failed
  simp only [bind_eq_error] at failed
  rcases failed with (port | ⟨_, _, socketPath | ⟨_, _, readTimeout | ⟨_, _, writeTimeout | ⟨_, _, none⟩⟩⟩⟩) |
    ⟨_, _, (root | ⟨_, _, successMarker | ⟨_, _, elevate | ⟨_, _, none⟩⟩⟩) |
      ⟨_, _, (enabled | ⟨_, _, path | ⟨_, _, none⟩⟩) | ⟨_, _, none⟩⟩⟩
  · exact ⟨.port, port⟩
  · exact ⟨.socketPath, socketPath⟩
  · exact ⟨.readTimeout, readTimeout⟩
  · exact ⟨.writeTimeout, writeTimeout⟩
  · cases none
  · exact ⟨.root, root⟩
  · exact ⟨.successMarker, successMarker⟩
  · exact ⟨.elevate, elevate⟩
  · cases none
  · exact ⟨.enabled, enabled⟩
  · exact ⟨.path, path⟩
  · cases none
  · cases none

theorem read_error {s : Setting} {e : FieldError} (failed : read v s = .error e) :
    ∃ value mismatch, fieldOf? v s = some value ∧ s.convert value = .error mismatch ∧
      e = ⟨mismatch, s.key⟩ := by
  unfold read at failed
  cases found : fieldOf? v s with
  | none =>
      rw [found] at failed
      cases failed
  | some value =>
      rw [found] at failed
      cases converted : s.convert value with
      | ok a =>
          simp only [converted] at failed
          cases failed
      | error mismatch =>
          simp only [converted] at failed
          cases failed
          exact ⟨value, mismatch, rfl, converted, rfl⟩

theorem read_ok {s : Setting} {a : s.Kind} : read v s = .ok a ↔ s.Follows a (fieldOf? v s) := by
  unfold read
  cases fieldOf? v s with
  | none => exact ⟨fun same => (Except.ok.inj same).symm, fun same => congrArg Except.ok same.symm⟩
  | some value => exact mapError_ok

end Reading

end AttestationService.Settings

import AttestationService.Proofs.Settings.Layers

/-!
What the sources of settings give: the overrides, variables of the environment that name a setting
in any letter case, and a file with a table for each section. Each source is a layer that gives a
setting just that.
-/

namespace AttestationService.Settings

theorem given_append (s : Setting) (found : Option Value) (layer more : List (String × Value)) :
    given s found (layer ++ more) = given s (given s found layer) more :=
  List.foldl_append

namespace Overrides

def value? (o : Overrides) : Setting → Option Value
  | .port => o.port.map fun p => .scalar .none (.integer p.toNat)
  | .socketPath => o.socketPath.map fun s => .scalar .none (.text s)
  | .root => o.verifierRoot.map fun s => .scalar .none (.text s)
  | .successMarker => o.successMarker.map fun s => .scalar .none (.text s)
  | .path => o.logPath.map fun s => .scalar .none (.text s)
  | _ => .none

theorem given_option {α : Type} (s t : Setting) (found : Option Value) (x : Option α) (w : α → Value) :
    given s found (x.map fun a => (t.key, w a)).toList = if t = s then (x.map w).or found else found := by
  cases x with
  | none => simp [given]
  | some a =>
      rw [Option.map_some, Option.toList_some, given, List.foldl_cons, List.foldl_nil, gives_setting]
      split
      · rfl
      · rfl

theorem layer_eq (o : Overrides) : o.layer =
    (o.logPath.map fun s => (Setting.path.key, Value.scalar .none (.text s))).toList
      ++ (o.port.map fun p => (Setting.port.key, Value.scalar .none (.integer p.toNat))).toList
      ++ (o.socketPath.map fun s => (Setting.socketPath.key, Value.scalar .none (.text s))).toList
      ++ (o.verifierRoot.map fun s => (Setting.root.key, Value.scalar .none (.text s))).toList
      ++ (o.successMarker.map fun s => (Setting.successMarker.key,
        Value.scalar .none (.text s))).toList := rfl

theorem layer_entries (o : Overrides) : ∀ entry ∈ o.layer, IsEntry entry := by
  have option {α : Type} (t : Setting) (x : Option α) (w : α → Scalar) :
      ∀ entry ∈ (x.map fun a => (t.key, Value.scalar .none (w a))).toList, IsEntry entry := by
    cases x with
    | none => simp
    | some a => simpa using IsEntry.setting t .none (w a)
  rw [layer_eq]
  simp only [List.forall_mem_append]
  exact ⟨⟨⟨⟨option .path _ _, option .port _ _⟩, option .socketPath _ _⟩, option .root _ _⟩,
    option .successMarker _ _⟩

theorem given_layer (o : Overrides) (s : Setting) (found : Option Value) :
    given s found o.layer = (o.value? s).or found := by
  rw [layer_eq]
  simp only [given_append, given_option]
  cases s with
  | port => rfl
  | socketPath => rfl
  | readTimeout => rfl
  | writeTimeout => rfl
  | root => rfl
  | successMarker => rfl
  | elevate => rfl
  | enabled => rfl
  | path => rfl

end Overrides

namespace Environment

def variableName (s : Setting) : List Char := s!"app__{s.shape.name}__{s.field}".toList

/-- A variable is for a setting if its name is, in whatever letter case. -/
def Names (name : List UInt8) (s : Setting) : Prop :=
  (Utf8.decode? name).map Text.lower = some (variableName s)

instance (name : List UInt8) (s : Setting) : Decidable (Names name s) :=
  inferInstanceAs (Decidable (_ = _))

def value? (environment : Environment) (s : Setting) : Option Value :=
  environment.findSome? fun (name, octets) => if Names name s then
    some (.scalar (some originName) (.text (Utf8.lossyString octets))) else none

/-- All variables with the prefix are for settings, no two for one setting. -/
structure Proper (environment : Environment) : Prop where
  known : ∀ entry ∈ environment, keyOf? entry.1 = none ∨ ∃ s, Names entry.1 s
  single : environment.Pairwise fun a b => ∀ s, Names a.1 s → ¬ Names b.1 s

section Variables
variable {name octets : List UInt8} {environment : Environment} {s t : Setting}

theorem keyOf_named (names : Names name s) : keyOf? name = some s.key.toList := by
  obtain ⟨text, decoded, small⟩ := Option.map_eq_some_iff.mp names
  have marked : marker.isPrefixOf (variableName s) = true := by cases s <;> decide
  have replaced : Text.replace separator ['.'] ((variableName s).drop marker.length) = s.key.toList := by
    cases s <;> decide
  rw [keyOf?, decoded]
  simp only
  rw [small, if_pos marked, replaced]

theorem named_once (names : Names name s) (also : Names name t) : s = t := by
  have same : some s.key.toList = some t.key.toList := (keyOf_named names).symm.trans (keyOf_named also)
  exact Setting.key_injective (String.toList_injective (Option.some.inj same))

theorem not_named (missing : keyOf? name = none) : ¬ Names name s := by
  intro names
  rw [keyOf_named names] at missing
  cases missing

theorem value_skip (other : ¬ Names name s) :
    value? ((name, octets) :: environment) s = value? environment s := by
  simp only [value?, List.findSome?_cons, if_neg other]

theorem value_found (names : Names name s) : value? ((name, octets) :: environment) s =
    some (.scalar (some originName) (.text (Utf8.lossyString octets))) := by
  simp only [value?, List.findSome?_cons, if_pos names]

theorem value_none (unnamed : ∀ entry ∈ environment, ¬ Names entry.1 s) : value? environment s = none := by
  rw [value?, List.findSome?_eq_none_iff]
  intro entry member
  exact if_neg (unnamed entry member)

theorem entry_none (missing : keyOf? name = none) : entryOf? (name, octets) = none := by
  rw [entryOf?, missing]
  rfl

theorem entry_setting (names : Names name s) :
    entryOf? (name, octets) = some (s.key, .scalar (some originName) (.text (Utf8.lossyString octets))) := by
  rw [entryOf?, keyOf_named names, Option.map_some, String.ofList_toList]

theorem layer_entries (proper : environment.Proper) : ∀ entry ∈ layer environment, IsEntry entry := by
  intro entry member
  obtain ⟨⟨name, octets⟩, known, made⟩ := List.mem_filterMap.mp member
  rcases proper.known _ known with missing | ⟨s, names⟩
  · rw [entry_none missing] at made
    cases made
  · rw [entry_setting names] at made
    cases made
    exact .setting s _ _

theorem given_layer (proper : environment.Proper) (s : Setting) (found : Option Value) :
    given s found environment.layer = (environment.value? s).or found := by
  obtain ⟨known, single⟩ := proper
  induction environment generalizing found with
  | nil => rfl
  | cons entry environment ih =>
      obtain ⟨name, octets⟩ := entry
      obtain ⟨first, others⟩ := List.forall_mem_cons.mp known
      obtain ⟨alone, apart⟩ := List.pairwise_cons.mp single
      rcases first with missing | ⟨t, names⟩
      · rw [layer, List.filterMap_cons_none (entry_none missing), value_skip (not_named missing)]
        exact ih found others apart
      · rw [layer, List.filterMap_cons_some (entry_setting names)]
        refine (ih _ others apart).trans ?_
        simp only [gives_setting]
        by_cases here : t = s
        · -- no later variable is for this setting, so the entry stands
          subst here
          rw [value_found names, value_none fun entry member => alone entry member t names, if_pos rfl]
          rfl
        · rw [value_skip fun also => here (named_once names also), if_neg here]
          rfl

end Variables

end Environment

end AttestationService.Settings

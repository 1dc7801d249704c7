import AttestationService.Proofs.Settings.Fields
import Mathlib.Data.List.Nodup

/-!
Layers of settings. An entry of a layer is laid over what one setting or one section has, and over
nothing else, so after any layers each setting has the value of the last entry that gives it one.
-/

namespace AttestationService.Settings

namespace Value

section Members
variable {key : String} {value : Value} {members : List (String × Value)}

theorem lookup_next (k key : String) (value : Value) (members : List (String × Value)) :
    ((key, value) :: members).lookup k = if k = key then some value else members.lookup k := by
  rw [List.lookup_cons]
  by_cases same : k = key
  · rw [if_pos same, beq_iff_eq.mpr same]
  · rw [if_neg same, beq_eq_false_iff_ne.mpr same]

theorem lookup_absent (absent : key ∉ members.map Prod.fst) : members.lookup key = none := by
  rw [List.lookup_eq_none_iff]
  intro m member
  rw [bne_iff_ne]
  rintro rfl
  exact absent (List.mem_map.mpr ⟨m, member, rfl⟩)

theorem lookup_mem {m : String × Value} (distinct : (members.map Prod.fst).Nodup) (member : m ∈ members) :
    members.lookup m.1 = some m.2 := by
  induction members with
  | nil => cases member
  | cons first members ih =>
      rw [List.map_cons, List.nodup_cons] at distinct
      obtain ⟨key, value⟩ := first
      rw [lookup_next]
      rcases List.mem_cons.mp member with rfl | later
      · exact if_pos rfl
      · have other : m.1 ≠ key := by
          rintro rfl
          exact distinct.1 (List.mem_map.mpr ⟨m, later, rfl⟩)
        rw [if_neg other]
        exact ih distinct.2 later

theorem putMember_lookup (k key : String) (value : Value) (members : List (String × Value)) :
    (putMember key value members).lookup k = if k = key then some value else members.lookup k := by
  induction members with
  | nil => exact lookup_next k key value []
  | cons m members ih =>
      rw [putMember]
      by_cases here : m.1 = key
      · rw [if_pos here, here, lookup_next, lookup_next]
        by_cases same : k = key
        · rw [if_pos same, if_pos same]
        · rw [if_neg same, if_neg same, if_neg (here ▸ same)]
      · rw [if_neg here, lookup_next, lookup_next, ih]
        by_cases same : k = m.1
        · rw [if_pos same, if_neg (same ▸ here), if_pos same]
        · rw [if_neg same, if_neg same]

theorem putMember_keys (key : String) (value : Value) (members : List (String × Value)) :
    (putMember key value members).map Prod.fst =
      if key ∈ members.map Prod.fst then members.map Prod.fst else members.map Prod.fst ++ [key] := by
  induction members with
  | nil => rfl
  | cons m members ih =>
      rw [putMember]
      by_cases here : m.1 = key
      · simp [here]
      · rw [if_neg here, List.map_cons, ih, List.map_cons]
        by_cases later : key ∈ members.map Prod.fst
        · rw [if_pos later, if_pos (List.mem_cons_of_mem _ later)]
        · have absent : key ∉ m.1 :: members.map Prod.fst := by
            rw [List.mem_cons, not_or]
            exact ⟨Ne.symm here, later⟩
          rw [if_neg later, if_neg absent]
          rfl

theorem putMember_nodup (distinct : (members.map Prod.fst).Nodup) :
    ((putMember key value members).map Prod.fst).Nodup := by
  rw [putMember_keys]
  split
  · exact distinct
  · rename_i fresh
    exact List.Nodup.append distinct (List.nodup_singleton key) (by simpa using fresh)

theorem member_putMember (k key : String) (value : Value) (members : List (String × Value)) :
    member k (putMember key value members) = if k = key then value else member k members := by
  rw [member, putMember_lookup]
  split
  · rfl
  · rfl

theorem ontoMembers_lookup {k : String} {new : List (String × Value)} (old : List (String × Value))
    (distinct : (new.map Prod.fst).Nodup)
    (single : ∀ m ∈ new, m.1 = k → ∃ origin x, m.2 = .scalar origin x) :
    (ontoMembers new old).lookup k = (new.lookup k).or (old.lookup k) := by
  induction new generalizing old with
  | nil => rfl
  | cons m new ih =>
      obtain ⟨key, value⟩ := m
      rw [List.map_cons, List.nodup_cons] at distinct
      obtain ⟨first, others⟩ := List.forall_mem_cons.mp single
      rw [ontoMembers, ih _ distinct.2 others, putMember_lookup, lookup_next]
      by_cases here : k = key
      · subst here
        obtain ⟨origin, x, single⟩ := first rfl
        have fresh : new.lookup k = none := lookup_absent distinct.1
        rw [fresh, if_pos rfl, if_pos rfl]
        simp only at single
        rw [single]
        rfl
      · rw [if_neg here, if_neg here]

end Members

theorem onto_members (origin : Option String) (fields : List (String × Value)) (old : Value) :
    ((Value.table origin fields).onto old).membersOf.2 = ontoMembers fields old.membersOf.2 := by
  cases old with
  | scalar place x => rfl
  | list place items => rfl
  | table place members => rfl

theorem onto_table (origin : Option String) (fields : List (String × Value)) (old : Value) :
    ∃ place members, (Value.table origin fields).onto old = .table place members := by
  cases old with
  | scalar place x => exact ⟨_, _, rfl⟩
  | list place items => exact ⟨_, _, rfl⟩
  | table place members => exact ⟨_, _, rfl⟩

end Value

section Places
variable {v value : Value} {root : String} {steps : List Step}

theorem put_members (root : String) (steps : List Step) (value v : Value) :
    (Value.put ⟨root, steps⟩ value v).membersOf.2 = Value.putMember root
      (Value.layAt value steps (Value.member root v.membersOf.2)) v.membersOf.2 := rfl

theorem fieldOf_put (root : String) (steps : List Step) (value v : Value) (s : Setting) :
    fieldOf? (Value.put ⟨root, steps⟩ value v) s = if s.shape.name = root then
      (Value.layAt value steps (Value.member root v.membersOf.2)).membersOf.2.lookup s.field
    else fieldOf? v s := by
  rw [fieldOf?, put_members, Value.member_putMember]
  split
  · rfl
  · rfl

theorem sectioned_put (sectioned : Sectioned v)
    (table : (∃ s : Setting, s.shape.name = root) →
      ∃ origin fields, Value.layAt value steps (Value.member root v.membersOf.2) = .table origin fields) :
    Sectioned (Value.put ⟨root, steps⟩ value v) := by
  refine ⟨⟨_, _, rfl⟩, ?_⟩
  intro s w found
  rw [put_members, Value.putMember_lookup] at found
  split at found
  · rename_i here
    cases found
    exact table ⟨s, here⟩
  · exact sectioned.2 s w found

end Places

namespace Setting

theorem path_key (s : Setting) : KeyPath.ofText s.key = ⟨s.shape.name, [.member s.field]⟩ := by
  cases s <;> decide

theorem path_section (s : Setting) : KeyPath.ofText s.shape.name = ⟨s.shape.name, []⟩ := by
  cases s <;> decide

theorem field_injective {s t : Setting} (same : s.field = t.field) : s = t := by
  cases s <;> cases t <;> first | rfl | exact absurd same (by decide)

theorem key_injective {s t : Setting} (same : s.key = t.key) : s = t := by
  have paths := congrArg KeyPath.ofText same
  rw [path_key, path_key] at paths
  injection paths with _ steps
  injection steps with step
  injection step with field
  exact field_injective field

theorem key_ne {key : String} (plain : KeyPath.ofText key = ⟨key, []⟩) (s : Setting) : key ≠ s.key := by
  rintro rfl
  rw [path_key] at plain
  injection plain with _ steps
  cases steps

end Setting

/-- What a layer may hold: a single value for a setting, a table for a section, in which settings have single
values, and anything under a key of one step that is no section. -/
inductive IsEntry : String × Value → Prop
  | setting (s : Setting) (origin : Option String) (x : Scalar) : IsEntry (s.key, .scalar origin x)
  | table (s : Setting) (origin : Option String) (fields : List (String × Value))
      (distinct : (fields.map Prod.fst).Nodup)
      (single : ∀ t : Setting, t.shape.name = s.shape.name → ∀ m ∈ fields, m.1 = t.field →
        ∃ origin x, m.2 = .scalar origin x) : IsEntry (s.shape.name, .table origin fields)
  | other (key : String) (value : Value) (plain : KeyPath.ofText key = ⟨key, []⟩)
      (foreign : ∀ s : Setting, key ≠ s.shape.name) : IsEntry (key, value)

def gives (entry : String × Value) (s : Setting) : Option Value :=
  if entry.1 = s.key then some entry.2
  else if entry.1 = s.shape.name then entry.2.membersOf.2.lookup s.field
  else none

def given (s : Setting) (found : Option Value) (layer : List (String × Value)) : Option Value :=
  layer.foldl (fun found entry => (gives entry s).or found) found

section Laying
variable {entry : String × Value} {v : Value}

theorem gives_setting (s t : Setting) (value : Value) :
    gives (t.key, value) s = if t = s then some value else none := by
  rw [gives]
  by_cases here : t = s
  · rw [if_pos (congrArg Setting.key here), if_pos here]
  · rw [if_neg fun same => here (Setting.key_injective same), if_neg (Setting.key_ne s.path_section t).symm,
      if_neg here]

theorem gives_plain {key : String} (plain : KeyPath.ofText key = ⟨key, []⟩) (s : Setting) (value : Value) :
    gives (key, value) s = if s.shape.name = key then value.membersOf.2.lookup s.field else none := by
  rw [gives, if_neg (Setting.key_ne plain s)]
  by_cases here : key = s.shape.name
  · rw [if_pos here, if_pos here.symm]
  · rw [if_neg here, if_neg (Ne.symm here)]

theorem lay_setting (t s : Setting) (origin : Option String) (x : Scalar) (v : Value) :
    fieldOf? (Value.put ⟨t.shape.name, [.member t.field]⟩ (.scalar origin x) v) s =
      if t = s then some (.scalar origin x) else fieldOf? v s := by
  have put (w : Value) : (Value.layAt (.scalar origin x) [.member t.field] w).membersOf.2.lookup s.field =
      if s.field = t.field then some (.scalar origin x) else w.membersOf.2.lookup s.field :=
    Value.putMember_lookup _ _ _ _
  rw [fieldOf_put, put]
  by_cases here : t = s
  · subst here
    rw [if_pos rfl, if_pos rfl, if_pos rfl]
  · -- no two settings have one name, not even in two sections
    have field : s.field ≠ t.field := fun same => here (Setting.field_injective same.symm)
    rw [if_neg field, if_neg here]
    split
    · rename_i shared
      rw [← shared]
      rfl
    · rfl

theorem lay_table (t s : Setting) (origin : Option String) {fields : List (String × Value)} (v : Value)
    (distinct : (fields.map Prod.fst).Nodup)
    (single : s.shape.name = t.shape.name → ∀ m ∈ fields, m.1 = s.field →
      ∃ origin x, m.2 = .scalar origin x) :
    fieldOf? (Value.put ⟨t.shape.name, []⟩ (.table origin fields) v) s =
      (if s.shape.name = t.shape.name then fields.lookup s.field else none).or (fieldOf? v s) := by
  rw [fieldOf_put]
  by_cases here : s.shape.name = t.shape.name
  · have laid := Value.ontoMembers_lookup (Value.member t.shape.name v.membersOf.2).membersOf.2
      distinct (single here)
    rw [if_pos here, if_pos here, Value.layAt, Value.onto_members, laid, fieldOf?, here]
  · rw [if_neg here, if_neg here]
    rfl

theorem lay_entry (sectioned : Sectioned v) (isEntry : IsEntry entry) :
    Sectioned (Value.put (.ofText entry.1) entry.2 v) ∧
      ∀ s, fieldOf? (Value.put (.ofText entry.1) entry.2 v) s = (gives entry s).or (fieldOf? v s) := by
  cases isEntry with
  | setting t origin x =>
      rw [t.path_key]
      constructor
      · exact sectioned_put sectioned fun _ => ⟨_, _, rfl⟩
      · intro s
        rw [lay_setting, gives_setting]
        split
        · rfl
        · rfl
  | table t origin fields distinct single =>
      constructor
      · rw [t.path_section]
        exact sectioned_put sectioned fun _ => Value.onto_table _ _ _
      · intro s
        rw [gives_plain t.path_section, t.path_section]
        exact lay_table t s origin v distinct (single s)
  | other key value plain foreign =>
      constructor
      · rw [plain]
        apply sectioned_put sectioned
        rintro ⟨s, same⟩
        exact absurd same.symm (foreign s)
      · intro s
        rw [gives_plain plain, plain, fieldOf_put, if_neg (foreign s).symm, if_neg (foreign s).symm]
        rfl

/-- After a layer each setting has the value of the last entry that gives it one, or the one it had. -/
theorem lay_layer {layer : List (String × Value)} (sectioned : Sectioned v)
    (entries : ∀ entry ∈ layer, IsEntry entry) : Sectioned (Value.lay layer v) ∧
      ∀ s, fieldOf? (Value.lay layer v) s = given s (fieldOf? v s) layer := by
  induction layer generalizing v with
  | nil => exact ⟨sectioned, fun _ => rfl⟩
  | cons entry layer ih =>
      obtain ⟨first, others⟩ := List.forall_mem_cons.mp entries
      obtain ⟨sectioned, found⟩ := lay_entry sectioned first
      obtain ⟨sectioned, later⟩ := ih sectioned others
      refine ⟨sectioned, ?_⟩
      intro s
      rw [given, List.foldl_cons, ← found s]
      exact later s

end Laying

end AttestationService.Settings

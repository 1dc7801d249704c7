import AttestationService.Proofs.Settings.Layers
import Mathlib.Data.List.TakeWhile

/-!
The mappings of a file. A node says something unless a real below it has no digits or a key below it
is none for a table; what a mapping says of a key is what its last member under that key says. A
mapping of sections is a layer.
-/

namespace AttestationService.Settings

open Yaml (Node)

mutual

/-- Every real is written in digits, and every key of a mapping is one for a table. -/
def Readable : Node → Prop
  | .real spelling => (Decimal.ofText? spelling.toList).isSome
  | .sequence items => ReadableItems items
  | .mapping members => ReadableMembers members
  | .null | .bool _ | .integer _ | .string _ | .unusable => True

def ReadableItems : List Node → Prop
  | [] => True
  | node :: rest => Readable node ∧ ReadableItems rest

def ReadableMembers : List (Node × Node) → Prop
  | [] => True
  | (key, node) :: rest => (keyOf? key).isSome ∧ Readable node ∧ ReadableMembers rest

end

mutual

theorem ofNode_made (file : String) (node : Node) :
    (∃ value, ofNode file node = .ok value) ↔ Readable node := by
  cases node with
  | null => simp [ofNode, Readable]
  | unusable => simp [ofNode, Readable]
  | bool b => simp [ofNode, Readable]
  | integer n => simp [ofNode, Readable]
  | string s => simp [ofNode, Readable]
  | real spelling =>
      rw [ofNode, Readable]
      cases Decimal.ofText? spelling.toList with
      | none => simp
      | some numeral => simp
  | sequence items =>
      rw [ofNode, Readable, map_made]
      exact ofItems_made file items
  | mapping members =>
      rw [ofNode, Readable, map_made]
      exact ofMembers_made file [] members

theorem ofItems_made (file : String) (items : List Node) :
    (∃ values, ofItems file items = .ok values) ↔ ReadableItems items := by
  cases items with
  | nil => simp [ofItems, ReadableItems]
  | cons node rest =>
      rw [ofItems, ReadableItems, bind_made, ← ofNode_made file node, ← ofItems_made file rest]
      simp only [bind_made]
      constructor
      · rintro ⟨value, made, values, others, _⟩
        exact ⟨⟨value, made⟩, values, others⟩
      · rintro ⟨⟨value, made⟩, values, others⟩
        exact ⟨value, made, values, others, _, rfl⟩

theorem ofMembers_made (file : String) (done : List (String × Value)) (members : List (Node × Node)) :
    (∃ made, ofMembers file done members = .ok made) ↔ ReadableMembers members := by
  cases members with
  | nil => simp [ofMembers, ReadableMembers]
  | cons member rest =>
      obtain ⟨key, node⟩ := member
      rw [ofMembers, ReadableMembers, ← ofNode_made file node]
      cases keyOf? key with
      | none => simp
      | some key =>
          simp only [bind_made, ofMembers_made file _ rest]
          simp

end

def lastNode? (key : String) : List (Node × Node) → Option Node
  | [] => none
  | member :: rest => (lastNode? key rest).or (if keyOf? member.1 = some key then some member.2 else none)

section Members
variable {file key : String} {done made : List (String × Value)} {members : List (Node × Node)}

theorem lastNode_mem {node : Node} (last : lastNode? key members = some node) :
    ∃ member ∈ members, keyOf? member.1 = some key ∧ member.2 = node := by
  induction members with
  | nil => cases last
  | cons member members ih =>
      rw [lastNode?, Option.or_eq_some_iff] at last
      rcases last with later | ⟨_, here⟩
      · obtain ⟨found, among, same⟩ := ih later
        exact ⟨found, List.mem_cons_of_mem _ among, same⟩
      · obtain ⟨named, same⟩ := Option.ite_none_right_eq_some.mp here
        exact ⟨member, List.mem_cons_self, named, Option.some.inj same⟩

theorem ofMembers_cons {member : Node × Node} (said : ofMembers file done (member :: members) = .ok made) :
    ∃ key value, keyOf? member.1 = some key ∧ ofNode file member.2 = .ok value ∧
      ofMembers file (Value.putMember key value done) members = .ok made := by
  obtain ⟨node, other⟩ := member
  rw [ofMembers] at said
  cases named : keyOf? node with
  | none =>
      simp only [named] at said
      cases said
  | some key =>
      simp only [named] at said
      obtain ⟨value, first, others⟩ := bind_eq_ok.mp said
      exact ⟨key, value, rfl, first, others⟩

theorem ofMembers_each (said : ofMembers file done members = .ok made) :
    ∀ member ∈ members, ∃ value, ofNode file member.2 = .ok value := by
  induction members generalizing done with
  | nil => nofun
  | cons member members ih =>
      obtain ⟨_, value, _, first, others⟩ := ofMembers_cons said
      exact List.forall_mem_cons.mpr ⟨⟨value, first⟩, ih others⟩

theorem ofMembers_nodup (said : ofMembers file done members = .ok made)
    (distinct : (done.map Prod.fst).Nodup) :
    (made.map Prod.fst).Nodup := by
  induction members generalizing done with
  | nil =>
      cases said
      exact distinct
  | cons member members ih =>
      obtain ⟨key, value, _, _, others⟩ := ofMembers_cons said
      exact ih others (Value.putMember_nodup distinct)

theorem ofMembers_lookup (said : ofMembers file done members = .ok made) :
    made.lookup key = ((lastNode? key members).bind fun node => (ofNode file node).toOption).or
      (done.lookup key) := by
  induction members generalizing done with
  | nil =>
      cases said
      rfl
  | cons member members ih =>
      obtain ⟨k, value, named, first, others⟩ := ofMembers_cons said
      rw [ih others, lastNode?, named, Value.putMember_lookup]
      cases last : lastNode? key members with
      | none =>
          by_cases here : k = key
          · rw [if_pos here.symm, if_pos (congrArg some here), Option.none_or, Option.bind_some, first]
            rfl
          · rw [if_neg (Ne.symm here), if_neg fun same => here (Option.some.inj same)]
            rfl
      | some node =>
          -- a later member under the key says something too, or nothing would be said
          obtain ⟨member, among, _, rfl⟩ := lastNode_mem last
          obtain ⟨later, made⟩ := ofMembers_each others member among
          rw [Option.some_or, Option.bind_some, made]
          rfl

theorem ofMembers_mem {entry : String × Value} (said : ofMembers file [] members = .ok made)
    (among : entry ∈ made) :
    ∃ member ∈ members, keyOf? member.1 = some entry.1 ∧ ofNode file member.2 = .ok entry.2 := by
  have found : made.lookup entry.1 = some entry.2 :=
    Value.lookup_mem (ofMembers_nodup said List.nodup_nil) among
  rw [ofMembers_lookup said, List.lookup_nil, Option.or_none, Option.bind_eq_some_iff] at found
  obtain ⟨node, last, value⟩ := found
  obtain ⟨member, among, named, rfl⟩ := lastNode_mem last
  refine ⟨member, among, named, ?_⟩
  cases made : ofNode file member.2 with
  | error e =>
      rw [made] at value
      cases value
  | ok w =>
      rw [made] at value
      cases value
      rfl

end Members

def IsSingle : Node → Prop
  | .sequence _ | .mapping _ => False
  | .null | .bool _ | .integer _ | .real _ | .string _ | .unusable => True

def Plain (key : String) : Prop := key ≠ "" ∧ key.toList.all KeyPath.isKeyChar = true

instance (key : String) : Decidable (Plain key) := inferInstanceAs (Decidable (_ ∧ _))

/-- A mapping whose keys are plain and in which every section is a mapping, its settings single values. -/
def IsSections (nodes : List (Node × Node)) : Prop :=
  ∀ member ∈ nodes, (∃ key, keyOf? member.1 = some key ∧ Plain key) ∧
    ∀ s : Setting, keyOf? member.1 = some s.shape.name → ∃ fields, member.2 = .mapping fields ∧
      ∀ t : Setting, t.shape.name = s.shape.name → ∀ field ∈ fields, keyOf? field.1 = some t.field →
        IsSingle field.2

def sectionsValue? (file : String) (nodes : List (Node × Node)) (s : Setting) : Option Value :=
  match lastNode? s.shape.name nodes with
  | some (.mapping fields) => (lastNode? s.field fields).bind fun node => (ofNode file node).toOption
  | _ => none

section Sections
variable {file key : String} {nodes : List (Node × Node)} {made : List (String × Value)}

theorem single_said {node : Node} {value : Value} (single : IsSingle node)
    (said : ofNode file node = .ok value) :
    ∃ origin x, value = .scalar origin x := by
  cases node with
  | null => cases said; exact ⟨_, _, rfl⟩
  | bool b => cases said; exact ⟨_, _, rfl⟩
  | integer n => cases said; exact ⟨_, _, rfl⟩
  | string s => cases said; exact ⟨_, _, rfl⟩
  | unusable => cases said; exact ⟨_, _, rfl⟩
  | real spelling =>
      rw [ofNode] at said
      split at said
      · cases said; exact ⟨_, _, rfl⟩
      · cases said
  | sequence items => exact single.elim
  | mapping members => exact single.elim

theorem mapping_said {fields : List (Node × Node)} {value : Value}
    (said : ofNode file (.mapping fields) = .ok value) :
    ∃ members, ofMembers file [] fields = .ok members ∧ value = .table (some file) members := by
  rw [ofNode] at said
  cases inside : ofMembers file [] fields with
  | error e =>
      rw [inside] at said
      cases said
  | ok members =>
      rw [inside] at said
      cases said
      exact ⟨members, rfl, rfl⟩

theorem plain_path (plain : Plain key) : KeyPath.ofText key = ⟨key, []⟩ := by
  obtain ⟨filled, allowed⟩ := plain
  have whole : key.toList.takeWhile KeyPath.isKeyChar = key.toList :=
    List.takeWhile_eq_self_iff.mpr (List.all_eq_true.mp allowed)
  have some_ : key.toList.isEmpty = false := by
    rw [List.isEmpty_eq_false_iff]
    exact fun empty => filled (String.toList_injective empty)
  rw [KeyPath.ofText, KeyPath.ofText?]
  simp only [whole, some_, List.drop_length, String.ofList_toList]
  rfl

theorem sections_entries (sections : IsSections nodes) (said : ofMembers file [] nodes = .ok made) :
    ∀ entry ∈ made, IsEntry entry := by
  intro entry among
  obtain ⟨member, inside, named, value⟩ := ofMembers_mem said among
  obtain ⟨⟨key, known, plain⟩, tables⟩ := sections member inside
  rw [named] at known
  cases known
  by_cases some_ : ∃ s : Setting, entry.1 = s.shape.name
  · -- the table of a section holds each key once, and single values under the settings' names
    obtain ⟨s, here⟩ := some_
    obtain ⟨fields, mapping, singles⟩ := tables s (here ▸ named)
    rw [mapping] at value
    obtain ⟨members, fieldsSaid, table⟩ := mapping_said value
    have isTable : entry = (s.shape.name, .table (some file) members) := Prod.ext here table
    rw [isTable]
    apply IsEntry.table s
    · exact ofMembers_nodup fieldsSaid List.nodup_nil
    · intro t same m inside field
      obtain ⟨node, among, named, value⟩ := ofMembers_mem fieldsSaid inside
      exact single_said (singles t same node among (field ▸ named)) value
  · exact .other entry.1 entry.2 (plain_path plain) fun s here => some_ ⟨s, here⟩

theorem given_table {layer : List (String × Value)} (s : Setting) (found : Option Value)
    (distinct : (layer.map Prod.fst).Nodup) (pathless : ∀ entry ∈ layer, entry.1 ≠ s.key) :
    given s found layer = ((layer.lookup s.shape.name).bind (·.membersOf.2.lookup s.field)).or found := by
  induction layer generalizing found with
  | nil => rfl
  | cons entry layer ih =>
      rw [List.map_cons, List.nodup_cons] at distinct
      obtain ⟨first, others⟩ := List.forall_mem_cons.mp pathless
      have step : given s found (entry :: layer) = given s ((gives entry s).or found) layer := rfl
      rw [step, ih _ distinct.2 others, gives, if_neg first]
      obtain ⟨key, value⟩ := entry
      rw [Value.lookup_next]
      by_cases here : key = s.shape.name
      · have once : layer.lookup s.shape.name = none := Value.lookup_absent (here ▸ distinct.1)
        rw [if_pos here, if_pos here.symm, once]
        rfl
      · rw [if_neg here, if_neg (Ne.symm here)]
        rfl

/-- A mapping of sections gives a setting what is last said of it in what is last said of its section. -/
theorem given_sections (sections : IsSections nodes) (said : ofMembers file [] nodes = .ok made) (s : Setting)
    (found : Option Value) : given s found made = (sectionsValue? file nodes s).or found := by
  have pathless : ∀ entry ∈ made, entry.1 ≠ s.key := by
    intro entry among
    obtain ⟨member, inside, named, _⟩ := ofMembers_mem said among
    obtain ⟨⟨key, known, plain⟩, _⟩ := sections member inside
    rw [named] at known
    cases known
    exact Setting.key_ne (plain_path plain) s
  rw [given_table s found (ofMembers_nodup said List.nodup_nil) pathless, ofMembers_lookup said,
    List.lookup_nil,
    Option.or_none, sectionsValue?]
  cases last : lastNode? s.shape.name nodes with
  | none => rfl
  | some node =>
      obtain ⟨member, inside, named, rfl⟩ := lastNode_mem last
      obtain ⟨_, tables⟩ := sections member inside
      obtain ⟨fields, mapping, _⟩ := tables s named
      obtain ⟨value, whole⟩ := ofMembers_each said member inside
      rw [mapping] at whole ⊢
      obtain ⟨members, fieldsSaid, rfl⟩ := mapping_said whole
      simp only
      have field : members.lookup s.field =
          (lastNode? s.field fields).bind fun node => (ofNode file node).toOption := by
        rw [ofMembers_lookup fieldsSaid, List.lookup_nil, Option.or_none]
      rw [Option.bind_some, whole, ← field]
      rfl

end Sections

end AttestationService.Settings

import AttestationService.Json.Value
import AttestationService.Proofs.Json.Documents

/-!
What is left of the members of an object after those with one key were merged: each key where it first stood,
with the value it has last. Members with other keys make no difference.
-/

namespace AttestationService.Json

/-- For each key, in the order of their first members, its last member. -/
def lastMembers (members : List (String × Value)) : List (String × Value) :=
  (members.map Prod.fst).eraseDups.filterMap fun key => members.reverse.find? (·.1 == key)

section Insert
variable {key : String} {v : Value} {members : List (String × Value)}

theorem insert_keys (key : String) (v : Value) (members : List (String × Value)) :
    (insert key v members).map Prod.fst =
      if key ∈ members.map Prod.fst then members.map Prod.fst else members.map Prod.fst ++ [key] := by
  induction members with
  | nil => rfl
  | cons m members ih =>
      rw [insert]
      by_cases here : m.1 = key
      · simp [here]
      · rw [if_neg here, List.map_cons, ih, List.map_cons]
        by_cases later : key ∈ members.map Prod.fst
        · rw [if_pos later, if_pos (List.mem_cons_of_mem _ later)]
        · have absent : key ∉ m.1 :: members.map Prod.fst := by
            rw [List.mem_cons, not_or]
            exact ⟨Ne.symm here, later⟩
          rw [if_neg later, if_neg absent]
          rfl

theorem insert_present (present : key ∈ members.map Prod.fst) (distinct : (members.map Prod.fst).Nodup) :
    insert key v members = members.map fun m => if m.1 = key then (key, v) else m := by
  induction members with
  | nil => cases present
  | cons m members ih =>
      rw [List.map_cons, List.nodup_cons] at distinct
      rw [insert, List.map_cons]
      by_cases here : m.1 = key
      · have others : members.map (fun m => if m.1 = key then (key, v) else m) = members := by
          conv_rhs => rw [← List.map_id members]
          apply List.map_congr_left
          intro n member
          apply if_neg
          intro same
          rw [here, ← same] at distinct
          exact distinct.1 (List.mem_map_of_mem member)
        rw [if_pos here, if_pos here, others, here]
      · have later : key ∈ members.map Prod.fst := by
          rw [List.map_cons, List.mem_cons] at present
          exact present.resolve_left (Ne.symm here)
        rw [if_neg here, if_neg here, ih later distinct.2]

theorem insert_filter (p : String → Bool) (key : String) (v : Value) (members : List (String × Value)) :
    (insert key v members).filter (fun m => p m.1) =
      if p key then insert key v (members.filter fun m => p m.1) else members.filter fun m => p m.1 := by
  induction members with
  | nil => cases accepted : p key <;> simp [insert, accepted]
  | cons m members ih =>
      rw [insert]
      by_cases here : m.1 = key
      · subst here
        rw [if_pos rfl]
        cases accepted : p m.1 with
        | true => simp [insert, accepted]
        | false => simp [accepted]
      · rw [if_neg here]
        cases accepted : p m.1 with
        | true =>
            simp only [List.filter_cons, accepted, if_true, ih, insert, if_neg here]
            split
            · rfl
            · rfl
        | false => simp only [List.filter_cons, accepted, Bool.false_eq_true, if_false, ih]

theorem insert_map (f : Value → Value) (key : String) (v : Value) (members : List (String × Value)) :
    (insert key v members).map (fun m => (m.1, f m.2)) =
      insert key (f v) (members.map fun m => (m.1, f m.2)) := by
  induction members with
  | nil => rfl
  | cons m members ih =>
      rw [insert, List.map_cons, insert]
      split
      · rfl
      · rw [List.map_cons, ih]

end Insert

section Merge
variable {members : List (String × Value)}

theorem mergeMembers_snoc (members : List (String × Value)) (m : String × Value) :
    mergeMembers (members ++ [m]) = insert m.1 m.2 (mergeMembers members) :=
  List.foldl_append

theorem eraseDups_snoc (keys : List String) (key : String) :
    (keys ++ [key]).eraseDups = if key ∈ keys then keys.eraseDups else keys.eraseDups ++ [key] := by
  rw [List.eraseDups_append]
  by_cases old : key ∈ keys
  · simp [List.removeAll, old]
  · simp [List.removeAll, old, List.eraseDups_cons]

theorem mergeMembers_keys (members : List (String × Value)) :
    (mergeMembers members).map Prod.fst = (members.map Prod.fst).eraseDups := by
  induction members using List.reverseRecOn with
  | nil => rfl
  | append_singleton members m ih =>
      rw [mergeMembers_snoc, insert_keys, ih, List.map_append, List.map_singleton, eraseDups_snoc]
      simp only [List.mem_eraseDups]

theorem mergeMembers_nodup (members : List (String × Value)) :
    ((mergeMembers members).map Prod.fst).Nodup := by
  induction members using List.reverseRecOn with
  | nil => exact List.nodup_nil
  | append_singleton members m ih =>
      rw [mergeMembers_snoc, insert_keys]
      split
      · exact ih
      · rename_i fresh
        exact List.Nodup.append ih (List.nodup_singleton _) (by simpa using fresh)

theorem find_snoc (members : List (String × Value)) (m : String × Value) (key : String) :
    (members ++ [m]).reverse.find? (·.1 == key) =
      if m.1 = key then some m else members.reverse.find? (·.1 == key) := by
  rw [List.reverse_append, List.reverse_singleton, List.singleton_append, List.find?_cons]
  by_cases here : m.1 = key
  · rw [if_pos here, beq_iff_eq.mpr here]
  · rw [if_neg here, beq_eq_false_iff_ne.mpr here]

theorem find_present {key : String} (present : key ∈ members.map Prod.fst) :
    ∃ v, members.reverse.find? (·.1 == key) = some (key, v) := by
  obtain ⟨m, member, named⟩ := List.mem_map.mp present
  have some_ : (members.reverse.find? (·.1 == key)).isSome := by
    rw [List.find?_isSome]
    exact ⟨m, List.mem_reverse.mpr member, beq_iff_eq.mpr named⟩
  obtain ⟨⟨k, v⟩, first⟩ := Option.isSome_iff_exists.mp some_
  obtain rfl : k = key := by simpa using List.find?_some first
  exact ⟨v, first⟩

theorem lastMembers_present {m : String × Value} (present : m.1 ∈ members.map Prod.fst) :
    lastMembers (members ++ [m]) = (lastMembers members).map fun n => if n.1 = m.1 then m else n := by
  rw [lastMembers, List.map_append, List.map_singleton, eraseDups_snoc, if_pos present, lastMembers,
    List.map_filterMap]
  apply List.filterMap_congr
  intro key known
  obtain ⟨v, first⟩ := find_present (List.mem_eraseDups.mp known)
  rw [find_snoc, first, Option.map_some]
  by_cases here : m.1 = key
  · rw [if_pos here, if_pos here.symm]
  · rw [if_neg here, if_neg (Ne.symm here)]

theorem lastMembers_absent {m : String × Value} (absent : m.1 ∉ members.map Prod.fst) :
    lastMembers (members ++ [m]) = lastMembers members ++ [m] := by
  have others : (members.map Prod.fst).eraseDups.filterMap
      (fun key => (members ++ [m]).reverse.find? (·.1 == key)) = lastMembers members := by
    apply List.filterMap_congr
    intro key known
    rw [find_snoc, if_neg]
    rintro rfl
    exact absent (List.mem_eraseDups.mp known)
  rw [lastMembers, List.map_append, List.map_singleton, eraseDups_snoc, if_neg absent,
    List.filterMap_append, others,
    List.filterMap_cons, find_snoc, if_pos rfl]
  rfl

/-- Merging leaves of each key its last member, where its first one stood. -/
theorem mergeMembers_eq (members : List (String × Value)) : mergeMembers members = lastMembers members := by
  induction members using List.reverseRecOn with
  | nil => rfl
  | append_singleton members m ih =>
      have keys : m.1 ∈ (mergeMembers members).map Prod.fst ↔ m.1 ∈ members.map Prod.fst := by
        rw [mergeMembers_keys, List.mem_eraseDups]
      rw [mergeMembers_snoc]
      by_cases present : m.1 ∈ members.map Prod.fst
      · rw [insert_present (keys.mpr present) (mergeMembers_nodup members), ih, lastMembers_present present]
      · rw [insert_fresh fun old => present (keys.mp old), ih, lastMembers_absent present]

theorem mergeMembers_filter (p : String → Bool) (members : List (String × Value)) :
    (mergeMembers members).filter (fun m => p m.1) = mergeMembers (members.filter fun m => p m.1) := by
  induction members using List.reverseRecOn with
  | nil => rfl
  | append_singleton members m ih =>
      rw [mergeMembers_snoc, insert_filter, ih, List.filter_append, List.filter_singleton]
      cases p m.1 with
      | true => exact (mergeMembers_snoc _ m).symm
      | false => simp

theorem mergeMembers_map (f : Value → Value) (members : List (String × Value)) :
    mergeMembers (members.map fun m => (m.1, f m.2)) = (mergeMembers members).map fun m => (m.1, f m.2) := by
  induction members using List.reverseRecOn with
  | nil => rfl
  | append_singleton members m ih =>
      rw [mergeMembers_snoc, insert_map, ← ih, List.map_append]
      exact mergeMembers_snoc _ _

end Merge

end AttestationService.Json

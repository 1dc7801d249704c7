import AttestationService.Proofs.Except
import AttestationService.Proofs.Json.Reading
import AttestationService.Proofs.Json.RealTexts

/-!
The values that the reader returns: none is nested deeper than it was allowed to be, which depth it was
allowed does not matter as long as it is enough, and every number is an integer of 64 bits or a double.
-/

namespace AttestationService.Json

/-- What a number may be: an integer of 64 bits, with a sign or without, or a double. -/
def Number.Proper : Number → Prop
  | .integer n => -2 ^ 63 ≤ n ∧ n < 2 ^ 64
  | .real x => x.Proper

mutual

def Value.numbers : Value → List Number
  | .number n => [n]
  | .array items => itemsNumbers items
  | .object members => membersNumbers members
  | _ => []

def itemsNumbers : List Value → List Number
  | [] => []
  | v :: rest => v.numbers ++ itemsNumbers rest

def membersNumbers : List (String × Value) → List Number
  | [] => []
  | (_, v) :: rest => v.numbers ++ membersNumbers rest

end

def AllProper (numbers : List Number) : Prop := ∀ n ∈ numbers, n.Proper

section AllProper
variable {some_ more : List Number}

theorem noNumbers : AllProper [] := fun _ none => by cases none

theorem AllProper.append (proper : AllProper some_) (also : AllProper more) : AllProper (some_ ++ more) :=
  fun _ member => (List.mem_append.mp member).elim (proper _) (also _)

theorem AllProper.left (all : AllProper (some_ ++ more)) : AllProper some_ :=
  fun _ member => all _ (List.mem_append_left _ member)

theorem AllProper.right (all : AllProper (some_ ++ more)) : AllProper more :=
  fun _ member => all _ (List.mem_append_right _ member)

end AllProper

section Numbers
variable {negative : Bool} {natural dropped : Nat} {scale : Int} {input rest : Input} {n : Number}

theorem wholeDigits_le (small : natural ≤ maxNatural) :
    (wholeDigits natural dropped input).1 ≤ maxNatural := by
  induction input generalizing natural dropped with
  | nil => exact small
  | cons piece input ih =>
      unfold wholeDigits
      split
      · rename_i same
        obtain ⟨rfl, rfl⟩ := List.cons.inj same
        split
        · split
          · rename_i fits
            exact ih fits.2
          · exact ih small
        · exact small
      · exact small

theorem digit_le {d : Nat} (digit : digit? input = some (d, rest)) : d ≤ 9 := by
  unfold digit? at digit
  split at digit
  · obtain ⟨e, found, same⟩ := Option.map_eq_some_iff.mp digit
    cases same
    exact digitOf_le found
  · cases digit

theorem real_proper (made : real negative natural scale input = .ok (n, rest)) : n.Proper := by
  unfold real at made
  split at made
  · rename_i x found
    cases made
    exact realOf_proper found
  · cases made

theorem exponentPart_proper (made : exponentPart negative natural scale input = .ok (n, rest)) :
    n.Proper := by
  unfold exponentPart at made
  split at made
  rename_i down after _
  split at made
  · cases made
  · split at made
    · cases made
    · split at made
      · exact real_proper made
      · rename_i more _
        by_cases large : natural ≠ 0 ∧ ¬ down = true
        · rw [if_pos large] at made
          cases made
        · rw [if_neg large] at made
          cases made
          exact Binary64.zero_proper negative

theorem fractionPart_proper (made : fractionPart negative natural dropped input = .ok (n, rest)) :
    n.Proper := by
  unfold fractionPart at made
  split at made
  · split at made <;> cases made
  · simp only at made
    split at made
    · exact exponentPart_proper made
    · exact real_proper made

theorem whole_proper (small : natural ≤ maxNatural) (made : whole negative natural input = .ok (n, rest)) :
    n.Proper := by
  unfold maxNatural at small
  unfold whole at made
  split at made
  · cases made
    exact ⟨by omega, by omega⟩
  · split at made
    · split at made
      · rename_i x found
        cases made
        exact Binary64.ofRatio_proper found
      · cases made
    · cases made
      exact ⟨by omega, by omega⟩

theorem tail_proper (small : natural ≤ maxNatural)
    (made : number.tail negative natural dropped input = .ok (n, rest)) : n.Proper := by
  have closed : ∀ {more : Input}, number.close negative natural dropped more = .ok (n, rest) →
      n.Proper := by
    intro more closed
    unfold number.close at closed
    split at closed
    · exact whole_proper small closed
    · exact real_proper closed
  unfold number.tail at made
  split at made
  · split at made
    · exact fractionPart_proper made
    · split at made
      · exact exponentPart_proper made
      · exact closed made
  · exact closed made

theorem number_proper (made : number negative input = .ok (n, rest)) : n.Proper := by
  unfold number at made
  split at made
  · cases made
  · split at made
    · cases made
    · split at made
      · cases made
      · exact tail_proper (by decide) made
    · rename_i digit
      exact tail_proper (wholeDigits_le ((digit_le digit).trans (by decide))) made

theorem Number.Proper.reread (proper : n.Proper) : ∃ m : Number, m.ReadAs (numberText n) := by
  cases n with
  | integer n => exact ⟨.integer n, integer_readAs proper.1 proper.2⟩
  | real x =>
      obtain ⟨y, read⟩ := real_readAs proper
      exact ⟨.real y, read⟩

end Numbers

section Values
variable {fuel depth : Nat} {input rest : Input} {v : Value}

theorem scalar_ok {α : Type} {x : Except Failure α} {f : α → Value × Input}
    (scalar : ∀ a, (f a).1.depth = 0 ∧ AllProper (f a).1.numbers) (read : x.map f = .ok (v, rest)) :
    v.depth = 0 ∧ AllProper v.numbers ∧ ∀ _ : Nat, x.map f = .ok (v, rest) := by
  obtain ⟨a, _, same⟩ := map_ok read
  obtain ⟨flat, proper⟩ := scalar a
  rw [same] at flat proper
  exact ⟨flat, proper, fun _ => read⟩

theorem number_ok {negative : Bool}
    (read : (number negative input).map (fun (n, rest) => (Value.number n, rest)) = .ok (v, rest)) :
    v.depth = 0 ∧ AllProper v.numbers ∧
      ∀ _ : Nat, (number negative input).map (fun (n, rest) => (Value.number n, rest)) = .ok (v, rest) := by
  obtain ⟨⟨n, after⟩, made, same⟩ := map_ok read
  cases same
  refine ⟨rfl, fun m member => ?_, fun _ => read⟩
  obtain rfl := List.mem_singleton.mp member
  exact number_proper made

theorem value_ok (read : value fuel depth input = .ok (v, rest)) : ∃ less, fuel = less + 1 ∧
    ((v.depth = 0 ∧ AllProper v.numbers ∧ ∀ other, value fuel other input = .ok (v, rest)) ∨
      ∃ below inner, depth = below + 1 ∧
        ((items less below true [] inner = .ok (v, rest) ∧
            ∀ other, value fuel (other + 1) input = items less other true [] inner) ∨
          (members less below true [] inner = .ok (v, rest) ∧
            ∀ other, value fuel (other + 1) input = members less other true [] inner))) := by
  cases fuel with
  | zero =>
      unfold value at read
      split at read
      · cases read
      · cases read
      · cases read
      · contradiction
  | succ fuel =>
      refine ⟨fuel, rfl, ?_⟩
      unfold value at read ⊢
      split at read
      · cases read
      · contradiction
      · cases read
      · rename_i same _
        cases same
        simp only
        split at read
        · exact .inl (scalar_ok (fun _ => ⟨rfl, noNumbers⟩) read)
        · exact .inl (scalar_ok (fun _ => ⟨rfl, noNumbers⟩) read)
        · exact .inl (scalar_ok (fun _ => ⟨rfl, noNumbers⟩) read)
        · exact .inl (number_ok read)
        · exact .inl (scalar_ok (fun _ => ⟨rfl, noNumbers⟩) read)
        · split at read
          · cases read
          · exact .inr ⟨_, _, rfl, .inl ⟨read, fun _ => rfl⟩⟩
        · split at read
          · cases read
          · exact .inr ⟨_, _, rfl, .inr ⟨read, fun _ => rfl⟩⟩
        · split at read
          · rename_i digit
            rw [if_pos digit]
            exact .inl (number_ok read)
          · cases read

theorem items_ok {first : Bool} {done : List Value}
    (read : items fuel depth first done input = .ok (v, rest)) : ∃ less, fuel = less + 1 ∧
      ((nextItem first input = .ok none ∧ v = .array done.reverse ∧ rest = afterBracket input) ∨
        ∃ inner w after, nextItem first input = .ok (some inner) ∧
          value less depth inner = .ok (w, after) ∧
          items less depth false (w :: done) after = .ok (v, rest)) := by
  unfold items at read
  split at read
  · cases read
  · rename_i fuel
    refine ⟨fuel, rfl, ?_⟩
    split at read
    · cases read
    · rename_i close
      cases read
      exact .inl ⟨close, rfl, rfl⟩
    · rename_i inner next
      split at read
      · cases read
      · rename_i w after first
        exact .inr ⟨inner, w, after, next, first, read⟩

theorem members_ok {first : Bool} {done : List (String × Value)}
    (read : members fuel depth first done input = .ok (v, rest)) : ∃ less, fuel = less + 1 ∧
      ((nextMember first input = .ok none ∧ v = .object done.reverse ∧ rest = afterBracket input) ∨
        ∃ inner key name contents w after, nextMember first input = .ok (some inner) ∧
          stringRest less [] true inner = .ok (key, name) ∧ colon name = .ok contents ∧
          value less depth contents = .ok (w, after) ∧
          members less depth false ((key, w) :: done) after = .ok (v, rest)) := by
  unfold members at read
  split at read
  · cases read
  · rename_i fuel
    refine ⟨fuel, rfl, ?_⟩
    split at read
    · cases read
    · rename_i close
      cases read
      exact .inl ⟨close, rfl, rfl⟩
    · rename_i inner next
      split at read
      · cases read
      · rename_i key name named
        split at read
        · cases read
        · rename_i contents colon
          split at read
          · cases read
          · rename_i w after first
            exact .inr ⟨inner, key, name, contents, w, after, next, named, colon, first, read⟩

structure ItemsRead (fuel depth : Nat) (first : Bool) (done : List Value) (input rest : Input)
    (vs : List Value) : Prop where
  shallow : itemsDepth vs ≤ depth
  proper : AllProper (itemsNumbers vs)
  deeper : ∀ other, itemsDepth vs ≤ other →
    items fuel other first done input = .ok (.array (done.reverse ++ vs), rest)

structure MembersRead (fuel depth : Nat) (first : Bool) (done : List (String × Value))
    (input rest : Input) (ms : List (String × Value)) : Prop where
  shallow : membersDepth ms ≤ depth
  proper : AllProper (membersNumbers ms)
  deeper : ∀ other, membersDepth ms ≤ other →
    members fuel other first done input = .ok (.object (done.reverse ++ ms), rest)

structure ValueRead (fuel depth : Nat) (input rest : Input) (v : Value) : Prop where
  shallow : v.depth ≤ depth
  proper : AllProper v.numbers
  deeper : ∀ other, v.depth ≤ other → value fuel other input = .ok (v, rest)

/-- Whatever is read with this much fuel is as it should be. -/
structure Returns (fuel : Nat) : Prop where
  value : ∀ {depth input v rest}, value fuel depth input = .ok (v, rest) →
    ValueRead fuel depth input rest v
  items : ∀ {depth first done input v rest}, items fuel depth first done input = .ok (v, rest) →
    ∃ vs, v = .array (done.reverse ++ vs) ∧ ItemsRead fuel depth first done input rest vs
  members : ∀ {depth first done input v rest}, members fuel depth first done input = .ok (v, rest) →
    ∃ ms, v = .object (done.reverse ++ ms) ∧ MembersRead fuel depth first done input rest ms

theorem returns_value (below : ∀ less < fuel, Returns less)
    (read : value fuel depth input = .ok (v, rest)) : ValueRead fuel depth input rest v := by
  obtain ⟨less, rfl, ⟨flat, proper, other⟩ | ⟨depth, inner, rfl, ⟨here, opened⟩ | ⟨here, opened⟩⟩⟩ :=
    value_ok read
  · exact ⟨by omega, proper, fun _ _ => other _⟩
  · obtain ⟨vs, rfl, all⟩ := (below less (by omega)).items here
    refine ⟨Nat.succ_le_succ all.shallow, all.proper, fun other enough => ?_⟩
    obtain ⟨other, rfl⟩ : ∃ less, other = less + 1 := ⟨other - 1, by simp [Value.depth] at enough; omega⟩
    rw [opened]
    exact all.deeper other (Nat.le_of_succ_le_succ enough)
  · obtain ⟨ms, rfl, all⟩ := (below less (by omega)).members here
    refine ⟨Nat.succ_le_succ all.shallow, all.proper, fun other enough => ?_⟩
    obtain ⟨other, rfl⟩ : ∃ less, other = less + 1 := ⟨other - 1, by simp [Value.depth] at enough; omega⟩
    rw [opened]
    exact all.deeper other (Nat.le_of_succ_le_succ enough)

theorem returns_items (below : ∀ less < fuel, Returns less) {first : Bool} {done : List Value}
    (read : items fuel depth first done input = .ok (v, rest)) :
    ∃ vs, v = .array (done.reverse ++ vs) ∧ ItemsRead fuel depth first done input rest vs := by
  obtain ⟨less, rfl, ⟨close, rfl, rfl⟩ | ⟨inner, w, after, next, item, others⟩⟩ := items_ok read
  · refine ⟨[], by rw [List.append_nil], Nat.zero_le _, noNumbers, fun other _ => ?_⟩
    rw [items_close close, List.append_nil]
  · have head := (below less (by omega)).value item
    obtain ⟨vs, rfl, tail⟩ := (below less (by omega)).items others
    refine ⟨w :: vs, by simp, max_le head.shallow tail.shallow, head.proper.append tail.proper,
      fun other enough => ?_⟩
    rw [itemsDepth] at enough
    rw [items_next next (head.deeper other (by omega)), tail.deeper other (by omega)]
    simp

theorem returns_members (below : ∀ less < fuel, Returns less) {first : Bool}
    {done : List (String × Value)} (read : members fuel depth first done input = .ok (v, rest)) :
    ∃ ms, v = .object (done.reverse ++ ms) ∧ MembersRead fuel depth first done input rest ms := by
  obtain ⟨less, rfl, ⟨close, rfl, rfl⟩ | ⟨inner, key, name, contents, w, after, next, named, colon, member,
    others⟩⟩ := members_ok read
  · refine ⟨[], by rw [List.append_nil], Nat.zero_le _, noNumbers, fun other _ => ?_⟩
    rw [members_close close, List.append_nil]
  · have head := (below less (by omega)).value member
    obtain ⟨ms, rfl, tail⟩ := (below less (by omega)).members others
    refine ⟨(key, w) :: ms, by simp, max_le head.shallow tail.shallow,
      head.proper.append tail.proper, fun other enough => ?_⟩
    rw [membersDepth] at enough
    rw [members_next next named colon (head.deeper other (by omega)), tail.deeper other (by omega)]
    simp

theorem returns (fuel : Nat) : Returns fuel := by
  induction fuel using Nat.strongRecOn with
  | ind fuel below =>
      exact ⟨returns_value below, returns_items below, returns_members below⟩

/-- A value that is nested deeper than allowed is refused, however it is spelled. -/
theorem value_deep {Numeral : Number → List Char → Prop}
    (numerals : ∀ n text, Numeral n text → n.ReadAs text) {text : List Char}
    (spelled : Spells Numeral v text) (enough : 2 * text.length ≤ fuel) (deep : depth < v.depth)
    (ends : EndsNumber rest) : ∃ f, value fuel depth (.ofText text ++ rest) = .error f := by
  cases result : value fuel depth (.ofText text ++ rest) with
  | error f => exact ⟨f, rfl⟩
  | ok taken =>
      obtain ⟨w, after⟩ := taken
      have returned := (returns fuel).value result
      -- with depth enough for both, the same text is read as both values
      have read := (reads numerals fuel).value v text (max v.depth w.depth) rest spelled enough
        (le_max_left _ _) ends
      rw [returned.deeper _ (le_max_right _ _)] at read
      cases read
      exact absurd returned.shallow (Nat.not_le.mpr deep)

end Values

section Merging
variable {members : List (String × Value)} {v : Value}

theorem insert_proper (key : String) (proper : AllProper v.numbers)
    (others : AllProper (membersNumbers members)) : AllProper (membersNumbers (insert key v members)) := by
  induction members with
  | nil => exact proper.append noNumbers
  | cons m members ih =>
      obtain ⟨k, w⟩ := m
      rw [insert]
      split
      · exact proper.append others.right
      · exact others.left.append (ih others.right)

theorem mergeMembers_proper (proper : AllProper (membersNumbers members)) :
    AllProper (membersNumbers (mergeMembers members)) := by
  suffices from_ : ∀ merged, AllProper (membersNumbers merged) →
      AllProper (membersNumbers (members.foldl (fun merged m => insert m.1 m.2 merged) merged)) from
    from_ [] noNumbers
  induction members with
  | nil => exact fun _ done => done
  | cons m members ih =>
      -- a later value of a key takes the place of an earlier one, and both were read
      intro merged done
      exact ih proper.right _ (insert_proper m.1 proper.left done)

mutual

theorem merged_proper : ∀ v : Value, AllProper v.numbers → AllProper v.merged.numbers
  | .null, proper | .bool _, proper | .number _, proper | .string _, proper => proper
  | .array items, proper => mergedItems_proper items proper
  | .object members, proper => mergeMembers_proper (mergedMembers_proper members proper)

theorem mergedItems_proper : ∀ items : List Value,
    AllProper (itemsNumbers items) → AllProper (itemsNumbers (mergedItems items))
  | [], proper => proper
  | v :: items, proper => (merged_proper v proper.left).append (mergedItems_proper items proper.right)

theorem mergedMembers_proper : ∀ members : List (String × Value),
    AllProper (membersNumbers members) → AllProper (membersNumbers (mergedMembers members))
  | [], proper => proper
  | (_, v) :: members, proper =>
      (merged_proper v proper.left).append (mergedMembers_proper members proper.right)

end

theorem read_proper {input : Input} (made : read input = .ok v) : AllProper v.numbers := by
  obtain ⟨w, whole, rfl⟩ := map_ok made
  refine merged_proper w ?_
  unfold document at whole
  split at whole
  · rename_i finished
    cases whole
    obtain ⟨⟨u, rest⟩, taken, ended⟩ := bind_ok finished
    have same : u = w := by
      unfold finish at ended
      simp only at ended
      split at ended
      · exact Except.ok.inj ended
      · cases ended
    exact same ▸ ((returns _).value taken).proper
  · cases whole

end Merging

end AttestationService.Json

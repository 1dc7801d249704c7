import AttestationService.Proofs.Json.Documents

/-!
Lexemes. A spelling of a value is the row of its lexemes, with space before, between and after them. Only
strings have more than one spelling of their own, so two spellings of one row differ in space and in how the
characters of strings are escaped, and in nothing else.
-/

namespace AttestationService.Json

inductive Lexeme where
  | mark (c : Char)
  | word (letters : List Char)
  | string (s : String)
  deriving DecidableEq, Repr

def Lexeme.Spelled : Lexeme → List Char → Prop
  | .mark c, text => text = [c]
  | .word letters, text => text = letters
  | .string s, text => SpellsString s text

/-- Lexemes one after the other, with any space around them. -/
inductive Row : List Lexeme → List Char → Prop where
  | nil {gap : List Char} (space : IsGap gap) : Row [] gap
  | cons {gap text more : List Char} {lexeme : Lexeme} {rest : List Lexeme} (space : IsGap gap)
      (spelled : lexeme.Spelled text) (others : Row rest more) : Row (lexeme :: rest) (gap ++ text ++ more)

mutual

def Value.lexemes : Value → List Lexeme
  | .null => [.word ['n', 'u', 'l', 'l']]
  | .bool true => [.word ['t', 'r', 'u', 'e']]
  | .bool false => [.word ['f', 'a', 'l', 's', 'e']]
  | .number n => [.word (numberText n)]
  | .string s => [.string s]
  | .array [] => [.mark '[', .mark ']']
  | .array (v :: items) => .mark '[' :: v.lexemes ++ itemsLexemes items
  | .object [] => [.mark '\x7b', .mark '\x7d']
  | .object ((key, v) :: members) =>
    .mark '\x7b' :: .string key :: .mark ':' :: v.lexemes ++ membersLexemes members

def itemsLexemes : List Value → List Lexeme
  | [] => [.mark ']']
  | v :: items => .mark ',' :: v.lexemes ++ itemsLexemes items

def membersLexemes : List (String × Value) → List Lexeme
  | [] => [.mark '\x7d']
  | (key, v) :: members =>
    .mark ',' :: .string key :: .mark ':' :: v.lexemes ++ membersLexemes members

end

section Rows
variable {some_ more : List Lexeme} {gap text rest : List Char}

theorem IsGap.append (space : IsGap gap) (also : IsGap rest) : IsGap (gap ++ rest) :=
  fun c member => (List.mem_append.mp member).elim (space c) (also c)

theorem Row.after (row : Row some_ text) (space : IsGap gap) : Row some_ (gap ++ text) := by
  cases row with
  | nil also => exact .nil (space.append also)
  | cons also spelled others =>
      simpa using Row.cons (space.append also) spelled others

theorem Row.append (row : Row some_ text) (others : Row more rest) : Row (some_ ++ more) (text ++ rest) := by
  induction row with
  | nil space => exact others.after space
  | cons space spelled _ ih =>
      rw [List.append_assoc]
      exact .cons space spelled ih

theorem Row.lead {lexeme : Lexeme} (spelled : lexeme.Spelled text) (others : Row more rest) :
    Row (lexeme :: more) (text ++ rest) := by
  simpa using Row.cons noGap spelled others

theorem Row.single {lexeme : Lexeme} (spelled : lexeme.Spelled text) : Row [lexeme] text := by
  simpa using Row.lead spelled (.nil noGap)

theorem Row.mark (c : Char) (others : Row more rest) : Row (.mark c :: more) (c :: rest) := by
  have spelled : (Lexeme.mark c).Spelled [c] := rfl
  exact Row.lead spelled others

theorem Row.close (c : Char) (space : IsGap gap) : Row [.mark c] (gap ++ [c]) :=
  (Row.mark c (.nil noGap)).after space

end Rows

section Values
variable {Numeral : Number → List Char → Prop} {text : List Char}

theorem SpellsItems.row {items : List Value}
    (each : ∀ v ∈ items, ∀ text, Spells Numeral v text → Row v.lexemes text)
    (spelled : SpellsItems Numeral items text) : Row (itemsLexemes items) text := by
  induction items generalizing text with
  | nil =>
      cases spelled with
      | close space => exact .close ']' space
  | cons v items ih =>
      obtain ⟨first, others⟩ := List.forall_mem_cons.mp each
      cases spelled with
      | item before after next more =>
          have row := ((first _ next).after after).append (ih others more)
          simpa [itemsLexemes] using (row.mark ',').after before

theorem SpellsMember.row {key : String} {v : Value}
    (contents : ∀ text, Spells Numeral v text → Row v.lexemes text)
    (spelled : SpellsMember Numeral (key, v) text) :
    Row (.string key :: .mark ':' :: v.lexemes) text := by
  cases spelled with
  | mk named before after spelled =>
      have row := (((contents _ spelled).after after).mark ':').after before
      have whole : Row (.string key :: _) _ := .lead named row
      simpa using whole

theorem SpellsMembers.row {members : List (String × Value)}
    (each : ∀ m ∈ members, ∀ text, Spells Numeral m.2 text → Row m.2.lexemes text)
    (spelled : SpellsMembers Numeral members text) : Row (membersLexemes members) text := by
  induction members generalizing text with
  | nil =>
      cases spelled with
      | close space => exact .close '\x7d' space
  | cons m members ih =>
      obtain ⟨first, others⟩ := List.forall_mem_cons.mp each
      cases spelled with
      | member before after next more =>
          have row := ((next.row first).after after).append (ih others more)
          simpa [membersLexemes] using (row.mark ',').after before

/-- Every spelling of a value is a row of the value's lexemes, if its numbers have one spelling each. -/
theorem Spells.row {v : Value} (numerals : ∀ n text, Numeral n text → text = numberText n)
    (spelled : Spells Numeral v text) : Row v.lexemes text := by
  induction v using Value.induct generalizing text with
  | null =>
      cases spelled
      exact .single rfl
  | bool b =>
      cases spelled with
      | yes => exact .single rfl
      | no => exact .single rfl
  | number n =>
      cases spelled with
      | number numeral => exact .single (numerals n _ numeral)
  | string s =>
      cases spelled with
      | string written => exact .single written
  | array items ih =>
      cases spelled with
      | emptyArray space =>
          have close := Row.close ']' space
          simpa [Value.lexemes] using close.mark '['
      | array space next more =>
          obtain ⟨first, others⟩ := List.forall_mem_cons.mp fun v member text =>
            show Spells Numeral v text → Row v.lexemes text from ih v member
          have row := ((first _ next).after space).append (more.row others)
          simpa [Value.lexemes] using row.mark '['
  | object members ih =>
      cases spelled with
      | emptyObject space =>
          have close := Row.close '\x7d' space
          simpa [Value.lexemes] using close.mark '\x7b'
      | object space next more =>
          obtain ⟨first, others⟩ := List.forall_mem_cons.mp fun m member text =>
            show Spells Numeral m.2 text → Row m.2.lexemes text from ih m member
          have row := ((next.row first).after space).append (more.row others)
          simpa [Value.lexemes] using row.mark '\x7b'

end Values

end AttestationService.Json

import AttestationService.Json.Reader

/-!
The spellings of a value: any space between the tokens and any escapes in the strings. How a number is
spelled is left open: `Numeral` says it. The main statement is that the reader takes every spelling off
the front of its input and returns the value, if the value is not nested too deep.
-/

namespace AttestationService.Json

def IsGap (text : List Char) : Prop := ∀ c ∈ text, isSpace c = true

instance (text : List Char) : Decidable (IsGap text) :=
  decidable_of_iff (text.all isSpace = true) List.all_eq_true

inductive HexDigit : Char → Nat → Prop
  | decimal (n : Nat) (small : n < 10) : HexDigit (Char.ofNat (48 + n)) n
  | lower (n : Nat) (low : 10 ≤ n) (high : n < 16) : HexDigit (Char.ofNat (87 + n)) n
  | upper (n : Nat) (low : 10 ≤ n) (high : n < 16) : HexDigit (Char.ofNat (55 + n)) n

def SpellsHex (n : Nat) (text : List Char) : Prop :=
  ∃ a b c d i j k l, HexDigit a i ∧ HexDigit b j ∧ HexDigit c k ∧ HexDigit d l ∧
    text = [a, b, c, d] ∧ n = ((i * 16 + j) * 16 + k) * 16 + l

def escapeLetters : List (Char × Char) :=
  [('"', '"'), ('\\', '\\'), ('/', '/'), ('b', '\x08'), ('f', '\x0c'), ('n', '\n'), ('r', '\r'),
    ('t', '\t')]

inductive SpellsEscape : Char → List Char → Prop
  | letter {l c : Char} (known : (l, c) ∈ escapeLetters) : SpellsEscape c [l]
  | unit {n : Nat} {digits : List Char} (spelled : SpellsHex n digits)
      (alone : n < 0xD800 ∨ 0xDFFF < n) : SpellsEscape (Char.ofNat n) ('u' :: digits)
  | pair {high low : Nat} {first second : List Char} (spelled : SpellsHex high first)
      (spelledLow : SpellsHex low second) (isHigh : 0xD800 ≤ high ∧ high ≤ 0xDBFF)
      (isLow : 0xDC00 ≤ low ∧ low ≤ 0xDFFF) :
      SpellsEscape (Char.ofNat ((high - 0xD800) * 1024 + (low - 0xDC00) + 0x10000))
        ('u' :: first ++ '\\' :: 'u' :: second)

inductive SpellsChars : List Char → List Char → Prop
  | nil : SpellsChars [] []
  | plain {c : Char} {rest text : List Char} (noQuote : c ≠ '"') (noBackslash : c ≠ '\\')
      (printable : ¬ c < ' ') (more : SpellsChars rest text) : SpellsChars (c :: rest) (c :: text)
  | escaped {c : Char} {letters rest text : List Char} (escape : SpellsEscape c letters)
      (more : SpellsChars rest text) : SpellsChars (c :: rest) ('\\' :: letters ++ text)

def SpellsString (s : String) (text : List Char) : Prop :=
  ∃ inside, SpellsChars s.toList inside ∧ text = '"' :: inside ++ ['"']

mutual

inductive Spells (Numeral : Number → List Char → Prop) : Value → List Char → Prop
  | null : Spells Numeral .null ['n', 'u', 'l', 'l']
  | yes : Spells Numeral (.bool true) ['t', 'r', 'u', 'e']
  | no : Spells Numeral (.bool false) ['f', 'a', 'l', 's', 'e']
  | number {n : Number} {text : List Char} (spelled : Numeral n text) :
      Spells Numeral (.number n) text
  | string {s : String} {text : List Char} (spelled : SpellsString s text) :
      Spells Numeral (.string s) text
  | emptyArray {gap : List Char} (space : IsGap gap) :
      Spells Numeral (.array []) ('[' :: gap ++ [']'])
  | array {gap text more : List Char} {v : Value} {items : List Value} (space : IsGap gap)
      (first : Spells Numeral v text) (others : SpellsItems Numeral items more) :
      Spells Numeral (.array (v :: items)) ('[' :: gap ++ text ++ more)
  | emptyObject {gap : List Char} (space : IsGap gap) :
      Spells Numeral (.object []) ('\x7b' :: gap ++ ['\x7d'])
  | object {gap text more : List Char} {m : String × Value} {members : List (String × Value)}
      (space : IsGap gap) (first : SpellsMember Numeral m text)
      (others : SpellsMembers Numeral members more) :
      Spells Numeral (.object (m :: members)) ('\x7b' :: gap ++ text ++ more)

/-- What follows an item: other items, each after a comma, and the bracket. -/
inductive SpellsItems (Numeral : Number → List Char → Prop) : List Value → List Char → Prop
  | close {gap : List Char} (space : IsGap gap) : SpellsItems Numeral [] (gap ++ [']'])
  | item {before after text more : List Char} {v : Value} {items : List Value}
      (spaceBefore : IsGap before) (spaceAfter : IsGap after) (next : Spells Numeral v text)
      (others : SpellsItems Numeral items more) :
      SpellsItems Numeral (v :: items) (before ++ ',' :: after ++ text ++ more)

inductive SpellsMember (Numeral : Number → List Char → Prop) : String × Value → List Char → Prop
  | mk {key : String} {v : Value} {name before after text : List Char}
      (spelled : SpellsString key name) (spaceBefore : IsGap before) (spaceAfter : IsGap after)
      (contents : Spells Numeral v text) :
      SpellsMember Numeral (key, v) (name ++ before ++ ':' :: after ++ text)

inductive SpellsMembers (Numeral : Number → List Char → Prop) :
    List (String × Value) → List Char → Prop
  | close {gap : List Char} (space : IsGap gap) : SpellsMembers Numeral [] (gap ++ ['\x7d'])
  | member {before after text more : List Char} {m : String × Value}
      {members : List (String × Value)} (spaceBefore : IsGap before) (spaceAfter : IsGap after)
      (next : SpellsMember Numeral m text) (others : SpellsMembers Numeral members more) :
      SpellsMembers Numeral (m :: members) (before ++ ',' :: after ++ text ++ more)

end

/-- No number goes on with this. -/
def EndsNumber : Input → Prop
  | .char c :: _ => digitOf? c = none ∧ c ≠ '.' ∧ c ≠ 'e' ∧ c ≠ 'E'
  | _ => True

/-- Wherever the text stands, it is read as the number. -/
structure Number.ReadAs (n : Number) (text : List Char) : Prop where
  starts : ∃ c rest, text = c :: rest ∧ (c = '-' ∨ (digitOf? c).isSome)
  read : ∀ fuel depth rest, EndsNumber rest →
    value (fuel + 1) depth (.ofText text ++ rest) = .ok (.number n, rest)

@[simp] theorem ofText_nil : Input.ofText [] = [] := rfl

@[simp] theorem ofText_cons (c : Char) (text : List Char) :
    Input.ofText (c :: text) = .char c :: Input.ofText text := rfl

@[simp] theorem ofText_append (first second : List Char) :
    Input.ofText (first ++ second) = Input.ofText first ++ Input.ofText second :=
  List.map_append

theorem ofText_length (text : List Char) : (Input.ofText text).length = text.length := List.length_map _

section Gaps
variable {gap : List Char} {rest : Input}

theorem skipSpace_gap (space : IsGap gap) (rest : Input) :
    skipSpace (.ofText gap ++ rest) = skipSpace rest := by
  induction gap with
  | nil => rfl
  | cons c gap ih =>
      rw [ofText_cons, List.cons_append, skipSpace, if_pos (space c List.mem_cons_self)]
      exact ih fun other member => space other (List.mem_cons_of_mem c member)

theorem skipSpace_stop {c : Char} (solid : isSpace c = false) (rest : Input) :
    skipSpace (.char c :: rest) = .char c :: rest := by
  rw [skipSpace, if_neg (by rw [solid]; decide)]

theorem skipSpace_before {c : Char} (space : IsGap gap) (solid : isSpace c = false) (rest : Input) :
    skipSpace (.ofText gap ++ .char c :: rest) = .char c :: rest :=
  (skipSpace_gap space _).trans (skipSpace_stop solid rest)

theorem value_gap (space : IsGap gap) (fuel depth : Nat) (rest : Input) :
    value fuel depth (.ofText gap ++ rest) = value fuel depth rest := by
  unfold value
  rw [skipSpace_gap space]

end Gaps

section Strings
variable {text : List Char} {rest : Input}

theorem hexDigit_read {c : Char} {n : Nat} (digit : HexDigit c n) :
    hexQuad?.hexDigit? c = some n ∧ n < 16 := by
  have decimals : ∀ n < 10, hexQuad?.hexDigit? (Char.ofNat (48 + n)) = some n := by decide
  have letters : ∀ n < 16, 10 ≤ n → hexQuad?.hexDigit? (Char.ofNat (87 + n)) = some n ∧
      hexQuad?.hexDigit? (Char.ofNat (55 + n)) = some n := by decide
  cases digit with
  | decimal _ small => exact ⟨decimals n small, by omega⟩
  | lower _ low high => exact ⟨(letters n high low).1, high⟩
  | upper _ low high => exact ⟨(letters n high low).2, high⟩

theorem hexQuad_read {n : Nat} (spelled : SpellsHex n text) (rest : Input) :
    hexQuad? (.ofText text ++ rest) = some (n, rest) := by
  obtain ⟨a, b, c, d, i, j, k, l, first, second, third, fourth, rfl, rfl⟩ := spelled
  simp only [ofText_cons, ofText_nil, List.cons_append, List.nil_append, hexQuad?,
    (hexDigit_read first).1, (hexDigit_read second).1, (hexDigit_read third).1,
    (hexDigit_read fourth).1]
  rfl

theorem escape_read {c : Char} (spelled : SpellsEscape c text) (rest : Input) :
    escape (.ofText text ++ rest) = .ok (c, rest) := by
  cases spelled with
  | letter known =>
      have letters : ∀ pair ∈ escapeLetters, pair.1 ≠ 'u' ∧ shortEscape? pair.1 = some pair.2 := by
        decide
      obtain ⟨noUnit, short⟩ := letters _ known
      simp only [ofText_cons, ofText_nil, List.cons_append, List.nil_append]
      unfold escape
      split
      · contradiction
      · rename_i same
        simp only [List.cons.injEq, Utf8.Piece.char.injEq] at same
        exact absurd same.1 noUnit
      · rename_i same
        simp only [List.cons.injEq, Utf8.Piece.char.injEq] at same
        obtain ⟨rfl, rfl⟩ := same
        rw [short]
      · rename_i other
        exact (other _ _ rfl).elim
  | unit digits alone =>
      rw [ofText_cons, List.cons_append, escape, hexQuad_read digits]
      simp only
      rw [if_neg (by omega), if_neg (by omega)]
  | pair first second isHigh isLow =>
      simp only [ofText_cons, ofText_append, List.cons_append, List.append_assoc, escape,
        hexQuad_read first]
      rw [if_neg (by omega), if_pos isHigh]
      simp only [trailingSurrogate, hexQuad_read second]
      rw [if_pos isLow]

theorem stringRest_read {cs : List Char} (spelled : SpellsChars cs text) {fuel : Nat}
    (enough : text.length < fuel) (content : List Char) (rest : Input) :
    stringRest fuel content true (.ofText text ++ .char '"' :: rest) =
      .ok (String.ofList (content.reverse ++ cs), rest) := by
  induction spelled generalizing fuel content with
  | nil =>
      obtain ⟨fuel, rfl⟩ : ∃ less, fuel = less + 1 := ⟨fuel - 1, by omega⟩
      rw [ofText_nil, List.nil_append, stringRest, if_pos rfl, if_pos rfl, List.append_nil]
  | plain noQuote noBackslash printable _ ih =>
      obtain ⟨fuel, rfl⟩ : ∃ less, fuel = less + 1 := ⟨fuel - 1, by omega⟩
      rw [ofText_cons, List.cons_append, stringRest, if_neg noQuote, if_neg noBackslash,
        if_neg printable, ih (by simpa using enough)]
      simp
  | escaped spelled _ ih =>
      obtain ⟨fuel, rfl⟩ : ∃ less, fuel = less + 1 := ⟨fuel - 1, by omega⟩
      simp only [ofText_cons, ofText_append, List.cons_append, List.append_assoc]
      rw [stringRest, if_neg (by decide), if_pos rfl, escape_read spelled]
      simp only
      rw [ih (by simp only [List.length_cons, List.length_append] at enough; omega)]
      simp

theorem string_read {s : String} (spelled : SpellsString s text) :
    ∃ inside, text = '"' :: inside ∧ ∀ fuel rest, text.length ≤ fuel →
      stringRest fuel [] true (.ofText inside ++ rest) = .ok (s, rest) := by
  obtain ⟨inside, chars, rfl⟩ := spelled
  refine ⟨inside ++ ['"'], rfl, fun fuel rest enough => ?_⟩
  simp only [List.cons_append, List.length_cons, List.length_append, List.length_nil] at enough
  rw [ofText_append, List.append_assoc]
  refine (stringRest_read chars (by omega) [] rest).trans ?_
  rw [List.reverse_nil, List.nil_append, String.ofList_toList]

end Strings

end AttestationService.Json

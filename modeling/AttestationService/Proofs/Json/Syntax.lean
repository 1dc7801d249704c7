import AttestationService.Proofs.Json.Grammar

/-!
The grammar of RFC 8259, whatever the texts stand for: numbers of any size, strings whose escapes need not be
characters, and brackets to any depth. Every spelling of a value follows it.
-/

namespace AttestationService.Json

def IsFraction (text : List Char) : Prop :=
  text = [] ∨ ∃ digits, AllDigits digits ∧ digits ≠ [] ∧ text = '.' :: digits

def IsExponent (text : List Char) : Prop :=
  text = [] ∨ ∃ letter sign digits, (letter = 'e' ∨ letter = 'E') ∧ sign ∈ [[], ['+'], ['-']] ∧
    AllDigits digits ∧ digits ≠ [] ∧ text = letter :: (sign ++ digits)

def IsUnsigned (text : List Char) : Prop :=
  ∃ whole fraction exponent, IsDecimal whole ∧ IsFraction fraction ∧ IsExponent exponent ∧
    text = whole ++ fraction ++ exponent

def IsNumberText (text : List Char) : Prop :=
  IsUnsigned text ∨ ∃ unsigned, IsUnsigned unsigned ∧ text = '-' :: unsigned

/-- What stands between the quotes of a string. Four digits need not name a character. -/
inductive IsCharsText : List Char → Prop
  | nil : IsCharsText []
  | plain {c : Char} {text : List Char} (noQuote : c ≠ '"') (noBackslash : c ≠ '\\') (printable : ¬ c < ' ')
      (more : IsCharsText text) : IsCharsText (c :: text)
  | letter {l c : Char} {text : List Char} (known : (l, c) ∈ escapeLetters) (more : IsCharsText text) :
      IsCharsText ('\\' :: l :: text)
  | unit {n : Nat} {digits text : List Char} (spelled : SpellsHex n digits) (more : IsCharsText text) :
      IsCharsText ('\\' :: 'u' :: digits ++ text)

def IsStringText (text : List Char) : Prop :=
  ∃ inside, IsCharsText inside ∧ text = '"' :: inside ++ ['"']

abbrev MemberText := List Char × List Char

mutual

inductive IsValueText : List Char → Prop
  | null : IsValueText ['n', 'u', 'l', 'l']
  | yes : IsValueText ['t', 'r', 'u', 'e']
  | no : IsValueText ['f', 'a', 'l', 's', 'e']
  | number {text : List Char} (formed : IsNumberText text) : IsValueText text
  | string {text : List Char} (formed : IsStringText text) : IsValueText text
  | emptyArray {gap : List Char} (space : IsGap gap) : IsValueText ('[' :: gap ++ [']'])
  | array {gap text more : List Char} (space : IsGap gap) (first : IsValueText text)
      (others : IsItemsText more) : IsValueText ('[' :: gap ++ text ++ more)
  | object {members : List MemberText} {text : List Char} (formed : IsObjectText members text) :
      IsValueText text

inductive IsItemsText : List Char → Prop
  | close {gap : List Char} (space : IsGap gap) : IsItemsText (gap ++ [']'])
  | item {before after text more : List Char} (spaceBefore : IsGap before) (spaceAfter : IsGap after)
      (next : IsValueText text) (others : IsItemsText more) :
      IsItemsText (before ++ ',' :: after ++ text ++ more)

/-- An object with these members. -/
inductive IsObjectText : List MemberText → List Char → Prop
  | empty {gap : List Char} (space : IsGap gap) : IsObjectText [] ('\x7b' :: gap ++ ['\x7d'])
  | members {gap text more : List Char} {m : MemberText} {members : List MemberText} (space : IsGap gap)
      (first : IsMemberText m text) (others : IsMembersText members more) :
      IsObjectText (m :: members) ('\x7b' :: gap ++ text ++ more)

inductive IsMemberText : MemberText → List Char → Prop
  | mk {name before after text : List Char} (named : IsStringText name) (spaceBefore : IsGap before)
      (spaceAfter : IsGap after) (contents : IsValueText text) :
      IsMemberText (name, text) (name ++ before ++ ':' :: after ++ text)

inductive IsMembersText : List MemberText → List Char → Prop
  | close {gap : List Char} (space : IsGap gap) : IsMembersText [] (gap ++ ['\x7d'])
  | member {before after text more : List Char} {m : MemberText} {members : List MemberText}
      (spaceBefore : IsGap before) (spaceAfter : IsGap after) (next : IsMemberText m text)
      (others : IsMembersText members more) :
      IsMembersText (m :: members) (before ++ ',' :: after ++ text ++ more)

end

section Strings
variable {text : List Char}

theorem SpellsChars.formed {cs : List Char} (spelled : SpellsChars cs text) : IsCharsText text := by
  induction spelled with
  | nil => exact .nil
  | plain noQuote noBackslash printable _ ih => exact .plain noQuote noBackslash printable ih
  | escaped escape _ ih =>
      cases escape with
      | letter known => exact .letter known ih
      | unit spelled _ => exact .unit spelled ih
      | pair first second _ _ =>
          have later := IsCharsText.unit first (.unit second ih)
          simpa using later

theorem SpellsString.formed {s : String} (spelled : SpellsString s text) : IsStringText text := by
  obtain ⟨inside, chars, rfl⟩ := spelled
  exact ⟨inside, chars.formed, rfl⟩

end Strings

end AttestationService.Json

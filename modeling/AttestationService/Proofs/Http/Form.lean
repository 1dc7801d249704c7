import AttestationService.Http.Form
import AttestationService.Http.Target
import AttestationService.Proofs.Json.Spelling
import AttestationService.Proofs.Text.Search
import AttestationService.Proofs.Text.Utf8
import Mathlib.Data.List.TakeWhile

/-!
Pairs in a query, in every way in which they may be written there. Whichever way that is, the octets
of the keys and values are found again, and so are the pairs, in their order and no others.
-/

namespace AttestationService.Http

namespace Form

def Plain (c : Char) : Prop := Target.isQueryChar c = true ∧ c ∉ ['%', '+', '&']

instance (c : Char) : Decidable (Plain c) := inferInstanceAs (Decidable (_ ∧ _))

inductive Spells : List UInt8 → List Char → Prop where
  | nil : Spells [] []
  | escaped {a b : Char} {i j : Nat} {octets : List UInt8} {text : List Char} (high : Json.HexDigit a i)
      (low : Json.HexDigit b j) (more : Spells octets text) :
      Spells (UInt8.ofNat (i * 16 + j) :: octets) ('%' :: a :: b :: text)
  | space {octets : List UInt8} {text : List Char} (more : Spells octets text) :
      Spells (0x20 :: octets) ('+' :: text)
  | plain {c : Char} {octets : List UInt8} {text : List Char} (itself : Plain c) (more : Spells octets text) :
      Spells (String.utf8EncodeChar c ++ octets) (c :: text)

/-- The ways to write a pair. The first equals sign ends the key, so in a key none stands for itself; where
no value follows, it may be left out, but then the key is not empty. -/
inductive SpellsPair : String × String → List Char → Prop where
  | full {key value : String} {front back : List Char} (named : Spells (Utf8.encodeString key) front)
      (unmarked : '=' ∉ front) (valued : Spells (Utf8.encodeString value) back) :
      SpellsPair (key, value) (front ++ '=' :: back)
  | alone {key : String} {text : List Char} (named : Spells (Utf8.encodeString key) text)
      (unmarked : '=' ∉ text) (given : key ≠ "") : SpellsPair (key, "") text

inductive SpellsPairs : List (String × String) → List Char → Prop where
  | nil : SpellsPairs [] []
  | last {pair : String × String} {text : List Char} (spelled : SpellsPair pair text) :
      SpellsPairs [pair] text
  | gap {pairs : List (String × String)} {text : List Char} (more : SpellsPairs pairs text) :
      SpellsPairs pairs ('&' :: text)
  | next {pair : String × String} {pairs : List (String × String)} {front text : List Char}
      (spelled : SpellsPair pair front) (more : SpellsPairs pairs text) :
      SpellsPairs (pair :: pairs) (front ++ '&' :: text)

structure Digit (c : Char) (n : Nat) (octet : UInt8) : Prop where
  alone : String.utf8EncodeChar c = [octet]
  value : Hex.digit? octet = some n
  kept : plusToSpace octet = octet
  queried : Target.isQueryChar c = true ∧ c ≠ '&'

instance (c : Char) (n : Nat) (octet : UInt8) : Decidable (Digit c n octet) :=
  decidable_of_iff (_ ∧ _ ∧ _ ∧ _)
    ⟨fun ⟨alone, value, kept, queried⟩ => ⟨alone, value, kept, queried⟩,
      fun digit => ⟨digit.alone, digit.value, digit.kept, digit.queried⟩⟩

theorem hexDigit_octet {c : Char} {n : Nat} (digit : Json.HexDigit c n) : ∃ octet, Digit c n octet := by
  have decimals : ∀ n < 10, Digit (Char.ofNat (48 + n)) n (UInt8.ofNat (48 + n)) := by decide
  have letters : ∀ n < 16, 10 ≤ n → Digit (Char.ofNat (87 + n)) n (UInt8.ofNat (87 + n)) ∧
      Digit (Char.ofNat (55 + n)) n (UInt8.ofNat (55 + n)) := by decide
  cases digit with
  | decimal _ small => exact ⟨_, decimals n small⟩
  | lower _ low high => exact ⟨_, (letters n high low).1⟩
  | upper _ low high => exact ⟨_, (letters n high low).2⟩

section Decoding
variable {octet : UInt8} {octets : List UInt8} {text : List Char}

theorem percentDecode_other (other : octet ≠ 0x25) (rest : List UInt8) :
    percentDecode (octet :: rest) = octet :: percentDecode rest := by
  match rest with
  | [] => rfl
  | [_] => rfl
  | _ :: _ :: _ => rw [percentDecode, if_neg other]

theorem percentDecode_plain {front : List UInt8} (plain : ∀ octet ∈ front, octet ≠ 0x25)
    (rest : List UInt8) : percentDecode (front ++ rest) = front ++ percentDecode rest := by
  induction front with
  | nil => rfl
  | cons octet front ih =>
      obtain ⟨other, others⟩ := List.forall_mem_cons.mp plain
      rw [List.cons_append, percentDecode_other other, ih others, List.cons_append]

theorem plain_octets {c : Char} (plain : Plain c) :
    ∀ octet ∈ String.utf8EncodeChar c, octet ≠ 0x25 ∧ octet ≠ 0x2B := by
  intro octet member
  constructor
  · rintro rfl
    obtain rfl : c = '%' := Utf8.mem_encodeChar (by decide) member
    exact plain.2 (by decide)
  · rintro rfl
    obtain rfl : c = '+' := Utf8.mem_encodeChar (by decide) member
    exact plain.2 (by decide)

theorem Spells.decoded (spelled : Spells octets text) :
    percentDecode ((Utf8.encode text).map plusToSpace) = octets := by
  -- plus signs are replaced everywhere first, and no digit and no plain character is one
  induction spelled with
  | nil => rfl
  | @escaped a b i j octets text high low _ ih =>
      obtain ⟨first, digit⟩ := hexDigit_octet high
      obtain ⟨second, last⟩ := hexDigit_octet low
      have octets : (Utf8.encode ('%' :: a :: b :: text)).map plusToSpace =
          0x25 :: first :: second :: (Utf8.encode text).map plusToSpace := by
        simp only [Utf8.encode, List.flatMap_cons, digit.alone, last.alone, List.map_append, List.map_cons,
          List.map_nil, digit.kept, last.kept]
        rfl
      rw [octets, percentDecode, if_pos rfl, digit.value, last.value, ih]
  | space _ ih => exact (percentDecode_other (by decide) _).trans (congrArg _ ih)
  | @plain c octets text itself _ ih =>
      have same : (String.utf8EncodeChar c).map plusToSpace = String.utf8EncodeChar c := by
        refine (List.map_congr_left fun octet member => ?_).trans (List.map_id _)
        exact if_neg (plain_octets itself octet member).2
      rw [Utf8.encode, List.flatMap_cons, List.map_append, same,
        percentDecode_plain fun octet member => (plain_octets itself octet member).1]
      exact congrArg _ ih

end Decoding

section Queries
variable {octets : List UInt8} {text : List Char} {s e : String}

theorem Spells.queried (spelled : Spells octets text) :
    ∀ c ∈ text, Target.isQueryChar c = true ∧ c ≠ '&' := by
  induction spelled with
  | nil => rintro _ ⟨⟩
  | escaped high low _ ih =>
      obtain ⟨_, digit⟩ := hexDigit_octet high
      obtain ⟨_, last⟩ := hexDigit_octet low
      exact List.forall_mem_cons.mpr ⟨by decide, List.forall_mem_cons.mpr ⟨digit.queried,
        List.forall_mem_cons.mpr ⟨last.queried, ih⟩⟩⟩
  | space _ ih => exact List.forall_mem_cons.mpr ⟨by decide, ih⟩
  | plain itself _ ih =>
      refine List.forall_mem_cons.mpr ⟨⟨itself.1, ?_⟩, ih⟩
      rintro rfl
      exact itself.2 (by decide)

theorem Spells.decode_eq (spelled : Spells (Utf8.encodeString s) text) : decode (Utf8.encode text) = s := by
  rw [decode, spelled.decoded, Utf8.lossyString_encodeString]

end Queries

section Pairs
variable {p : String × String} {ps : List (String × String)} {text : List Char}

theorem pairs_divided (front back : List Char) :
    pairs (Utf8.encode (front ++ '&' :: back)) = pairs (Utf8.encode front) ++ pairs (Utf8.encode back) := by
  have octets : Utf8.encode (front ++ '&' :: back) = Utf8.encode front ++ 0x26 :: Utf8.encode back :=
    Utf8.encode_append _ _
  rw [octets, pairs, Text.fields_append, List.filter_append, List.map_append]
  rfl

theorem SpellsPair.queried (spelled : SpellsPair p text) :
    ∀ c ∈ text, Target.isQueryChar c = true ∧ c ≠ '&' := by
  cases spelled with
  | full named _ valued =>
      intro c member
      rcases List.mem_append.mp member with inKey | inValue
      · exact named.queried c inKey
      · rcases List.mem_cons.mp inValue with rfl | inValue
        · decide
        · exact valued.queried c inValue
  | alone named _ _ => exact named.queried

theorem SpellsPair.given (spelled : SpellsPair p text) : text ≠ [] := by
  cases spelled with
  | full _ _ _ => simp
  | @alone key _ named _ given =>
      intro empty
      apply given
      rw [← named.decode_eq, empty]
      rfl

theorem SpellsPair.read (spelled : SpellsPair p text) : pair (Utf8.encode text) = p := by
  cases spelled with
  | @full key value front back named unmarked valued =>
      have octets : Utf8.encode (front ++ '=' :: back) = Utf8.encode front ++ 0x3D :: Utf8.encode back :=
        Utf8.encode_append _ _
      rw [pair, octets, Text.cutAt_found (Utf8.encode_absent (by decide) unmarked)]
      simp only [named.decode_eq, valued.decode_eq]
  | alone named unmarked _ =>
      rw [pair, Text.cutAt_none (Utf8.encode_absent (by decide) unmarked)]
      simp only [named.decode_eq]

theorem SpellsPair.found (spelled : SpellsPair p text) : pairs (Utf8.encode text) = [p] := by
  have whole : (0x26 : UInt8) ∉ Utf8.encode text :=
    Utf8.encode_absent (by decide) fun member => (spelled.queried _ member).2 rfl
  have filled : (Utf8.encode text).isEmpty = false := by
    cases text with
    | nil => exact absurd rfl spelled.given
    | cons c rest => simp [Utf8.encode, String.utf8EncodeChar_ne_nil]
  rw [pairs, Text.fields_whole whole, List.filter_cons_of_pos (by simp [filled]), List.filter_nil,
    List.map_singleton, spelled.read]

/-- However pairs are written, they are read. -/
theorem SpellsPairs.found (spelled : SpellsPairs ps text) : pairs (Utf8.encode text) = ps := by
  induction spelled with
  | nil => rfl
  | last spelled => exact spelled.found
  | gap _ ih => exact (pairs_divided [] _).trans ih
  | next spelled _ ih =>
      rw [pairs_divided, spelled.found, ih]
      rfl

theorem SpellsPairs.queried (spelled : SpellsPairs ps text) : ∀ c ∈ text, Target.isQueryChar c = true := by
  induction spelled with
  | nil => rintro _ ⟨⟩
  | last spelled => exact fun c member => (spelled.queried c member).1
  | gap _ ih => exact List.forall_mem_cons.mpr ⟨by decide, ih⟩
  | next spelled _ ih =>
      intro c member
      rcases List.mem_append.mp member with here | later
      · exact (spelled.queried c here).1
      · exact List.forall_mem_cons.mpr ⟨by decide, ih⟩ c later

theorem nonce_spelled {s e : String} (spelled : Spells (Utf8.encodeString s) e.toList) :
    SpellsPairs [("nonce", s)] ("nonce=" ++ e).toList := by
  have named : Spells (Utf8.encodeString "nonce") "nonce".toList :=
    .plain (by decide) (.plain (by decide) (.plain (by decide)
      (.plain (by decide) (.plain (by decide) .nil))))
  have text : ("nonce=" ++ e).toList = "nonce".toList ++ '=' :: e.toList := String.toList_append
  rw [text]
  exact .last (.full named (by decide) spelled)

theorem pairs_single {s e : String} (spelled : Spells (Utf8.encodeString s) e.toList) :
    pairs (Utf8.encodeString ("nonce=" ++ e)) = [("nonce", s)] :=
  (nonce_spelled spelled).found

end Pairs

end Form

namespace Target

theorem ofPath_query {path query : List Char}
    (pathLetters : ∀ c ∈ path, isPathChar c = true ∧ c ≠ '?')
    (queryLetters : ∀ c ∈ query, isQueryChar c = true) :
    ofPath? (path ++ '?' :: query) = some (String.ofList path, some (String.ofList query)) := by
  have noFragment : (path ++ '?' :: query).takeWhile (· != '#') = path ++ '?' :: query := by
    refine List.takeWhile_eq_self_iff.mpr fun c member => bne_iff_ne.mpr ?_
    rintro rfl
    rcases List.mem_append.mp member with inPath | inQuery
    · exact absurd (pathLetters _ inPath).1 (by decide)
    · rcases List.mem_cons.mp inQuery with same | inQuery
      · exact absurd same (by decide)
      · exact absurd (queryLetters _ inQuery) (by decide)
  have before : ∀ c ∈ path, (c != '?') = true := fun c member => bne_iff_ne.mpr (pathLetters c member).2
  have valid : (path.all isPathChar && query.all isQueryChar) = true :=
    Bool.and_eq_true_iff.mpr
      ⟨List.all_eq_true.mpr fun c member => (pathLetters c member).1, List.all_eq_true.mpr queryLetters⟩
  unfold ofPath?
  simp only [noFragment, List.takeWhile_append_of_pos before, List.dropWhile_append_of_pos before]
  rw [List.takeWhile_cons_of_neg (by decide), List.dropWhile_cons_of_neg (by decide), List.append_nil]
  exact if_pos valid

theorem ofText_query {query : String} (letters : ∀ c ∈ query.toList, isQueryChar c = true)
    (fits : ("/gpu_attest?" ++ query).utf8ByteSize ≤ maxLength) :
    ofText? ("/gpu_attest?" ++ query).toList = some ⟨none, none, "/gpu_attest", some query⟩ := by
  have pathLetters : ∀ c ∈ "/gpu_attest".toList, isPathChar c = true ∧ c ≠ '?' := by
    intro c member
    have letter := List.all_eq_true.mp
      (show "/gpu_attest".toList.all (fun c => isPathChar c && c != '?') = true by decide) c member
    simpa using letter
  have parsed : ofPath? ("/gpu_attest".toList ++ '?' :: query.toList) =
      some (String.ofList "/gpu_attest".toList, some (String.ofList query.toList)) :=
    ofPath_query pathLetters letters
  have text : ("/gpu_attest?" ++ query).toList = "/gpu_attest".toList ++ '?' :: query.toList :=
    String.toList_append
  unfold ofText?
  rw [String.ofList_toList, if_neg (by omega), text]
  rw [String.ofList_toList, String.ofList_toList] at parsed
  exact congrArg (Option.map fun x : String × Option String => (⟨none, none, x.1, x.2⟩ : Target)) parsed

theorem ofText_nonce {s e : String} (spelled : Form.Spells (Utf8.encodeString s) e.toList)
    (fits : ("/gpu_attest?nonce=" ++ e).utf8ByteSize ≤ maxLength) :
    ofText? ("/gpu_attest?nonce=" ++ e).toList = some ⟨none, none, "/gpu_attest", some ("nonce=" ++ e)⟩ := by
  have text : "/gpu_attest?nonce=" ++ e = "/gpu_attest?" ++ ("nonce=" ++ e) := by
    rw [← String.append_assoc]
    rfl
  rw [text] at fits ⊢
  exact ofText_query (Form.nonce_spelled spelled).queried fits

end Target

end AttestationService.Http

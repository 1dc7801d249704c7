import AttestationService.Nonce
import Mathlib.Data.List.Induction

/-!
Which texts are nonces. Decoding succeeds exactly on an even number of hexadecimal digits, and a
character of more than one octet has no digit among them, so a nonce is a text of sixty-four ASCII
digits and nothing else.
-/

namespace AttestationService

theorem Utf8.encodeString_octets (text : String) :
    encodeString text = text.toByteArray.data.toList := by
  have spelled : text.toByteArray = text.toList.utf8Encode := by
    rw [← String.toByteArray_ofList, String.ofList_toList]
  rw [spelled]
  simp only [encodeString, encode, List.utf8Encode, List.data_toByteArray]

namespace Hex

theorem digit_isSome (octet : UInt8) :
    (digit? octet).isSome ↔ 0x30 ≤ octet.toNat ∧ octet.toNat ≤ 0x39 ∨
      0x41 ≤ octet.toNat ∧ octet.toNat ≤ 0x46 ∨ 0x61 ≤ octet.toNat ∧ octet.toNat ≤ 0x66 := by
  simp only [digit?]
  split
  · simp_all
  · split
    · simp_all
    · split <;> simp_all

theorem decode_cons (a b : UInt8) (rest octets : List UInt8)
    (decoded : decode (a :: b :: rest) = some octets) :
    (digit? a).isSome ∧ (digit? b).isSome ∧
      ∃ octet others, decode rest = some others ∧ octets = octet :: others := by
  unfold decode at decoded
  split at decoded
  · rename_i high low others first second known
    cases decoded
    exact ⟨by rw [first]; rfl, by rw [second]; rfl, _, others, known, rfl⟩
  · cases decoded

theorem decode_some (text octets : List UInt8) (decoded : decode text = some octets) :
    text.length = 2 * octets.length ∧ ∀ octet ∈ text, (digit? octet).isSome := by
  induction text using List.twoStepInduction generalizing octets with
  | nil =>
      cases decoded
      exact ⟨rfl, fun octet member => by cases member⟩
  | singleton a => cases decoded
  | cons_cons a b rest ih _ =>
      obtain ⟨first, second, octet, others, known, rfl⟩ := decode_cons a b rest octets decoded
      obtain ⟨long, digits⟩ := ih others known
      constructor
      · simp only [List.length_cons]
        omega
      · intro other member
        rcases List.mem_cons.mp member with rfl | member
        · exact first
        · rcases List.mem_cons.mp member with rfl | later
          · exact second
          · exact digits other later

theorem decode_exists (text : List UInt8) (even : text.length % 2 = 0)
    (digits : ∀ octet ∈ text, (digit? octet).isSome) : ∃ octets, decode text = some octets := by
  induction text using List.twoStepInduction with
  | nil => exact ⟨[], rfl⟩
  | singleton a => cases even
  | cons_cons a b rest ih _ =>
      have parity : rest.length % 2 = 0 := by
        simp only [List.length_cons] at even
        omega
      obtain ⟨octets, known⟩ := ih parity fun octet member => digits octet (by simp [member])
      obtain ⟨high, first⟩ := Option.isSome_iff_exists.mp (digits a (by simp))
      obtain ⟨low, second⟩ := Option.isSome_iff_exists.mp (digits b (by simp))
      refine ⟨UInt8.ofNat (high * 16 + low) :: octets, ?_⟩
      simp only [decode, first, second, known]

/-- The length is compared twice: with the wanted one modulo the machine's word, and, as half of it
is counted in octets, with the wanted one itself. -/
theorem isEncodingOf_compared (text : List UInt8) (count : UInt64) :
    isEncodingOf text count = true ↔
      (text.length = (count * 2).toNat ∧ text.length = 2 * count.toNat) ∧
        ∀ octet ∈ text, (digit? octet).isSome := by
  unfold isEncodingOf
  by_cases long : text.length = (count * 2).toNat
  · rw [if_pos long]
    constructor
    · intro encodes
      cases decoded : decode text with
      | none =>
          rw [decoded] at encodes
          cases encodes
      | some octets =>
          rw [decoded] at encodes
          have counted : octets.length = count.toNat := beq_iff_eq.mp encodes
          obtain ⟨pairs, digits⟩ := decode_some text octets decoded
          exact ⟨⟨long, by rw [pairs, counted]⟩, digits⟩
    · rintro ⟨⟨_, twice⟩, digits⟩
      obtain ⟨octets, decoded⟩ := decode_exists text (by omega) digits
      have half := (decode_some text octets decoded).1
      rw [decoded]
      exact beq_iff_eq.mpr (by omega)
  · rw [if_neg long]
    constructor
    · intro impossible
      cases impossible
    · rintro ⟨⟨same, _⟩, _⟩
      exact absurd same long

-- The wanted length is computed modulo the machine's word, so it has to fit there.
theorem isEncodingOf_iff (text : List UInt8) (count : UInt64)
    (small : (count * 2).toNat = 2 * count.toNat) :
    isEncodingOf text count = true ↔
      text.length = 2 * count.toNat ∧ ∀ octet ∈ text, (digit? octet).isSome := by
  rw [isEncodingOf_compared, small, and_self]

def IsDigitOctet (octet : UInt8) : Prop :=
  '0'.toUInt8 ≤ octet ∧ octet ≤ '9'.toUInt8 ∨ 'A'.toUInt8 ≤ octet ∧ octet ≤ 'F'.toUInt8 ∨
    'a'.toUInt8 ≤ octet ∧ octet ≤ 'f'.toUInt8

theorem isDigitOctet_iff (octet : UInt8) : IsDigitOctet octet ↔ (digit? octet).isSome := by
  rw [digit_isSome]
  simp only [IsDigitOctet, UInt8.le_iff_toNat_le]
  rfl

/-- The texts of `2 * count` digits pass and no others, the product taken without a bound: where it
does not fit into the machine's word, no text passes. -/
theorem encodes_iff (text : String) (count : UInt64) (fits : text.utf8ByteSize < UInt64.size) :
    isEncodingOf (Utf8.encodeString text) count = true ↔
      text.utf8ByteSize = 2 * count.toNat ∧
        ∀ octet ∈ text.toByteArray.data.toList, IsDigitOctet octet := by
  have spelled := Utf8.encodeString_octets text
  have size : (Utf8.encodeString text).length = text.utf8ByteSize := by
    rw [spelled, Array.length_toList]
    rfl
  have product : (count * 2).toNat = count.toNat * 2 % UInt64.size := UInt64.toNat_mul count 2
  rw [isEncodingOf_compared, size, spelled]
  constructor
  · rintro ⟨⟨_, twice⟩, digits⟩
    exact ⟨twice, fun octet member => (isDigitOctet_iff octet).mpr (digits octet member)⟩
  · rintro ⟨twice, digits⟩
    have unwrapped : count.toNat * 2 % UInt64.size = count.toNat * 2 :=
      Nat.mod_eq_of_lt (by omega)
    exact ⟨⟨by omega, twice⟩, fun octet member => (isDigitOctet_iff octet).mp (digits octet member)⟩

/-- The product wraps around to two, the length of the text, and the text does not pass. -/
theorem encodes_iff_wrapped :
    "ab".utf8ByteSize < UInt64.size ∧ ((0x8000000000000001 : UInt64) * 2).toNat = "ab".utf8ByteSize ∧
      ¬ isEncodingOf (Utf8.encodeString "ab") 0x8000000000000001 = true := by
  have fits : "ab".utf8ByteSize < UInt64.size := by decide
  refine ⟨fits, by decide, fun encodes => ?_⟩
  have twice := ((encodes_iff "ab" 0x8000000000000001 fits).mp encodes).1
  exact absurd twice (by decide)

end Hex

def IsHexDigit (c : Char) : Prop :=
  '0' ≤ c ∧ c ≤ '9' ∨ 'A' ≤ c ∧ c ≤ 'F' ∨ 'a' ≤ c ∧ c ≤ 'f'

def IsNonceText (text : String) : Prop :=
  text.toList.length = 64 ∧ ∀ c ∈ text.toList, IsHexDigit c

theorem isHexDigit_iff (c : Char) :
    IsHexDigit c ↔ 0x30 ≤ c.toNat ∧ c.toNat ≤ 0x39 ∨
      0x41 ≤ c.toNat ∧ c.toNat ≤ 0x46 ∨ 0x61 ≤ c.toNat ∧ c.toNat ≤ 0x66 := by
  simp only [IsHexDigit, Char.le_def, UInt32.le_iff_toNat_le]
  rfl

namespace Utf8

theorem encodeChar_digits (c : Char) :
    (∀ octet ∈ String.utf8EncodeChar c, (Hex.digit? octet).isSome) ↔ IsHexDigit c := by
  rw [isHexDigit_iff]
  by_cases ascii : c.val.toNat ≤ 0x7f
  · have single : String.utf8EncodeChar c = [UInt8.ofNat c.val.toNat] := if_pos ascii
    have value : (UInt8.ofNat c.val.toNat).toNat = c.toNat := by
      rw [UInt8.toNat_ofNat']
      exact Nat.mod_eq_of_lt (by omega)
    rw [single, List.forall_mem_singleton, Hex.digit_isSome, value]
  · constructor
    · intro digits
      -- every longer form ends in an octet with its high bit set
      have last : UInt8.ofNat (c.val.toNat % 0x40 + 0x80) ∈ String.utf8EncodeChar c := by
        simp only [String.utf8EncodeChar, ascii, if_false]
        split
        · simp
        · split <;> simp
      have digit := (Hex.digit_isSome _).mp (digits _ last)
      rw [UInt8.toNat_ofNat'] at digit
      omega
    · intro digit
      have value : c.toNat = c.val.toNat := rfl
      omega

theorem encode_digits (text : List Char) :
    (∀ octet ∈ encode text, (Hex.digit? octet).isSome) ↔ ∀ c ∈ text, IsHexDigit c := by
  simp only [encode, List.mem_flatMap]
  constructor
  · intro digits c member
    apply (encodeChar_digits c).mp
    exact fun octet part => digits octet ⟨c, member, part⟩
  · rintro digits octet ⟨c, member, part⟩
    exact (encodeChar_digits c).mpr (digits c member) octet part

theorem encode_digits_length (text : List Char) (digits : ∀ c ∈ text, IsHexDigit c) :
    (encode text).length = text.length := by
  induction text with
  | nil => rfl
  | cons c rest ih =>
      have digit := (isHexDigit_iff c).mp (digits c List.mem_cons_self)
      have tail := ih fun other member => digits other (List.mem_cons_of_mem c member)
      have value : c.toNat = c.val.toNat := rfl
      have single : String.utf8EncodeChar c = [UInt8.ofNat c.val.toNat] := if_pos (by omega)
      have split : encode (c :: rest) = UInt8.ofNat c.val.toNat :: encode rest := by
        simp only [encode, List.flatMap_cons, single, List.singleton_append]
      rw [split, List.length_cons, List.length_cons, tail]

end Utf8

/-- A text is a nonce exactly if it has sixty-four characters and all are hexadecimal digits. -/
theorem isNonceText_iff (text : String) :
    Hex.isEncodingOf (Utf8.encodeString text) Nonce.size = true ↔ IsNonceText text := by
  rw [Hex.isEncodingOf_iff _ _ (by decide), Utf8.encodeString, Utf8.encode_digits, IsNonceText]
  constructor
  · rintro ⟨long, digits⟩
    rw [Utf8.encode_digits_length _ digits] at long
    exact ⟨long, digits⟩
  · rintro ⟨long, digits⟩
    rw [Utf8.encode_digits_length _ digits]
    exact ⟨long, digits⟩

end AttestationService

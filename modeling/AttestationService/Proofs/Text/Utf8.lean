import AttestationService.Text.Utf8
import Mathlib.Data.List.Basic

/-!
Reading back what was written as octets: every text is found again, character by character, and
nothing is taken for a stray. So two texts with the same octets are the same.
-/

namespace AttestationService.Utf8

theorem toNat_ofNat_small {n : Nat} (small : n < 256) : (UInt8.ofNat n).toNat = n := by
  rw [UInt8.toNat_ofNat']
  exact Nat.mod_eq_of_lt small

section Begin
variable {octet : UInt8}

theorem begin_one (low : octet.toNat < 0x80) :
    begin octet = .inl (.char (Char.ofNat octet.toNat)) := by
  simp only [begin, UInt8.lt_iff_toNat_lt, UInt8.reduceToNat, low, if_true]

theorem begin_two (low : 0xC2 ≤ octet.toNat) (high : octet.toNat < 0xE0) :
    begin octet = .inr ⟨[octet], 1, 0x80, 0xBF, octet.toNat - 0xC0⟩ := by
  simp only [begin, UInt8.lt_iff_toNat_lt, UInt8.reduceToNat, high, if_true]
  rw [if_neg (by omega), if_neg (by omega)]

theorem begin_three (low : 0xE0 ≤ octet.toNat) (high : octet.toNat < 0xF0) :
    begin octet = .inr ⟨[octet], 2, if octet.toNat = 0xE0 then 0xA0 else 0x80,
      if octet.toNat = 0xED then 0x9F else 0xBF, octet.toNat - 0xE0⟩ := by
  simp only [begin, UInt8.lt_iff_toNat_lt, ← UInt8.toNat_inj, UInt8.reduceToNat, high, if_true]
  rw [if_neg (by omega), if_neg (by omega), if_neg (by omega)]
  by_cases first : octet.toNat = 0xE0
  · simp [first]
  · by_cases surrogates : octet.toNat = 0xED
    · simp [surrogates]
    · simp [first, surrogates]

theorem begin_four (low : 0xF0 ≤ octet.toNat) (high : octet.toNat < 0xF5) :
    begin octet = .inr ⟨[octet], 3, if octet.toNat = 0xF0 then 0x90 else 0x80,
      if octet.toNat = 0xF4 then 0x8F else 0xBF, octet.toNat - 0xF0⟩ := by
  simp only [begin, UInt8.lt_iff_toNat_lt, ← UInt8.toNat_inj, UInt8.reduceToNat]
  rw [if_neg (by omega), if_neg (by omega), if_neg (by omega), if_neg (by omega), if_neg (by omega),
    if_neg (by omega)]
  by_cases first : octet.toNat = 0xF0
  · simp [first]
  · by_cases last : octet.toNat = 0xF4
    · simp [last]
    · have middle : octet.toNat < 0xF4 := by omega
      simp [first, last, middle]

end Begin

theorem step_begin (done : List Piece) {octet : UInt8} {p : Pending} (begins : begin octet = .inr p) :
    Reader.step ⟨done, none⟩ octet = ⟨done, some p⟩ := by
  simp only [Reader.step, Reader.fresh, begins]

theorem step_follow (done : List Piece) (seen : List UInt8) (owed : Nat) {low high : UInt8}
    (before bits : Nat) (small : bits < 64) (above : low.toNat ≤ bits + 128)
    (below : bits + 128 ≤ high.toNat) :
    Reader.step ⟨done, some ⟨seen, owed, low, high, before⟩⟩ (UInt8.ofNat (bits + 128)) =
      if owed ≤ 1 then ⟨.char (Char.ofNat (before * 64 + bits)) :: done, none⟩
      else ⟨done, some ⟨UInt8.ofNat (bits + 128) :: seen, owed - 1, 0x80, 0xBF,
        before * 64 + bits⟩⟩ := by
  have octet := toNat_ofNat_small (n := bits + 128) (by omega)
  simp only [Reader.step, UInt8.le_iff_toNat_le, octet, above, below, and_self, if_true,
    Nat.add_sub_cancel]

section Forms
variable (done : List Piece) {a b c d : Nat}

theorem step_last (seen : List UInt8) (bits : Nat) (small : a < 64) :
    Reader.step ⟨done, some ⟨seen, 1, 0x80, 0xBF, bits⟩⟩ (UInt8.ofNat (a + 128)) =
      ⟨.char (Char.ofNat (bits * 64 + a)) :: done, none⟩ :=
  step_follow done seen 1 bits a small (Nat.le_add_left _ _) (show a + 128 ≤ 191 by omega)

theorem step_middle (seen : List UInt8) (owed bits : Nat) (small : a < 64) :
    Reader.step ⟨done, some ⟨seen, owed + 2, 0x80, 0xBF, bits⟩⟩ (UInt8.ofNat (a + 128)) =
      ⟨done, some ⟨UInt8.ofNat (a + 128) :: seen, owed + 1, 0x80, 0xBF, bits * 64 + a⟩⟩ := by
  have below : a + 128 ≤ (0xBF : UInt8).toNat := show a + 128 ≤ 191 by omega
  rw [step_follow done seen (owed + 2) bits a small (Nat.le_add_left _ _) below]
  exact if_neg (show ¬ owed + 2 ≤ 1 by omega)

theorem read_one (high : a < 0x80) :
    [UInt8.ofNat a].foldl Reader.step ⟨done, none⟩ = ⟨.char (Char.ofNat a) :: done, none⟩ := by
  have octet := toNat_ofNat_small (n := a) (by omega)
  have ascii : (UInt8.ofNat a).toNat < 0x80 := by omega
  simp only [List.foldl_cons, List.foldl_nil, Reader.step, Reader.fresh, begin_one ascii, octet]

theorem read_two (low : 2 ≤ a) (high : a < 32) (small : b < 64) :
    [UInt8.ofNat (a + 192), UInt8.ofNat (b + 128)].foldl Reader.step ⟨done, none⟩ =
      ⟨.char (Char.ofNat (a * 64 + b)) :: done, none⟩ := by
  have octet := toNat_ofNat_small (n := a + 192) (by omega)
  simp only [List.foldl_cons, List.foldl_nil]
  rw [step_begin done (begin_two (by omega) (by omega)), octet, Nat.add_sub_cancel,
    step_last done _ _ small]

-- The bounds of the second octet shut out overlong forms and surrogates.
theorem read_three (high : a < 16) (least : a = 0 → 32 ≤ b) (greatest : a = 13 → b < 32)
    (smallB : b < 64) (smallC : c < 64) :
    [UInt8.ofNat (a + 224), UInt8.ofNat (b + 128), UInt8.ofNat (c + 128)].foldl Reader.step
        ⟨done, none⟩ =
      ⟨.char (Char.ofNat ((a * 64 + b) * 64 + c)) :: done, none⟩ := by
  have octet := toNat_ofNat_small (n := a + 224) (by omega)
  have low : (if a + 224 = 0xE0 then (0xA0 : UInt8) else 0x80).toNat ≤ b + 128 := by
    by_cases first : a + 224 = 0xE0
    · rw [if_pos first]
      have := least (by omega)
      show 0xA0 ≤ _
      omega
    · rw [if_neg first]
      exact Nat.le_add_left _ _
  have upper : b + 128 ≤ (if a + 224 = 0xED then (0x9F : UInt8) else 0xBF).toNat := by
    by_cases surrogates : a + 224 = 0xED
    · rw [if_pos surrogates]
      have := greatest (by omega)
      show _ ≤ 0x9F
      omega
    · rw [if_neg surrogates]
      show _ ≤ 0xBF
      omega
  simp only [List.foldl_cons, List.foldl_nil]
  rw [step_begin done (begin_three (by omega) (by omega)), octet, Nat.add_sub_cancel,
    step_follow done _ 2 a b smallB low upper]
  exact step_last done _ _ smallC

theorem read_four (high : a < 5) (least : a = 0 → 16 ≤ b) (greatest : a = 4 → b < 16)
    (smallB : b < 64) (smallC : c < 64) (smallD : d < 64) :
    [UInt8.ofNat (a + 240), UInt8.ofNat (b + 128), UInt8.ofNat (c + 128),
        UInt8.ofNat (d + 128)].foldl Reader.step ⟨done, none⟩ =
      ⟨.char (Char.ofNat (((a * 64 + b) * 64 + c) * 64 + d)) :: done, none⟩ := by
  have octet := toNat_ofNat_small (n := a + 240) (by omega)
  have low : (if a + 240 = 0xF0 then (0x90 : UInt8) else 0x80).toNat ≤ b + 128 := by
    by_cases first : a + 240 = 0xF0
    · rw [if_pos first]
      have := least (by omega)
      show 0x90 ≤ _
      omega
    · rw [if_neg first]
      exact Nat.le_add_left _ _
  have upper : b + 128 ≤ (if a + 240 = 0xF4 then (0x8F : UInt8) else 0xBF).toNat := by
    by_cases last : a + 240 = 0xF4
    · rw [if_pos last]
      have := greatest (by omega)
      show _ ≤ 0x8F
      omega
    · rw [if_neg last]
      show _ ≤ 0xBF
      omega
  simp only [List.foldl_cons, List.foldl_nil]
  rw [step_begin done (begin_four (by omega) (by omega)), octet, Nat.add_sub_cancel,
    step_follow done _ 3 a b smallB low upper]
  refine (congrArg (Reader.step · _) (step_middle done _ 0 _ smallC)).trans ?_
  exact step_last done _ _ smallD

end Forms

theorem foldl_encodeChar (done : List Piece) (c : Char) :
    (String.utf8EncodeChar c).foldl Reader.step ⟨done, none⟩ = ⟨.char c :: done, none⟩ := by
  have whole : Char.ofNat c.val.toNat = c := Char.ofNat_toNat c
  have valid : c.val.toNat < 0xD800 ∨ 0xDFFF < c.val.toNat ∧ c.val.toNat < 0x110000 := c.valid
  rw [← congrArg (Piece.char · :: done) whole]
  unfold String.utf8EncodeChar
  generalize c.val.toNat = v at valid
  extract_lets v'
  split
  · exact read_one done (by omega)
  · split
    · rw [read_two done (by omega) (by omega) (by omega)]
      congr 4
      omega
    · split
      · rw [read_three done (by omega) (by omega) (by omega) (by omega) (by omega)]
        congr 4
        omega
      · have few : v / 262144 % 8 < 5 := by omega
        rw [read_four done few (by omega) (by omega) (by omega) (by omega) (by omega)]
        congr 4
        omega

theorem foldl_encode (done : List Piece) (text : List Char) :
    (encode text).foldl Reader.step ⟨done, none⟩ = ⟨(text.map .char).reverse ++ done, none⟩ := by
  induction text generalizing done with
  | nil => rfl
  | cons c rest ih =>
      rw [encode, List.flatMap_cons, List.foldl_append, foldl_encodeChar]
      show (encode rest).foldl Reader.step _ = _
      rw [ih]
      simp

/-- Written as octets, a text is read as itself. -/
theorem pieces_encode (text : List Char) : pieces (encode text) = text.map .char := by
  rw [pieces, foldl_encode]
  simp [Reader.finish]

theorem lossyString_encodeString (s : String) : lossyString (encodeString s) = s := by
  have shown : Piece.shown ∘ Piece.char = id := rfl
  rw [lossyString, lossy, encodeString, pieces_encode, List.map_map, shown, List.map_id, String.ofList_toList]

theorem encode_injective : Function.Injective encode := by
  intro text other same
  have pieces := congrArg pieces same
  rw [pieces_encode, pieces_encode] at pieces
  exact List.map_injective_iff.mpr (fun _ _ same => Piece.char.inj same) pieces

theorem encodeChar_high {c : Char} (long : 0x7f < c.val.toNat) :
    ∀ octet ∈ String.utf8EncodeChar c, 0x80 ≤ octet.toNat := by
  have high (n : Nat) (low : 0x80 ≤ n) (small : n < 0x100) : 0x80 ≤ (UInt8.ofNat n).toNat := by
    rwa [toNat_ofNat_small small]
  simp only [String.utf8EncodeChar, Nat.not_le.mpr long, if_false]
  split
  · simp only [List.forall_mem_cons, List.not_mem_nil, false_implies, implies_true, and_true]
    exact ⟨high _ (by omega) (by omega), high _ (by omega) (by omega)⟩
  · split
    · simp only [List.forall_mem_cons, List.not_mem_nil, false_implies, implies_true, and_true]
      exact ⟨high _ (by omega) (by omega), high _ (by omega) (by omega), high _ (by omega) (by omega)⟩
    · simp only [List.forall_mem_cons, List.not_mem_nil, false_implies, implies_true, and_true]
      exact ⟨high _ (by omega) (by omega), high _ (by omega) (by omega), high _ (by omega) (by omega),
        high _ (by omega) (by omega)⟩

theorem mem_encodeChar {c : Char} {octet : UInt8} (low : octet.toNat < 0x80)
    (member : octet ∈ String.utf8EncodeChar c) : c = Char.ofNat octet.toNat := by
  by_cases ascii : c.val.toNat ≤ 0x7f
  · have single : String.utf8EncodeChar c = [UInt8.ofNat c.val.toNat] := if_pos ascii
    rw [single, List.mem_singleton] at member
    rw [member, toNat_ofNat_small (by omega)]
    exact (Char.ofNat_toNat c).symm
  · have high := encodeChar_high (Nat.not_le.mp ascii) octet member
    omega

theorem encode_append (front back : List Char) : encode (front ++ back) = encode front ++ encode back :=
  List.flatMap_append

theorem encode_absent {octet : UInt8} (low : octet.toNat < 0x80) {text : List Char}
    (absent : Char.ofNat octet.toNat ∉ text) : octet ∉ encode text := by
  intro member
  obtain ⟨c, inText, part⟩ := List.mem_flatMap.mp member
  obtain rfl : c = Char.ofNat octet.toNat := mem_encodeChar low part
  exact absent inText

end AttestationService.Utf8

import AttestationService.Message
import AttestationService.Proofs.Json.Documents
import AttestationService.Proofs.Json.Records
import AttestationService.Proofs.Text.Utf8

/-!
The messages on the wire. Each is read from every spelling of the object that it is written as, and so from
both layouts. What a reader cannot tell from nothing is a token that is null.
-/

namespace AttestationService

open Json

def Json.Value.seen : Value → Option Value
  | .null => none
  | v => some v.merged

def Json.Layout.octets (layout : Layout) (v : Value) (ending : List Char) : List UInt8 :=
  Utf8.encode (layout.text v ++ ending)

section Spellings
variable {Numeral : Number → List Char → Prop} {before text after : List Char}

theorem NonceRequest.ofJson_spelled (r : NonceRequest)
    (numerals : ∀ n text, Numeral n text → n.ReadAs text) (space : IsGap before)
    (spelled : Spells Numeral r.toJson text) (later : IsGap after) :
    ofJson? (.ofText (before ++ text ++ after)) = .ok r := by
  obtain ⟨nonce⟩ := r
  cases nonce with
  | none =>
      have read : readRecord shape (.ofText (before ++ text ++ after)) = .ok [.absent] :=
        readRecord_spelled numerals space spelled later (by decide) rfl rfl
      rw [ofJson?, read]
      rfl
  | some nonce =>
      have read : readRecord shape (.ofText (before ++ text ++ after)) = .ok [.text nonce] :=
        readRecord_spelled numerals space spelled later (show 0 < maxDepth by decide) rfl rfl
      rw [ofJson?, read]
      rfl

theorem BuildInfo.ofJson_spelled (b : BuildInfo) (numerals : ∀ n text, Numeral n text → n.ReadAs text)
    (space : IsGap before) (spelled : Spells Numeral b.toJson text) (later : IsGap after) :
    ofJson? (.ofText (before ++ text ++ after)) = .ok b := by
  have read : readRecord shape (.ofText (before ++ text ++ after)) =
      .ok [.text b.version, .text b.commit, .text b.builtAt] :=
    readRecord_spelled numerals space spelled later (show 0 < maxDepth by decide) rfl rfl
  rw [ofJson?, read]
  rfl

/-- The token stands one level deeper than a document. -/
theorem Envelope.ofJson_spelled (output : String) {token : Value}
    (numerals : ∀ n text, Numeral n text → n.ReadAs text) (space : IsGap before)
    (spelled : Spells Numeral (.object [("attestation_output", .string output),
      ("entity_attestation_token", token)]) text) (later : IsGap after) (shallow : token.depth < maxDepth) :
    ofJson? (.ofText (before ++ text ++ after)) = .ok ⟨output, token.seen⟩ := by
  have filled : fill shape.fields []
      [("attestation_output", .string output), ("entity_attestation_token", token)] =
        some [("entity_attestation_token", token.seen.elim .absent .value),
          ("attestation_output", .text output)] := by
    cases token <;> rfl
  have depth : membersDepth
      [("attestation_output", .string output), ("entity_attestation_token", token)] < maxDepth := by
    simpa [membersDepth, Value.depth] using shallow
  have read : readRecord shape (.ofText (before ++ text ++ after)) =
      .ok [.text output, token.seen.elim .absent .value] :=
    readRecord_spelled numerals space spelled later depth filled (by cases token <;> rfl)
  rw [ofJson?, read]
  cases token <;> rfl

end Spellings

section Layouts
variable (layout : Layout) {ending : List Char}

theorem Json.Layout.pieces_octets (v : Value) :
    Utf8.pieces (layout.octets v ending) = Input.ofText ([] ++ layout.text v ++ ending) :=
  Utf8.pieces_encode _

theorem Envelope.ofJson_octets (e : Envelope) (space : IsGap ending)
    (whole : AllWhole (e.token.getD .null).numbers) (shallow : (e.token.getD .null).depth < maxDepth) :
    ofJson? (Utf8.pieces (layout.octets e.toJson ending)) = .ok ⟨e.output, (e.token.getD .null).seen⟩ := by
  rw [layout.pieces_octets]
  refine ofJson_spelled e.output (fun _ _ => id) noGap (layout.spells fun n member => ?_) space shallow
  -- only the token has numbers
  have inToken : n ∈ (e.token.getD .null).numbers := by
    simpa [Value.numbers, membersNumbers] using member
  exact (whole n inToken).readAs

/-- Each message is read back from either layout. An envelope is, if its token is no deeper than it may be one
level down, repeats no key and has no number but integers; a token that is null comes back as none. -/
theorem decode_encode (space : IsGap ending) :
    (∀ r : NonceRequest, NonceRequest.ofJson? (Utf8.pieces (layout.octets r.toJson ending)) = .ok r) ∧
    layout.text (NonceRequest.toJson ⟨none⟩) = ['\x7b', '\x7d'] ∧
    (∀ b : BuildInfo, BuildInfo.ofJson? (Utf8.pieces (layout.octets b.toJson ending)) = .ok b) ∧
    (∀ e : Envelope, (∀ token ∈ e.token, token ≠ .null ∧ token.depth ≤ 126 ∧ token.DistinctKeys ∧
        AllWhole token.numbers) →
      Envelope.ofJson? (Utf8.pieces (layout.octets e.toJson ending)) = .ok e) ∧
    ∀ output, Envelope.ofJson? (Utf8.pieces (layout.octets (Envelope.toJson ⟨output, some .null⟩) ending)) =
      .ok ⟨output, none⟩ := by
  have noNumbers : AllWhole Value.null.numbers := by
    rintro _ ⟨⟩
  have shallowNull : Value.null.depth < maxDepth := by decide
  refine ⟨?_, ?_, ?_, ?_, ?_⟩
  · intro r
    rw [layout.pieces_octets]
    refine r.ofJson_spelled (fun _ _ => id) noGap (layout.spells ?_) space
    obtain ⟨nonce⟩ := r
    cases nonce <;> rintro _ ⟨⟩
  · cases layout <;> rfl
  · intro b
    rw [layout.pieces_octets]
    refine b.ofJson_spelled (fun _ _ => id) noGap (layout.spells ?_) space
    rintro _ ⟨⟩
  -- a token that is there is told from none by not being null
  · rintro ⟨output, token⟩ plain
    cases token with
    | none => exact Envelope.ofJson_octets layout ⟨output, none⟩ space noNumbers shallowNull
    | some token =>
        obtain ⟨some_, shallow, distinct, whole⟩ := plain token rfl
        have seen : token.seen = some token := by
          cases token with
          | null => contradiction
          | _ => exact congrArg some (merged_distinct _ distinct)
        have read := Envelope.ofJson_octets layout ⟨output, some token⟩ space whole
          (Nat.lt_succ_of_le shallow)
        rwa [Option.getD_some, seen] at read
  · intro output
    exact Envelope.ofJson_octets layout ⟨output, some .null⟩ space noNumbers shallowNull

def escapedEnvelope : Envelope :=
  ⟨"\"quoted\"\n\t\\\x00\x7f/é😀", some (.object [("z", .array [.number (.integer (-2 ^ 63)), .null]),
    ("a", .string "\x1f")])⟩

theorem decode_encode_escaped :
    Envelope.ofJson? (Utf8.pieces (Layout.pretty.octets escapedEnvelope.toJson ['\n'])) =
      .ok escapedEnvelope := by
  refine (decode_encode .pretty (lineBreak_gap 0)).2.2.2.1 _ ?_
  rintro _ ⟨rfl⟩
  refine ⟨by rintro ⟨⟩, by decide, by simp [Value.DistinctKeys, ItemsDistinct, MembersDistinct], ?_⟩
  rintro n member
  obtain rfl := List.mem_singleton.mp member
  exact ⟨-2 ^ 63, rfl, by decide, by decide⟩

end Layouts

end AttestationService

import AttestationService.Proofs.Intake.BodyNonce
import AttestationService.Proofs.Intake.Ruling

/-!
What has no say in the nonce of a body: space, the spelling of strings, and every member with
another key, wherever it stands and however often. Two bodies with the same members for the nonce
name the same text.
-/

namespace AttestationService.BodyNonce

open Json (Value)

/-- The body is the text of an object with these members, in their order and with the repeated ones. -/
def Holds (octets : List UInt8) (members : List (String × Value)) : Prop :=
  ∃ text, Json.IsDocument (.object members) text ∧ Utf8.pieces octets = Json.Input.ofText text

section Bodies
variable {octets other : List UInt8} {members others : List (String × Value)}

theorem holds_iff : Holds octets members ↔ Json.document (Utf8.pieces octets) = .ok (.object members) :=
  Json.document_iff.symm

theorem holds_text {text : List Char} (stated : Json.IsDocument (.object members) text) :
    Holds (Utf8.encode text) members :=
  ⟨text, stated, Utf8.pieces_encode text⟩

theorem holds_read (octets : List UInt8) :
    (∃ kept, Json.readOctets octets = .ok (.object kept)) ↔ ∃ members, Holds octets members := by
  constructor
  · rintro ⟨kept, read⟩
    rw [Json.readOctets, Json.read] at read
    obtain ⟨v, stated, merged⟩ := map_ok read
    cases v with
    | null | bool _ | number _ | string _ | array _ => cases merged
    | object members => exact ⟨members, holds_iff.mpr stated⟩
  · rintro ⟨members, holds⟩
    refine ⟨Json.mergeMembers (Json.mergedMembers members), ?_⟩
    rw [Json.readOctets, Json.read, holds_iff.mp holds]
    rfl

theorem lastMembers_merged (members : List (String × Value)) :
    Json.lastMembers (Json.mergedMembers members) = Json.mergedMembers (Json.lastMembers members) := by
  rw [mergedMembers_eq, mergedMembers_eq, ← Json.mergeMembers_eq, ← Json.mergeMembers_eq,
    Json.mergeMembers_map]

theorem nonceMembers_merged (members : List (String × Value)) :
    nonceMembers (Json.mergedMembers members) = Json.mergedMembers (nonceMembers members) := by
  rw [mergedMembers_eq, mergedMembers_eq, nonceMembers, List.filter_map]
  rfl

theorem holds_raw (holds : Holds octets members) : (ofOctets octets).raw =
    lastString "" ((Json.lastMembers (nonceMembers (Json.mergedMembers members))).map Prod.snd) := by
  have values : (Json.mergedMembers (Json.lastMembers (nonceMembers members))).map Prod.snd =
      ((Json.lastMembers (nonceMembers members)).map Prod.snd).map Value.merged := by
    rw [mergedMembers_eq, List.map_map, List.map_map]
    rfl
  rw [ofOctets_object (holds_iff.mp holds), merged_raw, nonceMembers_merged, lastMembers_merged, values,
    lastString_merged]

end Bodies

section Requests
variable {readDeadline : Nat} {request : Http.Request} {octets : List UInt8}

theorem ruled_body (post : request.method = .post)
    (whole : Http.Body.Whole readDeadline maxBodySize request.body octets)
    (verdict : Except Rejection (Option Nonce)) :
    request.Ruled readDeadline verdict ↔ verdict = (Intake.check (ofOctets octets).raw).2 := by
  rw [Intake.ruled_iff readDeadline 0 request verdict, Intake.ofRequest_whole 0 post octets whole]

end Requests

/-- Bodies that are read as objects have members. If the members for the nonce are the same in two of them, in
the same order, then both name the same text, and requests with these bodies deserve the same. -/
theorem named_by_own_members :
    (∀ octets, (∃ kept, Json.readOctets octets = .ok (.object kept)) ↔ ∃ members, Holds octets members) ∧
    ∀ octets other members others, Holds octets members → Holds other others →
      nonceMembers (Json.mergedMembers members) = nonceMembers (Json.mergedMembers others) →
      (ofOctets octets).raw = (ofOctets other).raw ∧
      ∀ readDeadline (first second : Http.Request), first.method = .post → second.method = .post →
        Http.Body.Whole readDeadline maxBodySize first.body octets →
        Http.Body.Whole readDeadline maxBodySize second.body other →
        ∀ verdict, first.Ruled readDeadline verdict ↔ second.Ruled readDeadline verdict := by
  constructor
  · exact holds_read
  · intro octets other members others holds otherHolds alike
    have same : (ofOctets octets).raw = (ofOctets other).raw := by
      rw [holds_raw holds, holds_raw otherHolds, alike]
    refine ⟨same, ?_⟩
    intro readDeadline first second post otherPost whole otherWhole verdict
    rw [ruled_body post whole, ruled_body otherPost otherWhole, same]

def crowdedBody : List Char :=
  (" \x7b\"x\":null,\"nonce\":\"a\", \"x\":\"nonce\",\"NONCE\":\"b\"," ++
    "\"\\u006eonce\":\"c\",\"nonces\":\"d\"\x7d").toList

theorem crowdedBody_document : Json.IsDocument (.object [("x", .null), ("nonce", .string "a"),
    ("x", .string "nonce"), ("NONCE", .string "b"), ("nonce", .string "c"),
      ("nonces", .string "d")]) crowdedBody := by
  have zero : Json.HexDigit '0' 0 := .decimal 0 (by decide)
  have letter : Json.SpellsEscape 'n' ['u', '0', '0', '6', 'e'] :=
    .unit ⟨_, _, _, _, _, _, _, _, zero, zero, .decimal 6 (by decide),
      .lower 14 (by decide) (by decide), rfl, rfl⟩
      (.inl (by decide))
  have rest : Json.SpellsChars ['o', 'n', 'c', 'e'] ['o', 'n', 'c', 'e'] :=
    .plain (by decide) (by decide) (by decide) (.plain (by decide) (by decide) (by decide)
      (.plain (by decide) (by decide) (by decide) (.plain (by decide) (by decide) (by decide) .nil)))
  have key : Json.SpellsString "nonce" "\"\\u006eonce\"".toList := ⟨_, .escaped letter rest, rfl⟩
  have escaped := Json.SpellsMember.mk key Json.noGap Json.noGap (written_string "c")
  have spelled := Json.Spells.object Json.noGap (written_member "x" .null)
    (.member Json.noGap Json.noGap (written_member "nonce" (written_string "a"))
      (.member Json.noGap Json.blankGap (written_member "x" (written_string "nonce"))
        (.member Json.noGap Json.noGap (written_member "NONCE" (written_string "b"))
          (.member Json.noGap Json.noGap escaped
            (.member Json.noGap Json.noGap (written_member "nonces" (written_string "d"))
              (.close Json.noGap))))))
  exact ⟨by decide, [' '], _, [], Json.blankGap, spelled, Json.noGap, by decide⟩

theorem named_by_own_members_crowded :
    (ofOctets (Utf8.encode crowdedBody)).raw = (ofOctets (Utf8.encode repeatedBody)).raw :=
  (named_by_own_members.2 _ _ _ _ (holds_text crowdedBody_document)
    (holds_text repeatedBody_document) (by rfl)).1

end AttestationService.BodyNonce

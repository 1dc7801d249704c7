import AttestationService.Proofs.Json.LineEnds
import AttestationService.Proofs.Json.Merging
import AttestationService.Proofs.Text.Utf8
import AttestationService.RawNonce

/-!
The nonce in a body. Members with one and the same key are merged before any is looked at, so a key that is
repeated letter for letter counts with its last value only, at the place where it first stood.
-/

namespace AttestationService.BodyNonce

open Json (Value)

/-- The members of which the key is `nonce` in any letter case. -/
def nonceMembers (members : List (String × Value)) : List (String × Value) :=
  members.filter fun m => isNonceKey m.1

def isText : Value → Bool
  | .string _ | .null => true
  | _ => false

def string? : Value → Option String
  | .string s => some s
  | _ => none

/-- The last string among strings and nulls, and the text so far without any. Other values leave no text. -/
def lastString (text : String) (values : List Value) : String :=
  if values.all isText then (values.filterMap string?).getLast?.getD text else ""

section Members
variable {members : List (String × Value)}

theorem lastString_cons (text s : String) (values : List Value) :
    lastString text (.string s :: values) = lastString s values := by
  have strings : (Value.string s :: values).filterMap string? = s :: values.filterMap string? := rfl
  rw [lastString, lastString, strings, List.getLast?_cons]
  rfl

theorem lastString_null (text : String) (values : List Value) :
    lastString text (.null :: values) = lastString text values := rfl

theorem lastString_other (text : String) {v : Value} (other : isText v = false) (values : List Value) :
    lastString text (v :: values) = "" := by
  rw [lastString, List.all_cons, other]
  rfl

theorem nonceMembers_cons (m : String × Value) (members : List (String × Value)) :
    nonceMembers (m :: members) =
      if isNonceKey m.1 then m :: nonceMembers members else nonceMembers members :=
  List.filter_cons

theorem ofMembers_raw (text : String) (members : List (String × Value)) :
    (ofMembers text members).raw = lastString text ((nonceMembers members).map Prod.snd) := by
  induction members generalizing text with
  | nil => rfl
  | cons m members ih =>
      obtain ⟨key, v⟩ := m
      rw [ofMembers.eq_def, nonceMembers_cons]
      dsimp only
      split
      · rw [List.map_cons]
        cases v with
        | string s => exact (ih s).trans (lastString_cons text s _).symm
        | null => exact (ih text).trans (lastString_null text _).symm
        | bool b => exact (lastString_other text rfl _).symm
        | number n => exact (lastString_other text rfl _).symm
        | array items => exact (lastString_other text rfl _).symm
        | object inner => exact (lastString_other text rfl _).symm
      · exact ih text

theorem isText_merged (v : Value) : isText v.merged = isText v := by
  cases v with
  | null | bool _ | number _ | string _ | array _ | object _ => rfl

theorem string_merged (v : Value) : string? v.merged = string? v := by
  cases v with
  | null | bool _ | number _ | string _ | array _ | object _ => rfl

theorem lastString_merged (text : String) (values : List Value) :
    lastString text (values.map Value.merged) = lastString text values := by
  unfold lastString
  rw [List.all_map, List.filterMap_map]
  simp only [Function.comp_def, isText_merged, string_merged]

theorem mergedMembers_eq (members : List (String × Value)) :
    Json.mergedMembers members = members.map fun m => (m.1, m.2.merged) := by
  induction members with
  | nil => rfl
  | cons m members ih => rw [Json.mergedMembers, ih, List.map_cons]

/-- Other members may be left out before the merging, and what is merged inside the values does not matter. -/
theorem merged_raw (members : List (String × Value)) :
    (ofMembers "" (Json.mergeMembers (Json.mergedMembers members))).raw =
      lastString "" ((Json.lastMembers (nonceMembers members)).map Prod.snd) := by
  have kept : nonceMembers (Json.mergeMembers (members.map fun m => (m.1, m.2.merged))) =
      (Json.lastMembers (nonceMembers members)).map fun m => (m.1, m.2.merged) := by
    rw [Json.mergeMembers_map, ← Json.mergeMembers_eq, nonceMembers, List.filter_map, nonceMembers,
      ← Json.mergeMembers_filter]
    rfl
  rw [ofMembers_raw, mergedMembers_eq, kept, List.map_map]
  exact (congrArg (lastString "") (List.map_map (g := Value.merged)).symm).trans (lastString_merged "" _)

end Members

section Bodies
variable {octets : List UInt8} {members : List (String × Value)}

theorem ofOctets_object (read : Json.document (Utf8.pieces octets) = .ok (.object members)) :
    ofOctets octets = ofMembers "" (Json.mergeMembers (Json.mergedMembers members)) := by
  rw [ofOctets, Json.readOctets, Json.read, read]
  rfl

theorem ofOctets_other (other : ∀ members, Json.document (Utf8.pieces octets) ≠ .ok (.object members)) :
    (ofOctets octets).raw = "" := by
  rw [ofOctets, Json.readOctets, Json.read]
  cases read : Json.document (Utf8.pieces octets) with
  | error e => rfl
  | ok v =>
      cases v with
      | null | bool _ | number _ | string _ | array _ => rfl
      | object members => exact absurd read (other members)

theorem document_octets {v : Value} {text : List Char} (stated : Json.IsDocument v text) :
    Json.document (Utf8.pieces (Utf8.encode text)) = .ok v := by
  rw [Utf8.pieces_encode]
  exact Json.document_iff.mpr ⟨text, stated, rfl⟩

/-- A body names the last string among its members for the nonce, of which those with the very same key are
one, with the last value at the first place. -/
theorem nonce_of_members (octets : List UInt8) :
    (∀ members, Json.document (Utf8.pieces octets) = .ok (.object members) →
      (ofOctets octets).raw = lastString "" ((Json.lastMembers (nonceMembers members)).map Prod.snd) ∧
      (((nonceMembers members).map Prod.fst).Nodup →
        (ofOctets octets).raw = lastString "" ((nonceMembers members).map Prod.snd))) ∧
    ((∀ members, Json.document (Utf8.pieces octets) ≠ .ok (.object members)) →
      (ofOctets octets).raw = "") := by
  refine ⟨?_, ofOctets_other⟩
  intro members read
  have merged : (ofOctets octets).raw = lastString ""
      ((Json.lastMembers (nonceMembers members)).map Prod.snd) := by
    rw [ofOctets_object read, merged_raw]
  refine ⟨merged, ?_⟩
  intro distinct
  rw [merged, ← Json.mergeMembers_eq, Json.mergeMembers_distinct distinct]

theorem written_member (key : String) {v : Value} {text : List Char}
    (spelled : Json.Spells Json.Number.ReadAs v text) :
    Json.SpellsMember Json.Number.ReadAs (key, v) (Json.stringText key ++ [] ++ ':' :: [] ++ text) :=
  .mk (Json.stringText_spells key) Json.noGap Json.noGap spelled

theorem written_string (s : String) : Json.Spells Json.Number.ReadAs (.string s) (Json.stringText s) :=
  .string (Json.stringText_spells s)

def repeatedBody : List Char := "\x7b\"nonce\":\"a\",\"NONCE\":\"b\",\"nonce\":\"c\"\x7d".toList

theorem repeatedBody_document : Json.IsDocument
    (.object [("nonce", .string "a"), ("NONCE", .string "b"), ("nonce", .string "c")]) repeatedBody := by
  have spelled := Json.Spells.object Json.noGap (written_member "nonce" (written_string "a"))
    (.member Json.noGap Json.noGap (written_member "NONCE" (written_string "b"))
      (.member Json.noGap Json.noGap (written_member "nonce" (written_string "c")) (.close Json.noGap)))
  exact ⟨by decide, [], _, [], Json.noGap, spelled, Json.noGap, by decide⟩

def nullBody : List Char := "\x7b\"nonce\":\"ab\",\"Nonce\":null\x7d".toList

theorem nullBody_document :
    Json.IsDocument (.object [("nonce", .string "ab"), ("Nonce", .null)]) nullBody := by
  have spelled := Json.Spells.object Json.noGap (written_member "nonce" (written_string "ab"))
    (.member Json.noGap Json.noGap (written_member "Nonce" .null) (.close Json.noGap))
  exact ⟨by decide, [], _, [], Json.noGap, spelled, Json.noGap, by decide⟩

theorem nonce_of_members_repeated : (ofOctets (Utf8.encode repeatedBody)).raw = "b" ∧
    (ofOctets (Utf8.encode nullBody)).raw = "ab" ∧ (ofOctets []).raw = "" := by
  refine ⟨?_, ?_, ?_⟩
  · obtain ⟨merged, _⟩ := (nonce_of_members _).1 _ (document_octets repeatedBody_document)
    rw [merged]
    decide
  · obtain ⟨_, plain⟩ := (nonce_of_members _).1 _ (document_octets nullBody_document)
    rw [plain (by decide)]
    decide
  · apply (nonce_of_members []).2
    intro members read
    cases read

def numberBody : List Char := "\x7b\"nonce\":5,\"nonce\":\"ab\"\x7d".toList

theorem numberBody_document : Json.IsDocument
    (.object [("nonce", .number (.integer 5)), ("nonce", .string "ab")]) numberBody := by
  have five := Json.Spells.number (Json.integer_readAs (show -2 ^ 63 ≤ (5 : Int) by decide) (by decide))
  have spelled := Json.Spells.object Json.noGap (written_member "nonce" five)
    (.member Json.noGap Json.noGap (written_member "nonce" (written_string "ab")) (.close Json.noGap))
  exact ⟨by decide, [], _, [], Json.noGap, spelled, Json.noGap, by decide⟩

/-- Not all values of the members for the nonce, in the order of the document, are looked at. -/
theorem number_forgotten : ∃ members,
    Json.document (Utf8.pieces (Utf8.encode numberBody)) = .ok (.object members) ∧
      lastString "" ((nonceMembers members).map Prod.snd) = "" ∧
      (ofOctets (Utf8.encode numberBody)).raw = "ab" := by
  have read := document_octets numberBody_document
  refine ⟨_, read, by decide, ?_⟩
  rw [ofOctets_object read, merged_raw]
  decide

end Bodies

end AttestationService.BodyNonce

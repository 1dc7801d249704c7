import AttestationService.Message
import AttestationService.Proofs.Json.Objects

/-!
The messages as they may come from a newer or an older program: members in any order, members that
are not known, and optional members left out.
-/

namespace AttestationService

namespace Json

section Records
variable {shape : Shape} {field : Field} {m again : MemberText} {members others extra later : List MemberText}
  {text other : List Char} {result : List Slot}

theorem readRecord_extended (distinct : (shape.fields.map Field.name).Nodup)
    (formed : IsObjectDocument members text)
    (read : readRecord shape (.ofText text) = .ok result)
    (unknown : ∀ m ∈ extra, ∃ key, SpellsString key m.1 ∧ key ∉ shape.fields.map Field.name)
    (order : later.Perm (members ++ extra)) (also : IsObjectDocument later other) :
    readRecord shape (.ofText other) = .ok result := by
  obtain ⟨ms, decoded, filled⟩ := (readRecord_iff distinct formed).mp read
  obtain ⟨more, decodedMore, unknown⟩ := decodes_extra unknown
  obtain ⟨all, reordered, decodedAll⟩ := (decoded.append decodedMore).perm order.symm
  exact (readRecord_iff distinct also).mpr ⟨all, decodedAll,
    ((filled_append unknown).mpr filled).perm reordered⟩

theorem readRecord_repeated (distinct : (shape.fields.map Field.name).Nodup) (among : field ∈ shape.fields)
    (named : SpellsString field.name m.1) (namedAgain : SpellsString field.name again.1)
    (order : members.Perm (m :: again :: others)) (formed : IsObjectDocument members text) :
    ∃ e, readRecord shape (.ofText text) = .error e := by
  cases read : readRecord shape (.ofText text) with
  | error e => exact ⟨e, rfl⟩
  | ok result =>
      obtain ⟨ms, decoded, filled⟩ := (readRecord_iff distinct formed).mp read
      obtain ⟨all, reordered, decodedAll⟩ := decoded.perm order
      obtain ⟨⟨key, _⟩, _, ⟨spelled, _⟩, more, rfl⟩ := List.forall₂_cons_right_iff.mp decodedAll
      obtain ⟨⟨key', _⟩, _, ⟨spelledAgain, _⟩, more, rfl⟩ := List.forall₂_cons_right_iff.mp more
      cases spelled.unique named
      cases spelledAgain.unique namedAgain
      have alone := (filled.perm reordered).alone among
      rw [named_same] at alone
      cases alone

theorem decodes_removed (distinct : (shape.fields.map Field.name).Nodup)
    (formed : IsObjectDocument members text)
    (read : readRecord shape (.ofText text) = .ok result) (among : field ∈ shape.fields)
    (spelled : SpellsString field.name m.1) (order : members.Perm (m :: others)) : ∃ ms, Decodes ms others ∧
      named field.name ms = [] ∧ Filled (maxDepth - 1) [] ((field.name, m.2) :: ms) shape.fields result := by
  obtain ⟨_, decoded, filled⟩ := (readRecord_iff distinct formed).mp read
  obtain ⟨_, reordered, decoded⟩ := decoded.perm order
  obtain ⟨⟨key, _⟩, ms, ⟨same, rfl⟩, later, rfl⟩ := List.forall₂_cons_right_iff.mp decoded
  cases same.unique spelled
  have filled := filled.perm reordered
  exact ⟨ms, later, filled.alone among, filled⟩

theorem readRecord_required (distinct : (shape.fields.map Field.name).Nodup)
    (formed : IsObjectDocument members text)
    (read : readRecord shape (.ofText text) = .ok result) (among : field ∈ shape.fields)
    (text_ : field.kind = .text)
    (spelled : SpellsString field.name m.1) (order : members.Perm (m :: others))
    (also : IsObjectDocument others other) : ∃ e, readRecord shape (.ofText other) = .error e := by
  obtain ⟨ms, decoded, alone, _⟩ := decodes_removed distinct formed read among spelled order
  cases again : readRecord shape (.ofText other) with
  | error e => exact ⟨e, rfl⟩
  | ok result =>
      obtain ⟨_, decodedAgain, filled⟩ := (readRecord_iff distinct also).mp again
      obtain rfl := decoded.unique decodedAgain
      exact absurd alone (filled.named_text among text_)

theorem readRecord_cleared (distinct : (shape.fields.map Field.name).Nodup)
    (formed : IsObjectDocument members text)
    (read : readRecord shape (.ofText text) = .ok result) (among : field ∈ shape.fields)
    (optional : field.kind ≠ .text) (spelled : SpellsString field.name m.1)
    (order : members.Perm (m :: others))
    (also : IsObjectDocument others other) :
    readRecord shape (.ofText other) = .ok (cleared field.name shape.fields result) := by
  obtain ⟨ms, decoded, alone, filled⟩ := decodes_removed distinct formed read among spelled order
  refine (readRecord_iff distinct also).mpr ⟨ms, decoded,
    filled_cleared (fun f member same => ?_) alone filled⟩
  obtain rfl := List.inj_on_of_nodup_map distinct member among same
  exact optional

end Records

/-- How the objects of a type may differ from each other. Members may come in any order and others
may be among them, whatever values these have; no field is named twice, and no text is left out. -/
structure Tolerant {α : Type} (shape : Shape) (decode : Input → Except RecordError α) : Prop where
  extended : ∀ {members extra later : List MemberText} {text longer : List Char} {a : α},
    IsObjectDocument members text → decode (.ofText text) = .ok a →
    (∀ m ∈ extra, ∃ key, SpellsString key m.1 ∧ key ∉ shape.fields.map Field.name) →
    later.Perm (members ++ extra) → IsObjectDocument later longer → decode (.ofText longer) = .ok a
  repeated : ∀ {field : Field} {m again : MemberText} {members others : List MemberText} {text : List Char},
    field ∈ shape.fields → SpellsString field.name m.1 → SpellsString field.name again.1 →
    members.Perm (m :: again :: others) → IsObjectDocument members text →
      ∃ e, decode (.ofText text) = .error e
  required : ∀ {field : Field} {m : MemberText} {members others : List MemberText} {text shorter : List Char}
    {a : α}, IsObjectDocument members text → decode (.ofText text) = .ok a → field ∈ shape.fields →
    field.kind = .text → SpellsString field.name m.1 → members.Perm (m :: others) →
    IsObjectDocument others shorter → ∃ e, decode (.ofText shorter) = .error e

def MayOmit {α : Type} (key : String) (decode : Input → Except RecordError α) (without : α → α) : Prop :=
  ∀ (m : MemberText) (members others : List MemberText) (text shorter : List Char) (a : α),
    IsObjectDocument members text → decode (.ofText text) = .ok a → SpellsString key m.1 →
    members.Perm (m :: others) → IsObjectDocument others shorter → decode (.ofText shorter) = .ok (without a)

section Types
variable {α : Type} {shape : Shape} {make : List Slot → α}

theorem Shape.tolerant (distinct : (shape.fields.map Field.name).Nodup) :
    Tolerant shape fun input => (readRecord shape input).map make where
  extended formed decoded unknown order also := by
    obtain ⟨slots, read, rfl⟩ := map_ok decoded
    rw [readRecord_extended distinct formed read unknown order also]
    rfl
  repeated among named again order formed := by
    obtain ⟨e, refused⟩ := readRecord_repeated distinct among named again order formed
    exact ⟨e, by rw [refused]; rfl⟩
  required formed decoded among text_ spelled order also := by
    obtain ⟨slots, read, rfl⟩ := map_ok decoded
    obtain ⟨e, refused⟩ := readRecord_required distinct formed read among text_ spelled order also
    exact ⟨e, by rw [refused]; rfl⟩

theorem Field.mayOmit {field : Field} {without : α → α} (distinct : (shape.fields.map Field.name).Nodup)
    (among : field ∈ shape.fields) (optional : field.kind ≠ .text) (clears : ∀ slots : List Slot,
      slots.length = shape.fields.length → make (cleared field.name shape.fields slots) =
        without (make slots)) :
    MayOmit field.name (fun input => (readRecord shape input).map make) without := by
  intro m members others text shorter a formed decoded spelled order also
  obtain ⟨slots, read, rfl⟩ := map_ok decoded
  obtain ⟨ms, _, filled⟩ := (readRecord_iff distinct formed).mp read
  have shorter := readRecord_cleared distinct formed read among optional spelled order also
  exact (congrArg (Except.map make) shorter).trans (congrArg Except.ok (clears slots filled.length_eq.symm))

end Types

end Json

open Json

theorem NonceRequest.mayOmit_nonce : MayOmit "nonce" NonceRequest.ofJson? fun _ => ⟨none⟩ := by
  refine @Field.mayOmit _ NonceRequest.shape _ ⟨"nonce", .optionalText⟩ _ (by decide) (by decide) (by decide)
    fun slots few => ?_
  match slots, few with
  | [_], _ => rfl

theorem Envelope.mayOmit_token :
    MayOmit "entity_attestation_token" Envelope.ofJson? fun e => { e with token := none } := by
  refine @Field.mayOmit _ Envelope.shape _ ⟨"entity_attestation_token", .optionalValue⟩ _
    (by decide) (by decide)
    (by decide) fun slots few => ?_
  match slots, few with
  | [output, token], _ => cases output <;> cases token <;> rfl

/-- The objects of each type are read whatever their order and whatever newer members they hold, and
an optional member may be missing. -/
theorem messages_tolerant :
    Tolerant NonceRequest.shape NonceRequest.ofJson? ∧ Tolerant Envelope.shape Envelope.ofJson? ∧
      Tolerant BuildInfo.shape BuildInfo.ofJson? ∧
      MayOmit "nonce" NonceRequest.ofJson? (fun _ => ⟨none⟩) ∧
      MayOmit "entity_attestation_token" Envelope.ofJson? fun e => { e with token := none } :=
  ⟨Shape.tolerant (by decide), Shape.tolerant (by decide), Shape.tolerant (by decide),
    NonceRequest.mayOmit_nonce,
    Envelope.mayOmit_token⟩

def plainMember : MemberText := (stringText "nonce", stringText "ab")

def newerMember : MemberText := (stringText "later", ['[', '1', 'e', '9', '9', '9', ']'])

def writtenMember (m : MemberText) : List Char := m.1 ++ ':' :: m.2

theorem plainMember_formed : IsMemberText plainMember (writtenMember plainMember) :=
  .mk (stringText_spells "nonce").formed noGap noGap (.string (stringText_spells "ab").formed)

theorem newerMember_formed : IsMemberText newerMember (writtenMember newerMember) := by
  have digits : AllDigits ['1'] ∧ AllDigits ['9', '9', '9'] :=
    ⟨noDigits.cons rfl, ((noDigits.cons rfl).cons rfl).cons rfl⟩
  have power : IsExponent ['e', '9', '9', '9'] :=
    .inr ⟨'e', [], ['9', '9', '9'], .inl rfl, by decide, digits.2, by decide, rfl⟩
  have number : IsUnsigned ['1', 'e', '9', '9', '9'] :=
    ⟨['1'], [], ['e', '9', '9', '9'], ⟨digits.1, '1', [], rfl, .inr rfl⟩, .inl rfl, power, rfl⟩
  exact .mk (stringText_spells "later").formed noGap noGap
    (.array noGap (.number (.inl number)) (.close noGap))

theorem messages_tolerant_newer :
    NonceRequest.ofJson? (.ofText
      ('\x7b' :: writtenMember newerMember ++ ',' :: writtenMember plainMember ++ ['\x7d'])) =
        .ok ⟨some "ab"⟩ := by
  have plain : IsObjectDocument [plainMember] ('\x7b' :: writtenMember plainMember ++ ['\x7d']) :=
    ⟨[], _, [], noGap, .members noGap plainMember_formed (.close noGap), noGap, rfl⟩
  have newer : IsObjectDocument [newerMember, plainMember]
      ('\x7b' :: writtenMember newerMember ++ ',' :: writtenMember plainMember ++ ['\x7d']) :=
    ⟨[], _, [], noGap, .members noGap newerMember_formed
      (.member noGap noGap plainMember_formed (.close noGap)),
      noGap, rfl⟩
  refine messages_tolerant.1.extended plain rfl (fun m member => ?_) (.swap _ _ _) newer
  obtain rfl := List.mem_singleton.mp member
  exact ⟨"later", stringText_spells "later", by decide⟩

end AttestationService

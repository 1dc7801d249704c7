import AttestationService.Proofs.Correlation

/-!
Ids in the fields of a request as it was sent, with names in any letter case. Only the first value
of each of the four names is looked at, so that order among different names, other names and further
values make no difference; and an id that was sent back is found again by whoever is sent it next.
-/

namespace AttestationService

namespace Http.Headers

abbrev Field := List Char × List UInt8

def nameOf (field : Field) : String := String.ofList (field.1.map Char.toLower)

def ofFields? (fields : List Field) : Option Headers :=
  fields.mapM fun field => Header.make? field.1 field.2

def folded (fields : List Field) : Headers :=
  fields.map fun field => ⟨nameOf field, field.2⟩

variable {fields others : List Field} {headers : Headers}

theorem make_some {name : List Char} {value : List UInt8} {header : Header}
    (made : Header.make? name value = some header) :
    header = ⟨nameOf (name, value), value⟩ ∧ value.all isValueOctet = true := by
  unfold Header.make? at made
  split at made
  · rename_i valid
    rw [Bool.and_eq_true] at valid
    exact ⟨(Option.some.inj made).symm, valid.2⟩
  · cases made

theorem ofFields_eq (made : ofFields? fields = some headers) :
    headers = folded fields ∧ ∀ header ∈ headers, header.value.all isValueOctet = true := by
  induction fields generalizing headers with
  | nil =>
      cases made
      exact ⟨rfl, by rintro _ ⟨⟩⟩
  | cons field fields ih =>
      rw [ofFields?, List.mapM_cons] at made
      obtain ⟨header, first, made⟩ := Option.bind_eq_some_iff.mp made
      obtain ⟨rest, later, made⟩ := Option.bind_eq_some_iff.mp made
      cases made
      obtain ⟨same, others⟩ := ih later
      obtain ⟨rfl, valid⟩ := make_some first
      exact ⟨congrArg (_ :: ·) same, List.forall_mem_cons.mpr ⟨valid, others⟩⟩

theorem first?_folded (fields : List Field) (name : String) :
    (folded fields).first? name = (fields.find? fun field => nameOf field == name).map Prod.snd := by
  rw [first?, folded, List.find?_map, Option.map_map]
  rfl

end Http.Headers

namespace Correlation

open Http.Headers (Field nameOf folded ofFields?)

/-- Fields from which the same id is taken: the values of each name keep their order; fields with
another name come and go; and so do further values of a name that is there already. -/
inductive Alike : List Field → List Field → Prop where
  | ordered {fields others : List Field}
      (each : ∀ name, fields.filter (nameOf · == name) = others.filter (nameOf · == name)) :
        Alike fields others
  | unrelated (front back : List Field) {field : Field} (other : nameOf field ∉ requestHeaders) :
      Alike (front ++ field :: back) (front ++ back)
  | further (front back : List Field) {field : Field} (present : nameOf field ∈ front.map nameOf) :
      Alike (front ++ field :: back) (front ++ back)
  | symm {fields others : List Field} (alike : Alike fields others) : Alike others fields
  | trans {fields others more : List Field} (alike : Alike fields others) (next : Alike others more) :
      Alike fields more

def passOn (id : Correlation) (fresh : Seed) : Correlation :=
  resolve [⟨responseHeader, id.headerValue⟩] fresh

section Resolving
variable {fields others : List Field} {headers : Http.Headers} {value : List UInt8}

theorem resolve_cases (headers : Http.Headers) (fresh : Seed) :
    (∃ value, Gives headers value ∧ resolve headers fresh = .provided value) ∨
      (∀ value, ¬ Gives headers value) ∧ resolve headers fresh = .assigned fresh := by
  cases given : provided? headers with
  | none =>
      have nameless : ∀ value, ¬ Gives headers value := by
        intro value gives
        rw [provided_eq_some_iff.mpr gives] at given
        cases given
      exact .inr ⟨nameless, resolve_assigned nameless fresh⟩
  | some value =>
      have gives := provided_eq_some_iff.mp given
      exact .inl ⟨value, gives, resolve_given gives fresh⟩

theorem resolve_provided_iff (headers : Http.Headers) (fresh : Seed) (value : List UInt8) :
    resolve headers fresh = .provided value ↔ Gives headers value := by
  constructor
  · intro resolved
    rcases resolve_cases headers fresh with ⟨other, gives, same⟩ | ⟨_, same⟩
    · rw [resolved] at same
      cases same
      exact gives
    · rw [resolved] at same
      cases same
  · intro gives
    exact resolve_given gives fresh

theorem resolve_assigned_iff (headers : Http.Headers) (fresh : Seed) :
    resolve headers fresh = .assigned fresh ↔ ∀ value, ¬ Gives headers value := by
  constructor
  · intro resolved value gives
    rw [resolve_given gives fresh] at resolved
    cases resolved
  · intro nameless
    exact resolve_assigned nameless fresh

theorem resolve_first {first second : Http.Headers}
    (same : ∀ name ∈ requestHeaders, first.first? name = second.first? name) (fresh : Seed) :
    resolve first fresh = resolve second fresh := by
  have given : provided? first = provided? second := congrArg (List.find? _) (List.filterMap_congr same)
  rw [resolve, resolve, given]

theorem find_other {name : String} {field : Field} (apart : nameOf field ≠ name) (back : List Field) :
    (field :: back).find? (nameOf · == name) = back.find? (nameOf · == name) :=
  List.find?_cons_of_neg (by simpa using apart)

theorem Alike.find_eq (alike : Alike fields others) : ∀ name ∈ requestHeaders,
    (fields.find? (nameOf · == name)) = others.find? (nameOf · == name) := by
  induction alike with
  | ordered each =>
      intro name _
      rw [← List.head?_filter, each, List.head?_filter]
  | @unrelated front back field other =>
      intro name known
      rw [List.find?_append, List.find?_append, find_other]
      rintro rfl
      exact other known
  | @further front back field present =>
      intro name _
      rw [List.find?_append, List.find?_append]
      by_cases own : nameOf field = name
      · -- the name is found before the field is reached
        obtain ⟨earlier, member, same⟩ := List.mem_map.mp present
        have found : (front.find? (nameOf · == name)).isSome = true := by
          rw [List.find?_isSome]
          exact ⟨earlier, member, beq_iff_eq.mpr (same.trans own)⟩
        obtain ⟨first, found⟩ := Option.isSome_iff_exists.mp found
        rw [found, Option.some_or, Option.some_or]
      · rw [find_other own]
  | symm _ ih => exact fun name known => (ih name known).symm
  | trans _ _ ih next => exact fun name known => (ih name known).trans (next name known)

theorem Alike.resolve_eq (alike : Alike fields others) (fresh : Seed) :
    resolve (folded fields) fresh = resolve (folded others) fresh := by
  apply resolve_first
  intro name known
  rw [Http.Headers.first?_folded, Http.Headers.first?_folded, alike.find_eq name known]

end Resolving

theorem Alike.swap (front back : List Field) {a b : Field} (apart : nameOf a ≠ nameOf b) :
    Alike (front ++ a :: b :: back) (front ++ b :: a :: back) := by
  apply Alike.ordered
  intro name
  rw [List.filter_append, List.filter_append]
  by_cases first : nameOf a = name
  · have second : nameOf b ≠ name := fun same => apart (first.trans same.symm)
    simp [first, second]
  · simp [List.filter_cons, first]

section Passing
variable {headers : Http.Headers} {value : List UInt8}

theorem Gives.valid (gives : Gives headers value)
    (valid : ∀ header ∈ headers, header.value.all Http.isValueOctet = true) :
    value.all Http.isValueOctet = true := by
  obtain ⟨_, _, name, _, _, ⟨before, after, same, _⟩, _⟩ := gives
  apply valid ⟨name, value⟩
  rw [same]
  exact List.mem_append_right _ List.mem_cons_self

theorem isUuid_letters {text : List Char} (form : isUuid text = true) :
    ∀ c ∈ text, c = '-' ∨ c.isDigit = true ∨ 'a' ≤ c ∧ c ≤ 'f' := by
  intro c member
  rw [isUuid, Bool.and_eq_true] at form
  obtain ⟨i, inside, rfl⟩ := List.mem_iff_getElem.mp member
  have place : (text[i], i) ∈ text.zipIdx :=
    List.mem_zipIdx_iff_getElem?.mpr (List.getElem?_eq_getElem inside)
  have each := List.all_eq_true.mp form.2 _ place
  -- the places of the dashes, of the version, of the variant, and the others
  simp only at each
  split at each
  · exact .inl (beq_iff_eq.mp each)
  · right
    split at each
    · rw [beq_iff_eq.mp each]
      decide
    · split at each
      · have variant := List.contains_iff_mem.mp each
        simp only [List.mem_cons, List.not_mem_nil, or_false] at variant
        rcases variant with same | same | same | same
        all_goals
          rw [same]
          decide
      · simpa using each

theorem isUuid_printable {text : List Char} (form : isUuid text = true) :
    ∀ c ∈ text, 0x20 ≤ c.toNat ∧ c.toNat < 0x7F := by
  intro c member
  rcases isUuid_letters form c member with rfl | digit | ⟨low, high⟩
  · decide
  · rw [Char.isDigit, Bool.and_eq_true, decide_eq_true_eq, decide_eq_true_eq] at digit
    exact ⟨Nat.le_trans (by decide) digit.1, Nat.lt_of_le_of_lt digit.2 (by decide)⟩
  · exact ⟨Nat.le_trans (by decide) low, Nat.lt_of_le_of_lt high (by decide)⟩

theorem encode_valid {text : List Char} (printable : ∀ c ∈ text, 0x20 ≤ c.toNat ∧ c.toNat < 0x7F) :
    (Utf8.encode text).all Http.isValueOctet = true := by
  rw [List.all_eq_true]
  intro octet member
  obtain ⟨c, inText, part⟩ := List.mem_flatMap.mp member
  obtain ⟨low, high⟩ := printable c inText
  have single : String.utf8EncodeChar c = [UInt8.ofNat c.toNat] := if_pos (Nat.le_of_lt high)
  rw [single, List.mem_singleton] at part
  have value : octet.toNat = c.toNat := by
    rw [part]
    exact Utf8.toNat_ofNat_small (by omega)
  have below : octet ≠ 0x7F := by
    rintro rfl
    exact absurd value (by rw [show (0x7F : UInt8).toNat = 0x7F from rfl]; omega)
  have above : 0x20 ≤ octet := by
    rw [UInt8.le_iff_toNat_le, value]
    exact low
  simp [Http.isValueOctet, above, below]

theorem headerValue_sent {headers : Http.Headers}
    (valid : ∀ header ∈ headers, header.value.all Http.isValueOctet = true) (fresh : Seed) :
    (resolve headers fresh).headerValue ≠ [] ∧
      (resolve headers fresh).headerValue.all Http.isValueOctet = true := by
  rcases resolve_cases headers fresh with ⟨value, gives, same⟩ | ⟨_, same⟩
  · rw [same]
    exact ⟨gives.1, gives.valid valid⟩
  · have form := uuidText_isUuid fresh
    rw [same]
    refine ⟨?_, encode_valid (isUuid_printable form)⟩
    intro empty
    have nothing : uuidText fresh = [] := Utf8.encode_injective empty
    rw [nothing] at form
    cases form

theorem passOn_eq {id : Correlation} (sent : id.headerValue ≠ []) (fresh : Seed) :
    id.passOn fresh = .provided id.headerValue := by
  apply resolve_given
  refine ⟨sent, ["x-request-id"], responseHeader, ["request-id", "requestid"], rfl, ?_, ?_⟩
  · exact ⟨[], [], rfl, by rintro _ ⟨⟩⟩
  · -- the preferred name is not among the fields
    intro other member first leads
    cases List.mem_singleton.mp member
    cases Http.Headers.first?_eq_some_iff.mpr leads

theorem foldl_passOn {id : Correlation} (sent : id.headerValue ≠ []) (fresh : Seed) (seeds : List Seed) :
    (fresh :: seeds).foldl passOn id = .provided id.headerValue := by
  rw [List.foldl_cons, passOn_eq sent]
  induction seeds with
  | nil => rfl
  | cons fresh seeds ih =>
      rw [List.foldl_cons, passOn_eq (show (provided id.headerValue).headerValue ≠ [] from sent)]
      exact ih

theorem ofFields_echo {value : List UInt8} (valid : value.all Http.isValueOctet = true) :
    ofFields? [(responseHeader.toList, value)] = some [⟨responseHeader, value⟩] := by
  have name : (!responseHeader.toList.isEmpty && responseHeader.toList.all Http.isTokenChar) =
      true := by decide
  have made : Http.Header.make? responseHeader.toList value = some ⟨responseHeader, value⟩ := by
    rw [Http.Header.make?, name, valid]
    rfl
  rw [ofFields?, List.mapM_cons, made]
  rfl

/-- The first value of the first of the four names whose first value is not empty is the id of a
request, octet for octet, and without one an id is assigned. Nothing else in the fields matters. The
id is sent back in a field that may be sent on, and it stays the same however often it is. -/
theorem resolved_from_fields {fields : List Field} {headers : Http.Headers}
    (sent : ofFields? fields = some headers) (fresh : Seed) :
    (∀ value, resolve headers fresh = .provided value ↔ Gives (folded fields) value) ∧
    (resolve headers fresh = .assigned fresh ↔ ∀ value, ¬ Gives (folded fields) value) ∧
    (∀ value, Gives (folded fields) value → (resolve headers fresh).headerValue = value) ∧
    (∀ others otherHeaders, Alike fields others → ofFields? others = some otherHeaders →
      resolve otherHeaders fresh = resolve headers fresh) ∧
    ofFields? [(responseHeader.toList, (resolve headers fresh).headerValue)] =
      some [⟨responseHeader, (resolve headers fresh).headerValue⟩] ∧
    ∀ hop hops, (hop :: hops).foldl passOn (resolve headers fresh) =
      .provided (resolve headers fresh).headerValue := by
  obtain ⟨rfl, valid⟩ := Http.Headers.ofFields_eq sent
  obtain ⟨given, octets⟩ := headerValue_sent valid fresh
  refine ⟨resolve_provided_iff _ fresh, resolve_assigned_iff _ fresh, ?_, ?_, ofFields_echo octets, ?_⟩
  · intro value gives
    rw [resolve_given gives]
    rfl
  · intro others otherHeaders alike otherSent
    obtain ⟨rfl, _⟩ := Http.Headers.ofFields_eq otherSent
    exact (alike.resolve_eq fresh).symm
  · exact fun hop hops => foldl_passOn given hop hops

def emptyField : Field := ("x-request-id".toList, [])

def strayField : Field := ("X-MS-Request-ID".toList, [0xFF])

def laterField : Field := ("x-ms-request-id".toList, [0x62])

def hostField : Field := ("Host".toList, [0x68])

theorem fields_alike : Alike [strayField, hostField, emptyField, laterField] [emptyField, strayField] := by
  have dropped : Alike [strayField, hostField, emptyField, laterField] [strayField, hostField, emptyField] :=
    .further [strayField, hostField, emptyField] [] (by decide)
  have without : Alike [strayField, hostField, emptyField] [strayField, emptyField] :=
    .unrelated [strayField] [emptyField] (by decide)
  exact (dropped.trans without).trans (.swap [] [] (by decide))

theorem resolved_from_fields_alike : ∃ headers others,
    ofFields? [strayField, hostField, emptyField, laterField] = some headers ∧
    ofFields? [emptyField, strayField] = some others ∧
    resolve headers (.ofNumber 7) = .provided [0xFF] ∧ resolve others (.ofNumber 7) = .provided [0xFF] ∧
    [.ofNumber 8, .ofNumber 9].foldl passOn (resolve headers (.ofNumber 7)) = .provided [0xFF] := by
  have sent : ofFields? [strayField, hostField, emptyField, laterField] =
      some (folded [strayField, hostField, emptyField, laterField]) := by decide
  have otherSent : ofFields? [emptyField, strayField] = some (folded [emptyField, strayField]) := by decide
  obtain ⟨provided, _, _, alike, _, hops⟩ := resolved_from_fields sent (.ofNumber 7)
  have given := (provided [0xFF]).mpr (provided_eq_some_iff.mp rfl)
  refine ⟨_, _, sent, otherSent, given, (alike _ _ fields_alike otherSent).trans given, ?_⟩
  rw [hops (.ofNumber 8) [.ofNumber 9], given]
  rfl

end Passing

end Correlation

end AttestationService

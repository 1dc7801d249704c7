import AttestationService.Correlation
import AttestationService.Proofs.Text.Utf8
import Mathlib.Algebra.Group.Nat.Defs

/-!
Ids of requests. An id is given by the first value of the first of its headers whose first value is not
empty, and it is kept octet for octet. An assigned id has the form of a random one of version 4, and its
text tells its octets, but for the six bits that belong to the form.
-/

namespace AttestationService

namespace Http.Headers

/-- The value is the first one of that name. -/
def Leads (headers : Headers) (name : String) (value : List UInt8) : Prop :=
  ∃ before after, headers = before ++ ⟨name, value⟩ :: after ∧ ∀ other ∈ before, other.name ≠ name

variable {headers : Headers} {name : String} {value : List UInt8}

theorem first?_eq_some_iff : headers.first? name = some value ↔ headers.Leads name value := by
  unfold first? Leads
  constructor
  · intro found
    obtain ⟨⟨given, _⟩, header, rfl⟩ := Option.map_eq_some_iff.mp found
    obtain ⟨same, before, after, rfl, others⟩ := List.find?_eq_some_iff_append.mp header
    obtain rfl : given = name := by simpa using same
    exact ⟨before, after, rfl, fun other member => by simpa using others other member⟩
  · rintro ⟨before, after, rfl, others⟩
    have header : (before ++ ⟨name, value⟩ :: after).find? (·.name == name) = some ⟨name, value⟩ :=
      List.find?_eq_some_iff_append.mpr
        ⟨beq_self_eq_true name, before, after, rfl, fun other member => by simpa using others other member⟩
    rw [header]
    rfl

theorem set_filter (headers : Headers) (name : String) (value : List UInt8) :
    (headers.set name value).filter (·.name == name) = [⟨name, value⟩] := by
  rw [set, List.filter_append, List.filter_filter]
  have nothing : headers.filter (fun h => h.name == name && h.name != name) = [] := by
    simp [List.filter_eq_nil_iff]
  rw [nothing]
  simp

end Http.Headers

namespace Correlation

/-- The client gives this id: the first value of one of the headers for it, and it is not empty, while
those before have no first value or an empty one. -/
def Gives (headers : Http.Headers) (value : List UInt8) : Prop :=
  value ≠ [] ∧ ∃ before name after, requestHeaders = before ++ name :: after ∧
    headers.Leads name value ∧ ∀ other ∈ before, ∀ first, headers.Leads other first → first = []

variable {headers : Http.Headers} {value : List UInt8}

theorem find_filterMap {α β : Type} (f : α → Option β) (p : β → Bool) (l : List α) (b : β) :
    (l.filterMap f).find? p = some b ↔ p b ∧ ∃ before a after, l = before ++ a :: after ∧
      f a = some b ∧ ∀ other ∈ before, ∀ c, f other = some c → p c = false := by
  rw [List.find?_eq_some_iff_append]
  refine and_congr_right fun _ => ⟨?_, ?_⟩
  · rintro ⟨front, back, same, others⟩
    obtain ⟨before, rest, rfl, mapped, restMapped⟩ := List.filterMap_eq_append_iff.mp same
    obtain ⟨skipped, a, after, rfl, nothing, here, _⟩ := List.filterMap_eq_cons_iff.mp restMapped
    refine ⟨before ++ skipped, a, after, by simp, here, fun other member c found => ?_⟩
    rcases List.mem_append.mp member with early | late
    · have known : c ∈ front := mapped ▸ List.mem_filterMap.mpr ⟨other, early, found⟩
      simpa using others c known
    · rw [nothing other late] at found
      cases found
  · rintro ⟨before, a, after, rfl, here, others⟩
    refine ⟨before.filterMap f, after.filterMap f, ?_, fun c member => ?_⟩
    · rw [List.filterMap_append, List.filterMap_cons_some here]
    · obtain ⟨other, known, found⟩ := List.mem_filterMap.mp member
      simp [others other known c found]

theorem provided_eq_some_iff : provided? headers = some value ↔ Gives headers value := by
  simp only [provided?, Gives, find_filterMap, Http.Headers.first?_eq_some_iff, Bool.not_eq_true',
    Bool.not_eq_false', List.isEmpty_iff, List.isEmpty_eq_false_iff]

theorem resolve_given (gives : Gives headers value) (fresh : Seed) :
    resolve headers fresh = .provided value := by
  rw [resolve, provided_eq_some_iff.mpr gives]

theorem provided_eq_none (nameless : ∀ value, ¬ Gives headers value) : provided? headers = none := by
  rw [Option.eq_none_iff_forall_ne_some]
  exact fun value given => nameless value (provided_eq_some_iff.mp given)

theorem resolve_assigned (nameless : ∀ value, ¬ Gives headers value) (fresh : Seed) :
    resolve headers fresh = .assigned fresh := by
  rw [resolve, provided_eq_none nameless]

section Uuid

open uuidText (digit)

theorem digit_form : ∀ n < 16, (digit n).isDigit = true ∨ 'a' ≤ digit n ∧ digit n ≤ 'f' := by
  decide

theorem digit_version : ∀ n < 16, digit ((0x40 + n) / 16) = '4' := by
  decide

theorem digit_variant : ∀ n < 64, digit ((0x80 + n) / 16) ∈ ['8', '9', 'a', 'b'] := by
  decide

theorem digit_ne_dash : ∀ n < 16, digit n ≠ '-' := by
  decide

theorem digit_injective : ∀ m < 16, ∀ n < 16, digit m = digit n → m = n := by
  decide

theorem uuidText_isUuid (seed : Seed) : isUuid (uuidText seed) = true := by
  match seed with
  | ⟨[a, b, c, d, e, f, g, h, i, j, k, l, m, n, o, p], _⟩ =>
    have high (x : UInt8) : x.toNat / 16 < 16 := by have := x.toNat_lt; omega
    have low (x : Nat) : x % 16 < 16 := Nat.mod_lt _ (by decide)
    have version := digit_version (g.toNat % 16) (low _)
    have variant := digit_variant (i.toNat % 64) (Nat.mod_lt _ (by decide))
    simp only [List.mem_cons, List.not_mem_nil, or_false] at variant
    simp [uuidText, stamped, isUuid, List.zipIdx, digit_form _ (high _), digit_form _ (low _), version,
      variant]

theorem octet_of_digits {m n : Nat} (small : m < 256) (other : n < 256)
    (high : digit (m / 16) = digit (n / 16)) (low : digit (m % 16) = digit (n % 16)) : m = n := by
  have first := digit_injective (m / 16) (by omega) (n / 16) (by omega) high
  have second := digit_injective (m % 16) (by omega) (n % 16) (by omega) low
  omega

def digitsOf (octets : List Nat) : List Char :=
  octets.flatMap fun n => [digit (n / 16), digit (n % 16)]

theorem digitsOf_injective {octets others : List Nat} (small : ∀ n ∈ octets, n < 256)
    (otherSmall : ∀ n ∈ others, n < 256) (same : digitsOf octets = digitsOf others) : octets = others := by
  induction octets generalizing others with
  | nil =>
      cases others with
      | nil => rfl
      | cons => cases same
  | cons m octets ih =>
      cases others with
      | nil => cases same
      | cons n others =>
          obtain ⟨smallM, small⟩ := List.forall_mem_cons.mp small
          obtain ⟨smallN, otherSmall⟩ := List.forall_mem_cons.mp otherSmall
          obtain ⟨high, rest⟩ := List.cons.inj same
          obtain ⟨low, rest⟩ := List.cons.inj rest
          rw [octet_of_digits smallM smallN high low, ih small otherSmall rest]

theorem stamped_small (octets : List UInt8) : ∀ n ∈ stamped octets, n < 256 := by
  intro n member
  obtain ⟨⟨o, i⟩, -, rfl⟩ := List.mem_map.mp member
  have := o.toNat_lt
  dsimp only
  split_ifs <;> omega

theorem digitsOf_ne_dash {octets : List Nat} (small : ∀ n ∈ octets, n < 256) :
    ∀ c ∈ digitsOf octets, c ≠ '-' := by
  intro c member
  obtain ⟨n, known, digit⟩ := List.mem_flatMap.mp member
  have := small n known
  rcases List.mem_pair.mp digit with rfl | rfl
  · exact digit_ne_dash _ (by omega)
  · exact digit_ne_dash _ (by omega)

theorem digitsOf_length (octets : List Nat) : (digitsOf octets).length = 2 * octets.length := by
  induction octets with
  | nil => rfl
  | cons n octets ih => rw [digitsOf, List.flatMap_cons, List.length_append, ← digitsOf, ih]; simp; omega

def group (digits : List Char) (start count : Nat) : List Char := (digits.drop start).take count

theorem groups_append {digits : List Char} (length : digits.length = 32) :
    group digits 0 8 ++ (group digits 8 4 ++ (group digits 12 4 ++
      (group digits 16 4 ++ group digits 20 12))) =
      digits := by
  have next (start count : Nat) : group digits start count ++ digits.drop (start + count) =
      digits.drop start := by
    rw [group, ← List.drop_drop, List.take_append_drop]
  have last : group digits 20 12 = digits.drop 20 :=
    List.take_of_length_le (by rw [List.length_drop]; omega)
  rw [last, next 16 4, next 12 4, next 8 4, next 0 8]
  rfl

theorem uuidText_digits (seed : Seed) : (uuidText seed).filter (· != '-') = digitsOf (stamped seed.val) := by
  obtain ⟨octets, sixteen⟩ := seed
  have length : (digitsOf (stamped octets)).length = 32 := by
    rw [digitsOf_length, stamped, List.length_map, List.length_zipIdx, sixteen]
  have text : uuidText ⟨octets, sixteen⟩ =
      group (digitsOf (stamped octets)) 0 8 ++ '-' :: group (digitsOf (stamped octets)) 8 4 ++
        '-' :: group (digitsOf (stamped octets)) 12 4 ++ '-' :: group (digitsOf (stamped octets)) 16 4 ++
        '-' :: group (digitsOf (stamped octets)) 20 12 := rfl
  have kept (start count : Nat) : (group (digitsOf (stamped octets)) start count).filter (· != '-') =
      group (digitsOf (stamped octets)) start count := by
    rw [List.filter_eq_self]
    intro c member
    simpa using digitsOf_ne_dash (stamped_small octets) c (List.mem_of_mem_drop (List.mem_of_mem_take member))
  have dashless : ('-' != '-') = false := by decide
  rw [text]
  simp only [List.filter_append, List.filter_cons, kept, dashless, Bool.false_eq_true, if_false,
    List.append_assoc]
  exact groups_append length

/-- Two ids of one text are made of the same octets, but for the six bits of their form. -/
theorem stamped_of_uuidText {seed other : Seed} (same : uuidText seed = uuidText other) :
    stamped seed.val = stamped other.val := by
  have digits := congrArg (List.filter (· != '-')) same
  rw [uuidText_digits, uuidText_digits] at digits
  exact digitsOf_injective (stamped_small _) (stamped_small _) digits

theorem stamped_of_headerValue {seed other : Seed}
    (same : (assigned seed).headerValue = (assigned other).headerValue) :
      stamped seed.val = stamped other.val :=
  stamped_of_uuidText (Utf8.encode_injective same)

end Uuid

end Correlation

end AttestationService

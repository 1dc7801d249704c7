import AttestationService.Proofs.Json.LineEnds
import AttestationService.Proofs.Verifier.Report
import AttestationService.Verifier.Installation
import Mathlib.Data.List.Permutation

/-!
What the verifier printed as errors stands behind its output. A token that is an array or an object
ends with a bracket of its own, so errors behind it are either blank, and then they are trimmed
away, or they spoil it: no errors make another token of it.
-/

namespace AttestationService

namespace Json

section Following
variable {v w : Value} {core other document front back rest : List Char}

theorem blank_endsNumber (blank : ∀ c ∈ back, Text.isBlank c = true) : EndsNumber (.ofText back) := by
  cases back with
  | nil => trivial
  | cons c back =>
      have here := blank c List.mem_cons_self
      have unlike (d : Char) (solid : Text.isBlank d = false) : c ≠ d := by
        rintro rfl
        rw [here] at solid
        cases solid
      refine ⟨?_, unlike '.' (by decide), unlike 'e' (by decide), unlike 'E' (by decide)⟩
      cases found : digitOf? c with
      | none => rfl
      | some d =>
          rw [digit_solid (digit_of_digitOf found)] at here
          cases here

/-- The reader stops at the bracket that closes the value, so one text does not begin with two values. -/
theorem bracketed_alone (brackets : v.Bracketed) (spelled : Spells Number.ReadAs v core)
    (spelledOther : Spells Number.ReadAs w other) (blank : ∀ c ∈ back, Text.isBlank c = true)
    (same : core ++ rest = other ++ back) : v = w ∧ rest = back := by
  have numerals : ∀ n text, Number.ReadAs n text → n.ReadAs text := fun _ _ => id
  let fuel := 2 * (core ++ rest).length
  let depth := max v.depth w.depth
  have enough : 2 * core.length ≤ fuel := by
    simp only [fuel, List.length_append]
    omega
  have enoughOther : 2 * other.length ≤ fuel := by
    simp only [fuel, same, List.length_append]
    omega
  have read : value fuel depth (.ofText (core ++ rest)) = .ok (v, .ofText rest) := by
    rw [ofText_append]
    exact reads_bracketed numerals (fun less _ => reads numerals less) brackets spelled enough
      (Nat.le_max_left _ _)
  have readOther : value fuel depth (.ofText (other ++ back)) = .ok (w, .ofText back) := by
    rw [ofText_append]
    exact (reads numerals fuel).value w other depth _ spelledOther enoughOther (Nat.le_max_right _ _)
      (blank_endsNumber blank)
  rw [same, readOther] at read
  obtain ⟨rfl, sameRest⟩ := Prod.mk.inj (Except.ok.inj read)
  exact ⟨rfl, (ofText_injective sameRest).symm⟩

theorem Value.Bracketed.of_merged (brackets : v.merged.Bracketed) : v.Bracketed := by
  cases v with
  | array items => exact .array items
  | object members => exact .object members
  | null | bool | number | string => cases brackets

theorem readText_followed (accepted : readText document = .ok v) (brackets : v.Bracketed)
    (leading : ∀ c ∈ front, Text.isBlank c = true) (rest : List Char) :
    (readText (Text.trim (front ++ document ++ rest))).toOption =
      if rest.all Text.isBlank then some v else none := by
  have read : (readText document).toOption = some v := by rw [accepted]; rfl
  obtain ⟨w, ⟨shallow, before, core, after, space, spelled, later, rfl⟩, rfl⟩ := readText_iff.mp read
  have leads : ∀ c ∈ front ++ before, Text.isBlank c = true :=
    List.forall_mem_append.mpr ⟨leading, space.blank⟩
  have bare {u : Value} {text : List Char} (spelled : Spells Number.ReadAs u text) : Text.Bare text :=
    spelled.bare fun _ _ read => read.bare
  have whole : front ++ (before ++ core ++ after) ++ rest = (front ++ before) ++ core ++ (after ++ rest) := by
    simp only [List.append_assoc]
  rw [whole]
  split
  · rename_i blank
    have trails : ∀ c ∈ after ++ rest, Text.isBlank c = true :=
      List.forall_mem_append.mpr ⟨later.blank, List.all_eq_true.mp blank⟩
    exact readText_iff.mpr ⟨w, document_trim.mpr ⟨shallow, _, core, _, leads, spelled, trails, rfl⟩, rfl⟩
  · rename_i spoiled
    by_contra found
    obtain ⟨u, made⟩ := Option.ne_none_iff_exists'.mp found
    obtain ⟨x, stated, _⟩ := readText_iff.mp made
    obtain ⟨_, left, other, right, leadsOther, spelledOther, trailsOther, same⟩ := document_trim.mp stated
    -- both values begin at the first character that is no blank
    have aligned : core ++ (after ++ rest) = other ++ right := by
      rw [← Text.dropWhile_bare leads (bare spelled), same,
        Text.dropWhile_bare leadsOther (bare spelledOther)]
    obtain ⟨_, ends⟩ := bracketed_alone brackets.of_merged spelled spelledOther trailsOther aligned
    rw [← ends] at trailsOther
    exact spoiled (List.all_eq_true.mpr (List.forall_mem_append.mp trailsOther).2)

end Following

end Json

namespace Verifier

theorem Announces.append {document text : List Char} (announced : Announces document text)
    (more : List Char) :
    Announces (document ++ more) (text ++ more) := by
  induction announced with
  | here ended marked =>
      rw [List.append_assoc, List.cons_append]
      exact .here ended marked
  | later ended unmarked _ ih =>
      rw [List.append_assoc, List.cons_append]
      exact .later ended unmarked ih

namespace Installation

theorem perform_process {i : Installation} {site : Site} {nonce : Option Nonce} {result : Shell.Result}
    (ended : i.process site nonce = .ok result) :
    (i.perform site nonce).1.ending = .completed (runOf result) := by
  unfold perform
  rw [ended]

/-- Behind an array or an object that the verifier printed as its token, blank errors change nothing and other
errors leave no token. -/
theorem token_before_errors {result : Shell.Result} {front document back : List Char} {v : Json.Value}
    (clean : result.exit = .code 0)
    (printed : Announces (front ++ document ++ back) (Utf8.lossy result.output))
    (leading : ∀ c ∈ front, Text.isBlank c = true) (accepted : Json.readText document = .ok v)
    (brackets : v.Bracketed) (trailing : ∀ c ∈ back, Text.isBlank c = true) :
    (∀ (i : Installation) (site : Site) (nonce : Option Nonce), i.process site nonce = .ok result →
      (i.perform site nonce).1.ending = .completed (runOf result)) ∧
    runOf result = ⟨Utf8.lossyString result.output ++ Utf8.lossyString result.errors, none⟩ ∧
    extractToken (runOf result).output.toList =
      if (Utf8.lossy result.errors).all Text.isBlank then some v else none := by
  have output : (runOf result).output.toList = Utf8.lossy result.output ++ Utf8.lossy result.errors := by
    simp only [runOf, Utf8.lossyString, String.toList_append, String.toList_ofList]
  refine ⟨fun i site nonce => perform_process, ?_, ?_⟩
  · rw [runOf, clean]
    rfl
  · have found := (printed.append (Utf8.lossy result.errors)).found
    rw [List.append_assoc _ back] at found
    rw [output, extractToken, found, Option.bind_some, Json.readText_followed accepted brackets leading,
      List.all_append, List.all_eq_true.mpr trailing, Bool.true_and]

def strayOutput : List UInt8 :=
  0xFF :: Utf8.encode ("\nEntity Attestation Token: \x7b\x7d\r\n".toList ++ ['\u2003'] ++
    "[\x7b\"k\":[]\x7d]".toList ++
    ['\u00a0'])

def strayToken : Json.Value := .array [.object [("k", .array [])]]

def strayResult (errors : List UInt8) : Shell.Result := ⟨strayOutput, errors, .code 0, 0, ⟨[], []⟩⟩

/-- An em space behind it is only a blank, and the first octet of a character cut short is not. -/
theorem token_before_errors_stray :
    extractToken (runOf (strayResult [0xE2, 0x80, 0x83])).output.toList = some strayToken ∧
      extractToken (runOf (strayResult [0xE2, 0x80])).output.toList = none := by
  have shown : Utf8.lossy strayOutput = '\uFFFD' :: ("\nEntity Attestation Token: \x7b\x7d\r\n".toList ++
      ['\u2003'] ++ "[\x7b\"k\":[]\x7d]".toList ++ ['\u00a0']) := by decide +kernel
  have unmarked : ¬ Text.occurs tokenMarker ['\uFFFD'] = true := by decide
  have marked : Text.occurs tokenMarker "Entity Attestation Token: \x7b\x7d\r".toList = true := by decide
  have printed : Announces (['\u2003'] ++ "[\x7b\"k\":[]\x7d]".toList ++ ['\u00a0'])
      (Utf8.lossy strayOutput) := by
    rw [shown]
    exact .later (by decide) (fun found => unmarked ((Text.occurs_iff _ _).mpr found))
      (.here (by decide) ((Text.occurs_iff _ _).mp marked))
  have accepted : Json.readText "[\x7b\"k\":[]\x7d]".toList = .ok strayToken := by cbv
  have token (errors : List UInt8) : extractToken (runOf (strayResult errors)).output.toList =
      if (Utf8.lossy errors).all Text.isBlank then some strayToken else none := by
    have clean : (strayResult errors).exit = .code 0 := rfl
    exact (token_before_errors clean printed (List.all_eq_true.mp (by decide +kernel)) accepted (.array _)
      (List.all_eq_true.mp (by decide +kernel))).2.2
  exact ⟨(token _).trans (if_pos (by decide +kernel)), (token _).trans (if_neg (by decide +kernel))⟩

end Installation

end Verifier

end AttestationService

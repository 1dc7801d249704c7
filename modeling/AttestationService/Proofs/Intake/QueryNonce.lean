import AttestationService.Proofs.Http.Form
import AttestationService.Proofs.Intake.Ruling

/-!
The nonce in a query. The first pair with the key decides, in whichever way the query is written.
Pairs after it, whether they are well-formed or not, pairs with another key and the body never do,
and every query is read.
-/

namespace AttestationService

namespace FirstNonce
variable {pairs : List (String × String)} {raw : String}

theorem append (named : FirstNonce pairs raw) (present : "nonce" ∈ pairs.map Prod.fst)
    (more : List (String × String)) : FirstNonce (pairs ++ more) raw := by
  induction named with
  | absent => cases present
  | first value rest => exact .first value (rest ++ more)
  | later pair rest raw other _ ih =>
      rw [List.map_cons, List.mem_cons] at present
      exact .later pair (rest ++ more) raw other (ih (present.resolve_left (Ne.symm other)))

end FirstNonce

namespace Http.Request

variable {request : Request} {pairs : List (String × String)} {text : List Char}

theorem pairs_spelled (query : request.target.query = some (String.ofList text))
    (spelled : Form.SpellsPairs pairs text) : request.pairs = pairs := by
  rw [Request.pairs, query, Option.map_some, Option.getD_some, Utf8.encodeString, String.toList_ofList]
  exact spelled.found

theorem pairs_before {rest : List Char}
    (query : request.target.query = some (String.ofList (text ++ '&' :: rest)))
    (spelled : Form.SpellsPairs pairs text) : request.pairs = pairs ++ Form.pairs (Utf8.encode rest) := by
  rw [Request.pairs, query, Option.map_some, Option.getD_some, Utf8.encodeString, String.toList_ofList,
    Form.pairs_divided, spelled.found]

end Http.Request

namespace Intake
variable {request : Http.Request}

def ofPairs (sent : Nat) (target : Http.Target) (pairs : List (String × String)) (raw : String) : Intake :=
  ⟨[.attestRequested .get target, .queryRead pairs, (check raw).1].map (sent, ·), sent, (check raw).2⟩

theorem ofRequest_pairs (readDeadline sent : Nat) (get : request.method = .get) {raw : String}
    (named : FirstNonce request.pairs raw) :
    ofRequest readDeadline sent request = ofPairs sent request.target request.pairs raw := by
  rw [(firstNonce_iff _ _).mp named]
  unfold ofRequest
  rw [get]
  rfl

theorem check_fault {raw : String} {reason : Rejection} (turnedAway : (check raw).2 = .error reason) :
    reason = .invalidNonce := by
  rcases check_cases raw with ⟨_, ruling⟩ | ⟨_, _, ruling⟩ | ⟨_, ruling⟩
  · rw [turnedAway] at ruling
    cases ruling
  · rw [turnedAway] at ruling
    cases ruling
  · rw [turnedAway] at ruling
    exact Except.error.inj ruling

/-- A get request is taken in with the value of the first pair whose key is `nonce`, or with the empty text if
there is no such pair. This holds of every query; and pairs that are written in any way are its pairs. -/
theorem first_pair_named (readDeadline sent : Nat) (request : Http.Request) (get : request.method = .get) :
    (∃ raw, FirstNonce request.pairs raw ∧
      ofRequest readDeadline sent request = ofPairs sent request.target request.pairs raw ∧
      ∀ reason, (ofRequest readDeadline sent request).verdict = .error reason → reason = .invalidNonce) ∧
    ∀ pairs text, Http.Form.SpellsPairs pairs text →
      (("/gpu_attest?" ++ String.ofList text).utf8ByteSize ≤ Http.Target.maxLength →
        Http.Target.ofText? ("/gpu_attest?" ++ String.ofList text).toList =
          some ⟨none, none, "/gpu_attest", some (String.ofList text)⟩) ∧
      ∃ raw, FirstNonce pairs raw ∧
        (request.target.query = some (String.ofList text) →
          ofRequest readDeadline sent request = ofPairs sent request.target pairs raw) ∧
        ∀ rest, "nonce" ∈ pairs.map Prod.fst →
          request.target.query = some (String.ofList (text ++ '&' :: rest)) →
          ∃ others, ofRequest readDeadline sent request =
            ofPairs sent request.target (pairs ++ others) raw := by
  constructor
  · have named := (firstNonce_iff request.pairs _).mpr rfl
    have taken := ofRequest_pairs readDeadline sent get named
    refine ⟨_, named, taken, ?_⟩
    intro reason turnedAway
    rw [taken] at turnedAway
    exact check_fault turnedAway
  · intro pairs text spelled
    have named := (firstNonce_iff pairs _).mpr rfl
    refine ⟨?_, _, named, ?_, ?_⟩
    · intro fits
      apply Http.Target.ofText_query _ fits
      rw [String.toList_ofList]
      exact spelled.queried
    · intro query
      have same := Http.Request.pairs_spelled query spelled
      rw [← same] at named ⊢
      exact ofRequest_pairs readDeadline sent get named
    · intro rest present query
      have same := Http.Request.pairs_before query spelled
      have first := named.append present (Http.Form.pairs (Utf8.encode rest))
      refine ⟨Http.Form.pairs (Utf8.encode rest), ?_⟩
      rw [← same] at first ⊢
      exact ofRequest_pairs readDeadline sent get first

def escapedQuery : List Char := "NONCE=b&&%6eonce=a+%26&x".toList

theorem escapedQuery_spells :
    Http.Form.SpellsPairs [("NONCE", "b"), ("nonce", "a &"), ("x", "")] escapedQuery := by
  have capitals : Http.Form.Spells (Utf8.encodeString "NONCE") "NONCE".toList :=
    .plain (by decide) (.plain (by decide) (.plain (by decide)
      (.plain (by decide) (.plain (by decide) .nil))))
  have named : Http.Form.Spells (Utf8.encodeString "nonce") "%6eonce".toList :=
    .escaped (.decimal 6 (by decide)) (.lower 14 (by decide) (by decide))
      (.plain (by decide) (.plain (by decide) (.plain (by decide) (.plain (by decide) .nil))))
  have valued : Http.Form.Spells (Utf8.encodeString "a &") "a+%26".toList :=
    .plain (by decide) (.space (.escaped (.decimal 2 (by decide)) (.decimal 6 (by decide)) .nil))
  have letter : Http.Form.Spells (Utf8.encodeString "b") ['b'] := .plain (by decide) .nil
  have first := Http.Form.SpellsPair.full capitals (by decide) letter
  have second := Http.Form.SpellsPair.full named (by decide) valued
  have third : Http.Form.SpellsPair ("x", "") ['x'] :=
    .alone (.plain (by decide) .nil) (by decide) (by decide)
  exact .next first (.gap (.next second (.last third)))

def escapedRequest : Http.Request :=
  ⟨.get, ⟨none, none, "/gpu_attest",
    some (String.ofList (escapedQuery ++ '&' :: "%=%ff=&nonce=c".toList))⟩, [], []⟩

theorem first_pair_named_escaped : ∃ others, ofRequest 10 0 escapedRequest =
    ofPairs 0 escapedRequest.target ([("NONCE", "b"), ("nonce", "a &"), ("x", "")] ++ others) "a &" := by
  obtain ⟨_, written⟩ := first_pair_named 10 0 escapedRequest rfl
  obtain ⟨_, raw, named, _, more⟩ := written _ _ escapedQuery_spells
  obtain rfl : raw = "a &" := (firstNonce_iff _ _).mp named
  exact more _ (by decide) rfl

end Intake

end AttestationService

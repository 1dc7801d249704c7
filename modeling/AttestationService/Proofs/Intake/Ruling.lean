import AttestationService.Intake
import AttestationService.Proofs.Intake.Body
import AttestationService.Proofs.Intake.Digits

/-!
How a request to attest is ruled on. What it names as its nonce is found in the query of a get
request and in the complete body of a post request; the other of the two plays no part. The text
that was named is the nonce as it stands, or it is none.
-/

namespace AttestationService

/-- What pairs name: the value of the first one with the key, or nothing if no pair has it. -/
inductive FirstNonce : List (String × String) → String → Prop where
  | absent : FirstNonce [] ""
  | first (value : String) (rest : List (String × String)) : FirstNonce (("nonce", value) :: rest) value
  | later (pair : String × String) (rest : List (String × String)) (raw : String)
      (other : pair.1 ≠ "nonce") (named : FirstNonce rest raw) : FirstNonce (pair :: rest) raw

theorem queryNonce_later (pair : String × String) (rest : List (String × String))
    (other : pair.1 ≠ "nonce") : queryNonce (pair :: rest) = queryNonce rest := by
  simp [queryNonce, other]

theorem firstNonce_iff (pairs : List (String × String)) (raw : String) :
    FirstNonce pairs raw ↔ raw = queryNonce pairs := by
  constructor
  · intro named
    induction named with
    | absent => rfl
    | first value rest => rfl
    | later pair rest raw other _ ih => rw [queryNonce_later pair rest other, ih]
  · rintro rfl
    induction pairs with
    | nil => exact .absent
    | cons pair rest ih =>
        by_cases key : pair.1 = "nonce"
        · obtain ⟨_, value⟩ := pair
          subst key
          exact .first value rest
        · rw [queryNonce_later pair rest key]
          exact .later pair rest _ key ih

namespace Http.Request

def pairs (request : Request) : List (String × String) :=
  Form.pairs ((request.target.query.map Utf8.encodeString).getD [])

/-- The text that a request names as its nonce, if the chunks of its body may take that long. -/
inductive Names (readDeadline : Nat) (request : Request) : String → Prop where
  | query (get : request.method = .get) (raw : String) (named : FirstNonce request.pairs raw) :
      Names readDeadline request raw
  | body (post : request.method = .post) (octets : List UInt8)
      (whole : Body.Whole readDeadline maxBodySize request.body octets) :
      Names readDeadline request (BodyNonce.ofOctets octets).raw

/-- What a request deserves by what it says. -/
inductive Ruled (readDeadline : Nat) (request : Request) :
    Except Rejection (Option Nonce) → Prop where
  | plain (named : Names readDeadline request "") : Ruled readDeadline request (.ok none)
  | bound (nonce : Nonce) (named : Names readDeadline request nonce.text)
      (digits : IsNonceText nonce.text) : Ruled readDeadline request (.ok (some nonce))
  | invalid (raw : String) (named : Names readDeadline request raw) (given : raw ≠ "")
      (other : ¬ IsNonceText raw) : Ruled readDeadline request (.error .invalidNonce)
  | unread (post : request.method = .post)
      (broken : ∀ octets, ¬ Body.Whole readDeadline maxBodySize request.body octets) :
      Ruled readDeadline request (.error .bodyUnread)
  | refused (noGet : request.method ≠ .get) (noPost : request.method ≠ .post) :
      Ruled readDeadline request (.error .methodNotAllowed)

end Http.Request

namespace Intake

theorem nonceText_given (nonce : Nonce) : nonce.text ≠ "" := by
  intro empty
  have long := ((isNonceText_iff nonce.text).mp nonce.isHex).1
  rw [empty] at long
  cases long

theorem check_bound (nonce : Nonce) : (check nonce.text).2 = .ok (some nonce) := by
  have given : nonce.text.isEmpty = false := by
    simpa using nonceText_given nonce
  have hex : Nonce.ofString nonce.text = .ok nonce := dif_pos nonce.isHex
  have valid : Nonce.optional nonce.text = .ok (some nonce) := by
    simp only [Nonce.optional, given, hex]
    rfl
  simp only [check, valid]

theorem check_invalid (raw : String) (given : raw ≠ "") (other : ¬ IsNonceText raw) :
    (check raw).2 = .error .invalidNonce := by
  have filled : raw.isEmpty = false := by simpa using given
  have noHex : Nonce.ofString raw = .error .notHex :=
    dif_neg fun hex => other ((isNonceText_iff raw).mp hex)
  have invalid : Nonce.optional raw = .error .notHex := by
    simp only [Nonce.optional, filled, noHex]
    rfl
  simp only [check, invalid]

theorem check_cases (raw : String) :
    raw = "" ∧ (check raw).2 = .ok none ∨
      (∃ nonce : Nonce, nonce.text = raw ∧ (check raw).2 = .ok (some nonce)) ∨
      (raw ≠ "" ∧ ¬ IsNonceText raw) ∧ (check raw).2 = .error .invalidNonce := by
  by_cases empty : raw = ""
  · subst empty
    exact .inl ⟨rfl, rfl⟩
  · by_cases digits : IsNonceText raw
    · obtain ⟨nonce, rfl⟩ : ∃ nonce : Nonce, nonce.text = raw :=
        ⟨⟨raw, (isNonceText_iff raw).mpr digits⟩, rfl⟩
      exact .inr (.inl ⟨nonce, rfl, check_bound nonce⟩)
    · exact .inr (.inr ⟨⟨empty, digits⟩, check_invalid raw empty digits⟩)

variable {readDeadline : Nat} {request : Http.Request}

theorem check_ruled (raw : String) (named : request.Names readDeadline raw) :
    request.Ruled readDeadline (check raw).2 := by
  rcases check_cases raw with ⟨rfl, ruling⟩ | ⟨nonce, rfl, ruling⟩ | ⟨⟨given, other⟩, ruling⟩
  · rw [ruling]
    exact .plain named
  · rw [ruling]
    exact .bound nonce named ((isNonceText_iff nonce.text).mp nonce.isHex)
  · rw [ruling]
    exact .invalid raw named given other

theorem collect_whole (readDeadline sent : Nat) (chunks : List Http.Chunk) (octets : List UInt8) :
    (Http.Body.collect readDeadline sent maxBodySize [] chunks).2 = .ok octets ↔
      Http.Body.Whole readDeadline maxBodySize chunks octets := by
  rw [Http.Body.collect_ok_iff]
  simp

theorem ofRequest_get (sent : Nat) (get : request.method = .get) :
    (ofRequest readDeadline sent request).verdict = (check (queryNonce request.pairs)).2 := by
  simp only [ofRequest, get]
  rfl

theorem ofRequest_whole (sent : Nat) (post : request.method = .post) (octets : List UInt8)
    (whole : Http.Body.Whole readDeadline maxBodySize request.body octets) :
    (ofRequest readDeadline sent request).verdict = (check (BodyNonce.ofOctets octets).raw).2 := by
  have read := (collect_whole readDeadline sent request.body octets).mpr whole
  unfold ofRequest
  rw [post]
  simp only
  split <;> rename_i found
  · rw [found] at read
    cases read
  · rw [found, Except.ok.injEq] at read
    subst read
    rfl

theorem ofRequest_broken (sent : Nat) (post : request.method = .post)
    (broken : ∀ octets, ¬ Http.Body.Whole readDeadline maxBodySize request.body octets) :
    (ofRequest readDeadline sent request).verdict = .error .bodyUnread := by
  unfold ofRequest
  rw [post]
  simp only
  split <;> rename_i found
  · rfl
  · rename_i octets
    exact absurd ((collect_whole readDeadline sent request.body octets).mp (by rw [found]))
      (broken octets)

theorem ofRequest_refused (sent : Nat) (noGet : request.method ≠ .get)
    (noPost : request.method ≠ .post) :
    (ofRequest readDeadline sent request).verdict = .error .methodNotAllowed := by
  unfold ofRequest
  split
  · exact absurd ‹_› noGet
  · exact absurd ‹_› noPost
  · rfl

/-- The ruling is what the request deserves, and it deserves nothing else. -/
theorem ruled_iff (readDeadline sent : Nat) (request : Http.Request)
    (verdict : Except Rejection (Option Nonce)) :
    request.Ruled readDeadline verdict ↔
      verdict = (ofRequest readDeadline sent request).verdict := by
  have named : ∀ raw, request.Names readDeadline raw →
      (ofRequest readDeadline sent request).verdict = (check raw).2 := by
    intro raw names
    cases names with
    | query get raw first =>
        rw [ofRequest_get sent get, (firstNonce_iff _ raw).mp first]
    | body post octets whole => exact ofRequest_whole sent post octets whole
  constructor
  · intro ruled
    cases ruled with
    | plain names => exact (named "" names).symm
    | bound nonce names digits => rw [named nonce.text names, check_bound]
    | invalid raw names given other => rw [named raw names, check_invalid raw given other]
    | unread post broken => exact (ofRequest_broken sent post broken).symm
    | refused noGet noPost => exact (ofRequest_refused sent noGet noPost).symm
  · rintro rfl
    -- there is a case for every method and every body, so some case applies
    by_cases get : request.method = .get
    · have names : request.Names readDeadline (queryNonce request.pairs) :=
        .query get _ ((firstNonce_iff request.pairs _).mpr rfl)
      rw [named _ names]
      exact check_ruled _ names
    · by_cases post : request.method = .post
      · by_cases whole : ∃ octets, Http.Body.Whole readDeadline maxBodySize request.body octets
        · obtain ⟨octets, whole⟩ := whole
          have names := Http.Request.Names.body post octets whole
          rw [named _ names]
          exact check_ruled _ names
        · have broken := not_exists.mp whole
          rw [ofRequest_broken sent post broken]
          exact .unread post broken
      · rw [ofRequest_refused sent get post]
        exact .refused get post

theorem ofRequest_ready (readDeadline sent : Nat) (noPost : request.method ≠ .post) :
    (ofRequest readDeadline sent request).ready = sent := by
  unfold ofRequest
  split
  · rfl
  · exact absurd ‹_› noPost
  · rfl

end Intake

end AttestationService

import AttestationService.Proofs.Http.Form
import AttestationService.Proofs.Message
import AttestationService.Proofs.Session.Attestation

/-!
A nonce may be named in a query or in a body. A request that writes a text in the one and a request that
writes it in the other name the same text, in whichever of its spellings, and fare alike.
-/

namespace AttestationService

open Json

/-- The bodies that name a text: the object that has it as its nonce, as it is written or in any spelling. -/
inductive NonceBody (s : String) : List Char → Prop where
  | written (layout : Layout) : NonceBody s (layout.text (NonceRequest.toJson ⟨some s⟩))
  | spelled {before text after : List Char} (space : IsGap before)
      (spelled : Spells Number.ReadAs (.object [("nonce", .string s)]) text) (later : IsGap after) :
      NonceBody s (before ++ text ++ after)

namespace NonceBody
variable {s : String} {text : List Char}

theorem literal (spelled : SpellsString s text) :
    NonceBody s ('\x7b' :: stringText "nonce" ++ ':' :: text ++ ['\x7d']) := by
  have member : SpellsMember Number.ReadAs ("nonce", .string s)
      (stringText "nonce" ++ [] ++ ':' :: [] ++ text) :=
    .mk (stringText_spells "nonce") noGap noGap (.string spelled)
  have body := NonceBody.spelled noGap (.object noGap member (.close noGap)) noGap
  simpa using body

theorem spelling (body : NonceBody s text) : ∃ before object after, IsGap before ∧
    Spells Number.ReadAs (.object [("nonce", .string s)]) object ∧ IsGap after ∧
    text = before ++ object ++ after := by
  cases body with
  | written layout =>
      refine ⟨[], _, [], noGap, layout.spells ?_, noGap, (List.append_nil _).symm⟩
      rintro _ ⟨⟩
  | spelled space spelled later => exact ⟨_, _, _, space, spelled, later, rfl⟩

theorem raw_eq (body : NonceBody s text) : (BodyNonce.ofOctets (Utf8.encode text)).raw = s := by
  obtain ⟨before, object, after, space, spelled, later, rfl⟩ := body.spelling
  have read : readOctets (Utf8.encode (before ++ object ++ after)) =
      .ok (.object [("nonce", .string s)]) := by
    rw [readOctets, Utf8.pieces_encode]
    exact read_spelled (fun _ _ => id) space spelled later (show 1 ≤ maxDepth by decide)
      ⟨List.nodup_singleton _, trivial, trivial⟩
  unfold BodyNonce.ofOctets
  rw [read]
  rfl

end NonceBody

namespace Http.Request
variable {readDeadline : Nat} {request : Request} {s e : String} {text : List Char}

theorem names_query (get : request.method = .get) (query : request.target.query = some ("nonce=" ++ e))
    (spelled : Form.Spells (Utf8.encodeString s) e.toList) (raw : String) :
    request.Names readDeadline raw ↔ raw = s := by
  have named : queryNonce request.pairs = s := by
    rw [pairs, query]
    exact congrArg queryNonce (Form.pairs_single spelled)
  constructor
  · intro names
    cases names with
    | query _ _ first => rw [(firstNonce_iff _ _).mp first, named]
    | body post _ _ =>
        rw [get] at post
        cases post
  · rintro rfl
    exact .query get _ ((firstNonce_iff _ _).mpr named.symm)

theorem names_body (post : request.method = .post)
    (whole : Body.Whole readDeadline maxBodySize request.body (Utf8.encode text)) (body : NonceBody s text)
    (raw : String) : request.Names readDeadline raw ↔ raw = s := by
  constructor
  · intro names
    cases names with
    | query get _ _ =>
        rw [post] at get
        cases get
    | body _ octets other =>
        -- a body is read in one way only
        have read := (Intake.collect_whole readDeadline 0 request.body _).mpr whole
        rw [(Intake.collect_whole readDeadline 0 request.body octets).mpr other, Except.ok.injEq] at read
        rw [read, body.raw_eq]
  · rintro rfl
    have named := Names.body post _ whole
    rwa [body.raw_eq] at named

end Http.Request

namespace History

/-- A request that names a text in its query and one that names it in its body both name exactly that text,
and fare alike: both are admitted without a nonce, or with the same one, or rejected. -/
theorem query_body_alike (service : Service) (moves : List Move) {s e : String} {text : List Char}
    {i j : Nat} {get post : Call} (encoded : Http.Form.Spells (Utf8.encodeString s) e.toList)
    (fits : ("/gpu_attest?nonce=" ++ e).utf8ByteSize ≤ Http.Target.maxLength) (body : NonceBody s text)
    (sentGet : (of service moves).calls[i]? = some get) (isGet : get.request.method = .get)
    (target : get.request.target = ⟨none, none, "/gpu_attest", some ("nonce=" ++ e)⟩)
    (sentPost : (of service moves).calls[j]? = some post) (isPost : post.request.method = .post)
    (path : post.request.target.path = "/gpu_attest")
    (whole : Http.Body.Whole service.deadlines.read maxBodySize post.request.body (Utf8.encode text)) :
    Http.Target.ofText? ("/gpu_attest?nonce=" ++ e).toList = some get.request.target ∧
      (∀ raw, get.request.Names service.deadlines.read raw ↔ raw = s) ∧
      (∀ raw, post.request.Names service.deadlines.read raw ↔ raw = s) ∧
      ∃ verdict, (s = "" ∧ verdict = .ok none ∨
          (∃ nonce : Nonce, nonce.text = s ∧ verdict = .ok (some nonce)) ∨
          (s ≠ "" ∧ ¬ IsNonceText s) ∧ verdict = .error .invalidNonce) ∧
        service.Attests (of service moves) i get verdict ∧
        service.Attests (of service moves) j post verdict := by
  have sound := of_sound service moves
  have namesGet : ∀ raw, get.request.Names service.deadlines.read raw ↔ raw = s :=
    Http.Request.names_query isGet (by rw [target]) encoded
  have namesPost : ∀ raw, post.request.Names service.deadlines.read raw ↔ raw = s :=
    Http.Request.names_body isPost whole body
  have attest {call : Call} (path : call.request.target.path = "/gpu_attest") :
      Route.immediate? call.request = none := by
    simp [Route.immediate?, Route.ofPath, path]
  refine ⟨?_, namesGet, namesPost, (Intake.check s).2, Intake.check_cases s, ?_, ?_⟩
  · rw [target]
    exact Http.Target.ofText_nonce encoded fits
  · exact attests sound sentGet (attest (by rw [target])) (Intake.check_ruled s ((namesGet s).mpr rfl))
  · exact attests sound sentPost (attest path) (Intake.check_ruled s ((namesPost s).mpr rfl))

theorem spaced_encoded : Http.Form.Spells (Utf8.encodeString "a +é") "a%20%2b%C3%a9".toList := by
  have written : Http.Form.Spells (String.utf8EncodeChar 'a' ++ [0x20, 0x2B, 0xC3, 0xA9])
      ['a', '%', '2', '0', '%', '2', 'b', '%', 'C', '3', '%', 'a', '9'] :=
    .plain (by decide) <| .escaped (.decimal 2 (by decide)) (.decimal 0 (by decide)) <|
      .escaped (.decimal 2 (by decide)) (.lower 11 (by decide) (by decide)) <|
        .escaped (.upper 12 (by decide) (by decide)) (.decimal 3 (by decide)) <|
          .escaped (.lower 10 (by decide) (by decide)) (.decimal 9 (by decide)) .nil
  exact written

theorem spaced_spelled : SpellsString "a +é" "\"\\u0061 +\\u00e9\"".toList := by
  have zero : HexDigit '0' 0 := .decimal 0 (by decide)
  have first : SpellsEscape 'a' ['u', '0', '0', '6', '1'] :=
    .unit ⟨_, _, _, _, _, _, _, _, zero, zero, .decimal 6 (by decide), .decimal 1 (by decide), rfl, rfl⟩
      (.inl (by decide))
  have last : SpellsEscape 'é' ['u', '0', '0', 'e', '9'] :=
    .unit ⟨_, _, _, _, _, _, _, _, zero, zero, .lower 14 (by decide) (by decide),
      .decimal 9 (by decide), rfl, rfl⟩ (.inl (by decide))
  have plain : SpellsChars [' ', '+', 'é'] (' ' :: '+' :: ('\\' :: ['u', '0', '0', 'e', '9'] ++ [])) :=
    .plain (by decide) (by decide) (by decide) (.plain (by decide) (by decide) (by decide)
      (.escaped last .nil))
  exact ⟨_, .escaped first plain, rfl⟩

def spacedBody : List Char := '\x7b' :: stringText "nonce" ++ ':' :: "\"\\u0061 +\\u00e9\"".toList ++ ['\x7d']

def spacedGet : Call :=
  ⟨⟨.get, ⟨none, none, "/gpu_attest", some ("nonce=" ++ "a%20%2b%C3%a9")⟩, [], []⟩, 0, none⟩

def spacedPost : Call :=
  ⟨⟨.post, ⟨none, none, "/gpu_attest", none⟩, [], [⟨3, .ok (Utf8.encode spacedBody)⟩]⟩, 1, none⟩

theorem query_body_alike_spaced :
    (steady ⟨10, 10⟩ 1).Attests (of (steady ⟨10, 10⟩ 1) [.exchange [spacedGet, spacedPost]]) 0 spacedGet
        (.error .invalidNonce) ∧
      (steady ⟨10, 10⟩ 1).Attests (of (steady ⟨10, 10⟩ 1) [.exchange [spacedGet, spacedPost]]) 1 spacedPost
        (.error .invalidNonce) := by
  have whole : Http.Body.Whole 10 maxBodySize spacedPost.request.body (Utf8.encode spacedBody) :=
    ⟨by decide, by decide, [Utf8.encode spacedBody], .cons ⟨by decide, rfl⟩ .nil,
      (List.append_nil _).symm⟩
  have sentGet : (of (steady ⟨10, 10⟩ 1) [.exchange [spacedGet, spacedPost]]).calls[0]? =
      some spacedGet := rfl
  have sentPost : (of (steady ⟨10, 10⟩ 1) [.exchange [spacedGet, spacedPost]]).calls[1]? =
      some spacedPost := rfl
  obtain ⟨_, _, _, verdict, which, first, second⟩ := query_body_alike (steady ⟨10, 10⟩ 1)
    [.exchange [spacedGet, spacedPost]] spaced_encoded (by decide) (.literal spaced_spelled) sentGet rfl rfl
    sentPost rfl rfl whole
  obtain rfl : verdict = .error .invalidNonce := by
    rcases which with ⟨empty, _⟩ | ⟨nonce, text, _⟩ | ⟨_, invalid⟩
    · exact absurd empty (by decide)
    · have hex := nonce.isHex
      rw [text] at hex
      exact absurd hex (by decide)
    · exact invalid
  exact ⟨first, second⟩

end History

end AttestationService

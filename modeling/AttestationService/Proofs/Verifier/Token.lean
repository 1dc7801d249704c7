import AttestationService.Proofs.Json.LineEnds
import AttestationService.Proofs.Verifier.Report
import AttestationService.Text.Utf8

/-!
The token found without lines: after the first line feed that follows the first marker. Counting the octets
of the lines up to there gives a place between two characters.
-/

namespace AttestationService.Verifier

open Text (SameLines)

def position? (needle text : List Char) : Option Nat :=
  text.tails.findIdx? needle.isPrefixOf

def afterLine? (text : List Char) : Option (List Char) :=
  (text.dropWhile (· != '\n')).tail?

def candidate? (output : List Char) : Option (List Char) :=
  (position? tokenMarker output).bind fun i => afterLine? (output.drop i)

section Position
variable {needle text : List Char}

theorem position_iff {i : Nat} : position? needle text = some i ↔
    i ≤ text.length ∧ needle <+: text.drop i ∧ ∀ j < i, ¬ needle <+: text.drop j := by
  unfold position?
  rw [List.findIdx?_eq_some_iff_getElem]
  simp only [List.getElem_tails, List.length_tails, List.isPrefixOf_iff_prefix, Nat.lt_succ_iff, exists_prop]

theorem position_cons (needle : List Char) (c : Char) (text : List Char) : position? needle (c :: text) =
    if needle.isPrefixOf (c :: text) then some 0 else (position? needle text).map (· + 1) := by
  rw [position?, List.tails, List.findIdx?_cons]
  rfl

end Position

section Candidate
variable {line rest : List Char}

theorem afterLine_unbroken (unbroken : '\n' ∉ line) : afterLine? line = none := by
  have nothing : line.dropWhile (· != '\n') = [] := by
    rw [List.dropWhile_eq_nil_iff]
    intro c member
    simpa using ne_of_mem_of_not_mem member unbroken
  rw [afterLine?, nothing]
  rfl

theorem afterLine_line (unbroken : '\n' ∉ line) (rest : List Char) :
    afterLine? (line ++ '\n' :: rest) = some rest := by
  have each : ∀ c ∈ line, (c != '\n') = true := fun c member => by
    simpa using ne_of_mem_of_not_mem member unbroken
  rw [afterLine?, List.dropWhile_append_of_pos each]
  rfl

theorem candidate_cons (c : Char) (text : List Char) : candidate? (c :: text) =
    if tokenMarker.isPrefixOf (c :: text) then afterLine? (c :: text) else candidate? text := by
  unfold candidate?
  rw [position_cons]
  split
  · rfl
  · rw [Option.bind_map]
    rfl

theorem candidate_unbroken (unbroken : '\n' ∉ line) : candidate? line = none := by
  unfold candidate?
  apply Option.bind_eq_none_iff.mpr
  intro i _
  exact afterLine_unbroken fun broken => unbroken (List.mem_of_mem_drop broken)

theorem candidate_line (unbroken : '\n' ∉ line) (rest : List Char) : candidate? (line ++ '\n' :: rest) =
    if Text.occurs tokenMarker line then some rest else candidate? rest := by
  have absent : '\n' ∉ tokenMarker := by decide
  induction line with
  | nil =>
      have unmarked : ¬ tokenMarker.isPrefixOf ('\n' :: rest) = true := by
        rw [List.isPrefixOf_iff_prefix]
        exact fun found => absurd (Text.prefix_mark absent found) (by decide)
      rw [List.nil_append, candidate_cons, if_neg unmarked]
      rfl
  | cons c line ih =>
      have cut : tokenMarker <+: c :: line ++ '\n' :: rest ↔ tokenMarker <+: c :: line :=
        Text.prefix_cut absent
      have here : tokenMarker.isPrefixOf (c :: (line ++ '\n' :: rest)) =
          tokenMarker.isPrefixOf (c :: line) := by
        rw [Bool.eq_iff_iff, List.isPrefixOf_iff_prefix, List.isPrefixOf_iff_prefix]
        exact cut
      rw [List.cons_append, candidate_cons, here, Text.occurs]
      cases tokenMarker.isPrefixOf (c :: line) with
      | true =>
          have found := afterLine_line unbroken rest
          simpa using found
      | false =>
          rw [List.mem_cons, not_or] at unbroken
          simpa using ih unbroken.2

theorem readText_nothing : (Json.readText (Text.trim [])).toOption = none := by decide

theorem afterTokenMarker_unbroken (unbroken : '\n' ∉ line) :
    afterTokenMarker line = if Text.occurs tokenMarker line then some [] else none := by
  rw [afterTokenMarker]
  split
  · rfl
  · rename_i found
    rw [Text.cutAt_none unbroken] at found
    cases found

/-- The lines are only a way to find the candidate. A marker that no line feed follows leaves no
text, which is no document. -/
theorem extractToken_candidate (output : List Char) : extractToken output =
    (candidate? output).bind fun text => (Json.readText (Text.trim text)).toOption := by
  unfold extractToken
  induction output using Text.lines_induct with
  | last line unbroken =>
      rw [afterTokenMarker_unbroken unbroken, candidate_unbroken unbroken]
      split
      · exact readText_nothing
      · rfl
  | more line rest unbroken ih =>
      rw [afterTokenMarker_line unbroken, candidate_line unbroken]
      split
      · rfl
      · exact ih

theorem candidate_sameLines {output other : List Char} (same : SameLines output other) :
    Option.Rel SameLines (candidate? output) (candidate? other) := by
  induction output using Text.lines_induct generalizing other with
  | last line unbroken =>
      rw [same.eq_of_unbroken unbroken, candidate_unbroken unbroken]
      exact .none
  | more line rest unbroken ih =>
      obtain ⟨core, m, n, behind, rfl, rfl, clean, later⟩ := same.firstLine unbroken
      have absent : '\r' ∉ tokenMarker := by decide
      have marked : Text.occurs tokenMarker (core ++ List.replicate n '\r') =
          Text.occurs tokenMarker (core ++ List.replicate m '\r') := by
        rw [Bool.eq_iff_iff, Text.occurs_iff, Text.occurs_iff, Text.infix_marks absent,
          Text.infix_marks absent]
      rw [candidate_line unbroken, candidate_line (by simp [clean]), marked]
      split
      · exact .some later
      · exact ih later

theorem candidate_found {front line text : List Char} (unbroken : '\n' ∉ line)
    (first : ∀ i < front.length, ¬ tokenMarker <+: (front ++ tokenMarker ++ line ++ '\n' :: text).drop i) :
    candidate? (front ++ tokenMarker ++ line ++ '\n' :: text) = some text := by
  have behind : (front ++ tokenMarker ++ line ++ '\n' :: text).drop front.length =
      tokenMarker ++ line ++ '\n' :: text := by simp
  have position : position? tokenMarker (front ++ tokenMarker ++ line ++ '\n' :: text) =
      some front.length := by
    apply position_iff.mpr
    refine ⟨by simp, ?_, first⟩
    rw [behind, List.append_assoc]
    exact List.prefix_append _ _
  have whole : '\n' ∉ tokenMarker ++ line := by
    rw [List.mem_append, not_or]
    exact ⟨by decide, unbroken⟩
  unfold candidate?
  rw [position, Option.bind_some, behind]
  exact afterLine_line whole text

end Candidate

def splitInclusive : List Char → List (List Char)
  | [] => []
  | c :: rest =>
    if c = '\n' then [c] :: splitInclusive rest
    else match splitInclusive rest with
      | [] => [[c]]
      | line :: more => (c :: line) :: more

def tokenOffset? (counted : Nat) : List (List Char) → Option Nat
  | [] => none
  | line :: rest =>
    if Text.occurs tokenMarker line then some (counted + (Utf8.encode line).length)
    else tokenOffset? (counted + (Utf8.encode line).length) rest

section Offset
variable {line rest : List Char}

theorem splitInclusive_line (unbroken : '\n' ∉ line) (rest : List Char) :
    splitInclusive (line ++ '\n' :: rest) = (line ++ ['\n']) :: splitInclusive rest := by
  induction line with
  | nil => rfl
  | cons c line ih =>
      rw [List.mem_cons, not_or] at unbroken
      rw [List.cons_append, splitInclusive, if_neg (Ne.symm unbroken.1), ih unbroken.2]
      rfl

theorem splitInclusive_unbroken (unbroken : '\n' ∉ line) :
    splitInclusive line = if line = [] then [] else [line] := by
  induction line with
  | nil => rfl
  | cons c line ih =>
      rw [List.mem_cons, not_or] at unbroken
      rw [splitInclusive, if_neg (Ne.symm unbroken.1), ih unbroken.2]
      cases line with
      | nil => rfl
      | cons d line => rfl

theorem occurs_ended (line : List Char) :
    Text.occurs tokenMarker (line ++ ['\n']) = Text.occurs tokenMarker line := by
  have absent : '\n' ∉ tokenMarker := by decide
  rw [Bool.eq_iff_iff, Text.occurs_iff, Text.occurs_iff]
  exact Text.infix_marks absent 1

theorem tokenOffset_unmarked {output : List Char} (unmarked : afterTokenMarker output = none)
    (counted : Nat) :
    tokenOffset? counted (splitInclusive output) = none := by
  induction output using Text.lines_induct generalizing counted with
  | last line unbroken =>
      rw [afterTokenMarker_unbroken unbroken] at unmarked
      rw [splitInclusive_unbroken unbroken]
      split at unmarked
      · cases unmarked
      · rename_i missing
        split
        · rfl
        · rw [tokenOffset?, if_neg missing, tokenOffset?]
  | more line rest unbroken ih =>
      rw [afterTokenMarker_line unbroken] at unmarked
      rw [splitInclusive_line unbroken, tokenOffset?, occurs_ended]
      split at unmarked
      · cases unmarked
      · rename_i missing
        rw [if_neg missing]
        exact ih unmarked _

theorem tokenOffset_marked {output document : List Char} (marked : afterTokenMarker output = some document)
    (counted : Nat) : ∃ front, output = front ++ document ∧
      tokenOffset? counted (splitInclusive output) = some (counted + (Utf8.encode front).length) := by
  induction output using Text.lines_induct generalizing counted with
  | last line unbroken =>
      rw [afterTokenMarker_unbroken unbroken] at marked
      split at marked
      · rename_i found
        cases marked
        have some_ : line ≠ [] := by
          rintro rfl
          exact absurd found (by decide)
        refine ⟨line, (List.append_nil line).symm, ?_⟩
        rw [splitInclusive_unbroken unbroken, if_neg some_, tokenOffset?, if_pos found]
      · cases marked
  | more line rest unbroken ih =>
      rw [afterTokenMarker_line unbroken] at marked
      rw [splitInclusive_line unbroken, tokenOffset?, occurs_ended]
      split at marked
      · rename_i found
        cases marked
        exact ⟨line ++ ['\n'], by simp, by rw [if_pos found]⟩
      · rename_i missing
        obtain ⟨front, rfl, offset⟩ := ih marked (counted + (Utf8.encode (line ++ ['\n'])).length)
        refine ⟨line ++ '\n' :: front, by simp, ?_⟩
        rw [if_neg missing, offset]
        simp [Utf8.encode, Nat.add_assoc]

theorem encode_splitAt (front document : List Char) :
    (Utf8.encode (front ++ document)).splitAt (Utf8.encode front).length =
      (Utf8.encode front, Utf8.encode document) := by
  have joined : Utf8.encode (front ++ document) = Utf8.encode front ++ Utf8.encode document :=
    List.flatMap_append
  rw [joined, List.splitAt_eq, List.take_left, List.drop_left]

end Offset

theorem extractToken_iff (output : List Char) (v : Json.Value) : extractToken output = some v ↔
    ∃ text w, candidate? output = some text ∧ Json.IsDocument w (Text.trim text) ∧ w.merged = v := by
  rw [extractToken_candidate, Option.bind_eq_some_iff]
  constructor
  · rintro ⟨text, found, read⟩
    obtain ⟨w, stated, merges⟩ := Json.readText_iff.mp read
    exact ⟨text, w, found, stated, merges⟩
  · rintro ⟨text, w, found, stated, merges⟩
    exact ⟨text, found, Json.readText_iff.mpr ⟨w, stated, merges⟩⟩

theorem extractToken_sameLines {output other : List Char} (same : SameLines output other) :
    extractToken other = extractToken output := by
  have candidates := candidate_sameLines same
  rw [extractToken_candidate, extractToken_candidate]
  cases found : candidate? output with
  | none =>
      rw [found] at candidates
      cases found_ : candidate? other with
      | none => rfl
      | some text =>
          rw [found_] at candidates
          cases candidates
  | some text =>
      rw [found] at candidates
      cases found_ : candidate? other with
      | none =>
          rw [found_] at candidates
          cases candidates
      | some text_ =>
          rw [found_] at candidates
          cases candidates with
          | some alike => exact Json.readText_sameLines alike

/-- The token is the document behind the first line feed after the first marker, found line by line or not. -/
theorem token_behind_marker (output : List Char) :
    (extractToken output = (candidate? output).bind fun text => (Json.readText (Text.trim text)).toOption) ∧
    (∀ v, extractToken output = some v ↔
      ∃ text w, candidate? output = some text ∧ Json.IsDocument w (Text.trim text) ∧ w.merged = v) ∧
    (∀ front line text, output = front ++ tokenMarker ++ line ++ '\n' :: text → '\n' ∉ line →
      (∀ i < front.length, ¬ tokenMarker <+: output.drop i) → candidate? output = some text) ∧
    (∀ other, SameLines output other → extractToken other = extractToken output) ∧
    (tokenOffset? 0 (splitInclusive output) = none → extractToken output = none) ∧
    ∀ offset, tokenOffset? 0 (splitInclusive output) = some offset → ∃ front document,
      output = front ++ document ∧
      (Utf8.encode output).splitAt offset = (Utf8.encode front, Utf8.encode document) ∧
      extractToken output = (Json.readText (Text.trim document)).toOption := by
  refine ⟨extractToken_candidate output, extractToken_iff output, ?_, fun _ => extractToken_sameLines, ?_, ?_⟩
  · rintro front line text rfl unbroken first
    exact candidate_found unbroken first
  · intro unmarked
    unfold extractToken
    cases marked : afterTokenMarker output with
    | none => rfl
    | some document =>
        obtain ⟨front, _, counted⟩ := tokenOffset_marked marked 0
        rw [counted] at unmarked
        cases unmarked
  · intro offset counted
    unfold extractToken
    cases marked : afterTokenMarker output with
    | none =>
        rw [tokenOffset_unmarked marked 0] at counted
        cases counted
    | some document =>
        obtain ⟨front, rfl, same⟩ := tokenOffset_marked marked 0
        rw [same, Nat.zero_add] at counted
        cases counted
        exact ⟨front, document, rfl, encode_splitAt front document, rfl⟩

def quotedMarker (lineEnd : List Char) : List Char :=
  "é Entity Attestation Token: [0]".toList ++ lineEnd ++ lineEnd ++
    "[\"Entity Attestation Token:\"]".toList ++ lineEnd

theorem token_behind_marker_quoted :
    extractToken (quotedMarker ['\r', '\n']) = some (.array [.string "Entity Attestation Token:"]) ∧
      extractToken (quotedMarker ['\n']) = some (.array [.string "Entity Attestation Token:"]) ∧
      ∃ front document, quotedMarker ['\r', '\n'] = front ++ document ∧
        (Utf8.encode (quotedMarker ['\r', '\n'])).splitAt 34 =
          (Utf8.encode front, Utf8.encode document) := by
  obtain ⟨_, stated, found, alike, _, counted⟩ := token_behind_marker (quotedMarker ['\r', '\n'])
  have candidate := found "é ".toList " [0]\r".toList "\r\n[\"Entity Attestation Token:\"]\r\n".toList
    (by decide) (by decide) (by decide)
  have item : Json.Spells Json.Number.ReadAs (.string "Entity Attestation Token:") _ :=
    .string (Json.stringText_spells _)
  have document : Json.IsDocument (.array [.string "Entity Attestation Token:"])
      (Text.trim "\r\n[\"Entity Attestation Token:\"]\r\n".toList) :=
    ⟨by decide, [], _, [], Json.noGap, .array Json.noGap item (.close Json.noGap), Json.noGap, by decide⟩
  have token : extractToken (quotedMarker ['\r', '\n']) =
      some (.array [.string "Entity Attestation Token:"]) :=
    (stated _).mpr ⟨_, _, candidate, document, rfl⟩
  refine ⟨token, ?_, ?_⟩
  · rw [← token]
    apply alike
    have ended {text other : List Char} (same : SameLines text other) :
        SameLines (text ++ ['\r', '\n']) (other ++ ['\n']) := same.append (.lineEnd 1 0 .nil)
    exact ended ((ended (ended (.refl _))).append (.refl _))
  · obtain ⟨front, document, same, cut, _⟩ := counted 34 (by decide)
    exact ⟨front, document, same, cut⟩

end AttestationService.Verifier

import AttestationService.Proofs.Text.Search
import Mathlib.Data.List.Basic

/-!
Texts line by line. A needle without a line feed stands in one line or in none, and two texts have the same
lines if they differ in nothing but the carriage returns in front of their line feeds.
-/

namespace AttestationService.Text

theorem lines_induct {motive : List Char → Prop} (last : ∀ line, '\n' ∉ line → motive line)
    (more : ∀ line rest, '\n' ∉ line → motive rest → motive (line ++ '\n' :: rest)) (text : List Char) :
    motive text := by
  induction length : text.length using Nat.strongRecOn generalizing text with
  | ind n ih =>
      by_cases broken : '\n' ∈ text
      · obtain ⟨line, rest, rfl, unbroken⟩ := List.eq_append_cons_of_mem broken
        simp only [List.length_append, List.length_cons] at length
        exact more line rest unbroken (ih rest.length (by omega) rest rfl)
      · exact last text broken

section Needles
variable {α : Type} {mark : α} {needle front back : List α}

theorem prefix_mark (absent : mark ∉ needle) (found : needle <+: mark :: back) : needle = [] := by
  rcases List.prefix_cons_iff.mp found with rfl | ⟨more, rfl, _⟩
  · rfl
  · exact absurd List.mem_cons_self absent

theorem prefix_cut (absent : mark ∉ needle) : needle <+: front ++ mark :: back ↔ needle <+: front := by
  constructor
  · intro found
    rcases List.prefix_or_prefix_of_prefix found (List.prefix_append front _) with inside | ⟨more, rfl⟩
    · exact inside
    · rw [List.prefix_append_right_inj] at found
      rw [List.mem_append, not_or] at absent
      rw [prefix_mark absent.2 found, List.append_nil]
  · exact fun found => found.trans (List.prefix_append front _)

theorem first_mark {other rest : List α} (absent : mark ∉ front) (missing : mark ∉ other)
    (same : front ++ mark :: back = other ++ mark :: rest) : front = other ∧ back = rest := by
  induction front generalizing other with
  | nil =>
      cases other with
      | nil => exact ⟨rfl, (List.cons.inj same).2⟩
      | cons a other => exact absurd (List.cons.inj same).1 (List.ne_of_not_mem_cons missing)
  | cons a front ih =>
      cases other with
      | nil => exact absurd (List.cons.inj same).1.symm (List.ne_of_not_mem_cons absent)
      | cons b other =>
          obtain ⟨rfl, tail⟩ := List.cons.inj same
          obtain ⟨rfl, rfl⟩ := ih (List.not_mem_of_not_mem_cons absent)
            (List.not_mem_of_not_mem_cons missing) tail
          exact ⟨rfl, rfl⟩

/-- A needle without the mark is found on one side of the mark. -/
theorem infix_cut (absent : mark ∉ needle) :
    needle <:+: front ++ mark :: back ↔ needle <:+: front ∨ needle <:+: back := by
  constructor
  · intro found
    rcases List.infix_append_iff.mp found with left | right | ⟨start, rest, rfl, ends, begins⟩
    · exact .inl left
    · rcases List.infix_cons_iff.mp right with begins | later
      · rw [prefix_mark absent begins]
        exact .inl (List.nil_infix)
      · exact .inr later
    · rw [List.mem_append, not_or] at absent
      rw [prefix_mark absent.2 begins, List.append_nil]
      exact .inl ends.isInfix
  · rintro (left | right)
    · exact left.trans (List.prefix_append front _).isInfix
    · exact right.trans ((List.suffix_cons mark back).trans (List.suffix_append front _)).isInfix

theorem infix_marks (absent : mark ∉ needle) (n : Nat) :
    needle <:+: front ++ List.replicate n mark ↔ needle <:+: front := by
  constructor
  · induction n with
    | zero => simp
    | succ n ih =>
        intro found
        rw [List.replicate_succ', ← List.append_assoc] at found
        rcases (infix_cut absent).mp found with left | none
        · exact ih left
        · rw [List.infix_nil.mp none]
          exact List.nil_infix
  · exact fun found => found.trans (List.prefix_append front _).isInfix

end Needles

/-- The same lines: a line feed may have carriage returns in front of it in either text. -/
inductive SameLines : List Char → List Char → Prop
  | nil : SameLines [] []
  | char {text other : List Char} (c : Char) (more : SameLines text other) :
      SameLines (c :: text) (c :: other)
  | lineEnd {text other : List Char} (m n : Nat) (more : SameLines text other) :
      SameLines (List.replicate m '\r' ++ '\n' :: text) (List.replicate n '\r' ++ '\n' :: other)

namespace SameLines
variable {text other front back : List Char}

theorem refl (text : List Char) : SameLines text text := by
  induction text with
  | nil => exact .nil
  | cons c text ih => exact .char c ih

theorem append {more rest : List Char} (same : SameLines text other) (also : SameLines more rest) :
    SameLines (text ++ more) (other ++ rest) := by
  induction same with
  | nil => exact also
  | char c _ ih => exact .char c ih
  | lineEnd m n _ ih =>
      rw [List.append_assoc, List.append_assoc]
      exact .lineEnd m n ih

theorem symm (same : SameLines text other) : SameLines other text := by
  induction same with
  | nil => exact .nil
  | char c _ ih => exact .char c ih
  | lineEnd m n _ ih => exact .lineEnd n m ih

theorem head {c : Char} (same : SameLines (c :: text) other) (noReturn : c ≠ '\r') (noFeed : c ≠ '\n') :
    ∃ rest, other = c :: rest ∧ SameLines text rest := by
  generalize whole : c :: text = all at same
  cases same with
  | nil => cases whole
  | char d more =>
      cases whole
      exact ⟨_, rfl, more⟩
  | lineEnd m n more =>
      cases m with
      | zero => exact absurd (List.cons.inj whole).1 noFeed
      | succ m => exact absurd (List.cons.inj whole).1 noReturn

/-- Whether a text may be cut here: not between carriage returns and the line feed behind them. -/
def Apart (front back : List Char) : Prop :=
  (∀ c ∈ front.getLast?, c ≠ '\r') ∨ ∀ c ∈ back.head?, c ≠ '\r' ∧ c ≠ '\n'

theorem apart_suffix {lead : List Char} (apart : Apart (lead ++ front) back) : Apart front back := by
  refine apart.imp_left fun last c member => last c ?_
  rw [List.getLast?_append, Option.mem_def.mp member]
  rfl

theorem not_apart {m : Nat} {returns : List Char} (some_ : front ≠ [])
    (all : front ++ returns = List.replicate m '\r') : ¬ Apart front (returns ++ '\n' :: back) := by
  have each : ∀ c ∈ front ++ returns, c = '\r' := by
    rw [all]
    exact fun c member => List.eq_of_mem_replicate member
  rintro (last | next)
  · have member := List.getLast_mem some_
    exact last _ (List.getLast?_eq_getLast_of_ne_nil some_) (each _ (List.mem_append_left _ member))
  · cases returns with
    | nil => exact (next '\n' rfl).2 rfl
    | cons c returns => exact (next c rfl).1 (each c (by simp))

theorem cut (same : SameLines (front ++ back) other) (apart : Apart front back) :
    ∃ first second, other = first ++ second ∧ SameLines front first ∧ SameLines back second := by
  generalize whole : front ++ back = all at same
  induction same generalizing front with
  | nil =>
      obtain ⟨rfl, rfl⟩ := List.append_eq_nil_iff.mp whole
      exact ⟨[], [], rfl, .nil, .nil⟩
  | @char text other c more ih =>
      cases front with
      | nil =>
          rw [List.nil_append] at whole
          subst whole
          exact ⟨[], _, rfl, .nil, .char c more⟩
      | cons d front =>
          obtain ⟨rfl, rfl⟩ := List.cons.inj whole
          have further : Apart ([d] ++ front) back := apart
          obtain ⟨first, second, rfl, left, right⟩ := ih (apart_suffix further) rfl
          exact ⟨d :: first, second, rfl, .char d left, right⟩
  | @lineEnd text other m n more ih =>
      -- a cut cannot fall between a line end and its returns, so it lies before them or behind
      by_cases nothing : front = []
      · subst nothing
        rw [List.nil_append] at whole
        subst whole
        exact ⟨[], _, rfl, .nil, .lineEnd m n more⟩
      rcases List.append_eq_append_iff.mp whole with ⟨returns, replicated, rfl⟩ | ⟨inside, rfl, ended⟩
      · exact absurd apart (not_apart nothing replicated.symm)
      · cases inside with
        | nil =>
            rw [List.append_nil] at nothing apart
            rw [List.nil_append] at ended
            subst ended
            exact absurd apart (not_apart nothing (List.append_nil _))
        | cons c inside =>
            obtain ⟨rfl, rfl⟩ := List.cons.inj ended
            rw [List.append_cons] at apart
            obtain ⟨first, second, rfl, left, right⟩ := ih (apart_suffix apart) rfl
            exact ⟨List.replicate n '\r' ++ '\n' :: first, second, by simp, .lineEnd m n left, right⟩

theorem eq_of_unbroken (same : SameLines text other) (unbroken : '\n' ∉ text) : other = text := by
  induction same with
  | nil => rfl
  | char c _ ih => rw [ih fun broken => unbroken (List.mem_cons_of_mem c broken)]
  | lineEnd => simp at unbroken

/-- What every character of the one text is, every character of the other is too, if it is true of the
characters that end lines. -/
theorem all {p : Char → Prop} (same : SameLines text other) (ofReturn : p '\r') (ofFeed : p '\n')
    (each : ∀ c ∈ text, p c) : ∀ c ∈ other, p c := by
  induction same with
  | nil => exact each
  | char c _ ih =>
      rw [List.forall_mem_cons] at each ⊢
      exact ⟨each.1, ih each.2⟩
  | lineEnd m n _ ih =>
      simp only [List.forall_mem_append, List.forall_mem_cons] at each ⊢
      refine ⟨fun c member => ?_, ofFeed, ih each.2.2⟩
      rw [List.eq_of_mem_replicate member]
      exact ofReturn

theorem firstLine {line rest : List Char} (unbroken : '\n' ∉ line)
    (same : SameLines (line ++ '\n' :: rest) other) :
    ∃ core m n behind, line = core ++ List.replicate m '\r' ∧
      other = core ++ List.replicate n '\r' ++ '\n' :: behind ∧ '\n' ∉ core ∧ SameLines rest behind := by
  generalize whole : line ++ '\n' :: rest = all at same
  induction same generalizing line with
  | nil => simp at whole
  | @char text other c more ih =>
      cases line with
      | nil =>
          obtain ⟨rfl, rfl⟩ := List.cons.inj whole
          exact ⟨[], 0, 0, other, rfl, rfl, by simp, more⟩
      | cons d line =>
          obtain ⟨rfl, rfl⟩ := List.cons.inj whole
          rw [List.mem_cons, not_or] at unbroken
          obtain ⟨core, m, n, behind, rfl, rfl, clean, later⟩ := ih unbroken.2 rfl
          exact ⟨d :: core, m, n, behind, rfl, rfl, by simp [unbroken.1, clean], later⟩
  | @lineEnd text other m n more ih =>
      have clean : '\n' ∉ List.replicate m '\r' := by simp
      obtain ⟨rfl, rfl⟩ := first_mark unbroken clean whole
      exact ⟨[], m, n, other, rfl, rfl, by simp, more⟩

/-- What begins and ends without a blank is apart from what stands around it. -/
theorem core {core : List Char} (bare : Bare core) (same : SameLines (front ++ core ++ back) other) :
    ∃ left middle right, other = left ++ middle ++ right ∧ SameLines front left ∧ SameLines core middle ∧
      SameLines back right := by
  have solid {c : Char} (firm : isBlank c = false) : c ≠ '\r' ∧ c ≠ '\n' := by
    constructor
    · rintro rfl
      exact absurd firm (by decide)
    · rintro rfl
      exact absurd firm (by decide)
  obtain ⟨⟨first, rest, opened, starts⟩, inside, last, closed, ends⟩ := bare
  have ended : ∀ c ∈ (front ++ core).getLast?, c ≠ '\r' := by
    rw [closed, ← List.append_assoc, List.getLast?_concat]
    rintro c member
    cases member
    exact (solid ends).1
  have started : ∀ c ∈ core.head?, c ≠ '\r' ∧ c ≠ '\n' := by
    rw [opened, List.head?_cons]
    rintro c member
    cases member
    exact solid starts
  obtain ⟨whole, right, rfl, same, behind⟩ := same.cut (.inl ended)
  obtain ⟨left, middle, rfl, before, inside⟩ := same.cut (.inr started)
  exact ⟨left, middle, right, rfl, before, inside, behind⟩

end SameLines

end AttestationService.Text

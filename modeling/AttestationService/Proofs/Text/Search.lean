import AttestationService.Text.Blank
import AttestationService.Text.Search
import Mathlib.Data.List.Infix
import Mathlib.Data.List.TakeWhile

/-!
What is found in a text. A needle occurs in a text if it is a piece of it, a cut is made at the first mark,
and trimming takes exactly the blanks at both ends.
-/

namespace AttestationService.Text

section Marks
variable {α : Type} [BEq α] [LawfulBEq α]

theorem occurs_iff (needle text : List α) : occurs needle text = true ↔ needle <:+: text := by
  induction text with
  | nil => simp [occurs]
  | cons c rest ih =>
      rw [occurs, Bool.or_eq_true, ih, List.isPrefixOf_iff_prefix, List.infix_cons_iff]

theorem cutAt_found {mark : α} {front : List α} (absent : mark ∉ front) (back : List α) :
    cutAt? mark (front ++ mark :: back) = some (front, back) := by
  suffices reached : ∀ before, cutAt?.go mark before (front ++ mark :: back) =
      some (before.reverse ++ front, back) from reached []
  induction front with
  | nil => simp [cutAt?.go]
  | cons c front ih =>
      intro before
      rw [List.mem_cons, not_or] at absent
      have other : ¬ (c == mark) = true := by simpa using Ne.symm absent.1
      rw [List.cons_append, cutAt?.go, if_neg other, ih absent.2]
      simp

theorem cutAt_none {mark : α} {text : List α} (absent : mark ∉ text) : cutAt? mark text = none := by
  suffices reached : ∀ before, cutAt?.go mark before text = none from reached []
  induction text with
  | nil => simp [cutAt?.go]
  | cons c rest ih =>
      intro before
      rw [List.mem_cons, not_or] at absent
      have other : ¬ (c == mark) = true := by simpa using Ne.symm absent.1
      rw [cutAt?.go, if_neg other, ih absent.2]

theorem fields_whole {mark : α} {text : List α} (absent : mark ∉ text) : fields mark text = [text] := by
  suffices reached : ∀ before, fields.go mark before text = [before.reverse ++ text] from reached []
  induction text with
  | nil => simp [fields.go]
  | cons c rest ih =>
      intro before
      rw [List.mem_cons, not_or] at absent
      have other : ¬ (c == mark) = true := by simpa using Ne.symm absent.1
      rw [fields.go, if_neg other, ih absent.2]
      simp

theorem fields_append (mark : α) (front back : List α) :
    fields mark (front ++ mark :: back) = fields mark front ++ fields mark back := by
  suffices reached : ∀ before, fields.go mark before (front ++ mark :: back) =
      fields.go mark before front ++ fields.go mark [] back from reached []
  induction front with
  | nil => simp [fields.go]
  | cons c front ih =>
      intro before
      rw [List.cons_append, fields.go, fields.go]
      split
      · rw [ih, List.cons_append]
      · exact ih _

end Marks

theorem dropWhile_around {α : Type} (p : α → Bool) (text : List α) :
    ∃ front, (∀ c ∈ front, p c = true) ∧ text = front ++ text.dropWhile p :=
  ⟨text.takeWhile p, fun _ => List.mem_takeWhile_imp, List.takeWhile_append_dropWhile.symm⟩

theorem trim_around (text : List Char) : ∃ front back, (∀ c ∈ front, isBlank c = true) ∧
    (∀ c ∈ back, isBlank c = true) ∧ text = front ++ trim text ++ back := by
  obtain ⟨front, leading, same⟩ := dropWhile_around isBlank text
  obtain ⟨back, trailing, rest⟩ := dropWhile_around isBlank (text.dropWhile isBlank).reverse
  refine ⟨front, back.reverse, leading, fun c member => trailing c (List.mem_reverse.mp member), ?_⟩
  have cut : text.dropWhile isBlank = trim text ++ back.reverse := by
    rw [trim, ← List.reverse_append, ← rest, List.reverse_reverse]
  rw [List.append_assoc, ← cut]
  exact same

structure Bare (text : List Char) : Prop where
  starts : ∃ c rest, text = c :: rest ∧ isBlank c = false
  ends : ∃ front c, text = front ++ [c] ∧ isBlank c = false

theorem dropWhile_bare {front core : List Char} (before : ∀ c ∈ front, isBlank c = true)
    (bare : Bare core) (rest : List Char) :
    (front ++ core ++ rest).dropWhile isBlank = core ++ rest := by
  obtain ⟨first, inside, opened, solid⟩ := bare.starts
  rw [List.append_assoc, List.dropWhile_append_of_pos before, opened, List.cons_append,
    List.dropWhile_cons_of_neg (by simp [solid])]

theorem trim_bare {front core back : List Char} (before : ∀ c ∈ front, isBlank c = true)
    (bare : Bare core) (after : ∀ c ∈ back, isBlank c = true) :
    trim (front ++ core ++ back) = core := by
  have shortened := dropWhile_bare before bare back
  obtain ⟨inside, last, closed, firm⟩ := bare.ends
  have blank : ∀ c ∈ back.reverse, isBlank c = true := fun c member => after c (List.mem_reverse.mp member)
  have cleared : (core ++ back).reverse.dropWhile isBlank = core.reverse := by
    rw [List.reverse_append, List.dropWhile_append_of_pos blank, closed, List.reverse_append,
      List.reverse_singleton, List.singleton_append, List.dropWhile_cons_of_neg (by simp [firm])]
  rw [trim, shortened, cleared, List.reverse_reverse]

end AttestationService.Text

/-!
Looking for one text inside another, and cutting text at marks.
-/

namespace AttestationService.Text

variable {α : Type} [BEq α]

def occurs (needle : List α) : List α → Bool
  | [] => needle.isEmpty
  | c :: rest => needle.isPrefixOf (c :: rest) || occurs needle rest

def cutAt? (mark : α) : List α → Option (List α × List α) :=
  go []
where
  go (before : List α) : List α → Option (List α × List α)
    | [] => none
    | c :: rest => if c == mark then some (before.reverse, rest) else go (c :: before) rest

theorem cutAt_length (mark : α) (text : List α) {a b : List α}
    (h : cutAt? mark text = some (a, b)) : b.length < text.length := by
  unfold cutAt? at h
  generalize [] = before at h
  induction text generalizing before with
  | nil => simp [cutAt?.go] at h
  | cons c rest ih =>
    unfold cutAt?.go at h
    split at h
    · simp only [Option.some.injEq, Prod.mk.injEq] at h
      simp [← h.2]
    · exact Nat.lt_succ_of_lt (ih _ h)

/-- The fields between the elements equal to `mark`; a text without one is a single field. -/
def fields (mark : α) (text : List α) : List (List α) :=
  go [] text
where
  go (field : List α) : List α → List (List α)
    | [] => [field.reverse]
    | c :: rest => if c == mark then field.reverse :: go [] rest else go (c :: field) rest

/-- Puts `new` for every `old`, found from the left without overlaps; `skipped` elements of the
last one found are still to be passed over. -/
def replaceFrom (old new : List α) (skipped : Nat) : List α → List α
  | [] => []
  | c :: rest =>
    match skipped with
    | n + 1 => replaceFrom old new n rest
    | 0 =>
      if !old.isEmpty && old.isPrefixOf (c :: rest) then
        new ++ replaceFrom old new (old.length - 1) rest
      else c :: replaceFrom old new 0 rest

def replace (old new text : List α) : List α := replaceFrom old new 0 text

end AttestationService.Text

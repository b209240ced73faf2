/-!
Cutting the first line off a sequence. A line ends right after its newline,
which is its last element, or at the end of the sequence; a carriage return
is an ordinary character.
-/

namespace LineTokens

/-- The first line of a sequence and what follows it. -/
structure Cut (α : Type) where
  line : List α
  rest : List α
  deriving DecidableEq, Repr

/-- Cuts a list right after the first element that is `mark`, or at its end
if there is none. -/
def cutAfter {α : Type} [DecidableEq α] (mark : α) : List α → Cut α
  | [] => ⟨[], []⟩
  | a :: rest =>
    if a = mark then ⟨[a], rest⟩
    else
      let cut := cutAfter mark rest
      ⟨a :: cut.line, cut.rest⟩

/-- A cut loses nothing. -/
@[simp] theorem cutAfter_line_append_rest {α : Type} [DecidableEq α] (mark : α) (l : List α) :
    (cutAfter mark l).line ++ (cutAfter mark l).rest = l := by
  induction l with
  | nil => rfl
  | cons a rest ih =>
    unfold cutAfter
    split
    · rfl
    · simpa using ih

/-- Drops the newline at the end, if there is one. Only one is dropped. -/
def dropNewline (line : List Char) : List Char :=
  if line.getLast? = some '\n' then line.dropLast else line

end LineTokens

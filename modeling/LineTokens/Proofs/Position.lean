import Mathlib.Algebra.Ring.Parity
import Mathlib.Data.List.DropRight

/-!
Places in a text. Each place is described by what stands before it, so that
whether it is escaped, or inside quotes, is a matter of two counts and not of
any machine: a run of backslashes just before it, and the unescaped quotes
anywhere before it.
-/

namespace LineTokens

/-- The length of the longest run of backslashes that ends a text. -/
def trailingBackslashes (l : List Char) : Nat :=
  (l.rtakeWhile (· = '\\')).length

/-- A text whose last backslash still waits for a character to escape. -/
def Dangling (l : List Char) : Prop := Odd (trailingBackslashes l)

instance (l : List Char) : Decidable (Dangling l) :=
  inferInstanceAs (Decidable (Odd (trailingBackslashes l)))

/-- A place in a text: all that stands before it, and the character at it. -/
structure Position where
  before : List Char
  char : Char
  deriving DecidableEq, Repr

def positions (l : List Char) : List Position :=
  l.mapIdx fun i c => ⟨l.take i, c⟩

namespace Position

def Escaped (p : Position) : Prop := Dangling p.before

def Unescaped (c : Char) (p : Position) : Prop := p.char = c ∧ ¬ p.Escaped

instance (p : Position) : Decidable p.Escaped :=
  inferInstanceAs (Decidable (Dangling p.before))

instance (c : Char) (p : Position) : Decidable (p.Unescaped c) :=
  inferInstanceAs (Decidable (_ ∧ _))

theorem unescaped_mk {l : List Char} {c d : Char} :
    Unescaped d ⟨l, c⟩ ↔ c = d ∧ ¬ Dangling l := Iff.rfl

end Position

def unescapedQuotes (l : List Char) : Nat :=
  (positions l).countP (Position.Unescaped '"')

/-- A text that ends inside quotes. -/
def OpenQuote (l : List Char) : Prop := Odd (unescapedQuotes l)

instance (l : List Char) : Decidable (OpenQuote l) :=
  inferInstanceAs (Decidable (Odd (unescapedQuotes l)))

/-! ### One more character -/

theorem trailingBackslashes_concat (l : List Char) (c : Char) :
    trailingBackslashes (l ++ [c]) = if c = '\\' then trailingBackslashes l + 1 else 0 := by
  unfold trailingBackslashes
  rw [List.rtakeWhile_concat]
  by_cases hc : c = '\\' <;> simp [hc]

/-- A backslash dangles unless a dangling one escapes it. -/
theorem dangling_concat (l : List Char) (c : Char) :
    Dangling (l ++ [c]) ↔ c = '\\' ∧ ¬ Dangling l := by
  unfold Dangling
  rw [trailingBackslashes_concat]
  by_cases hc : c = '\\' <;> simp [hc, Nat.odd_add_one]

theorem not_dangling_nil : ¬ Dangling [] := by decide

theorem positions_concat (l : List Char) (c : Char) :
    positions (l ++ [c]) = positions l ++ [⟨l, c⟩] := by
  unfold positions
  rw [List.mapIdx_concat, List.take_left]
  -- A place keeps what stands before it when the text grows.
  congr 1
  apply List.ext_getElem
  · simp
  · intro i hi _
    have hlength : i ≤ l.length := by
      simp only [List.length_mapIdx] at hi
      omega
    simp only [List.getElem_mapIdx, List.take_append_of_le_length hlength]

theorem map_char_positions (l : List Char) : (positions l).map Position.char = l := by
  induction l using List.reverseRecOn with
  | nil => rfl
  | append_singleton l c ih => rw [positions_concat, List.map_append, ih, List.map_singleton]

theorem unescapedQuotes_concat (l : List Char) (c : Char) :
    unescapedQuotes (l ++ [c]) =
      unescapedQuotes l + if c = '"' ∧ ¬ Dangling l then 1 else 0 := by
  unfold unescapedQuotes
  rw [positions_concat, List.countP_append, List.countP_singleton]
  simp only [decide_eq_true_eq, Position.unescaped_mk]

theorem openQuote_concat (l : List Char) (c : Char) :
    OpenQuote (l ++ [c]) ↔
      if c = '"' ∧ ¬ Dangling l then ¬ OpenQuote l else OpenQuote l := by
  unfold OpenQuote
  rw [unescapedQuotes_concat]
  split_ifs
  · exact Nat.odd_add_one
  · rfl

theorem not_openQuote_nil : ¬ OpenQuote [] := by decide

/-! ### One text behind another -/

section

variable {k l : List Char}

/-- Whether a text dangles does not depend on what stands before it, if that
does not dangle itself. -/
theorem dangling_append (hk : ¬ Dangling k) : Dangling (k ++ l) ↔ Dangling l := by
  induction l using List.reverseRecOn with
  | nil =>
    rw [List.append_nil]
    exact iff_of_false hk not_dangling_nil
  | append_singleton l c ih => rw [← List.append_assoc, dangling_concat, dangling_concat, ih]

/-- Nor if the text has a character that ends the run of backslashes. -/
theorem dangling_append_of_mem {d : Char} (hmem : d ∈ l) (hd : d ≠ '\\') :
    Dangling (k ++ l) ↔ Dangling l := by
  induction l using List.reverseRecOn with
  | nil => simp at hmem
  | append_singleton l c ih =>
    rw [← List.append_assoc, dangling_concat, dangling_concat]
    rcases List.mem_append.mp hmem with hbefore | hlast
    · rw [ih hbefore]
    · have hc : c ≠ '\\' := by
        rw [← List.mem_singleton.mp hlast]
        exact hd
      simp [hc]

theorem dangling_replicate_iff (n : Nat) : Dangling (List.replicate n '\\') ↔ Odd n := by
  induction n with
  | zero => exact iff_of_false not_dangling_nil (by decide)
  | succ n ih => rw [List.replicate_succ', dangling_concat, ih, Nat.odd_add_one, and_iff_right rfl]

/-- A text that ends inside quotes turns inside and outside around for the text
behind it. -/
theorem openQuote_append (hk : ¬ Dangling k) :
    OpenQuote (k ++ l) ↔ (OpenQuote k ↔ ¬ OpenQuote l) := by
  induction l using List.reverseRecOn with
  | nil => simp [not_openQuote_nil]
  | append_singleton l c ih =>
    rw [← List.append_assoc, openQuote_concat, openQuote_concat]
    simp only [dangling_append hk, ih]
    split_ifs
    · rw [not_iff, not_iff_not, not_not]
    · rfl

theorem not_dangling_of_not_mem (h : '\\' ∉ l) : ¬ Dangling l := by
  cases l using List.reverseRecOn with
  | nil => exact not_dangling_nil
  | append_singleton l c =>
    intro hdangling
    obtain ⟨rfl, -⟩ := (dangling_concat l c).mp hdangling
    exact h (List.mem_append_right l (List.mem_singleton_self _))

theorem not_openQuote_of_not_mem (h : '"' ∉ l) : ¬ OpenQuote l := by
  induction l using List.reverseRecOn with
  | nil => exact not_openQuote_nil
  | append_singleton l c ih =>
    simp only [List.mem_append, List.mem_singleton, not_or] at h
    have hc : c ≠ '"' := Ne.symm h.2
    rw [openQuote_concat]
    simpa [hc] using ih h.1

end

end LineTokens

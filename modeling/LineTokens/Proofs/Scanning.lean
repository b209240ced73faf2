import Mathlib.Tactic.SplitIfs
import LineTokens.Scanner

/-!
What a scan of characters does, one equation for each mode, and how it ends.
The mode goes its own way: it depends on the symbols read and on nothing else
that the scanner holds. Proofs about scans cite these equations and leave the
definitions closed.
-/

namespace LineTokens

theorem Symbol.ofUnit_singleton (c : Char) :
    ofUnit (String.singleton c) =
      if c = ' ' then space else if c = '"' then quote
      else if c = '\\' then backslash else text := by
  have hunit (d : Char) : String.singleton c = String.singleton d ↔ c = d := by
    constructor
    · intro h
      simpa using congrArg String.toList h
    · intro h
      rw [h]
  have hspace : String.singleton c = " " ↔ c = ' ' := hunit ' '
  have hquote : String.singleton c = "\"" ↔ c = '"' := hunit '"'
  have hbackslash : String.singleton c = "\\" ↔ c = '\\' := hunit '\\'
  simp only [ofUnit, hspace, hquote, hbackslash]

theorem Symbol.ofUnit_singleton_eq_quote_iff (c : Char) :
    ofUnit (String.singleton c) = quote ↔ c = '"' := by
  rw [ofUnit_singleton]
  split_ifs <;> simp_all

theorem Symbol.ofUnit_singleton_eq_backslash_iff (c : Char) :
    ofUnit (String.singleton c) = backslash ↔ c = '\\' := by
  rw [ofUnit_singleton]
  split_ifs <;> simp_all

namespace Mode

def next : Mode → Symbol → Mode
  | .plain, .quote => .quoted
  | .plain, .backslash => .escaped
  | .plain, _ => .plain
  | .quoted, .quote => .plain
  | .quoted, .backslash => .quotedEscaped
  | .quoted, _ => .quoted
  | .escaped, _ => .plain
  | .quotedEscaped, _ => .quoted

def Escaping (m : Mode) : Prop := m = .escaped ∨ m = .quotedEscaped

def InQuotes (m : Mode) : Prop := m = .quoted ∨ m = .quotedEscaped

instance : DecidablePred Escaping := fun m =>
  inferInstanceAs (Decidable (m = .escaped ∨ m = .quotedEscaped))

instance : DecidablePred InQuotes := fun m =>
  inferInstanceAs (Decidable (m = .quoted ∨ m = .quotedEscaped))

theorem eq_plain_iff (m : Mode) : m = .plain ↔ ¬ m.Escaping ∧ ¬ m.InQuotes := by
  cases m <;> simp [Escaping, InQuotes]

theorem eq_quoted_iff (m : Mode) : m = .quoted ↔ ¬ m.Escaping ∧ m.InQuotes := by
  cases m <;> simp [Escaping, InQuotes]

/-- Inside quotes and outside, a backslash escapes unless it is escaped. -/
theorem escaping_next (m : Mode) (x : Symbol) :
    (m.next x).Escaping ↔ x = .backslash ∧ ¬ m.Escaping := by
  cases m <;> cases x <;> simp [next, Escaping]

theorem inQuotes_next (m : Mode) (x : Symbol) :
    (m.next x).InQuotes ↔ if x = .quote ∧ ¬ m.Escaping then ¬ m.InQuotes else m.InQuotes := by
  cases m <;> cases x <;> simp [next, Escaping, InQuotes]

theorem fault?_eq (m : Mode) :
    m.fault? = if m.Escaping then some .incompleteEscape
      else if m.InQuotes then some .unmatchedQuote else none := by
  cases m <;> rfl

end Mode

namespace Scanner

variable {s : Scanner}

/-- Adds characters to the token under way, and starts one if there is none. -/
def appendChars (s : Scanner) (chars : List Char) : Scanner :=
  { s with
    pieces := s.pieces ++ (chars.map String.singleton).toArray
    pending := true }

@[simp] theorem mode_appendChars (v : List Char) : (s.appendChars v).mode = s.mode := rfl

@[simp] theorem pending_appendChars (v : List Char) :
    (s.appendChars v).pending = true := rfl

theorem append_singleton_eq (c : Char) : s.append (String.singleton c) = s.appendChars [c] := by
  simp [append, appendChars]

theorem join_map_singleton (v : List Char) :
    String.join (v.map String.singleton) = String.ofList v := by
  rw [← String.toList_inj, String.toList_join, List.flatMap_map]
  simp

@[simp] theorem appendChars_appendChars (v w : List Char) :
    (s.appendChars v).appendChars w = s.appendChars (v ++ w) := by
  simp [appendChars, Array.append_assoc]

theorem appendChars_withMode (m : Mode) (v : List Char) :
    { s with mode := m }.appendChars v = { s.appendChars v with mode := m } := rfl

/-! ### Flushing -/

theorem flush_of_not_pending (h : s.pending = false) : s.flush = s := by
  simp [flush, h]

@[simp] theorem mode_flush : s.flush.mode = s.mode := by
  unfold flush
  split <;> rfl

@[simp] theorem line_flush : s.flush.line = s.line := by
  unfold flush
  split <;> rfl

@[simp] theorem pending_flush : s.flush.pending = false := by
  unfold flush
  split
  · rfl
  · simp_all

@[simp] theorem flush_flush : s.flush.flush = s.flush :=
  flush_of_not_pending pending_flush

/-! ### Feeding one character -/

theorem feed_space (h : s.mode = .plain) : s.feed " " = s.flush := by
  simp [feed, h, Symbol.ofUnit]

theorem feed_plain (h : s.mode = .plain) (c : Char) :
    s.feed (String.singleton c) =
      if c = ' ' then s.flush
      else if c = '"' then { s with mode := .quoted, pending := true }
      else if c = '\\' then { s with mode := .escaped }
      else s.appendChars [c] := by
  rw [← append_singleton_eq]
  unfold feed
  rw [h, Symbol.ofUnit_singleton]
  split_ifs <;> rfl

theorem feed_quoted (h : s.mode = .quoted) (c : Char) :
    s.feed (String.singleton c) =
      if c = '"' then { s with mode := .plain }
      else if c = '\\' then { s with mode := .quotedEscaped }
      else s.appendChars [c] := by
  rw [← append_singleton_eq]
  unfold feed
  rw [h, Symbol.ofUnit_singleton]
  split_ifs <;> simp_all

theorem feed_escaped (h : s.mode = .escaped) (c : Char) :
    s.feed (String.singleton c) = { s.appendChars [c] with mode := .plain } := by
  rw [← append_singleton_eq]
  unfold feed
  rw [h]

theorem feed_quotedEscaped (h : s.mode = .quotedEscaped) (c : Char) :
    s.feed (String.singleton c) = { s.appendChars [c] with mode := .quoted } := by
  rw [← append_singleton_eq]
  unfold feed
  rw [h]

theorem mode_feed (s : Scanner) (unit : String) :
    (s.feed unit).mode = s.mode.next (Symbol.ofUnit unit) := by
  unfold feed
  cases hmode : s.mode <;> cases Symbol.ofUnit unit <;> simp [Mode.next, append, hmode]

@[simp] theorem line_feed (s : Scanner) (unit : String) : (s.feed unit).line = s.line := by
  unfold feed
  split <;> simp [append]

@[simp] theorem line_feedChars (s : Scanner) (l : List Char) :
    (s.feedChars l).line = s.line := by
  induction l generalizing s with
  | nil => rfl
  | cons c l ih => rw [feedChars_cons, ih, line_feed]

theorem feedChars_concat (s : Scanner) (l : List Char) (c : Char) :
    s.feedChars (l ++ [c]) = (s.feedChars l).feed (String.singleton c) := by
  rw [feedChars_append, feedChars_cons, feedChars_nil]

theorem feedChars_spaces (h : s.mode = .plain) (n : Nat) :
    s.feedChars (List.replicate (n + 1) ' ') = s.flush := by
  induction n generalizing s with
  | zero => exact (feed_plain h ' ').trans (if_pos rfl)
  | succ n ih =>
    rw [List.replicate_succ, feedChars_cons, feed_plain h, if_pos rfl,
      ih (mode_flush.trans h), flush_flush]

/-! ### Closing the scan -/

theorem finish_eq_ok_iff {ts : List String} :
    s.finish.2 = .ok ts ↔ s.mode = .plain ∧ s.flush.tokens.toList = ts := by
  unfold finish
  cases s.mode <;> simp [Mode.fault?]

theorem finish_eq_error_iff {r : Rejection} :
    s.finish.2 = .error r ↔ s.mode.fault? = some r.fault ∧ r.line = s.line := by
  unfold finish
  cases r
  cases s.mode <;> simp [Mode.fault?, eq_comm]

/-- A scan that cannot be closed is left as it was. -/
theorem finish_state_of_error {r : Rejection} (h : s.finish.2 = .error r) : s.finish.1 = s := by
  have hfault := (finish_eq_error_iff.mp h).1
  simp only [finish, hfault]

/-- Closing the scan, when it succeeds, does what one more space would do. -/
theorem finish_state_of_ok {ts : List String} (h : s.finish.2 = .ok ts) :
    s.finish.1 = s.feedChars [' '] := by
  have hmode := (finish_eq_ok_iff.mp h).1
  have hspaces : s.feedChars [' '] = s.flush := feedChars_spaces hmode 0
  rw [hspaces]
  simp only [finish, hmode, Mode.fault?]

end Scanner

theorem tokenize_eq_finish (line : String) :
    tokenize line = ((Scanner.start line).feedChars line.toList).finish.2 := rfl

theorem tokenize_eq_ok_iff {line : String} {ts : List String} :
    tokenize line = .ok ts ↔
      ((Scanner.start line).feedChars line.toList).mode = .plain ∧
        ((Scanner.start line).feedChars line.toList).flush.tokens.toList = ts := by
  rw [tokenize_eq_finish, Scanner.finish_eq_ok_iff]

theorem tokenize_eq_error_iff {line : String} {r : Rejection} :
    tokenize line = .error r ↔
      ((Scanner.start line).feedChars line.toList).mode.fault? = some r.fault ∧
        r.line = line := by
  rw [tokenize_eq_finish, Scanner.finish_eq_error_iff, Scanner.line_feedChars]
  rfl

end LineTokens

import LineTokens.Proofs.History

/-!
What becomes of a line, without the line: its tokens, or what is wrong with it.
A scanner shows its own line in a rejection and does not look at it otherwise,
so results for different lines, and of scanners made for other lines than they
are fed, are compared by their verdicts.
-/

namespace LineTokens

namespace Scanner

/-- What closing the scan would tell. -/
def verdict (s : Scanner) : Except Fault (List String) :=
  s.finish.2.mapError Rejection.fault

variable {s : Scanner}

theorem verdict_eq_ok_iff {ts : List String} :
    s.verdict = .ok ts ↔ s.mode = .plain ∧ s.flush.tokens.toList = ts := by
  rw [← finish_eq_ok_iff, verdict]
  cases s.finish.2 <;> simp [Except.mapError]

theorem verdict_eq_error_iff {fault : Fault} :
    s.verdict = .error fault ↔ s.mode.fault? = some fault := by
  unfold verdict finish
  cases s.mode.fault? <;> simp [Except.mapError]

end Scanner

/-- The tokens of a line, or what is wrong with it. -/
def verdict (line : String) : Except Fault (List String) :=
  (tokenize line).mapError Rejection.fault

theorem verdict_eq_ok_iff {line : String} {ts : List String} :
    verdict line = .ok ts ↔ tokenize line = .ok ts := by
  unfold verdict
  cases tokenize line <;> simp [Except.mapError]

theorem verdict_eq_error_iff {line : String} {fault : Fault} :
    verdict line = .error fault ↔ tokenize line = .error ⟨fault, line⟩ := by
  rw [tokenize_eq_error_iff]
  exact Scanner.verdict_eq_error_iff.trans (and_iff_left rfl).symm

/-- A scanner for any line, fed the characters of another one, gives the
verdict on what it was fed. -/
theorem verdict_feedChars_start (own line : String) :
    ((Scanner.start own).feedChars line.toList).verdict = verdict line := by
  have hscan : (Scanner.start own).feedChars line.toList =
      { (Scanner.start line).feedChars line.toList with line := own } := by
    rw [← Scanner.feedChars_withLine]
    rfl
  unfold Scanner.verdict verdict
  rw [hscan, Scanner.finish_withLine, tokenize_eq_finish]
  cases ((Scanner.start line).feedChars line.toList).finish.2 <;> rfl

theorem verdict_append (own a b : String) :
    verdict (a ++ b) =
      (((Scanner.start own).feedChars a.toList).feedChars b.toList).verdict := by
  rw [← verdict_feedChars_start own, String.toList_append, Scanner.feedChars_append]

end LineTokens

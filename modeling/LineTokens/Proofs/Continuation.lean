import LineTokens.Proofs.Recognition
import LineTokens.Proofs.Splitting
import LineTokens.Proofs.Verdict

/-!
A scan that goes on behind complete tokens. Nothing that a scanner does looks at
the tokens it has completed, so they stay in front of all that follows. After a
closing that succeeded there is nothing else left of the past: the scan goes on
like a fresh one behind its tokens.
-/

namespace LineTokens

namespace Scanner

variable {s : Scanner}

/-- The same scan with more complete tokens in front. -/
def behind (s : Scanner) (ts : List String) : Scanner :=
  { s with tokens := ts.toArray ++ s.tokens }

@[simp] theorem mode_behind (ts : List String) : (s.behind ts).mode = s.mode := rfl

@[simp] theorem line_behind (ts : List String) : (s.behind ts).line = s.line := rfl

@[simp] theorem behind_nil : s.behind [] = s := by simp [behind]

theorem behind_behind (ts us : List String) :
    (s.behind ts).behind us = s.behind (us ++ ts) := by
  simp only [behind, ← Array.append_assoc, List.append_toArray]

/-! ### What goes on -/

theorem flush_behind (s : Scanner) (ts : List String) :
    (s.behind ts).flush = s.flush.behind ts := by
  unfold flush behind
  dsimp only
  split
  · rw [Array.append_push]
  · rfl

theorem feed_behind (s : Scanner) (ts : List String) (unit : String) :
    (s.behind ts).feed unit = (s.feed unit).behind ts := by
  cases hmode : s.mode with
  | plain =>
    cases hsymbol : Symbol.ofUnit unit with
    | space =>
      have hflush := flush_behind s ts
      simpa [feed, hmode, hsymbol] using hflush
    | quote | backslash | text => simp [feed, hmode, hsymbol, behind, append]
  | quoted => cases hsymbol : Symbol.ofUnit unit <;> simp [feed, hmode, hsymbol, behind, append]
  | escaped | quotedEscaped => simp [feed, hmode, behind, append]

theorem feedChars_behind (s : Scanner) (ts : List String) (l : List Char) :
    (s.behind ts).feedChars l = (s.feedChars l).behind ts := by
  induction l generalizing s with
  | nil => rfl
  | cons c l ih => rw [feedChars_cons, feedChars_cons, feed_behind, ih]

theorem finish_behind (s : Scanner) (ts : List String) :
    (s.behind ts).finish = (s.finish.1.behind ts, s.finish.2.map (ts ++ ·)) := by
  unfold finish
  rw [mode_behind]
  cases s.mode.fault? with
  | some fault => rfl
  | none =>
    dsimp only
    rw [flush_behind]
    simp [behind, Except.map]

theorem run_behind (s : Scanner) (ts : List String) :
    (s.behind ts).run = (s.run.1.behind ts, s.run.2.map (ts ++ ·)) := by
  unfold run
  rw [line_behind, feedChars_behind, finish_behind]

theorem step_behind (s : Scanner) (ts : List String) (step : Step) :
    ((s.behind ts).step step).1 = (s.step step).1.behind ts := by
  cases step with
  | feed unit => exact feed_behind s ts unit
  | finish => exact congrArg Prod.fst (finish_behind s ts)
  | run => exact congrArg Prod.fst (run_behind s ts)

theorem after_behind (s : Scanner) (ts : List String) (steps : List Step) :
    (s.behind ts).after steps = (s.after steps).behind ts := by
  induction steps generalizing s with
  | nil => rfl
  | cons step rest ih =>
    calc
      (s.behind ts).after (step :: rest) = ((s.behind ts).step step).1.after rest := rfl
      _ = ((s.step step).1.behind ts).after rest := by rw [step_behind]
      _ = (s.after (step :: rest)).behind ts := ih (s.step step).1

theorem verdict_behind (s : Scanner) (ts : List String) :
    (s.behind ts).verdict = s.verdict.map (ts ++ ·) := by
  unfold verdict
  rw [finish_behind]
  cases s.finish.2 <;> rfl

/-! ### What a closing leaves -/

theorem Idle.eq_start_behind (h : s.Idle) : s = (start s.line).behind s.tokens.toList := by
  obtain ⟨hmode, hpieces, hpending⟩ := h
  cases s
  simp_all [start, behind]

variable {line : String} {ts : List String}

theorem mode_feedChars_start_of_ok (own : String) (h : tokenize line = .ok ts) :
    ((start own).feedChars line.toList).mode = .plain := by
  obtain ⟨hdangling, hopen, -⟩ := tokenize_eq_contents_iff.mp h
  exact (parity_feedChars_start own line.toList).eq_plain_iff.mpr ⟨hdangling, hopen⟩

theorem flush_feedChars_start_of_ok (own : String) (h : tokenize line = .ok ts) :
    ((start own).feedChars line.toList).flush = (start own).behind ts := by
  have hmode := mode_feedChars_start_of_ok own h
  have hcontents : contents (segments line.toList) = ts := (tokenize_eq_contents_iff.mp h).2.2
  obtain ⟨htokens, hpieces⟩ := (standsAfter_feedChars_start own line.toList).flush hmode
  have hidle : ((start own).feedChars line.toList).flush.Idle :=
    ⟨mode_flush.trans hmode, hpieces, pending_flush⟩
  have hflush := hidle.eq_start_behind
  rw [htokens, hcontents, line_flush, line_feedChars] at hflush
  exact hflush

/-- Closing the scan of a line that has tokens gives them, and leaves a fresh
scan behind them. -/
theorem finish_feedChars_start_of_ok (own : String) (h : tokenize line = .ok ts) :
    ((start own).feedChars line.toList).finish = ((start own).behind ts, .ok ts) := by
  have hmode := mode_feedChars_start_of_ok own h
  have hflush := flush_feedChars_start_of_ok own h
  unfold finish
  rw [hmode]
  dsimp only [Mode.fault?]
  rw [hflush]
  simp [behind, start]

end Scanner

end LineTokens

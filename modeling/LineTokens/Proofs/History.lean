import LineTokens.Proofs.Scanning

/-!
A scanner used step by step. Feeding, closing and running may follow one
another in any order, and a scan goes on after it was closed or refused. All of
that comes to one scan of one text: a successful closing does what a space
does, and a refused one does nothing.
-/

namespace LineTokens

namespace Scanner

def after (s : Scanner) (steps : List Step) : Scanner :=
  steps.foldl (fun s t => (s.step t).1) s

namespace Step

/-- A step that feeds one character, or no step of feeding at all. -/
def FeedsCharacter : Step → Prop
  | .feed unit => unit.length = 1
  | .finish | .run => True

instance : DecidablePred FeedsCharacter
  | .feed unit => inferInstanceAs (Decidable (unit.length = 1))
  | .finish | .run => inferInstanceAs (Decidable True)

def fed (line : String) : Step → List Char
  | .feed unit => unit.toList
  | .finish => []
  | .run => line.toList

end Step

/-- The space that an answer leaves in the text: one if tokens were given. -/
def separator : Option (Except Rejection (List String)) → List Char
  | some (.ok _) => [' ']
  | some (.error _) | none => []

/-- The text that steps come to: all characters fed so far, and a separator
wherever the scan was closed with success. -/
def transcript (s : Scanner) : List Step → List Char
  | [] => []
  | t :: rest => t.fed s.line ++ separator (s.step t).2 ++ (s.step t).1.transcript rest

variable {s : Scanner}

/-! ### Each step is some feeding -/

theorem finish_state_eq_feedChars (s : Scanner) :
    s.finish.1 = s.feedChars (separator (some s.finish.2)) := by
  cases hfinish : s.finish.2 with
  | ok ts => exact finish_state_of_ok hfinish
  | error r => exact finish_state_of_error hfinish

theorem step_state_eq_feedChars {t : Step} (h : t.FeedsCharacter) :
    (s.step t).1 = s.feedChars (t.fed s.line ++ separator (s.step t).2) := by
  cases t with
  | feed unit =>
    obtain ⟨c, hunit⟩ : ∃ c, unit.toList = [c] := List.length_eq_one_iff.mp h
    have hsingleton : unit = String.singleton c := by
      rw [← String.toList_inj, hunit, String.toList_singleton]
    rw [hsingleton]
    simp [step, Step.fed, separator]
  | finish => exact finish_state_eq_feedChars s
  | run =>
    simp only [step, Step.fed, feedChars_append]
    exact finish_state_eq_feedChars (s.feedChars s.line.toList)

theorem after_eq_feedChars {steps : List Step} (h : ∀ t ∈ steps, t.FeedsCharacter) :
    s.after steps = s.feedChars (s.transcript steps) := by
  -- From the first step on: what it leaves decides how the next ones answer.
  induction steps generalizing s with
  | nil => rfl
  | cons t rest ih =>
    have hstep := step_state_eq_feedChars (s := s) (h t (by simp))
    have hrest := ih (s := (s.step t).1) (fun u hu => h u (by simp [hu]))
    calc
      s.after (t :: rest) = (s.step t).1.after rest := rfl
      _ = (s.step t).1.feedChars ((s.step t).1.transcript rest) := hrest
      _ = s.feedChars (s.transcript (t :: rest)) := by
        rw [transcript, feedChars_append, ← hstep]

/-! ### The line matters to rejections only -/

theorem flush_withLine (s : Scanner) (line : String) :
    { s with line := line }.flush = { s.flush with line := line } := by
  unfold flush
  dsimp only
  split <;> rfl

theorem feed_withLine (s : Scanner) (line unit : String) :
    { s with line := line }.feed unit = { s.feed unit with line := line } := by
  cases s with
  | mk own mode tokens pieces pending =>
    unfold feed
    cases mode with
    | plain =>
      cases Symbol.ofUnit unit with
      | space => exact flush_withLine ⟨own, .plain, tokens, pieces, pending⟩ line
      | quote | backslash | text => rfl
    | quoted => cases Symbol.ofUnit unit <;> rfl
    | escaped | quotedEscaped => rfl

theorem feedChars_withLine (s : Scanner) (line : String) (l : List Char) :
    { s with line := line }.feedChars l = { s.feedChars l with line := line } := by
  induction l generalizing s with
  | nil => rfl
  | cons c l ih => rw [feedChars_cons, feedChars_cons, feed_withLine, ih]

theorem finish_withLine (s : Scanner) (line : String) :
    ({ s with line := line } : Scanner).finish.2 =
      s.finish.2.mapError fun r => { r with line := line } := by
  unfold finish
  dsimp only
  cases s.mode.fault? with
  | some fault => rfl
  | none =>
    rw [flush_withLine]
    rfl

end Scanner

/-- Closing the scan after any history answers as the transcript would be
answered, except that a rejection shows the scanner's own line. What is refused
is left as the feeding left it. -/
theorem finish_after_history (line : String) (steps : List Scanner.Step)
    (h : ∀ t ∈ steps, t.FeedsCharacter) :
    let s := (Scanner.start line).after steps
    let w := String.ofList ((Scanner.start line).transcript steps)
    s.finish.2 = ((tokenize w).mapError fun r => { r with line := line }) ∧
      (∀ r, s.finish.2 = .error r → s.finish.1 = s) ∧
      ∀ r, s.run.2 = .error r → s.run.1 = s.feedChars line.toList := by
  intro s w
  have hafter : s = (Scanner.start line).feedChars ((Scanner.start line).transcript steps) :=
    Scanner.after_eq_feedChars h
  have hline : s.line = line := by
    rw [hafter, Scanner.line_feedChars]
    rfl
  have hscan : { (Scanner.start w).feedChars w.toList with line := line } = s := by
    rw [← Scanner.feedChars_withLine, String.toList_ofList, hafter]
    rfl
  refine ⟨?_, ?_, ?_⟩
  · rw [tokenize_eq_finish, ← Scanner.finish_withLine, hscan]
  · intro r hfinish
    exact Scanner.finish_state_of_error hfinish
  · intro r hrun
    have hstate := Scanner.finish_state_of_error (s := s.feedChars s.line.toList) hrun
    rw [← hline]
    exact hstate

/-- A refused run, a refused closing and a successful one leave a text with
one separator, in which a dangling backslash is refused. -/
theorem finish_after_refused_run :
    (∀ t ∈ [Scanner.Step.feed "a", .run, .finish, .feed "\"", .finish, .feed "\\"],
      t.FeedsCharacter) ∧
    ((Scanner.start "x\" y").after
        [.feed "a", .run, .finish, .feed "\"", .finish, .feed "\\"]).finish.2 =
      (tokenize "ax\" y\" \\").mapError fun r => { r with line := "x\" y" } := by
  have hfeeds : ∀ t ∈ [Scanner.Step.feed "a", .run, .finish, .feed "\"", .finish, .feed "\\"],
      t.FeedsCharacter := by
    decide
  exact ⟨hfeeds, (finish_after_history "x\" y" _ hfeeds).1⟩

end LineTokens

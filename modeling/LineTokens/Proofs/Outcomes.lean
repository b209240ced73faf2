import LineTokens.Command.Action

/-!
How a run of the program can end. Every run ends with an exit code, and what it
has written by then is a whole result or a whole report of one failure, never
part of a result. Which of the two it is, and with which code, is told by the
arguments, by whether a line could be read, and by whether the line has tokens.
All of this is under the assumption of an `Outcome`, that standard output and
standard error accept every text: a write that fails would be one more way to end.
-/

namespace LineTokens

/-! ### Reports are never empty -/

theorem UsageError.report_ne_empty (e : UsageError) : e.report ≠ "" := by
  simp [UsageError.report]

theorem Console.print_ne_empty (console : Console) (text : String) : console.print text ≠ "" := by
  simp [Console.print]

theorem Rejection.report_ne_empty (console : Console) (r : Rejection) : r.report console ≠ "" :=
  console.print_ne_empty _

/-! ### The line of a split -/

/-- The line that a split is about: the one that is given, or the first one of
standard input if there is none. -/
def lineOf (line? : Option String) (input : StandardInput) : Except ReadFailure String :=
  match line? with
  | some line => .ok line
  | none => input.readLine

section

variable {console : Console} {line? : Option String} {format : Format} {input : StandardInput}
  {arguments : List String}

theorem split_of_lineOf_ok {line : String} (hline : lineOf line? input = .ok line) :
    split console line? format input = splitLine console format line := by
  cases line? with
  | some given =>
    obtain rfl : given = line := Except.ok.inj hline
    rfl
  | none =>
    have hread : input.readLine = .ok line := hline
    rw [split, hread]

theorem runProgram_of_lineOf_error {failure : ReadFailure}
    (harguments : Action.ofArguments arguments = .ok (.split line? format))
    (hline : lineOf line? input = .error failure) :
    runProgram console arguments input = (Outcome.mk "" "" (.failed failure)).guarded := by
  cases line? with
  | some line => cases hline
  | none =>
    have hread : input.readLine = .error failure := hline
    simp only [runProgram, runCommand, harguments, Action.perform, split, hread]

theorem runProgram_of_lineOf_ok {line : String}
    (harguments : Action.ofArguments arguments = .ok (.split line? format))
    (hline : lineOf line? input = .ok line) :
    runProgram console arguments input = (splitLine console format line).guarded := by
  simp only [runProgram, runCommand, harguments, Action.perform, split_of_lineOf_ok hline]

/-- Chunks are read as a line or fail to decode. -/
theorem undecodable_of_readLine_chunks {contents : List (List UInt8)} {failure : ReadFailure}
    (h : (StandardInput.chunks contents).readLine = .error failure) :
    ∃ e, failure = .undecodable e := by
  rw [StandardInput.readLine] at h
  split at h
  · next e _ => exact ⟨e, (Except.error.inj h).symm⟩
  · cases h

/-- Nothing but a read of standard input can be interrupted. -/
theorem lineOf_eq_interrupted_iff {text : String} :
    lineOf line? input = .error (.interrupted text) ↔
      line? = none ∧ input = .failing (.interrupted text) := by
  constructor
  · intro h
    cases line? with
    | some line => cases h
    | none =>
      cases input with
      | failing failure =>
        have hfailure : failure = .interrupted text := Except.error.inj h
        exact ⟨rfl, congrArg StandardInput.failing hfailure⟩
      | chunks contents =>
        obtain ⟨e, he⟩ := undecodable_of_readLine_chunks h
        cases he
  · rintro ⟨rfl, rfl⟩
    rfl

end

/-! ### The endings -/

/-- The ways in which a run can end, with all that it leaves behind. -/
inductive Ends (console : Console) (arguments : List String) (input : StandardInput) :
    Outcome → Prop
  | success (stdout : String) {action : Action} :
      Action.ofArguments arguments = .ok action →
        Ends console arguments input ⟨stdout, "", .exit 0⟩
  | misused {e : UsageError} :
      Action.ofArguments arguments = .error e →
        Ends console arguments input ⟨"", e.report, .exit 2⟩
  | rejected {line? : Option String} {format : Format} {line : String} {r : Rejection} :
      Action.ofArguments arguments = .ok (.split line? format) →
      lineOf line? input = .ok line → tokenize line = .error r →
        Ends console arguments input ⟨"", r.report console, .exit 1⟩
  | unread {line? : Option String} {format : Format} {failure : ReadFailure} :
      Action.ofArguments arguments = .ok (.split line? format) →
      lineOf line? input = .error failure → (∀ text, failure ≠ .interrupted text) →
        Ends console arguments input ⟨"", "" ++ "Error: " ++ failure.message ++ "\n", .exit 1⟩
  | interrupted {line? : Option String} {format : Format} {text : String} :
      Action.ofArguments arguments = .ok (.split line? format) →
      lineOf line? input = .error (.interrupted text) →
        Ends console arguments input ⟨"", "", .exit 130⟩

theorem ends_split {console : Console} {arguments : List String} {input : StandardInput}
    {line? : Option String} {format : Format}
    (harguments : Action.ofArguments arguments = .ok (.split line? format)) :
    Ends console arguments input (runProgram console arguments input) := by
  cases hline : lineOf line? input with
  | error failure =>
    rw [runProgram_of_lineOf_error harguments hline]
    cases failure with
    | interrupted text => exact .interrupted harguments hline
    | broken _ | refused _ | undecodable _ => exact .unread harguments hline nofun
  | ok line =>
    rw [runProgram_of_lineOf_ok harguments hline]
    unfold splitLine
    cases htokens : tokenize line with
    | ok tokens => exact .success _ harguments
    | error r => exact .rejected harguments hline htokens

theorem ends_runProgram (console : Console) (arguments : List String) (input : StandardInput) :
    Ends console arguments input (runProgram console arguments input) := by
  cases harguments : Action.ofArguments arguments with
  | error e =>
    have hrun : runProgram console arguments input = ⟨"", e.report, .exit 2⟩ := by
      simp only [runProgram, runCommand, harguments]
      rfl
    rw [hrun]
    exact .misused harguments
  | ok action =>
    cases action with
    | split line? format => exact ends_split harguments
    | usage | version | demo =>
      simp only [runProgram, runCommand, harguments]
      exact .success _ harguments

/-- One text at most is written to, and the code tells which. -/
theorem Ends.texts {console : Console} {arguments : List String} {input : StandardInput}
    {o : Outcome}
    (h : Ends console arguments input o) :
    (∃ code ∈ [0, 1, 2, 130], o.ending = .exit code) ∧
      (o.ending = .exit 0 → o.stderr = "") ∧
      (o.ending = .exit 1 ∨ o.ending = .exit 2 → o.stdout = "" ∧ o.stderr ≠ "") ∧
      (o.ending = .exit 130 → o.stdout = "" ∧ o.stderr = "") := by
  cases h with
  | success _ _ => simp
  | @misused e _ =>
    have hreport := e.report_ne_empty
    simp [hreport]
  | @rejected _ _ _ r _ _ _ =>
    have hreport := r.report_ne_empty console
    simp [hreport]
  | unread _ _ _ => simp
  | interrupted _ _ => simp

/-- The code 1 is for splits that had no line to split, or no tokens for it. -/
theorem exit_one_iff (console : Console) (arguments : List String) (input : StandardInput) :
    (runProgram console arguments input).ending = .exit 1 ↔
      ∃ line? format, Action.ofArguments arguments = .ok (.split line? format) ∧
        ((∃ failure, lineOf line? input = .error failure ∧
            ∀ text, failure ≠ .interrupted text) ∨
          ∃ line r, lineOf line? input = .ok line ∧ tokenize line = .error r) := by
  constructor
  · intro hending
    have hends := ends_runProgram console arguments input
    generalize runProgram console arguments input = o at hends hending
    cases hends with
    | success _ _ | misused _ | interrupted _ _ => simp at hending
    | rejected harguments hline htokens =>
      exact ⟨_, _, harguments, .inr ⟨_, _, hline, htokens⟩⟩
    | unread harguments hline hfailure =>
      exact ⟨_, _, harguments, .inl ⟨_, hline, hfailure⟩⟩
  · rintro ⟨line?, format, harguments, ⟨failure, hline, hfailure⟩ | ⟨line, r, hline, htokens⟩⟩
    · rw [runProgram_of_lineOf_error harguments hline]
      cases failure with
      | interrupted text => exact absurd rfl (hfailure text)
      | broken _ | refused _ | undecodable _ => rfl
    · rw [runProgram_of_lineOf_ok harguments hline, splitLine, htokens]
      rfl

/-- The code 130 is for splits whose read of standard input was interrupted. -/
theorem exit_interrupted_iff (console : Console) (arguments : List String) (input : StandardInput) :
    (runProgram console arguments input).ending = .exit 130 ↔
      (∃ format, Action.ofArguments arguments = .ok (.split none format)) ∧
        ∃ text, input = .failing (.interrupted text) := by
  constructor
  · intro hending
    have hends := ends_runProgram console arguments input
    generalize runProgram console arguments input = o at hends hending
    cases hends with
    | success _ _ | misused _ | rejected _ _ _ | unread _ _ _ => simp at hending
    | @interrupted line? format text harguments hline =>
      obtain ⟨rfl, hinput⟩ := lineOf_eq_interrupted_iff.mp hline
      exact ⟨⟨format, harguments⟩, text, hinput⟩
  · rintro ⟨⟨format, harguments⟩, text, rfl⟩
    rw [runProgram_of_lineOf_error harguments rfl]
    rfl

/-- The code 2 is for arguments that mean nothing. -/
theorem exit_two_iff (console : Console) (arguments : List String) (input : StandardInput) :
    (runProgram console arguments input).ending = .exit 2 ↔
      ∃ e, Action.ofArguments arguments = .error e := by
  constructor
  · intro hending
    have hends := ends_runProgram console arguments input
    generalize runProgram console arguments input = o at hends hending
    cases hends with
    | success _ _ | rejected _ _ _ | unread _ _ _ | interrupted _ _ => simp at hending
    | misused harguments => exact ⟨_, harguments⟩
  · rintro ⟨e, harguments⟩
    simp only [runProgram, runCommand, harguments]
    rfl

/-- Every run ends with the code 0, 1, 2 or 130. It writes to one text only, to
standard output with the code 0 and to standard error with 1 and 2, and to none
with 130. The code 130 means that a read of standard input was interrupted, 1
that a split had no line or its line no tokens, and 2 that the arguments mean
nothing. Standard input may be any chunks of bytes or fail on every read, and the
console may show texts as it likes; standard output and standard error take what
is written to them. -/
theorem outcome_of_every_run (console : Console) (arguments : List String) (input : StandardInput) :
    let o := runProgram console arguments input
    (∃ code ∈ [0, 1, 2, 130], o.ending = .exit code) ∧
    (o.ending = .exit 0 → o.stderr = "") ∧
    (o.ending = .exit 1 ∨ o.ending = .exit 2 → o.stdout = "" ∧ o.stderr ≠ "") ∧
    (o.ending = .exit 130 → o.stdout = "" ∧ o.stderr = "") ∧
    (o.ending = .exit 130 ↔
      (∃ format, Action.ofArguments arguments = .ok (.split none format)) ∧
        ∃ text, input = .failing (.interrupted text)) ∧
    (o.ending = .exit 1 ↔
      ∃ line? format, Action.ofArguments arguments = .ok (.split line? format) ∧
        ((∃ failure, lineOf line? input = .error failure ∧
            ∀ text, failure ≠ .interrupted text) ∨
          ∃ line r, lineOf line? input = .ok line ∧ tokenize line = .error r)) ∧
    (o.ending = .exit 2 ↔ ∃ e, Action.ofArguments arguments = .error e) := by
  intro o
  have hends : Ends console arguments input o := ends_runProgram console arguments input
  obtain ⟨hcode, hzero, hfailed, hinterrupted⟩ := hends.texts
  exact ⟨hcode, hzero, hfailed, hinterrupted, exit_interrupted_iff console arguments input,
    exit_one_iff console arguments input, exit_two_iff console arguments input⟩

/-- A run that needs no input, one whose input breaks, and one whose input is
interrupted. -/
theorem outcome_of_failing_reads :
    let done := runProgram .plain ["demo"] (.failing (.broken "gone"))
    let failed := runProgram .plain ["split", "-fjson"] (.failing (.broken "gone"))
    let interrupted := runProgram .plain ["split"] (.failing (.interrupted ""))
    (done.ending = .exit 0 ∧ done.stderr = "") ∧
      (failed.ending = .exit 1 ∧ failed.stdout = "" ∧ failed.stderr ≠ "") ∧
      (interrupted.ending = .exit 130 ∧ interrupted.stdout = "" ∧ interrupted.stderr = "") := by
  intro done failed interrupted
  have hdone : done.ending = .exit 0 := by decide
  have hfailed : failed.ending = .exit 1 := by decide
  have hinterrupted : interrupted.ending = .exit 130 := by decide
  obtain ⟨-, hsuccess, -⟩ := outcome_of_every_run .plain ["demo"] (.failing (.broken "gone"))
  obtain ⟨-, -, hfailure, -⟩ :=
    outcome_of_every_run .plain ["split", "-fjson"] (.failing (.broken "gone"))
  obtain ⟨-, -, -, hsilence, -⟩ :=
    outcome_of_every_run .plain ["split"] (.failing (.interrupted ""))
  exact ⟨⟨hdone, hsuccess hdone⟩, ⟨hfailed, hfailure (.inl hfailed)⟩,
    ⟨hinterrupted, hsilence hinterrupted⟩⟩

end LineTokens

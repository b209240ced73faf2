import LineTokens.Proofs.Outcomes
import LineTokens.Proofs.ResultText
import LineTokens.Proofs.Scanning

/-!
Lines shown one after another, and the same lines split one at a time. An entry
shows the tokens that a split shows, or the fault that a split reports, although
the two have templates of their own and show a line at other columns. So each
text tells the other, on every console that keeps solid texts.
-/

namespace LineTokens

open Console

/-! ### Texts of a template -/

theorem Fault.printable_message (fault : Fault) : ∀ c ∈ fault.message.toList, PrintableAscii c := by
  cases fault <;> simp [message, PrintableAscii]

theorem Console.solid_of_printable {text : String} (h : ∀ c ∈ text.toList, PrintableAscii c)
    (hfirst : ∃ c ∈ text.toList.head?, Visible c) (hlast : ∃ c ∈ text.toList.getLast?, Visible c) :
    Solid text where
  verbatim c hc := verbatim_of_not_unprintable (h c hc).not_unprintable
  oneLine hmem := absurd (h '\n' hmem) (by decide)
  first := hfirst
  last := hlast

/-- A label may end in a space, since something solid stands behind it. -/
theorem Console.Solid.prepend {text : String} (h : Solid text) {label : String}
    (hlabel : ∀ c ∈ label.toList, PrintableAscii c) (hfirst : ∃ c ∈ label.toList.head?, Visible c) :
    Solid (label ++ text) where
  verbatim := by
    rw [String.toList_append]
    exact List.forall_mem_append.mpr
      ⟨fun c hc => verbatim_of_not_unprintable (hlabel c hc).not_unprintable, h.verbatim⟩
  oneLine := by
    rw [String.toList_append, List.mem_append, not_or]
    exact ⟨fun hmem => absurd (hlabel '\n' hmem) (by decide), h.oneLine⟩
  first := by
    obtain ⟨c, hc, hvisible⟩ := hfirst
    exact ⟨c, by simp [Option.mem_def.mp hc], hvisible⟩
  last := by
    obtain ⟨c, hc, hvisible⟩ := h.last
    exact ⟨c, by simp [Option.mem_def.mp hc], hvisible⟩

theorem Fault.solid_message (fault : Fault) : Solid fault.message := by
  apply solid_of_printable fault.printable_message <;> cases fault <;> simp [message] <;> decide

theorem Fault.solid_entry (fault : Fault) : Solid ("ERROR: " ++ fault.message) :=
  fault.solid_message.prepend (by simp [PrintableAscii]) ⟨'E', by simp, by decide⟩

theorem Fault.solid_report (fault : Fault) : Solid ("Error: " ++ fault.message) :=
  fault.solid_message.prepend (by simp [PrintableAscii]) ⟨'E', by simp, by decide⟩

/-- Messages differ in their first letter. -/
theorem Fault.eq_of_message_append_eq {fault fault' : Fault} {rest rest' : String}
    (h : fault.message ++ rest = fault'.message ++ rest') : fault = fault' := by
  have hfirst := congrArg (·.toList.head?) h
  cases fault <;> cases fault' <;> simp [message] at hfirst <;> rfl

theorem Fault.message_inj {fault fault' : Fault} :
    fault.message = fault'.message ↔ fault = fault' := by
  constructor
  · intro h
    have happend : fault.message ++ "" = fault'.message ++ "" := by rw [h]
    exact eq_of_message_append_eq happend
  · rintro rfl
    rfl

/-! ### Entries -/

theorem error_entry_eq (line message : String) :
    line ++ ": ERROR: " ++ message = line ++ ": " ++ ("ERROR: " ++ message) := by
  have hlabel : ": ERROR: " = ": " ++ "ERROR: " := by decide
  simp only [hlabel, String.append_assoc]

section

variable {console : Console}

theorem demo_singleton (line : String) :
    demo console [line] = .success (demoEntry console line) := by
  simp [demo]

theorem demo_eq_entries (lines : List String) :
    demo console lines =
      .success (String.join (lines.map fun line => (demo console [line]).stdout)) := by
  simp only [demo_singleton]
  rfl

theorem tokenize_eq_error_fault_iff {line : String} {r : Rejection} (h : tokenize line = .error r)
    (fault : Fault) : tokenize line = .error ⟨fault, line⟩ ↔ r.fault = fault := by
  obtain rfl : r.line = line := (tokenize_eq_error_iff.mp h).2
  rw [h, Except.error.injEq]
  constructor
  · exact congrArg Rejection.fault
  · rintro rfl
    rfl

variable (h : console.KeepsSolid)

include h

theorem Console.KeepsSolid.print_tokens_ne (before : String) (tokens : List String)
    (fault : Fault) :
    console.print (before ++ Literal.ofList tokens) ≠
      console.print (before ++ ("ERROR: " ++ fault.message)) := by
  rw [Ne, h.print_append_inj before (Literal.solid_ofList tokens) fault.solid_entry]
  intro heq
  have hfirst := congrArg (·.toList.head?) heq
  simp [Literal.ofList] at hfirst

theorem demoEntry_eq_tokens_iff (line : String) (tokens : List String) :
    demoEntry console line = console.print (line ++ ": " ++ Literal.ofList tokens) ↔
      tokenize line = .ok tokens := by
  unfold demoEntry
  cases htokens : tokenize line with
  | ok found =>
    dsimp only
    rw [h.print_append_inj _ (Literal.solid_ofList found) (Literal.solid_ofList tokens),
      Literal.ofList_injective.eq_iff, Except.ok.injEq]
  | error r =>
    have hne := h.print_tokens_ne (line ++ ": ") tokens r.fault
    dsimp only
    rw [error_entry_eq]
    exact iff_of_false hne.symm nofun

theorem demoEntry_eq_error_iff (line : String) (fault : Fault) :
    demoEntry console line = console.print (line ++ ": ERROR: " ++ fault.message) ↔
      tokenize line = .error ⟨fault, line⟩ := by
  unfold demoEntry
  cases htokens : tokenize line with
  | ok found =>
    have hne := h.print_tokens_ne (line ++ ": ") found fault
    dsimp only
    rw [error_entry_eq]
    exact iff_of_false hne nofun
  | error r =>
    dsimp only
    rw [← htokens, tokenize_eq_error_fault_iff htokens, error_entry_eq, error_entry_eq,
      h.print_append_inj _ r.fault.solid_entry fault.solid_entry, String.append_right_inj,
      Fault.message_inj]

/-! ### The same line split -/

theorem splitLine_list_eq_tokens_iff (line : String) (tokens : List String) :
    splitLine console .list line = .success (console.print ("INPUT:  (" ++ line ++ ")") ++
        console.print ("RESULT: " ++ Literal.ofList tokens)) ↔
      tokenize line = .ok tokens := by
  unfold splitLine
  cases htokens : tokenize line with
  | ok found =>
    dsimp only [report]
    rw [Outcome.success_inj, String.append_right_inj,
      h.print_append_inj _ (Literal.solid_ofList found) (Literal.solid_ofList tokens),
      Literal.ofList_injective.eq_iff, Except.ok.injEq]
  | error r => simp [Outcome.success, Outcome.failure]

/-- A report tells the fault, whatever stands behind it. -/
theorem Console.KeepsSolid.fault_eq_of_print_eq {fault fault' : Fault} {behind behind' : String}
    (heq : console.print ("Error: " ++ fault.message ++ behind) =
      console.print ("Error: " ++ fault'.message ++ behind')) : fault = fault' := by
  obtain ⟨rest, hrest⟩ := h.front fault.solid_report behind
  obtain ⟨rest', hrest'⟩ := h.front fault'.solid_report behind'
  rw [print, print, String.append_left_inj, hrest, hrest', String.append_assoc,
    String.append_assoc, String.append_right_inj] at heq
  exact Fault.eq_of_message_append_eq heq

theorem splitLine_eq_error_iff (format : Format) (line : String) (fault : Fault) :
    splitLine console format line = .failure 1
        (console.print ("Error: " ++ fault.message ++ ": (" ++ line ++ ")")) ↔
      tokenize line = .error ⟨fault, line⟩ := by
  unfold splitLine
  cases htokens : tokenize line with
  | ok found => simp [Outcome.success, Outcome.failure]
  | error r =>
    have hline : r.line = line := (tokenize_eq_error_iff.mp htokens).2
    dsimp only [Rejection.report]
    rw [← htokens, tokenize_eq_error_fault_iff htokens, Outcome.failure_inj, hline]
    constructor
    · have hbehind (fault : Fault) : "Error: " ++ fault.message ++ ": (" ++ line ++ ")" =
          "Error: " ++ fault.message ++ (": (" ++ line ++ ")") := by
        simp only [String.append_assoc]
      rw [hbehind, hbehind]
      exact h.fault_eq_of_print_eq
    · rintro rfl
      rfl

end

/-- A demonstration ends well whatever its lines are, and shows one text for each
of them, in order, which no other line changes. The text has tokens exactly if a
split of the line shows these tokens as its result. It has the message of a fault
exactly if a split of the line, in any format, is refused with the same message.
Which of the two it has is up to the line. -/
theorem demo_agrees_with_split {console : Console} (h : console.KeepsSolid) :
    (∀ lines, demo console lines =
      .success (String.join (lines.map fun line => (demo console [line]).stdout))) ∧
    ∀ line line? input, lineOf line? input = .ok line →
      let shown := (demo console [line]).stdout
      (∀ tokens, shown = console.print (line ++ ": " ++ Literal.ofList tokens) ↔
        split console line? .list input =
          .success (console.print ("INPUT:  (" ++ line ++ ")") ++
            console.print ("RESULT: " ++ Literal.ofList tokens))) ∧
      (∀ format (fault : Fault),
        shown = console.print (line ++ ": ERROR: " ++ fault.message) ↔
          split console line? format input = .failure 1
            (console.print ("Error: " ++ fault.message ++ ": (" ++ line ++ ")"))) ∧
      match tokenize line with
      | .ok tokens => shown = console.print (line ++ ": " ++ Literal.ofList tokens)
      | .error r => shown = console.print (line ++ ": ERROR: " ++ r.fault.message) := by
  refine ⟨demo_eq_entries, ?_⟩
  intro line line? input hline shown
  have hshown : shown = demoEntry console line := congrArg Outcome.stdout (demo_singleton line)
  rw [hshown]
  refine ⟨?_, ?_, ?_⟩
  · intro tokens
    rw [split_of_lineOf_ok hline, demoEntry_eq_tokens_iff h, splitLine_list_eq_tokens_iff h]
  · intro format fault
    rw [split_of_lineOf_ok hline, demoEntry_eq_error_iff h, splitLine_eq_error_iff h]
  · unfold demoEntry
    cases tokenize line <;> rfl

/-- A line with a tab and an open quote, read from standard input. The tab is as
wide as its column makes it in either text. -/
theorem demo_agrees_with_split_at_tab :
    let line := "\"a\tb"
    let input := StandardInput.bytes [0x22, 0x61, 0x09, 0x62, 0x0a]
    Console.plain.KeepsSolid ∧ lineOf none input = .ok line ∧
      (demo .plain [line]).stdout = "\"a      b: ERROR: Unmatched quote\n" ∧
      (demo .plain [line]).stdout =
        Console.plain.print (line ++ ": ERROR: " ++ Fault.unmatchedQuote.message) ∧
      split .plain none .list input = .failure 1 "Error: Unmatched quote: (\"a     b)\n" := by
  intro line input
  have hkeeps : Console.plain.KeepsSolid := documented_plain.keepsSolid
  have hline : lineOf none input = .ok line := by decide +kernel
  have hshown : (demo .plain [line]).stdout =
      Console.plain.print (line ++ ": ERROR: " ++ Fault.unmatchedQuote.message) := by
    decide +kernel
  obtain ⟨-, herror, -⟩ := (demo_agrees_with_split hkeeps).2 line none input hline
  have hreport : Console.plain.print
      ("Error: " ++ Fault.unmatchedQuote.message ++ ": (" ++ line ++ ")") =
        "Error: Unmatched quote: (\"a     b)\n" := by
    decide +kernel
  refine ⟨hkeeps, hline, by decide +kernel, hshown, ?_⟩
  rw [← hreport]
  exact (herror .list .unmatchedQuote).mp hshown

end LineTokens

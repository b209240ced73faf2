import LineTokens.Proofs.DemoEntries

/-!
Lines shown to the user again. A split shows its line beside the result or in
the report of a fault, and a demonstration shows it in front of the entry. In
each of these places the line is shown character for character exactly if the
console, doing as it is documented to do, shows each of its characters as it is.
-/

namespace LineTokens

open Console

theorem Console.solid_bracket : Solid ")" :=
  solid_of_printable (by simp [PrintableAscii]) ⟨')', by simp, by decide⟩ ⟨')', by simp, by decide⟩

theorem Fault.solid_report_label (fault : Fault) :
    Solid ("Error: " ++ fault.message ++ ": (") := by
  have hlabel : Solid ": (" :=
    solid_of_printable (by simp [PrintableAscii]) ⟨':', by simp, by decide⟩
      ⟨'(', by simp, by decide⟩
  apply hlabel.prepend ?_ fault.solid_report.first
  rw [String.toList_append]
  exact List.forall_mem_append.mpr ⟨by simp [PrintableAscii], fault.printable_message⟩

section

variable {console : Console} {trims : Prop} (h : console.Documented trims)
  {line : String} (htrimmed : trims → Trimmed line.toList)

include h htrimmed

/-! ### The line in each template -/

theorem print_input_eq_iff :
    console.print ("INPUT:  (" ++ line ++ ")") = "INPUT:  (" ++ line ++ ")" ++ "\n" ↔
      ∀ c ∈ line.toList, Verbatim c := by
  have hlabel : Solid "INPUT:  (" :=
    solid_of_printable (by simp [PrintableAscii]) ⟨'I', by simp, by decide⟩
      ⟨'(', by simp, by decide⟩
  exact h.print_between_eq_iff hlabel htrimmed solid_bracket

theorem print_report_eq_iff (fault : Fault) :
    console.print ("Error: " ++ fault.message ++ ": (" ++ line ++ ")") =
        "Error: " ++ fault.message ++ ": (" ++ line ++ ")" ++ "\n" ↔
      ∀ c ∈ line.toList, Verbatim c :=
  h.print_between_eq_iff fault.solid_report_label htrimmed solid_bracket

theorem print_entry_eq_iff {label entry : String} (hentry : Solid (label ++ entry)) :
    console.print (line ++ label ++ entry) = line ++ label ++ entry ++ "\n" ↔
      ∀ c ∈ line.toList, Verbatim c := by
  rw [String.append_assoc]
  exact h.print_append_eq_iff htrimmed hentry

/-! ### The whole texts -/

variable {tokens : List String} {r : Rejection}

theorem splitLine_verbatim_iff (htokens : tokenize line = .ok tokens) :
    splitLine console .list line = .success
        ("INPUT:  (" ++ line ++ ")" ++ "\n" ++ ("RESULT: " ++ Literal.ofList tokens ++ "\n")) ↔
      ∀ c ∈ line.toList, Verbatim c := by
  have hresult : console.print ("RESULT: " ++ Literal.ofList tokens) =
      "RESULT: " ++ Literal.ofList tokens ++ "\n" := print_resultText h tokens
  unfold splitLine
  rw [htokens]
  dsimp only [report]
  rw [hresult, Outcome.success_inj, String.append_left_inj, print_input_eq_iff h htrimmed]

theorem splitLine_error_verbatim_iff (format : Format) (herror : tokenize line = .error r) :
    splitLine console format line = .failure 1
        ("Error: " ++ r.fault.message ++ ": (" ++ line ++ ")" ++ "\n") ↔
      ∀ c ∈ line.toList, Verbatim c := by
  have hline : r.line = line := (tokenize_eq_error_iff.mp herror).2
  unfold splitLine
  rw [herror]
  dsimp only [Rejection.report]
  rw [hline, Outcome.failure_inj, print_report_eq_iff h htrimmed]

theorem demo_verbatim_iff (htokens : tokenize line = .ok tokens) :
    demo console [line] = .success (line ++ ": " ++ Literal.ofList tokens ++ "\n") ↔
      ∀ c ∈ line.toList, Verbatim c := by
  have hentry : Solid (": " ++ Literal.ofList tokens) :=
    (Literal.solid_ofList tokens).prepend (by simp [PrintableAscii]) ⟨':', by simp, by decide⟩
  rw [demo_singleton, Outcome.success_inj, demoEntry, htokens]
  exact print_entry_eq_iff h htrimmed hentry

theorem demo_error_verbatim_iff (herror : tokenize line = .error r) :
    demo console [line] = .success (line ++ ": ERROR: " ++ r.fault.message ++ "\n") ↔
      ∀ c ∈ line.toList, Verbatim c := by
  have hentry : Solid (": ERROR: " ++ r.fault.message) :=
    r.fault.solid_message.prepend (by simp [PrintableAscii]) ⟨':', by simp, by decide⟩
  rw [demo_singleton, Outcome.success_inj, demoEntry, herror]
  exact print_entry_eq_iff h htrimmed hentry

end

/-- A line stands in the texts of a split and of a demonstration as it is, with
nothing else changed in them, exactly if it has no tab and none of the characters
that the console leaves out. Its length and all other characters do not matter,
newlines and spaces at its end included. This holds of every line where the console
trims none. Where it does, it is said only of lines with no blank in front of a
newline, since of others less may be shown. -/
theorem line_echoed_verbatim_iff {console : Console} {trims : Prop}
    (h : console.Documented trims) (line : String) (htrimmed : trims → Trimmed line.toList) :
    let verbatim := '\t' ∉ line.toList ∧ ∀ c ∈ stripped, c ∉ line.toList
    (∀ tokens, tokenize line = .ok tokens →
      (∀ line? input, lineOf line? input = .ok line →
        (split console line? .list input = .success
            ("INPUT:  (" ++ line ++ ")" ++ "\n" ++
              ("RESULT: " ++ Literal.ofList tokens ++ "\n")) ↔ verbatim)) ∧
      (demo console [line] = .success (line ++ ": " ++ Literal.ofList tokens ++ "\n") ↔
        verbatim)) ∧
    ∀ r, tokenize line = .error r →
      (∀ line? format input, lineOf line? input = .ok line →
        (split console line? format input = .failure 1
            ("Error: " ++ r.fault.message ++ ": (" ++ line ++ ")" ++ "\n") ↔ verbatim)) ∧
      (demo console [line] = .success (line ++ ": ERROR: " ++ r.fault.message ++ "\n") ↔
        verbatim) := by
  intro verbatim
  have hverbatim := forall_verbatim_iff line
  constructor
  · intro tokens htokens
    refine ⟨?_, (demo_verbatim_iff h htrimmed htokens).trans hverbatim⟩
    intro line? input hline
    rw [split_of_lineOf_ok hline]
    exact (splitLine_verbatim_iff h htrimmed htokens).trans hverbatim
  · intro r herror
    refine ⟨?_, (demo_error_verbatim_iff h htrimmed herror).trans hverbatim⟩
    intro line? format input hline
    rw [split_of_lineOf_ok hline]
    exact (splitLine_error_verbatim_iff h htrimmed format herror).trans hverbatim

/-- A line with a newline, brackets and spaces at its end, and a refused line of
standard input with a tab. -/
theorem line_echoed_with_newline_and_tab :
    let line := "[b]a\n:x:  "
    let refused := "\ta\\"
    let input := StandardInput.bytes [0x09, 0x61, 0x5c]
    Console.plain.Documented False ∧
      tokenize line = .ok ["[b]a\n:x:"] ∧ lineOf (some line) input = .ok line ∧
      split .plain (some line) .list input =
        .success "INPUT:  ([b]a\n:x:  )\nRESULT: ['[b]a\\n:x:']\n" ∧
      tokenize refused = .error ⟨.incompleteEscape, refused⟩ ∧ lineOf none input = .ok refused ∧
      split .plain none .json input ≠
        .failure 1 ("Error: incomplete escape sequence: (" ++ refused ++ ")" ++ "\n") := by
  intro line refused input
  have htokens : tokenize line = .ok ["[b]a\n:x:"] := by decide +kernel
  have herror : tokenize refused = .error ⟨.incompleteEscape, refused⟩ := by decide +kernel
  have hgiven : lineOf (some line) input = .ok line := rfl
  have hread : lineOf none input = .ok refused := by decide +kernel
  have hsplit := ((line_echoed_verbatim_iff documented_plain line nofun).1 _ htokens).1
    (some line) input hgiven
  have hreport := ((line_echoed_verbatim_iff documented_plain refused nofun).2 _ herror).1
    none .json input hread
  have htext : "INPUT:  (" ++ line ++ ")" ++ "\n" ++
      ("RESULT: " ++ Literal.ofList ["[b]a\n:x:"] ++ "\n") =
        "INPUT:  ([b]a\n:x:  )\nRESULT: ['[b]a\\n:x:']\n" := by decide +kernel
  rw [htext] at hsplit
  have hplain : '\t' ∉ line.toList ∧ ∀ c ∈ stripped, c ∉ line.toList := by
    simp [line, stripped]
  have htab : '\t' ∈ refused.toList := by simp [refused]
  exact ⟨documented_plain, htokens, hgiven, hsplit.mpr hplain, herror, hread,
    fun hverbatim => (hreport.mp hverbatim).1 htab⟩

end LineTokens

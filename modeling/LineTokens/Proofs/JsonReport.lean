import Mathlib.Tactic.SplitIfs
import LineTokens.Proofs.FirstLine
import LineTokens.Proofs.ListReading
import LineTokens.Proofs.Outcomes
import LineTokens.Proofs.Utf16

/-!
Tokens reported as a JSON array. The array is one line of printable ASCII, and
reading it gives the tokens back, whatever characters they are made of.
-/

namespace LineTokens

namespace Json

/-! ### Spellings -/

/-- A character has an escape of one letter, or stands for itself, or is escaped
by its number. -/
theorem escape_cases (c : Char) :
    (∃ letter, escapedLetter? letter = some c ∧ escape c = ['\\', letter]) ∨
      (PrintableAscii c ∧ c ≠ '"' ∧ c ≠ '\\' ∧ escape c = [c]) ∨
      escape c = escapeNumber c.toNat := by
  unfold escape
  split_ifs with hmarked hn hr ht hf hb hprintable
  · refine .inl ⟨c, ?_, rfl⟩
    rcases hmarked with rfl | rfl <;> rfl
  · exact .inl ⟨'n', hn ▸ rfl, rfl⟩
  · exact .inl ⟨'r', hr ▸ rfl, rfl⟩
  · exact .inl ⟨'t', ht ▸ rfl, rfl⟩
  · exact .inl ⟨'f', hf ▸ rfl, rfl⟩
  · exact .inl ⟨'b', hb ▸ rfl, rfl⟩
  · obtain ⟨hquote, hbackslash⟩ := not_or.mp hmarked
    exact .inr (.inl ⟨hprintable, hquote, hbackslash, rfl⟩)
  · exact .inr (.inr rfl)

theorem letter_of_escapedLetter? {letter c : Char} (h : escapedLetter? letter = some c) :
    PrintableAscii letter ∧ letter ≠ 'u' := by
  unfold escapedLetter? at h
  split at h
  case h_9 => cases h
  all_goals decide

theorem printableAscii_of_mem_escapeUnit {u : Nat} {c : Char} (h : c ∈ escapeUnit u) :
    PrintableAscii c := by
  simp only [escapeUnit, List.mem_cons] at h
  rcases h with rfl | rfl | hdigit
  · decide
  · decide
  · exact Hex.printable_of_mem_numeral hdigit

theorem printableAscii_of_mem_escape {c d : Char} (h : d ∈ escape c) : PrintableAscii d := by
  rcases escape_cases c with ⟨letter, hletter, hescape⟩ | ⟨hprintable, -, -, hescape⟩ | hescape
  · obtain ⟨hprintable, -⟩ := letter_of_escapedLetter? hletter
    simp only [hescape, List.mem_cons, List.not_mem_nil, or_false] at h
    rcases h with rfl | rfl
    · decide
    · exact hprintable
  · rw [hescape] at h
    rwa [List.mem_singleton.mp h]
  · rw [hescape, escapeNumber] at h
    split at h
    · exact printableAscii_of_mem_escapeUnit h
    · rcases List.mem_append.mp h with hhigh | hlow
      · exact printableAscii_of_mem_escapeUnit hhigh
      · exact printableAscii_of_mem_escapeUnit hlow

/-! ### Reading spellings -/

theorem escapedUnit?_numeral {n : Nat} (h : n < 0x10000) (hlow : ¬ Utf16.IsLowSurrogate n)
    (hhigh : ¬ Utf16.IsHighSurrogate n) (rest : List Char) :
    escapedUnit? (Hex.numeral 4 n ++ rest) = some ⟨Char.ofNat n, 5⟩ := by
  rw [escapedUnit?, Hex.front?_numeral_append (by omega)]
  simp only [if_neg hlow, if_neg hhigh]

theorem escapedUnit?_surrogates {n : Nat} (h : 0x10000 ≤ n) (h' : n < 0x110000)
    (rest : List Char) :
    escapedUnit? (Hex.numeral 4 (Utf16.highSurrogate n) ++
      (escapeUnit (Utf16.lowSurrogate n) ++ rest)) = some ⟨Char.ofNat n, 11⟩ := by
  have hhigh : Utf16.IsHighSurrogate (Utf16.highSurrogate n) :=
    Utf16.isHighSurrogate_highSurrogate h'
  have hlow : Utf16.IsLowSurrogate (Utf16.lowSurrogate n) := Utf16.isLowSurrogate_lowSurrogate n
  have hnot : ¬ Utf16.IsLowSurrogate (Utf16.highSurrogate n) := by omega
  have hsecond : escapedLow? (escapeUnit (Utf16.lowSurrogate n) ++ rest) =
      some (Utf16.lowSurrogate n) := by
    rw [escapeUnit, List.cons_append, List.cons_append, escapedLow?,
      Hex.front?_numeral_append (by omega), Option.filter_some, decide_eq_true hlow]
    rfl
  rw [escapedUnit?, Hex.front?_numeral_append (by omega),
    List.drop_left' (Hex.length_numeral 4 _), hsecond]
  simp only [if_neg hnot, if_pos hhigh, Option.map_some, Utf16.combine_surrogates h]

theorem front?_letter {letter c : Char} (h : escapedLetter? letter = some c)
    (rest : List Char) : front? '\\' (letter :: rest) = some ⟨c, 1⟩ := by
  obtain ⟨-, hu⟩ := letter_of_escapedLetter? h
  simp [front?, h]

theorem front?_printable {c : Char} (h : PrintableAscii c) (hbackslash : c ≠ '\\')
    (rest : List Char) : front? c rest = some ⟨c, 0⟩ := by
  have hcontrol : ¬ c < ' ' := Char.not_lt.mpr h.1
  rw [front?.eq_def, if_neg hcontrol, if_neg hbackslash]

/-- A character is read back from the escape by its number. -/
theorem front?_escapeNumber (c : Char) (rest : List Char) :
    ∃ tail, escapeNumber c.toNat = '\\' :: tail ∧
      front? '\\' (tail ++ rest) = some ⟨c, tail.length⟩ := by
  have hvalid : c.toNat < 0xD800 ∨ 0xDFFF < c.toNat ∧ c.toNat < 0x110000 := c.valid
  have hchar : Char.ofNat c.toNat = c := Char.ofNat_toNat c
  generalize c.toNat = n at hvalid hchar
  subst hchar
  unfold escapeNumber
  split
  · next hone =>
    refine ⟨_, rfl, ?_⟩
    have hunit := escapedUnit?_numeral hone (by omega) (by omega) rest
    simpa [front?, Hex.length_numeral] using hunit
  · next htwo =>
    refine ⟨_, rfl, ?_⟩
    have hpair := escapedUnit?_surrogates (Nat.not_lt.mp htwo) (by omega) rest
    simpa [front?, escapeUnit, Hex.length_numeral] using hpair

theorem readsSpelling_escape : dialect.ReadsSpelling '"' escape := by
  intro c rest
  rcases escape_cases c with ⟨letter, hletter, hescape⟩ |
      ⟨hprintable, hquote, hbackslash, hescape⟩ | hescape
  · exact ⟨'\\', [letter], hescape, by decide, front?_letter hletter rest⟩
  · exact ⟨c, [], hescape, hquote, front?_printable hprintable hbackslash rest⟩
  · obtain ⟨tail, htail, hfront⟩ := front?_escapeNumber c rest
    exact ⟨'\\', tail, hescape.trans htail, by decide, hfront⟩

theorem readsString_ofString : dialect.ReadsString ofString := by
  intro s rest
  have hcontent := Dialect.content?_flatMap readsSpelling_escape s.toList rest
  have hstring := Dialect.string?_of_content? (by decide) hcontent
  simpa [ofString] using hstring

/-! ### Arrays -/

theorem read?_ofList (items : List String) : read? (ofList items) = some items :=
  readsString_ofString.read?_bracketed items

theorem ofList_injective : Function.Injective ofList :=
  readsString_ofString.bracketed_injective

theorem printableAscii_of_mem_ofString (s : String) :
    ∀ c ∈ (ofString s).toList, PrintableAscii c := by
  rw [ofString, String.toList_ofList]
  exact Dialect.forall_mem_quoted (by decide) (fun _ _ => printableAscii_of_mem_escape) s.toList

theorem printableAscii_of_mem_ofList (items : List String) :
    ∀ c ∈ (ofList items).toList, PrintableAscii c :=
  Dialect.forall_mem_bracketed (by simp [PrintableAscii]) printableAscii_of_mem_ofString items

end Json

/-! ### The report of a split -/

variable {console : Console}

theorem read?_report_json (line : String) (tokens : List String) :
    Json.read? (report console .json line tokens) = some tokens :=
  Json.readsString_ofString.read?_bracketed_append tokens (by simp [blanks])

/-- Reading what a split has written gives the tokens of its line, and nothing
where there is no line or the line is refused. -/
theorem read?_stdout_of_split {arguments : List String} {line? : Option String}
    (h : Action.ofArguments arguments = .ok (.split line? .json)) (input : StandardInput) :
    Json.read? (runProgram console arguments input).stdout =
      (lineOf line? input).toOption.bind fun line => (tokenize line).toOption := by
  have hnothing : Json.read? "" = none := by cbv
  cases hline : lineOf line? input with
  | error failure =>
    rw [runProgram_of_lineOf_error h hline]
    cases failure <;> exact hnothing
  | ok line =>
    rw [runProgram_of_lineOf_ok h hline, guarded_splitLine, splitLine_eq]
    cases htokens : tokenize line with
    | ok tokens => simp [read?_report_json, Except.toOption, htokens]
    | error r => simp [hnothing, Except.toOption, htokens]

/-- A JSON report is one line of printable ASCII, and reading it gives the
tokens back. So two reports are the same only if their tokens are, and what a
split writes tells the tokens of its line, or that there are none to tell. -/
theorem json_report_read_back (console : Console) :
    (∀ line tokens, ∃ text : String, report console .json line tokens = text ++ "\n" ∧
      (∀ c ∈ text.toList, PrintableAscii c) ∧ Json.read? text = some tokens) ∧
    (∀ line line' tokens tokens',
      report console .json line tokens = report console .json line' tokens' ↔ tokens = tokens') ∧
    ∀ arguments line? input, Action.ofArguments arguments = .ok (.split line? .json) →
      Json.read? (runProgram console arguments input).stdout =
        (lineOf line? input).toOption.bind fun line => (tokenize line).toOption := by
  refine ⟨fun line tokens => ?_, fun line line' tokens tokens' => ?_, ?_⟩
  · exact ⟨Json.ofList tokens, rfl, Json.printableAscii_of_mem_ofList tokens,
      Json.read?_ofList tokens⟩
  · rw [report, report, String.append_left_inj]
    exact Json.ofList_injective.eq_iff
  · exact fun arguments line? input harguments => read?_stdout_of_split harguments input

/-- A line with a token beyond U+FFFF and one with a quote and a newline. -/
theorem json_report_of_surrogates :
    let line := "😀 \"\\\"\n\""
    let arguments := ["split", "--form=json", line]
    Action.ofArguments arguments = .ok (.split (some line) .json) ∧
      (runProgram .plain arguments (.bytes [])).stdout = "[\"\\ud83d\\ude00\", \"\\\"\\n\"]\n" ∧
      Json.read? (runProgram .plain arguments (.bytes [])).stdout = some ["😀", "\"\n"] := by
  intro line arguments
  have harguments : Action.ofArguments arguments = .ok (.split (some line) .json) := by
    decide +kernel
  have htokens : tokenize line = .ok ["😀", "\"\n"] := by decide +kernel
  have hread := (json_report_read_back .plain).2.2 arguments (some line) (.bytes []) harguments
  refine ⟨harguments, by decide +kernel, hread.trans ?_⟩
  simp [lineOf, Except.toOption, htokens]

end LineTokens

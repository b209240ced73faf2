import Mathlib.Tactic.SplitIfs
import LineTokens.Command.Split
import LineTokens.Proofs.ConsoleText
import LineTokens.Proofs.ListReading

/-!
Tokens reported as a list literal. Every character of the literal prints, so the
console shows it as it is and on one line, and reading it gives the tokens back.
-/

namespace LineTokens

namespace Literal

/-! ### Spellings -/

section

variable {delim : Char} (hdelim : delim ∈ dialect.quotes)
include hdelim

/-- A character has an escape of one letter, or stands for itself, or is escaped
by its number. -/
theorem escape_cases (c : Char) :
    (∃ letter, escapedLetter? letter = some c ∧ escape delim c = ['\\', letter]) ∨
      (¬ Unprintable c ∧ c ≠ delim ∧ c ≠ '\\' ∧ escape delim c = [c]) ∨
      escape delim c = escapeNumber c.toNat := by
  unfold escape
  split_ifs with hmarked ht hn hr hunprintable
  · refine .inl ⟨c, ?_, rfl⟩
    have hself : ∀ quote ∈ dialect.quotes, escapedLetter? quote = some quote := by
      simp [dialect, escapedLetter?]
    rcases hmarked with rfl | rfl
    · exact hself c hdelim
    · rfl
  · exact .inl ⟨'t', ht ▸ rfl, rfl⟩
  · exact .inl ⟨'n', hn ▸ rfl, rfl⟩
  · exact .inl ⟨'r', hr ▸ rfl, rfl⟩
  · exact .inr (.inr rfl)
  · obtain ⟨hquote, hbackslash⟩ := not_or.mp hmarked
    exact .inr (.inl ⟨hunprintable, hquote, hbackslash, rfl⟩)

end

/-- The number of every character has one of the three widths. -/
theorem exists_escapeNumber (c : Char) :
    ∃ letter width, escapedWidth? letter = some width ∧ c.toNat < 16 ^ width ∧
      escapeNumber c.toNat = '\\' :: letter :: Hex.numeral width c.toNat := by
  have hvalid : c.toNat < 0xD800 ∨ 0xDFFF < c.toNat ∧ c.toNat < 0x110000 := c.valid
  unfold escapeNumber
  split_ifs with htwo hfour
  · exact ⟨'x', 2, rfl, htwo, rfl⟩
  · exact ⟨'u', 4, rfl, hfour, rfl⟩
  · exact ⟨'U', 8, rfl, by omega, rfl⟩

theorem letter_of_escapedLetter? {letter c : Char} (h : escapedLetter? letter = some c) :
    ¬ Unprintable letter ∧ escapedWidth? letter = none := by
  unfold escapedLetter? at h
  split at h
  case h_11 => cases h
  all_goals exact ⟨PrintableAscii.not_unprintable (by decide), rfl⟩

theorem not_unprintable_of_escapedWidth? {letter : Char} {width : Nat}
    (h : escapedWidth? letter = some width) : ¬ Unprintable letter := by
  unfold escapedWidth? at h
  split at h
  case h_4 => cases h
  all_goals exact PrintableAscii.not_unprintable (by decide)

theorem not_unprintable_of_mem_escape {delim c d : Char} (hdelim : delim ∈ dialect.quotes)
    (h : d ∈ escape delim c) : ¬ Unprintable d := by
  have hbackslash : ¬ Unprintable '\\' := PrintableAscii.not_unprintable (by decide)
  rcases escape_cases hdelim c with ⟨letter, hletter, hescape⟩ | ⟨hprints, -, -, hescape⟩ | hescape
  · obtain ⟨hprints, -⟩ := letter_of_escapedLetter? hletter
    simp only [hescape, List.mem_cons, List.not_mem_nil, or_false] at h
    rcases h with rfl | rfl
    · exact hbackslash
    · exact hprints
  · rw [hescape] at h
    rwa [List.mem_singleton.mp h]
  · obtain ⟨letter, width, hwidth, -, hnumber⟩ := exists_escapeNumber c
    simp only [hescape, hnumber, List.mem_cons] at h
    rcases h with rfl | rfl | hdigit
    · exact hbackslash
    · exact not_unprintable_of_escapedWidth? hwidth
    · have hprintable : PrintableAscii d := Hex.printable_of_mem_numeral hdigit
      exact hprintable.not_unprintable

/-! ### Reading spellings -/

theorem front?_letter {letter c : Char} (h : escapedLetter? letter = some c)
    (rest : List Char) : front? '\\' (letter :: rest) = some ⟨c, 1⟩ := by
  obtain ⟨-, hwidth⟩ := letter_of_escapedLetter? h
  simp [front?, h, hwidth]

theorem front?_printable {c : Char} (h : ¬ Unprintable c) (hbackslash : c ≠ '\\')
    (rest : List Char) : front? c rest = some ⟨c, 0⟩ := by
  have hraw : c ∉ ['\x00', '\n', '\r'] := by
    have hall : ∀ a ∈ ['\x00', '\n', '\r'], a < ' ' := by simp
    exact fun hc => h (unprintable_of_lt_space (hall c hc))
  rw [front?.eq_def, if_neg hraw, if_neg hbackslash]

theorem front?_numeral {letter c : Char} {width : Nat} (hwidth : escapedWidth? letter = some width)
    (h : c.toNat < 16 ^ width) (rest : List Char) :
    front? '\\' (letter :: (Hex.numeral width c.toNat ++ rest)) = some ⟨c, width + 1⟩ := by
  have hvalid : c.toNat.isValidChar := c.valid
  have hchar : Char.ofNat c.toNat = c := Char.ofNat_toNat c
  simp [front?, hwidth, escapedNumber?, Hex.front?_numeral_append h, hvalid, hchar]

theorem readsSpelling_escape {delim : Char} (hdelim : delim ∈ dialect.quotes) :
    dialect.ReadsSpelling delim (escape delim) := by
  have hbackslash : '\\' ≠ delim := by
    rintro rfl
    revert hdelim
    decide
  intro c rest
  rcases escape_cases hdelim c with ⟨letter, hletter, hescape⟩ |
      ⟨hprints, hquote, hplain, hescape⟩ | hescape
  · exact ⟨'\\', [letter], hescape, hbackslash, front?_letter hletter rest⟩
  · exact ⟨c, [], hescape, hquote, front?_printable hprints hplain rest⟩
  · obtain ⟨letter, width, hwidth, hlt, hnumber⟩ := exists_escapeNumber c
    refine ⟨'\\', letter :: Hex.numeral width c.toNat, hescape.trans hnumber, hbackslash, ?_⟩
    rw [List.length_cons, Hex.length_numeral]
    exact front?_numeral hwidth hlt rest

/-! ### Lists -/

theorem delimiter_mem_quotes (text : List Char) : delimiter text ∈ dialect.quotes := by
  unfold delimiter
  split <;> decide

theorem readsString_ofString : dialect.ReadsString ofString := by
  intro s rest
  have hdelim := delimiter_mem_quotes s.toList
  have hcontent := Dialect.content?_flatMap (readsSpelling_escape hdelim) s.toList rest
  have hstring := Dialect.string?_of_content? hdelim hcontent
  simpa [ofString, quote] using hstring

theorem read?_ofList (items : List String) : read? (ofList items) = some items :=
  readsString_ofString.read?_bracketed items

theorem ofList_injective : Function.Injective ofList :=
  readsString_ofString.bracketed_injective

theorem not_unprintable_of_mem_ofString (s : String) :
    ∀ c ∈ (ofString s).toList, ¬ Unprintable c := by
  have hdelim := delimiter_mem_quotes s.toList
  have hquotes : ∀ quote ∈ dialect.quotes, PrintableAscii quote := by
    simp [dialect, PrintableAscii]
  rw [ofString, String.toList_ofList]
  exact Dialect.forall_mem_quoted (hquotes _ hdelim).not_unprintable
    (fun _ _ => not_unprintable_of_mem_escape hdelim) s.toList

theorem not_unprintable_of_mem_ofList (items : List String) :
    ∀ c ∈ (ofList items).toList, ¬ Unprintable c := by
  have hmarks : ∀ c ∈ ['[', ',', ' ', ']'], PrintableAscii c := by simp [PrintableAscii]
  exact Dialect.forall_mem_bracketed (fun c hc => (hmarks c hc).not_unprintable)
    not_unprintable_of_mem_ofString items

theorem verbatim_of_mem_ofList (items : List String) :
    ∀ c ∈ (ofList items).toList, Console.Verbatim c :=
  fun c hc => Console.verbatim_of_not_unprintable (not_unprintable_of_mem_ofList items c hc)

/-- A literal stands between brackets. -/
theorem solid_ofList (items : List String) : Console.Solid (ofList items) where
  verbatim := verbatim_of_mem_ofList items
  oneLine hmem :=
    not_unprintable_of_mem_ofList items '\n' hmem (unprintable_of_lt_space (by decide))
  first := ⟨'[', by simp [ofList], by decide⟩
  last := by
    have hbracket : (ofList items).toList.getLast? = some ']' := by
      rw [ofList, String.toList_append]
      exact List.getLast?_concat
    exact ⟨']', hbracket, by decide⟩

end Literal

/-! ### The result on the console -/

/-- The text in which a list report shows the tokens. -/
def resultText (tokens : List String) : String :=
  "RESULT: " ++ Literal.ofList tokens

theorem not_unprintable_of_mem_resultText (tokens : List String) :
    ∀ c ∈ (resultText tokens).toList, ¬ Unprintable c := by
  have hlabel : ∀ c ∈ "RESULT: ".toList, PrintableAscii c := by simp [PrintableAscii]
  intro c hc
  rw [resultText, String.toList_append] at hc
  rcases List.mem_append.mp hc with hmem | hmem
  · exact (hlabel c hmem).not_unprintable
  · exact Literal.not_unprintable_of_mem_ofList tokens c hmem

theorem print_resultText {console : Console} {trims : Prop} (h : console.Documented trims)
    (tokens : List String) :
    console.print (resultText tokens) = resultText tokens ++ "\n" := by
  have hlabel : Console.Trimmed "RESULT: ".toList :=
    Console.trimmed_of_newline_not_mem (by simp)
  apply (h.print_append_eq_iff (fun _ => hlabel) (Literal.solid_ofList tokens)).mpr
  simp [Console.Verbatim, Console.stripped]

/-- A list report ends in the result as it is and a newline, the only one behind
the line. The console leaves nothing out of the result and expands nothing in it,
and reading its literal gives the tokens back. So two results are shown the same
only if their tokens are. -/
theorem result_text_read_back (tokens : List String) :
    (∀ line, report .plain .list line tokens =
      Console.plain.print ("INPUT:  (" ++ line ++ ")") ++ (resultText tokens ++ "\n")) ∧
    Console.plain.print (resultText tokens) = resultText tokens ++ "\n" ∧
    '\n' ∉ (resultText tokens).toList ∧
    Literal.read? (Literal.ofList tokens) = some tokens ∧
    ∀ tokens', Console.plain.print (resultText tokens') = Console.plain.print (resultText tokens) ↔
      tokens' = tokens := by
  have hprint : Console.plain.print (resultText tokens) = resultText tokens ++ "\n" :=
    print_resultText Console.documented_plain tokens
  have hnewline : Unprintable '\n' := unprintable_of_lt_space (by decide)
  refine ⟨fun line => ?_, hprint, fun hmem => ?_, Literal.read?_ofList tokens, fun tokens' => ?_⟩
  · rw [← hprint]
    rfl
  · exact not_unprintable_of_mem_resultText tokens '\n' hmem hnewline
  · rw [hprint, print_resultText Console.documented_plain, String.append_left_inj, resultText,
      resultText, String.append_right_inj]
    exact Literal.ofList_injective.eq_iff

end LineTokens

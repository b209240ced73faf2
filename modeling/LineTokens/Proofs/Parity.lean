import Mathlib.Data.List.Induction
import LineTokens.Proofs.Position
import LineTokens.Proofs.Scanning

/-!
The mode of a scan is a pair of parities of the text read: whether it ends in
an odd run of backslashes, and whether its unescaped quotes are odd in number.
What a line is refused for can therefore be told from the line alone.
-/

namespace LineTokens

namespace Scanner

variable {s : Scanner} {l : List Char}

/-- The mode tells both parities of the text. -/
structure Parity (s : Scanner) (l : List Char) : Prop where
  escaping : s.mode.Escaping ↔ Dangling l
  inQuotes : s.mode.InQuotes ↔ OpenQuote l

theorem parity_start (line : String) : (start line).Parity [] where
  escaping := by
    have hplain : ¬ Mode.plain.Escaping := by decide
    exact iff_of_false hplain not_dangling_nil
  inQuotes := by
    have hplain : ¬ Mode.plain.InQuotes := by decide
    exact iff_of_false hplain not_openQuote_nil

theorem Parity.feed (h : s.Parity l) (c : Char) :
    (s.feed (String.singleton c)).Parity (l ++ [c]) where
  escaping := by
    rw [mode_feed, Mode.escaping_next, Symbol.ofUnit_singleton_eq_backslash_iff, h.escaping,
      dangling_concat]
  inQuotes := by
    rw [mode_feed, Mode.inQuotes_next, openQuote_concat]
    simp only [Symbol.ofUnit_singleton_eq_quote_iff, h.escaping, h.inQuotes]

theorem parity_feedChars_start (line : String) (l : List Char) :
    ((start line).feedChars l).Parity l := by
  -- From the end of the text, since the machine has met all before it already.
  induction l using List.reverseRecOn with
  | nil => exact parity_start line
  | append_singleton l c ih =>
    rw [feedChars_concat]
    exact ih.feed c

theorem Parity.eq_plain_iff (h : s.Parity l) :
    s.mode = .plain ↔ ¬ Dangling l ∧ ¬ OpenQuote l := by
  rw [Mode.eq_plain_iff, h.escaping, h.inQuotes]

theorem Parity.eq_quoted_iff (h : s.Parity l) :
    s.mode = .quoted ↔ ¬ Dangling l ∧ OpenQuote l := by
  rw [Mode.eq_quoted_iff, h.escaping, h.inQuotes]

theorem Parity.fault?_eq (h : s.Parity l) :
    s.mode.fault? = if Dangling l then some .incompleteEscape
      else if OpenQuote l then some .unmatchedQuote else none := by
  rw [Mode.fault?_eq]
  simp only [h.escaping, h.inQuotes]

end Scanner

theorem tokenize_eq_incompleteEscape_iff (line : String) :
    tokenize line = .error ⟨.incompleteEscape, line⟩ ↔ Dangling line.toList := by
  have hparity := Scanner.parity_feedChars_start line line.toList
  rw [tokenize_eq_error_iff, hparity.fault?_eq]
  split_ifs <;> simp_all

theorem tokenize_eq_unmatchedQuote_iff (line : String) :
    tokenize line = .error ⟨.unmatchedQuote, line⟩ ↔
      ¬ Dangling line.toList ∧ OpenQuote line.toList := by
  have hparity := Scanner.parity_feedChars_start line line.toList
  rw [tokenize_eq_error_iff, hparity.fault?_eq]
  split_ifs <;> simp_all

theorem exists_tokenize_eq_ok_iff (line : String) :
    (∃ ts, tokenize line = .ok ts) ↔ ¬ Dangling line.toList ∧ ¬ OpenQuote line.toList := by
  have hparity := Scanner.parity_feedChars_start line line.toList
  simp only [tokenize_eq_ok_iff, hparity.eq_plain_iff]
  constructor
  · rintro ⟨ts, hplain, -⟩
    exact hplain
  · intro hplain
    exact ⟨_, hplain, rfl⟩

/-- The mode of a fresh scan after any text, and the outcome for any line, by
the two parities. The three conditions on a line exclude each other and one of
them always holds, so a refused line is refused with exactly these reports. -/
theorem mode_and_outcome_by_parity :
    (∀ (line : String) (s : List Char),
      (((Scanner.start line).feedChars s).mode = .escaped ∨
          ((Scanner.start line).feedChars s).mode = .quotedEscaped ↔
        Odd (trailingBackslashes s)) ∧
      (((Scanner.start line).feedChars s).mode = .quoted ∨
          ((Scanner.start line).feedChars s).mode = .quotedEscaped ↔
        Odd (unescapedQuotes s))) ∧
    ∀ line : String,
      (tokenize line = .error ⟨.incompleteEscape, line⟩ ↔
        Odd (trailingBackslashes line.toList)) ∧
      (tokenize line = .error ⟨.unmatchedQuote, line⟩ ↔
        Even (trailingBackslashes line.toList) ∧ Odd (unescapedQuotes line.toList)) ∧
      ((∃ ts, tokenize line = .ok ts) ↔
        Even (trailingBackslashes line.toList) ∧ Even (unescapedQuotes line.toList)) := by
  constructor
  · intro line s
    have hparity := Scanner.parity_feedChars_start line s
    exact ⟨hparity.escaping, hparity.inQuotes⟩
  · intro line
    refine ⟨tokenize_eq_incompleteEscape_iff line, ?_, ?_⟩
    · rw [tokenize_eq_unmatchedQuote_iff, ← Nat.not_odd_iff_even]
      rfl
    · rw [exists_tokenize_eq_ok_iff, ← Nat.not_odd_iff_even, ← Nat.not_odd_iff_even]
      rfl

end LineTokens

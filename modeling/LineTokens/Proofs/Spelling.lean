import LineTokens.Proofs.Rendering
import LineTokens.Proofs.Splitting
import LineTokens.Proofs.Verdict

/-!
One text spelled in several ways inside a line: with a backslash before every
character, between quotes, or just as it is. Each spelling does the same to a
scanner: it adds the text to the token under way. So in any line, whatever
stands around it, one spelling of a text can take the place of another.
-/

namespace LineTokens

open Grammar

/-- Puts a backslash before every character. -/
def escapeEach (t : List Char) : List Char :=
  t.flatMap fun c => ['\\', c]

theorem enclosed_escapeEach (t : List Char) : Enclosed (escapeEach t) t := by
  induction t with
  | nil => exact .nil
  | cons c t ih => exact .escape c ih

namespace Scanner

variable {s : Scanner}

/-! ### Ordinary text -/

theorem ofUnit_of_ordinary {c : Char} (h : Ordinary c) :
    Symbol.ofUnit (String.singleton c) = .text := by
  obtain ⟨hspace, hquote, hbackslash⟩ := h
  rw [Symbol.ofUnit_singleton, if_neg hspace, if_neg hquote, if_neg hbackslash]

theorem feed_ordinary {c : Char} (h : Ordinary c) :
    s.feed (String.singleton c) = { s.appendChars [c] with mode := s.mode.next .text } := by
  rw [← append_singleton_eq]
  unfold feed
  rw [ofUnit_of_ordinary h]
  cases hmode : s.mode <;> simp [Mode.next, append, hmode]

/-- Ordinary text is added as it is. An escape ends with its first character,
and quotes stay open. -/
theorem feedChars_ordinary {v : List Char} (hne : v ≠ []) (hv : ∀ c ∈ v, Ordinary c) :
    s.feedChars v = { s.appendChars v with mode := s.mode.next .text } := by
  induction v generalizing s with
  | nil => exact absurd rfl hne
  | cons c v ih =>
    have hrest : ∀ d ∈ v, Ordinary d := fun d hd => hv d (List.mem_cons_of_mem c hd)
    rw [feedChars_cons, feed_ordinary (hv c List.mem_cons_self)]
    cases v with
    | nil => rfl
    | cons d v =>
      have hmode : (s.mode.next .text).next .text = s.mode.next .text := by
        cases s.mode <;> rfl
      rw [ih (List.cons_ne_nil d v) hrest, appendChars_withMode, appendChars_appendChars, hmode]
      rfl

/-! ### Escaped text -/

/-- A backslash makes the character behind it text, inside quotes and outside. -/
theorem feedChars_escape (h : ¬ s.mode.Escaping) (c : Char) :
    s.feedChars ['\\', c] = s.appendChars [c] := by
  rw [feedChars_cons, feedChars_cons, feedChars_nil]
  cases hmode : s.mode with
  | plain =>
    have hbackslash : s.feed (String.singleton '\\') = { s with mode := .escaped } :=
      feed_plain hmode '\\'
    rw [hbackslash, feed_escaped rfl]
    simp [appendChars, hmode]
  | quoted =>
    have hbackslash : s.feed (String.singleton '\\') = { s with mode := .quotedEscaped } :=
      feed_quoted hmode '\\'
    rw [hbackslash, feed_quotedEscaped rfl]
    simp [appendChars, hmode]
  | escaped | quotedEscaped => simp [Mode.Escaping, hmode] at h

theorem feedChars_escapeEach_of_not_escaping {u : List Char} (h : ¬ s.mode.Escaping)
    (hne : u ≠ []) : s.feedChars (escapeEach u) = s.appendChars u := by
  induction u generalizing s with
  | nil => exact absurd rfl hne
  | cons c u ih =>
    have hread : s.feedChars (escapeEach (c :: u)) =
        (s.appendChars [c]).feedChars (escapeEach u) := by
      rw [← feedChars_escape h, ← feedChars_append]
      rfl
    rw [hread]
    cases u with
    | nil => rfl
    | cons d u =>
      have hstill : ¬ (s.appendChars [c]).mode.Escaping := h
      rw [ih hstill (List.cons_ne_nil d u), appendChars_appendChars]
      rfl

/-! ### Spellings outside quotes -/

theorem feedChars_escapeEach {u : List Char} (hmode : s.mode = .plain) (hne : u ≠ []) :
    s.feedChars (escapeEach u) = s.appendChars u := by
  have hescaping : ¬ s.mode.Escaping := by simp [Mode.Escaping, hmode]
  exact feedChars_escapeEach_of_not_escaping hescaping hne

theorem feedChars_write_quoted (hmode : s.mode = .plain) (u : List Char) :
    s.feedChars (Style.quoted.write u) = s.appendChars u := by
  have henclosed : Enclosed (escapeMarked ['"', '\\'] u) u :=
    enclosed_escapeMarked (by simp) (by simp) u
  exact feedChars_piece (.quoted henclosed) hmode

theorem feedChars_ordinary_plain {u : List Char} (hmode : s.mode = .plain) (hne : u ≠ [])
    (hu : ∀ c ∈ u, Ordinary c) : s.feedChars u = s.appendChars u := by
  rw [feedChars_ordinary hne hu, hmode]
  simp [appendChars, Mode.next, hmode]

end Scanner

/-! ### The place of a spelling in a line -/

/-- What does the same to the scan that reaches it does the same in the line. -/
theorem verdict_replace {a l m : List Char} (b : List Char)
    (h : ((Scanner.start "").feedChars a).feedChars l =
      ((Scanner.start "").feedChars a).feedChars m) :
    verdict (String.ofList (a ++ l ++ b)) = verdict (String.ofList (a ++ m ++ b)) := by
  have hverdict (k : List Char) : verdict (String.ofList (a ++ k ++ b)) =
      ((((Scanner.start "").feedChars a).feedChars k).feedChars b).verdict := by
    rw [← verdict_feedChars_start "", String.toList_ofList, Scanner.feedChars_append,
      Scanner.feedChars_append]
  rw [hverdict, hverdict, h]

/-- A text in a line can be spelled in any way that its place allows, whatever
stands before and behind it, and the line has the same tokens or is refused for
the same fault. The place must not be escaped. Outside quotes a text can be
escaped or quoted, and ordinary text needs neither; inside quotes only quotes
and backslashes need an escape. -/
theorem verdict_of_respelled (a u b : List Char) (hu : u ≠ [])
    (ha : ¬ Odd (trailingBackslashes a)) :
    (Even (unescapedQuotes a) →
      verdict (String.ofList (a ++ escapeEach u ++ b)) =
        verdict (String.ofList (a ++ Style.quoted.write u ++ b)) ∧
      ((∀ c ∈ u, Ordinary c) →
        verdict (String.ofList (a ++ u ++ b)) =
          verdict (String.ofList (a ++ escapeEach u ++ b)))) ∧
    (Odd (unescapedQuotes a) →
      verdict (String.ofList (a ++ escapeEach u ++ b)) =
        verdict (String.ofList (a ++ escapeMarked ['"', '\\'] u ++ b))) := by
  refine ⟨?_, ?_⟩
  · intro hquotes
    have hclosed : ¬ OpenQuote a := Nat.not_odd_iff_even.mpr hquotes
    have hparity := Scanner.parity_feedChars_start "" a
    have hmode := hparity.eq_plain_iff.mpr ⟨ha, hclosed⟩
    constructor
    · apply verdict_replace
      rw [Scanner.feedChars_escapeEach hmode hu, Scanner.feedChars_write_quoted hmode]
    · intro hordinary
      apply verdict_replace
      rw [Scanner.feedChars_escapeEach hmode hu,
        Scanner.feedChars_ordinary_plain hmode hu hordinary]
  · intro hquotes
    have hstands := Scanner.standsAfter_feedChars_start "" a
    have hmode := hstands.eq_quoted_iff.mpr ⟨ha, hquotes⟩
    have hpending := hstands.pending_of_openQuote ha hquotes
    have hmarked : Enclosed (escapeMarked ['"', '\\'] u) u :=
      enclosed_escapeMarked (by simp) (by simp) u
    apply verdict_replace
    rw [Scanner.feedChars_enclosed (enclosed_escapeEach u) hmode hpending,
      Scanner.feedChars_enclosed hmarked hmode hpending]

/-- A space and a quote behind an escaped backslash, a letter behind a token of
quotes, and a space and a quote inside quotes that stay open. -/
theorem verdict_of_respelled_quote :
    (¬ Odd (trailingBackslashes "p\\\\".toList) ∧ Even (unescapedQuotes "p\\\\".toList) ∧
      verdict (String.ofList ("p\\\\".toList ++ escapeEach [' ', '"'] ++ "\"\" r".toList)) =
        verdict (String.ofList
          ("p\\\\".toList ++ Style.quoted.write [' ', '"'] ++ "\"\" r".toList))) ∧
    ((∀ c ∈ ['u'], Ordinary c) ∧
      verdict (String.ofList ("\"\"".toList ++ ['u'] ++ "\\".toList)) =
        verdict (String.ofList ("\"\"".toList ++ escapeEach ['u'] ++ "\\".toList))) ∧
    (Odd (unescapedQuotes "\"x".toList) ∧
      verdict (String.ofList ("\"x".toList ++ escapeEach [' ', '"'] ++ " y".toList)) =
        verdict (String.ofList
          ("\"x".toList ++ escapeMarked ['"', '\\'] [' ', '"'] ++ " y".toList))) := by
  have hescape : ¬ Odd (trailingBackslashes "p\\\\".toList) := by decide
  have heven : Even (unescapedQuotes "p\\\\".toList) := by decide
  have hodd : Odd (unescapedQuotes "\"x".toList) := by decide
  have hordinary : ∀ c ∈ ['u'], Ordinary c := by simp [Ordinary]
  have hplain := verdict_of_respelled _ [' ', '"'] "\"\" r".toList (by decide) hescape
  have hletter := verdict_of_respelled "\"\"".toList ['u'] "\\".toList (by decide) (by decide)
  have hquoted := verdict_of_respelled "\"x".toList [' ', '"'] " y".toList (by decide) (by decide)
  exact ⟨⟨hescape, heven, (hplain.1 heven).1⟩,
    ⟨hordinary, (hletter.1 (by decide)).2 hordinary⟩, hodd, hquoted.2 hodd⟩

end LineTokens

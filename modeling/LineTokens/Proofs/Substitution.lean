import LineTokens.Proofs.Spelling

/-!
Ordinary characters replaced by ordinary text. The scanner tells only spaces,
quotes and backslashes from other characters, so a replacement that leaves these
three alone can be made before or after a line is split. One character read on
one side can be several on the other: of the text that stands for an escaped
character, only the first character is escaped.
-/

namespace LineTokens

open Grammar

instance : DecidablePred Ordinary := fun c =>
  inferInstanceAs (Decidable (c ≠ ' ' ∧ c ≠ '"' ∧ c ≠ '\\'))

/-- For every ordinary character, the ordinary text that takes its place. -/
structure Substitution where
  image : Char → List Char
  image_ne_nil : ∀ c, Ordinary c → image c ≠ []
  ordinary_of_mem_image : ∀ c, Ordinary c → ∀ d ∈ image c, Ordinary d

namespace Substitution

variable {φ : Substitution}

/-- What takes the place of any character. Syntax stays what it is. -/
def char (φ : Substitution) (c : Char) : List Char :=
  if Ordinary c then φ.image c else [c]

def apply (φ : Substitution) (s : String) : String :=
  String.ofList (s.toList.flatMap φ.char)

theorem char_of_ordinary {c : Char} (h : Ordinary c) : φ.char c = φ.image c := if_pos h

theorem char_of_not_ordinary {c : Char} (h : ¬ Ordinary c) : φ.char c = [c] := if_neg h

theorem apply_append (a b : String) : φ.apply (a ++ b) = φ.apply a ++ φ.apply b := by
  simp [apply]

theorem apply_singleton (c : Char) :
    φ.apply (String.ofList [c]) = String.ofList (φ.char c) := by
  simp [apply]

/-- Replaces one character only. -/
def single (a : Char) (text : List Char) (hne : text ≠ []) (htext : ∀ d ∈ text, Ordinary d) :
    Substitution where
  image c := if c = a then text else [c]
  image_ne_nil := by
    intro c _
    split_ifs
    · exact hne
    · exact List.cons_ne_nil c []
  ordinary_of_mem_image := by
    intro c hc d hd
    split_ifs at hd
    · exact htext d hd
    · rw [List.mem_singleton.mp hd]
      exact hc

end Substitution

namespace Scanner

variable {φ : Substitution} {s t : Scanner}

/-- The second scan holds the replaced text where the first one holds the text. -/
structure Substituted (φ : Substitution) (s t : Scanner) : Prop where
  mode : t.mode = s.mode
  tokens : t.tokens.toList = s.tokens.toList.map φ.apply
  pending : t.pending = s.pending
  pieces : String.join t.pieces.toList = φ.apply (String.join s.pieces.toList)

theorem substituted_start (line : String) : Substituted φ (start line) (start line) where
  mode := rfl
  tokens := rfl
  pending := rfl
  pieces := rfl

theorem Substituted.withMode (h : Substituted φ s t) (m : Mode) :
    Substituted φ { s with mode := m } { t with mode := m } :=
  ⟨rfl, h.tokens, h.pending, h.pieces⟩

theorem Substituted.appendChars (h : Substituted φ s t) (c : Char) :
    Substituted φ (s.appendChars [c]) (t.appendChars (φ.char c)) where
  mode := h.mode
  tokens := h.tokens
  pending := rfl
  pieces := by
    simp only [Scanner.appendChars, Array.toList_append, String.join_append, join_map_singleton,
      φ.apply_append, φ.apply_singleton, h.pieces]

theorem Substituted.flush (h : Substituted φ s t) : Substituted φ s.flush t.flush := by
  have hpending := h.pending
  cases hs : s.pending with
  | true =>
    rw [hs] at hpending
    refine ⟨?_, ?_, ?_, ?_⟩
    · simpa using h.mode
    · simp [Scanner.flush, hs, hpending, h.tokens, h.pieces]
    · simp
    · simp [Scanner.flush, hs, hpending, Substitution.apply]
  | false =>
    rw [hs] at hpending
    rw [flush_of_not_pending hs, flush_of_not_pending hpending]
    exact h

/-- Both scans read the same syntax, which can be text to them where it is
quoted or escaped. -/
theorem Substituted.feed_special (h : Substituted φ s t) {c : Char} (hc : ¬ Ordinary c) :
    Substituted φ (s.feed (String.singleton c)) (t.feed (String.singleton c)) := by
  have happend : Substituted φ (s.appendChars [c]) (t.appendChars [c]) := by
    have happend := h.appendChars c
    rwa [φ.char_of_not_ordinary hc] at happend
  cases hmode : s.mode with
  | plain =>
    rw [feed_plain hmode, feed_plain (h.mode.trans hmode)]
    split_ifs with hspace hquote hbackslash
    · exact h.flush
    · exact ⟨rfl, h.tokens, rfl, h.pieces⟩
    · exact h.withMode .escaped
    · exact absurd ⟨hspace, hquote, hbackslash⟩ hc
  | quoted =>
    rw [feed_quoted hmode, feed_quoted (h.mode.trans hmode)]
    split_ifs
    · exact h.withMode .plain
    · exact h.withMode .quotedEscaped
    · exact happend
  | escaped =>
    rw [feed_escaped hmode, feed_escaped (h.mode.trans hmode)]
    exact happend.withMode .plain
  | quotedEscaped =>
    rw [feed_quotedEscaped hmode, feed_quotedEscaped (h.mode.trans hmode)]
    exact happend.withMode .quoted

theorem Substituted.feed (h : Substituted φ s t) (c : Char) :
    Substituted φ (s.feed (String.singleton c)) (t.feedChars (φ.char c)) := by
  by_cases hc : Ordinary c
  · have himage : φ.char c = φ.image c := φ.char_of_ordinary hc
    have hread := feedChars_ordinary (s := t) (φ.image_ne_nil c hc) (φ.ordinary_of_mem_image c hc)
    rw [feed_ordinary hc, himage, hread, h.mode, ← himage]
    exact (h.appendChars c).withMode _
  · rw [φ.char_of_not_ordinary hc]
    exact h.feed_special hc

theorem Substituted.feedChars (h : Substituted φ s t) (l : List Char) :
    Substituted φ (s.feedChars l) (t.feedChars (l.flatMap φ.char)) := by
  -- One character of the text at a time, and all that takes its place.
  induction l generalizing s t with
  | nil => exact h
  | cons c l ih =>
    rw [feedChars_cons, List.flatMap_cons, feedChars_append]
    exact ih (h.feed c)

theorem Substituted.verdict (h : Substituted φ s t) :
    t.verdict = s.verdict.map (List.map φ.apply) := by
  cases hs : s.verdict with
  | ok ts =>
    obtain ⟨hmode, htokens⟩ := Scanner.verdict_eq_ok_iff.mp hs
    apply Scanner.verdict_eq_ok_iff.mpr
    exact ⟨h.mode.trans hmode, by rw [h.flush.tokens, htokens]⟩
  | error fault =>
    have hfault := Scanner.verdict_eq_error_iff.mp hs
    apply Scanner.verdict_eq_error_iff.mpr
    rw [h.mode, hfault]

end Scanner

/-- Replacing ordinary characters and splitting can change places: a line with
its ordinary characters replaced has the replaced tokens of the line, in order,
and is refused when the line is, for the same fault. -/
theorem verdict_substituted (φ : Substitution) (line : String) :
    verdict (φ.apply line) = (verdict line).map (List.map φ.apply) := by
  have hstart : Scanner.Substituted φ (Scanner.start line) (Scanner.start line) :=
    Scanner.substituted_start line
  have hverdict := (hstart.feedChars line.toList).verdict
  have happly : (φ.apply line).toList = line.toList.flatMap φ.char := String.toList_ofList
  rw [← happly, verdict_feedChars_start, verdict_feedChars_start] at hverdict
  exact hverdict

/-- A character that becomes two, escaped and between quotes. -/
theorem verdict_substituted_escaped :
    let φ : Substitution := .single 'a' ['b', '\t'] (by decide) (by simp [Ordinary])
    φ.apply "\\a \" a\\\"\"" = "\\b\t \" b\t\\\"\"" ∧
      verdict "\\a \" a\\\"\"" = .ok ["a", " a\""] ∧
      verdict (φ.apply "\\a \" a\\\"\"") = .ok [φ.apply "a", φ.apply " a\""] := by
  intro φ
  have hline : verdict "\\a \" a\\\"\"" = .ok ["a", " a\""] := by rfl
  have hreplaced := verdict_substituted φ "\\a \" a\\\"\""
  rw [hline] at hreplaced
  exact ⟨by decide, hline, hreplaced⟩

end LineTokens

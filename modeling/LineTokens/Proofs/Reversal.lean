import LineTokens.Proofs.Parity
import LineTokens.Proofs.Recognition
import LineTokens.Proofs.Verdict

/-!
Lines read backwards. A scanner goes from left to right, and quotes open and
close, yet without backslashes nothing in the grammar tells the two directions
apart. So a line reversed has the tokens of the line, the last one first and
each one reversed, and it is refused exactly if the line is.
-/

namespace LineTokens

def reversed (s : String) : String := String.ofList s.toList.reverse

@[simp] theorem toList_reversed (s : String) : (reversed s).toList = s.toList.reverse :=
  String.toList_ofList

@[simp] theorem reversed_reversed (s : String) : reversed (reversed s) = s := by
  simp [reversed]

theorem reversed_ofList (l : List Char) : reversed (String.ofList l) = String.ofList l.reverse := by
  simp [reversed]

/-- The tokens of a line as they are met from its end. -/
def reversedTokens (ts : List String) : List String := (ts.map reversed).reverse

/-! ### Derivations -/

namespace Grammar

variable {l v : List Char} {ts : List String}

theorem Enclosed.reverse (h : Enclosed l v) (hl : '\\' ∉ l) : Enclosed l.reverse v.reverse := by
  induction h with
  | nil => exact .nil
  | char hquote hbackslash _ ih =>
    rw [List.reverse_cons, List.reverse_cons]
    exact (ih (List.not_mem_of_not_mem_cons hl)).append (.char hquote hbackslash .nil)
  | escape c _ _ => exact absurd List.mem_cons_self hl

/-- A pair of quotes is one from both ends. -/
theorem Piece.reverse (h : Piece l v) (hl : '\\' ∉ l) : Piece l.reverse v.reverse := by
  cases h with
  | ordinary hordinary => exact .ordinary hordinary
  | escape c => exact absurd List.mem_cons_self hl
  | @quoted l v henclosed =>
    have hinner : '\\' ∉ l := by
      intro hmem
      exact hl (List.mem_cons_of_mem _ (List.mem_append_left _ hmem))
    rw [List.reverse_cons, List.reverse_append]
    exact .quoted (henclosed.reverse hinner)

theorem Pieces.reverse (h : Pieces l v) (hl : '\\' ∉ l) : Pieces l.reverse v.reverse := by
  induction h with
  | nil => exact .nil
  | cons hfirst _ ih =>
    rw [List.mem_append, not_or] at hl
    rw [List.reverse_append, List.reverse_append]
    exact (ih hl.2).concat (hfirst.reverse hl.1)

theorem Token.reverse (h : Token l v) (hl : '\\' ∉ l) : Token l.reverse v.reverse := by
  obtain ⟨hfirst, hrest⟩ := h
  rw [List.mem_append, not_or] at hl
  rw [List.reverse_append, List.reverse_append]
  exact (hrest.reverse hl.2).token (hfirst.reverse hl.1)

theorem Tokens.reverse (h : Tokens l ts) (hl : '\\' ∉ l) :
    Tokens l.reverse (reversedTokens ts) := by
  induction h with
  | @one l v htoken =>
    have hone : reversedTokens [String.ofList v] = [String.ofList v.reverse] := by
      simp [reversedTokens, reversed_ofList]
    rw [hone]
    exact .one (htoken.reverse hl)
  | @cons l v l' ts n htoken _ ih =>
    simp only [List.mem_append, not_or] at hl
    obtain ⟨⟨hfirst, -⟩, hrest⟩ := hl
    have hcons : reversedTokens (String.ofList v :: ts) =
        reversedTokens ts ++ [String.ofList v.reverse] := by
      simp [reversedTokens, reversed_ofList]
    rw [hcons, List.reverse_append, List.reverse_append, List.reverse_replicate,
      ← List.append_assoc]
    exact (ih hrest).concat n (htoken.reverse hfirst)

/-- The spaces before the tokens and those after them change places. -/
theorem Line.reverse (h : Line l ts) (hl : '\\' ∉ l) : Line l.reverse (reversedTokens ts) := by
  cases h with
  | blank n =>
    rw [List.reverse_replicate]
    exact .blank n
  | tokens m n htokens =>
    simp only [List.mem_append, not_or] at hl
    obtain ⟨⟨-, hinner⟩, -⟩ := hl
    rw [List.reverse_append, List.reverse_append, List.reverse_replicate, List.reverse_replicate,
      ← List.append_assoc]
    exact .tokens n m (htokens.reverse hinner)

end Grammar

/-! ### Lines -/

section

variable {line : String} (hline : '\\' ∉ line.toList)
include hline

theorem tokenize_reversed_of_ok {ts : List String} (h : tokenize line = .ok ts) :
    tokenize (reversed line) = .ok (reversedTokens ts) := by
  apply tokenize_of_line
  rw [toList_reversed]
  exact (line_of_tokenize h).reverse hline

/-- Only an open quote can be wrong with a line that has no backslash. -/
theorem verdict_eq_ok_or_unmatchedQuote :
    (∃ ts, verdict line = .ok ts) ∨ verdict line = .error .unmatchedQuote := by
  have hdangling : ¬ Dangling line.toList := not_dangling_of_not_mem hline
  simp only [verdict_eq_ok_iff, verdict_eq_error_iff]
  rw [exists_tokenize_eq_ok_iff, tokenize_eq_unmatchedQuote_iff, and_iff_right hdangling,
    and_iff_right hdangling]
  exact (em _).symm

end

/-- A line without backslashes and the same line reversed are refused together,
and then for an open quote. Otherwise the tokens of one are those of the other,
the last one first and each one reversed. -/
theorem verdict_reversed (line : String) (hline : '\\' ∉ line.toList) :
    verdict (reversed line) = (verdict line).map reversedTokens ∧
      ∀ fault, verdict line = .error fault → fault = .unmatchedQuote := by
  have hback : '\\' ∉ (reversed line).toList := by
    rwa [toList_reversed, List.mem_reverse]
  rcases verdict_eq_ok_or_unmatchedQuote hline with ⟨ts, hok⟩ | herror
  · rw [hok]
    refine ⟨?_, ?_⟩
    · have htokens : tokenize line = .ok ts := verdict_eq_ok_iff.mp hok
      exact verdict_eq_ok_iff.mpr (tokenize_reversed_of_ok hline htokens)
    · intro fault h
      cases h
  · rw [herror]
    refine ⟨?_, ?_⟩
    · rcases verdict_eq_ok_or_unmatchedQuote hback with ⟨us, hok⟩ | hopen
      · -- Tokens of the reversed line would give tokens to the line itself.
        have hforth := tokenize_reversed_of_ok hback (verdict_eq_ok_iff.mp hok)
        rw [reversed_reversed, ← verdict_eq_ok_iff, herror] at hforth
        cases hforth
      · exact hopen
    · intro fault h
      exact (Except.error.inj h).symm

/-- Quotes inside a token, an empty token, and a tab. -/
theorem verdict_reversed_at_quotes :
    '\\' ∉ "a\"b c\" \"\"  d\te".toList ∧ reversed "a\"b c\" \"\"  d\te" = "e\td  \"\" \"c b\"a" ∧
      verdict "a\"b c\" \"\"  d\te" = .ok ["ab c", "", "d\te"] ∧
      verdict (reversed "a\"b c\" \"\"  d\te") = .ok ["e\td", "", "c ba"] := by
  have hline : '\\' ∉ "a\"b c\" \"\"  d\te".toList := by decide
  have hverdict : verdict "a\"b c\" \"\"  d\te" = .ok ["ab c", "", "d\te"] := by rfl
  have hback := (verdict_reversed "a\"b c\" \"\"  d\te" hline).1
  rw [hverdict] at hback
  exact ⟨hline, by decide, hverdict, hback⟩

end LineTokens

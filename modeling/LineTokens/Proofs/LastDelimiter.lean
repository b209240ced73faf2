import LineTokens.Proofs.Splitting

/-!
A scan in the middle of a text. The text is cut behind its last delimiter: the
scanner has completed the tokens of what is settled in front of the cut, and the
token under way is what stands behind it, without its quotes and backslashes.
-/

namespace LineTokens

/-- The text up to its last delimiter, or none of it if it has none. -/
def settled (l : List Char) : List Char :=
  ((positions l).rdropWhile fun p => ¬ p.Delimits).map Position.char

/-- The text behind its last delimiter, or all of it if it has none. -/
def unsettled (l : List Char) : List Char :=
  ((positions l).rtakeWhile fun p => ¬ p.Delimits).map Position.char

theorem settled_append_unsettled (l : List Char) : settled l ++ unsettled l = l := by
  unfold settled unsettled
  rw [← List.map_append, List.rdropWhile_append_rtakeWhile, map_char_positions]

/-- Spaces inside quotes and behind a backslash do not settle anything. -/
example : settled "a \"b c\"\\ d".toList = "a ".toList ∧
    unsettled "a \"b c\"\\ d".toList = "\"b c\"\\ d".toList := by
  decide

/-! ### One more character -/

section

variable {l : List Char} {c : Char}

theorem settled_concat_of_delimits (h : Position.Delimits ⟨l, c⟩) :
    settled (l ++ [c]) = l ++ [c] := by
  have hlast : ¬ decide (¬ Position.Delimits ⟨l, c⟩) = true := by simpa using h
  unfold settled
  rw [positions_concat, List.rdropWhile_concat, if_neg hlast, ← positions_concat,
    map_char_positions]

theorem unsettled_concat_of_delimits (h : Position.Delimits ⟨l, c⟩) :
    unsettled (l ++ [c]) = [] := by
  have hlast : ¬ decide (¬ Position.Delimits ⟨l, c⟩) = true := by simpa using h
  unfold unsettled
  rw [positions_concat, List.rtakeWhile_concat, if_neg hlast, List.map_nil]

theorem settled_concat_of_not_delimits (h : ¬ Position.Delimits ⟨l, c⟩) :
    settled (l ++ [c]) = settled l := by
  unfold settled
  rw [positions_concat, List.rdropWhile_concat, if_pos (decide_eq_true h)]

theorem unsettled_concat_of_not_delimits (h : ¬ Position.Delimits ⟨l, c⟩) :
    unsettled (l ++ [c]) = unsettled l ++ [c] := by
  unfold unsettled
  rw [positions_concat, List.rtakeWhile_concat, if_pos (decide_eq_true h), List.map_append,
    List.map_singleton]

end

/-! ### The cut -/

variable (l : List Char)

theorem settled_eq_nil_or_ends_in_delimiter :
    settled l = [] ∨ ∃ k, settled l = k ++ [' '] ∧ Position.Delimits ⟨k, ' '⟩ := by
  induction l using delimiter_induction with
  | nil => exact Or.inl rfl
  | delimiter l hdelimits _ =>
    exact Or.inr ⟨l, settled_concat_of_delimits hdelimits, hdelimits⟩
  | other l c hdelimits ih =>
    rw [settled_concat_of_not_delimits hdelimits]
    exact ih

/-- The open segment is what stands behind the last delimiter. -/
theorem openSegment_eq_rtakeWhile :
    openSegment l = (positions l).rtakeWhile fun p => ¬ p.Delimits := by
  induction l using delimiter_induction with
  | nil => rfl
  | delimiter l hdelimits _ =>
    rw [positions_concat, List.rtakeWhile_concat, if_neg (by simpa using hdelimits),
      openSegment_concat_of_delimits hdelimits]
  | other l c hdelimits ih =>
    rw [positions_concat, List.rtakeWhile_concat, if_pos (by simpa using hdelimits), ← ih,
      openSegment_concat_of_not_delimits hdelimits]

theorem map_char_openSegment : (openSegment l).map Position.char = unsettled l := by
  rw [openSegment_eq_rtakeWhile, unsettled]

theorem drop_settled_positions : (positions l).drop (settled l).length = openSegment l := by
  have hcut : ((positions l).rdropWhile fun p => ¬ p.Delimits) ++
      ((positions l).rtakeWhile fun p => ¬ p.Delimits) = positions l :=
    List.rdropWhile_append_rtakeWhile
  rw [openSegment_eq_rtakeWhile, settled, List.length_map]
  nth_rewrite 2 [← hcut]
  exact List.drop_left

theorem not_delimits_of_mem_openSegment {p : Position} (h : p ∈ openSegment l) :
    ¬ p.Delimits := by
  rw [openSegment_eq_rtakeWhile] at h
  have hp := List.mem_rtakeWhile_imp h
  exact of_decide_eq_true hp

/-! ### In front of the cut -/

theorem segments_settled : segments (settled l) = closedSegments l ++ [[]] := by
  induction l using delimiter_induction with
  | nil => rfl
  | delimiter l hdelimits _ =>
    rw [settled_concat_of_delimits hdelimits, segments_concat_of_delimits hdelimits,
      closedSegments_concat_of_delimits hdelimits]
  | other l c hdelimits ih =>
    rw [settled_concat_of_not_delimits hdelimits, ih,
      closedSegments_concat_of_not_delimits hdelimits]

/-- A delimiter is neither escaped nor quoted, so nothing waits in front of the cut. -/
theorem not_dangling_settled : ¬ Dangling (settled l) ∧ ¬ OpenQuote (settled l) := by
  apply not_dangling_of_openSegment_eq_nil
  rw [openSegment, segments_settled, List.getLastD_concat]

theorem tokenize_settled :
    tokenize (String.ofList (settled l)) = .ok (contents (closedSegments l)) := by
  obtain ⟨hdangling, hopen⟩ := not_dangling_settled l
  rw [tokenize_eq_contents_iff, String.toList_ofList]
  refine ⟨hdangling, hopen, ?_⟩
  have hempty : contents [[]] = [] := rfl
  rw [segments_settled, contents_append, hempty, List.append_nil]

/-! ### Behind the cut -/

theorem dangling_unsettled_iff : Dangling (unsettled l) ↔ Dangling l := by
  have happend := dangling_append (l := unsettled l) (not_dangling_settled l).1
  rw [settled_append_unsettled] at happend
  exact happend.symm

/-- No backslash in front of the cut escapes a character behind it, so what is
dropped can be told from the text behind it alone. -/
theorem content_positions_unsettled :
    content (positions (unsettled l)) = content (openSegment l) := by
  induction l using delimiter_induction with
  | nil => rfl
  | delimiter l hdelimits _ =>
    rw [unsettled_concat_of_delimits hdelimits, openSegment_concat_of_delimits hdelimits]
    rfl
  | other l c hdelimits ih =>
    rw [unsettled_concat_of_not_delimits hdelimits, positions_concat, content_concat, ih,
      openSegment_concat_of_not_delimits hdelimits, content_concat]
    simp only [dangling_unsettled_iff]

theorem started_openSegment_iff_unsettled :
    Started (openSegment l) ↔ unsettled l ≠ [] ∧ unsettled l ≠ ['\\'] := by
  have hempty : openSegment l = [] ↔ unsettled l = [] := by
    rw [← map_char_openSegment, List.map_eq_nil_iff]
  rw [Started, map_char_openSegment, Ne, hempty]

/-- What a fresh scan holds after any text, by the last delimiter of the text.
The complete tokens are those of the text up to it, which is never refused. A
token is under way unless nothing, or a backslash and nothing else, stands behind
it, and the pieces join to what stands behind it without its unescaped quotes and
backslashes. It makes no difference whether these are told from the whole text or
from the text behind the cut. -/
theorem scan_told_by_last_delimiter (line : String) (s : List Char) :
    let p := settled s
    let q := unsettled s
    let scan := (Scanner.start line).feedChars s
    (p ++ q = s ∧ (p = [] ∨ ∃ k, p = k ++ [' '] ∧ Position.Delimits ⟨k, ' '⟩) ∧
      ∀ place ∈ (positions s).drop p.length, ¬ place.Delimits) ∧
    tokenize (String.ofList p) = .ok scan.tokens.toList ∧
    (scan.pending = true ↔ q ≠ [] ∧ q ≠ ['\\']) ∧
    String.join scan.pieces.toList = String.ofList (content (positions q)) ∧
    content (positions q) = content ((positions s).drop p.length) := by
  intro p q scan
  have hstands : scan.StandsAfter s := Scanner.standsAfter_feedChars_start line s
  have hbehind : (positions s).drop p.length = openSegment s := drop_settled_positions s
  have hcontent : content (positions q) = content (openSegment s) := content_positions_unsettled s
  rw [hbehind, hcontent]
  refine ⟨⟨settled_append_unsettled s, settled_eq_nil_or_ends_in_delimiter s, ?_⟩, ?_, ?_, ?_, rfl⟩
  · intro place hmem
    exact not_delimits_of_mem_openSegment s hmem
  · rw [hstands.tokens]
    exact tokenize_settled s
  · rw [hstands.pending]
    exact started_openSegment_iff_unsettled s
  · exact hstands.join_pieces

end LineTokens

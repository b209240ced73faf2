import LineTokens.Proofs.Parity
import LineTokens.Proofs.Segments

/-!
One pass over a line gives what cutting it at its delimiters and stripping the
segments gives. The scanner has finished the closed segments and holds what
the open one stands for so far; that is kept by every character read.
-/

namespace LineTokens

namespace Scanner

variable {s t : Scanner} {l : List Char} {c : Char}

/-- The scanner is where a fresh one would be after the text. -/
structure StandsAfter (s : Scanner) (l : List Char) : Prop extends s.Parity l where
  tokens : s.tokens.toList = contents (closedSegments l)
  pieces : s.pieces.toList = (content (openSegment l)).map String.singleton
  pending : s.pending = true ↔ Started (openSegment l)

theorem standsAfter_start (line : String) : (start line).StandsAfter [] where
  toParity := parity_start line
  tokens := rfl
  pieces := rfl
  pending := by
    have hempty : openSegment [] = [] := rfl
    simp [start, hempty, Started]

theorem StandsAfter.join_pieces (h : s.StandsAfter l) :
    String.join s.pieces.toList = String.ofList (content (openSegment l)) := by
  rw [h.pieces, join_map_singleton]

/-- A token is under way inside quotes. -/
theorem StandsAfter.pending_of_openQuote (h : s.StandsAfter l) (hdangling : ¬ Dangling l)
    (hopen : OpenQuote l) : s.pending = true := by
  have hne : openSegment l ≠ [] := openSegment_ne_nil (.inr hopen)
  exact h.pending.mpr ((started_openSegment_iff hdangling).mpr hne)

/-- Outside quotes and escapes, flushing closes the open segment. -/
theorem StandsAfter.flush (h : s.StandsAfter l) (hmode : s.mode = .plain) :
    s.flush.tokens.toList = contents (segments l) ∧ s.flush.pieces = #[] := by
  have hdangling : ¬ Dangling l := (h.eq_plain_iff.mp hmode).1
  have hpending : s.pending = true ↔ openSegment l ≠ [] :=
    h.pending.trans (started_openSegment_iff hdangling)
  rw [segments_eq_append, contents_append]
  by_cases hnil : openSegment l = []
  · have hidle : s.pending = false := by simpa [hnil] using hpending
    have hpieces := h.pieces
    rw [flush_of_not_pending hidle, h.tokens, ← Array.toList_inj, hpieces]
    simp [hnil, contents, content]
  · have hpending : s.pending = true := hpending.mpr hnil
    simp [Scanner.flush, hpending, h.tokens, h.join_pieces, contents, hnil]

theorem StandsAfter.feed_delimiter (h : s.StandsAfter l) (hmode : s.mode = .plain)
    (hdelimits : Position.Delimits ⟨l, c⟩) (hparity : s.flush.Parity (l ++ [c])) :
    s.flush.StandsAfter (l ++ [c]) := by
  obtain ⟨htokens, hpieces⟩ := h.flush hmode
  have hopen := openSegment_concat_of_delimits hdelimits
  refine ⟨hparity, ?_, ?_, ?_⟩
  · rw [closedSegments_concat_of_delimits hdelimits, htokens]
  · rw [hopen, hpieces]
    rfl
  · rw [hopen, pending_flush]
    simp [Started]

/-- Any other character joins the open segment. It must become a piece unless
it is syntax, and it begins a token unless it is a first backslash. -/
theorem StandsAfter.concat (h : s.StandsAfter l) (hdelimits : ¬ Position.Delimits ⟨l, c⟩)
    (hparity : t.Parity (l ++ [c])) (htokens : t.tokens = s.tokens)
    (hpieces : t.pieces.toList = s.pieces.toList ++
      if (c = '"' ∨ c = '\\') ∧ ¬ Dangling l then [] else [String.singleton c])
    (hpending : t.pending = true ↔ openSegment l ≠ [] ∨ c ≠ '\\') :
    t.StandsAfter (l ++ [c]) := by
  have hopen := openSegment_concat_of_not_delimits hdelimits
  refine ⟨hparity, ?_, ?_, ?_⟩
  · rw [closedSegments_concat_of_not_delimits hdelimits, htokens, h.tokens]
  · rw [hopen, hpieces, h.pieces, content_concat, List.map_append]
    split_ifs <;> rfl
  · rw [hopen, started_concat_iff, hpending]

theorem StandsAfter.feed_plain (h : s.StandsAfter l) (hmode : s.mode = .plain) (c : Char) :
    (s.feed (String.singleton c)).StandsAfter (l ++ [c]) := by
  obtain ⟨hdangling, hopen⟩ := h.eq_plain_iff.mp hmode
  have hpending : s.pending = true ↔ openSegment l ≠ [] :=
    h.pending.trans (started_openSegment_iff hdangling)
  have hdelimits : Position.Delimits ⟨l, c⟩ ↔ c = ' ' := by
    simp [Position.delimits_mk, hdangling, hopen]
  have hparity := h.toParity.feed c
  rw [Scanner.feed_plain hmode] at hparity ⊢
  split_ifs at hparity ⊢ with hspace hquote hbackslash
  · exact h.feed_delimiter hmode (hdelimits.mpr hspace) hparity
  · -- An opening quote is no piece, yet a token is under way from here on.
    refine h.concat (mt hdelimits.mp hspace) hparity rfl ?_ ?_
    · simp [hquote, hdangling]
    · simp [hquote]
  · -- A backslash leaves it open whether a token is under way.
    refine h.concat (mt hdelimits.mp hspace) hparity rfl ?_ ?_
    · simp [hbackslash, hdangling]
    · simpa [hbackslash] using hpending
  · refine h.concat (mt hdelimits.mp hspace) hparity rfl ?_ ?_
    · simp [appendChars, hquote, hbackslash]
    · simp [hbackslash]

theorem StandsAfter.feed_quoted (h : s.StandsAfter l) (hmode : s.mode = .quoted) (c : Char) :
    (s.feed (String.singleton c)).StandsAfter (l ++ [c]) := by
  obtain ⟨hdangling, hopen⟩ := h.eq_quoted_iff.mp hmode
  have hne : openSegment l ≠ [] := openSegment_ne_nil (.inr hopen)
  have hpending : s.pending = true := h.pending_of_openQuote hdangling hopen
  have hdelimits : ¬ Position.Delimits ⟨l, c⟩ := by simp [Position.delimits_mk, hopen]
  have hparity := h.toParity.feed c
  rw [Scanner.feed_quoted hmode] at hparity ⊢
  split_ifs at hparity ⊢ with hquote hbackslash
  · refine h.concat hdelimits hparity rfl ?_ ?_
    · simp [hquote, hdangling]
    · simp [hpending, hne]
  · refine h.concat hdelimits hparity rfl ?_ ?_
    · simp [hbackslash, hdangling]
    · simp [hpending, hne]
  · refine h.concat hdelimits hparity rfl ?_ ?_
    · simp [appendChars, hquote, hbackslash]
    · simp [hne]

theorem StandsAfter.append_escaped (h : s.StandsAfter l) (hdangling : Dangling l) (c : Char)
    (m : Mode) (hparity : ({ s.appendChars [c] with mode := m } : Scanner).Parity (l ++ [c])) :
    ({ s.appendChars [c] with mode := m } : Scanner).StandsAfter (l ++ [c]) := by
  have hdelimits : ¬ Position.Delimits ⟨l, c⟩ := by simp [Position.delimits_mk, hdangling]
  refine h.concat hdelimits hparity rfl ?_ ?_
  · simp [appendChars, hdangling]
  · simp [openSegment_ne_nil (.inl hdangling)]

theorem StandsAfter.feed (h : s.StandsAfter l) (c : Char) :
    (s.feed (String.singleton c)).StandsAfter (l ++ [c]) := by
  have hparity := h.toParity.feed c
  cases hmode : s.mode with
  | plain => exact h.feed_plain hmode c
  | quoted => exact h.feed_quoted hmode c
  | escaped =>
    rw [feed_escaped hmode] at hparity ⊢
    exact h.append_escaped (h.escaping.mp (.inl hmode)) c .plain hparity
  | quotedEscaped =>
    rw [feed_quotedEscaped hmode] at hparity ⊢
    exact h.append_escaped (h.escaping.mp (.inr hmode)) c .quoted hparity

theorem standsAfter_feedChars_start (line : String) (l : List Char) :
    ((start line).feedChars l).StandsAfter l := by
  induction l using List.reverseRecOn with
  | nil => exact standsAfter_start line
  | append_singleton l c ih =>
    rw [feedChars_concat]
    exact ih.feed c

end Scanner

theorem tokenize_eq_contents_iff {line : String} {ts : List String} :
    tokenize line = .ok ts ↔
      ¬ Dangling line.toList ∧ ¬ OpenQuote line.toList ∧
        contents (segments line.toList) = ts := by
  have hstands := Scanner.standsAfter_feedChars_start line line.toList
  rw [tokenize_eq_ok_iff, hstands.eq_plain_iff, and_assoc]
  refine and_congr_right fun hdangling => and_congr_right fun hopen => ?_
  rw [(hstands.flush (hstands.eq_plain_iff.mpr ⟨hdangling, hopen⟩)).1]

theorem contents_of_plain {l : List Char} (hquote : '"' ∉ l) (hbackslash : '\\' ∉ l) :
    contents (segments l) = ((l.splitOn ' ').filter (· ≠ [])).map String.ofList := by
  obtain ⟨-, -, hsplit, hcontent⟩ := segments_of_plain hquote hbackslash
  rw [← hsplit, List.filter_map, List.map_map]
  have hfilter : (segments l).filter ((fun segment => decide (segment ≠ [])) ∘
      List.map Position.char) = (segments l).filter (· ≠ []) := by
    congr 1
    funext segment
    simp
  rw [hfilter]
  unfold contents
  apply List.map_congr_left
  intro segment hmem
  rw [hcontent segment (List.mem_filter.mp hmem).1]
  rfl

/-- The tokens of a line are its segments, in order and without the empty
ones, each stripped of its unescaped quotes and backslashes. An empty token
comes from a segment of quotes and from nothing else. A line without quotes and
backslashes is never refused, and its tokens are what spaces separate. -/
theorem tokenize_eq_stripped_segments (line : String) :
    (∀ ts, tokenize line = .ok ts →
      ts = (((segments line.toList).filter (· ≠ [])).map fun segment =>
        String.ofList (content segment)) ∧
      ∀ segment ∈ segments line.toList, segment ≠ [] →
        (content segment = [] ↔ ∀ p ∈ segment, p.char = '"')) ∧
    ('"' ∉ line.toList ∧ '\\' ∉ line.toList →
      tokenize line =
        .ok (((line.toList.splitOn ' ').filter (· ≠ [])).map String.ofList)) := by
  constructor
  · intro ts hok
    obtain ⟨hdangling, -, hcontents⟩ := tokenize_eq_contents_iff.mp hok
    refine ⟨hcontents.symm, ?_⟩
    intro segment hmem _
    exact content_eq_nil_iff hdangling hmem
  · rintro ⟨hquote, hbackslash⟩
    obtain ⟨hdangling, hopen, -, -⟩ := segments_of_plain hquote hbackslash
    rw [tokenize_eq_contents_iff]
    exact ⟨hdangling, hopen, contents_of_plain hquote hbackslash⟩

/-- Quotes alone, quotes at the end of a token, an escaped space, and a tab. -/
theorem stripped_segments_of_quotes_and_tab :
    (tokenize "a\"\"  \"\" \\ x" = .ok ["a", "", " x"] ∧
      ["a", "", " x"] =
        ((segments "a\"\"  \"\" \\ x".toList).filter (· ≠ [])).map fun segment =>
          String.ofList (content segment)) ∧
    ('"' ∉ "a\tb  c".toList ∧ '\\' ∉ "a\tb  c".toList) ∧
    tokenize "a\tb  c" =
      .ok ((("a\tb  c".toList.splitOn ' ').filter (· ≠ [])).map String.ofList) := by
  have hok : tokenize "a\"\"  \"\" \\ x" = .ok ["a", "", " x"] := by rfl
  have hplain : '"' ∉ "a\tb  c".toList ∧ '\\' ∉ "a\tb  c".toList := by decide
  have hstripped := ((tokenize_eq_stripped_segments "a\"\"  \"\" \\ x").1 _ hok).1
  exact ⟨⟨hok, hstripped⟩, hplain, (tokenize_eq_stripped_segments "a\tb  c").2 hplain⟩

end LineTokens

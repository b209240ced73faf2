import Mathlib.Data.List.Induction
import LineTokens.Proofs.Position

/-!
A text cut at its delimiters. The delimiters are found first, over the whole
text, and only then is each segment between them stripped of its quotes and
backslashes. The last segment is still open: what is read next belongs to it.
-/

namespace LineTokens

namespace Position

def Delimits (p : Position) : Prop := p.Unescaped ' ' ∧ ¬ OpenQuote p.before

/-- An unescaped quote or backslash, which is syntax and stands for nothing. -/
def Dropped (p : Position) : Prop := p.Unescaped '"' ∨ p.Unescaped '\\'

instance (p : Position) : Decidable p.Delimits :=
  inferInstanceAs (Decidable (_ ∧ _))

instance (p : Position) : Decidable p.Dropped :=
  inferInstanceAs (Decidable (_ ∨ _))

theorem delimits_mk {l : List Char} {c : Char} :
    Delimits ⟨l, c⟩ ↔ c = ' ' ∧ ¬ Dangling l ∧ ¬ OpenQuote l := and_assoc

theorem dropped_mk {l : List Char} {c : Char} :
    Dropped ⟨l, c⟩ ↔ (c = '"' ∨ c = '\\') ∧ ¬ Dangling l := or_and_right.symm

end Position

/-- The places of a text between its delimiters. -/
def segments (l : List Char) : List (List Position) :=
  (positions l).splitOnP fun p => p.Delimits

/-- What a segment stands for. -/
def content (segment : List Position) : List Char :=
  (segment.filter fun p => ¬ p.Dropped).map Position.char

/-- The contents of the segments that have at least one character. -/
def contents (parts : List (List Position)) : List String :=
  (parts.filter (· ≠ [])).map fun segment => String.ofList (content segment)

def closedSegments (l : List Char) : List (List Position) := (segments l).dropLast

def openSegment (l : List Char) : List Position := (segments l).getLastD []

/-! ### One more character -/

private theorem splitOnP_concat_pos {α : Type} {p : α → Bool} {x : α} (h : p x = true)
    (xs : List α) : (xs ++ [x]).splitOnP p = xs.splitOnP p ++ [[]] := by
  rw [List.splitOnP_append_cons xs [] h, List.splitOnP_nil]

private theorem splitOnP_concat_neg {α : Type} {p : α → Bool} {x : α} (h : p x = false)
    (xs : List α) :
    (xs ++ [x]).splitOnP p =
      (xs.splitOnP p).dropLast ++ [(xs.splitOnP p).getLastD [] ++ [x]] := by
  induction xs with
  | nil => simp [List.splitOnP_cons_eq_if_modifyHead, h]
  | cons a xs ih =>
    obtain ⟨first, rest, hsplit⟩ :=
      List.exists_cons_of_ne_nil (List.splitOnP_ne_nil p xs)
    rw [List.cons_append, List.splitOnP_cons_eq_if_modifyHead,
      List.splitOnP_cons_eq_if_modifyHead, ih, hsplit]
    cases hrest : rest with
    | nil => by_cases ha : p a <;> simp [ha]
    | cons second rest => by_cases ha : p a <;> simp [ha]

theorem segments_eq_append (l : List Char) :
    segments l = closedSegments l ++ [openSegment l] := by
  have hne : segments l ≠ [] := List.splitOnP_ne_nil _ _
  unfold closedSegments openSegment
  rw [List.getLastD_eq_getLast?, List.getLast?_eq_getLast_of_ne_nil hne, Option.getD_some,
    List.dropLast_append_getLast]

theorem forall_mem_segments_iff {l : List Char} {P : List Position → Prop} :
    (∀ segment ∈ segments l, P segment) ↔
      (∀ segment ∈ closedSegments l, P segment) ∧ P (openSegment l) := by
  rw [segments_eq_append, List.forall_mem_append, List.forall_mem_singleton]

theorem segments_concat_of_delimits {l : List Char} {c : Char}
    (h : Position.Delimits ⟨l, c⟩) : segments (l ++ [c]) = segments l ++ [[]] := by
  unfold segments
  rw [positions_concat, splitOnP_concat_pos]
  simpa using h

theorem segments_concat_of_not_delimits {l : List Char} {c : Char}
    (h : ¬ Position.Delimits ⟨l, c⟩) :
    segments (l ++ [c]) = closedSegments l ++ [openSegment l ++ [⟨l, c⟩]] := by
  unfold closedSegments openSegment segments
  rw [positions_concat, splitOnP_concat_neg]
  simpa using h

/-- A text read character by character: each is a delimiter behind the text read so
far, and closes its open segment, or is none and joins it. -/
@[elab_as_elim]
theorem delimiter_induction {motive : List Char → Prop} (nil : motive [])
    (delimiter : ∀ l, Position.Delimits ⟨l, ' '⟩ → motive l → motive (l ++ [' ']))
    (other : ∀ l c, ¬ Position.Delimits ⟨l, c⟩ → motive l → motive (l ++ [c]))
    (l : List Char) : motive l := by
  induction l using List.reverseRecOn with
  | nil => exact nil
  | append_singleton l c ih =>
    by_cases hdelimits : Position.Delimits ⟨l, c⟩
    · obtain rfl : c = ' ' := (Position.delimits_mk.mp hdelimits).1
      exact delimiter l hdelimits ih
    · exact other l c hdelimits ih

section

variable {l : List Char} {c : Char}

theorem closedSegments_concat_of_delimits (h : Position.Delimits ⟨l, c⟩) :
    closedSegments (l ++ [c]) = segments l := by
  rw [closedSegments, segments_concat_of_delimits h, List.dropLast_concat]

theorem openSegment_concat_of_delimits (h : Position.Delimits ⟨l, c⟩) :
    openSegment (l ++ [c]) = [] := by
  rw [openSegment, segments_concat_of_delimits h, List.getLastD_concat]

theorem closedSegments_concat_of_not_delimits (h : ¬ Position.Delimits ⟨l, c⟩) :
    closedSegments (l ++ [c]) = closedSegments l := by
  rw [closedSegments, segments_concat_of_not_delimits h, List.dropLast_concat]

theorem openSegment_concat_of_not_delimits (h : ¬ Position.Delimits ⟨l, c⟩) :
    openSegment (l ++ [c]) = openSegment l ++ [⟨l, c⟩] := by
  rw [openSegment, segments_concat_of_not_delimits h, List.getLastD_concat]

theorem content_concat (segment : List Position) :
    content (segment ++ [⟨l, c⟩]) =
      content segment ++ if (c = '"' ∨ c = '\\') ∧ ¬ Dangling l then [] else [c] := by
  unfold content
  rw [List.filter_append, List.map_append]
  by_cases hdropped : (c = '"' ∨ c = '\\') ∧ ¬ Dangling l
  · have hfilter : ([⟨l, c⟩] : List Position).filter (fun p => ¬ p.Dropped) = [] := by
      simpa [Position.dropped_mk] using hdropped
    rw [hfilter, if_pos hdropped, List.map_nil]
  · have hfilter : ([⟨l, c⟩] : List Position).filter (fun p => ¬ p.Dropped) = [⟨l, c⟩] := by
      simpa [Position.dropped_mk] using hdropped
    rw [hfilter, if_neg hdropped, List.map_singleton]

end

theorem contents_append (parts more : List (List Position)) :
    contents (parts ++ more) = contents parts ++ contents more := by
  simp [contents]

/-! ### The open segment -/

theorem not_dangling_of_openSegment_eq_nil {l : List Char} (h : openSegment l = []) :
    ¬ Dangling l ∧ ¬ OpenQuote l := by
  -- Only a delimiter, or nothing at all, leaves the open segment empty.
  induction l using delimiter_induction with
  | nil => exact ⟨not_dangling_nil, not_openQuote_nil⟩
  | delimiter l hdelimits _ =>
    obtain ⟨-, -, hopen⟩ := Position.delimits_mk.mp hdelimits
    rw [dangling_concat, openQuote_concat]
    simp [hopen]
  | other l c hdelimits _ =>
    rw [openSegment_concat_of_not_delimits hdelimits] at h
    simp at h

theorem openSegment_ne_nil {l : List Char} (h : Dangling l ∨ OpenQuote l) :
    openSegment l ≠ [] := by
  intro hnil
  obtain ⟨hdangling, hopen⟩ := not_dangling_of_openSegment_eq_nil hnil
  exact h.elim hdangling hopen

/-- More than nothing and more than a lone backslash: a token has begun. -/
def Started (segment : List Position) : Prop :=
  segment ≠ [] ∧ segment.map Position.char ≠ ['\\']

theorem started_concat_iff (segment : List Position) (p : Position) :
    Started (segment ++ [p]) ↔ segment ≠ [] ∨ p.char ≠ '\\' := by
  unfold Started
  cases segment <;> simp

/-- A backslash that begins a token dangles until its character is read. -/
theorem started_openSegment_iff {l : List Char} (h : ¬ Dangling l) :
    Started (openSegment l) ↔ openSegment l ≠ [] := by
  constructor
  · exact And.left
  · intro hne
    induction l using delimiter_induction with
    | nil => exact absurd rfl hne
    | delimiter l hdelimits _ => exact absurd (openSegment_concat_of_delimits hdelimits) hne
    | other l c hdelimits _ =>
      rw [openSegment_concat_of_not_delimits hdelimits, started_concat_iff]
      by_cases hbackslash : c = '\\'
      · left
        intro hnil
        have hbefore := (not_dangling_of_openSegment_eq_nil hnil).1
        exact h ((dangling_concat l c).mpr ⟨hbackslash, hbefore⟩)
      · exact Or.inr hbackslash

/-! ### Segments without content -/

theorem exists_backslash_of_dangling {l : List Char} (h : Dangling l) :
    ∃ p ∈ openSegment l, p.char = '\\' := by
  induction l using delimiter_induction with
  | nil => exact absurd h not_dangling_nil
  | delimiter l _ _ => exact absurd ((dangling_concat l ' ').mp h).1 (by decide)
  | other l c hdelimits _ =>
    have hbackslash : c = '\\' := ((dangling_concat l c).mp h).1
    rw [openSegment_concat_of_not_delimits hdelimits]
    exact ⟨⟨l, c⟩, by simp, hbackslash⟩

def AllQuotes (segment : List Position) : Prop := ∀ p ∈ segment, p.char = '"'

theorem allQuotes_concat (segment : List Position) (p : Position) :
    AllQuotes (segment ++ [p]) ↔ AllQuotes segment ∧ p.char = '"' := by
  simp [AllQuotes, or_imp, forall_and]

/-- A character that joins a segment keeps it a segment of quotes without content,
or gives it content and a character that is no quote. -/
theorem content_concat_eq_nil_iff {l : List Char} {c : Char}
    (hopen : ¬ Dangling l → (content (openSegment l) = [] ↔ AllQuotes (openSegment l)))
    (h : ¬ Dangling (l ++ [c])) :
    content (openSegment l ++ [⟨l, c⟩]) = [] ↔ AllQuotes (openSegment l ++ [⟨l, c⟩]) := by
  rw [content_concat, allQuotes_concat]
  by_cases hdangling : Dangling l
  · -- The escaped character is kept, and the backslash before it is no quote.
    obtain ⟨p, hmem, hbackslash⟩ := exists_backslash_of_dangling hdangling
    have hquotes : ¬ AllQuotes (openSegment l) := by
      intro hall
      have hquote := hall p hmem
      rw [hbackslash] at hquote
      exact absurd hquote (by decide)
    simp [hdangling, hquotes]
  · have hbackslash : c ≠ '\\' := by
      intro hc
      exact h ((dangling_concat l c).mpr ⟨hc, hdangling⟩)
    by_cases hquote : c = '"'
    · simp [hquote, hdangling, hopen hdangling]
    · simp [hquote, hbackslash]

/-- A segment of quotes is the only one without content. A backslash in it
would have escaped a character, which no delimiter can be and which stays. -/
theorem content_eq_nil_iff_allQuotes {l : List Char} :
    (∀ segment ∈ closedSegments l, content segment = [] ↔ AllQuotes segment) ∧
      (¬ Dangling l → (content (openSegment l) = [] ↔ AllQuotes (openSegment l))) := by
  induction l using delimiter_induction with
  | nil =>
    have hempty : openSegment [] = [] := rfl
    have hnone : closedSegments [] = [] := rfl
    simp [hempty, hnone, content, AllQuotes]
  | delimiter l hdelimits ih =>
    obtain ⟨hclosed, hopen⟩ := ih
    have hwhole := hopen (Position.delimits_mk.mp hdelimits).2.1
    rw [closedSegments_concat_of_delimits hdelimits, openSegment_concat_of_delimits hdelimits]
    constructor
    · exact forall_mem_segments_iff.mpr ⟨hclosed, hwhole⟩
    · simp [content, AllQuotes]
  | other l c hdelimits ih =>
    obtain ⟨hclosed, hopen⟩ := ih
    rw [closedSegments_concat_of_not_delimits hdelimits,
      openSegment_concat_of_not_delimits hdelimits]
    exact ⟨hclosed, content_concat_eq_nil_iff hopen⟩

theorem content_eq_nil_iff {l : List Char} (h : ¬ Dangling l) {segment : List Position}
    (hmem : segment ∈ segments l) :
    content segment = [] ↔ ∀ p ∈ segment, p.char = '"' := by
  obtain ⟨hclosed, hopen⟩ := content_eq_nil_iff_allQuotes (l := l)
  have hall := forall_mem_segments_iff.mpr ⟨hclosed, hopen h⟩
  exact hall segment hmem

/-! ### Text without syntax -/

theorem segments_of_plain {l : List Char} (hquote : '"' ∉ l) (hbackslash : '\\' ∉ l) :
    ¬ Dangling l ∧ ¬ OpenQuote l ∧
      (segments l).map (List.map Position.char) = l.splitOn ' ' ∧
      ∀ segment ∈ segments l, content segment = segment.map Position.char := by
  refine ⟨not_dangling_of_not_mem hbackslash, not_openQuote_of_not_mem hquote, ?_⟩
  induction l using List.reverseRecOn with
  | nil =>
    have hempty : segments [] = [[]] := rfl
    simp [hempty, content, List.splitOn_eq_splitOnP, List.splitOnP_nil]
  | append_singleton l c ih =>
    simp only [List.mem_append, List.mem_singleton, not_or] at hquote hbackslash
    obtain ⟨hsplit, hcontent⟩ := ih hquote.1 hbackslash.1
    have hdangling : ¬ Dangling l := not_dangling_of_not_mem hbackslash.1
    have hopen : ¬ OpenQuote l := not_openQuote_of_not_mem hquote.1
    have hdelimits : Position.Delimits ⟨l, c⟩ ↔ c = ' ' := by
      simp [Position.delimits_mk, hdangling, hopen]
    by_cases hspace : c = ' '
    · rw [segments_concat_of_delimits (hdelimits.mpr hspace), List.splitOn_eq_splitOnP,
        splitOnP_concat_pos (by simpa using hspace), ← List.splitOn_eq_splitOnP, ← hsplit]
      constructor
      · simp
      · exact List.forall_mem_append.mpr ⟨hcontent, List.forall_mem_singleton.mpr rfl⟩
    · rw [segments_concat_of_not_delimits (mt hdelimits.mp hspace), List.splitOn_eq_splitOnP,
        splitOnP_concat_neg (by simpa using hspace), ← List.splitOn_eq_splitOnP, ← hsplit]
      obtain ⟨hclosed, hlast⟩ := forall_mem_segments_iff.mp hcontent
      constructor
      · simp [segments_eq_append]
      · refine List.forall_mem_append.mpr ⟨hclosed, List.forall_mem_singleton.mpr ?_⟩
        have hquotec : c ≠ '"' := Ne.symm hquote.2
        have hbackslashc : c ≠ '\\' := Ne.symm hbackslash.2
        rw [content_concat, hlast]
        simp [hquotec, hbackslashc]

end LineTokens

import Mathlib.Data.List.Range
import LineTokens.Input.Stream
import LineTokens.Proofs.Decoding

/-!
A stream read line by line. Reads take the lines of a stream off in their order,
one each, and leave what stands behind them. What a read gives is settled by its
own line: the reads before it have no say in it, and a line that cannot be
decoded is taken off like any other.
-/

namespace LineTokens

/-! ### Lines by number -/

section

variable {α : Type} [DecidableEq α]

/-- The piece number `i` of a sequence cut at its marks. All pieces behind the
last one are empty. -/
def pieceAt (mark : α) (l : List α) (i : Nat) : List α :=
  (l.splitOn mark).getD i []

/-- The piece number `i` with the mark that ends it, if one does. -/
def lineAt (mark : α) (l : List α) (i : Nat) : List α :=
  pieceAt mark l i ++ if i < l.count mark then [mark] else []

/-- What stands behind the first `k` marks. -/
def behindMarks (mark : α) (k : Nat) (l : List α) : List α :=
  [mark].intercalate ((l.splitOn mark).drop k)

variable {mark : α}

theorem cutAfter_append_of_not_mem {piece : List α} (h : mark ∉ piece) (rest : List α) :
    cutAfter mark (piece ++ rest) =
      ⟨piece ++ (cutAfter mark rest).line, (cutAfter mark rest).rest⟩ := by
  induction piece with
  | nil => rfl
  | cons a piece ih =>
    have ha : mark ≠ a := List.ne_of_not_mem_cons h
    rw [List.cons_append, cutAfter, if_neg ha.symm, ih (List.not_mem_of_not_mem_cons h)]
    rfl

theorem cutAfter_of_not_mem {l : List α} (h : mark ∉ l) : cutAfter mark l = ⟨l, []⟩ := by
  have hcut := cutAfter_append_of_not_mem h []
  rwa [List.append_nil, cutAfter, List.append_nil] at hcut

theorem cutAfter_append_mark {piece : List α} (h : mark ∉ piece) (rest : List α) :
    cutAfter mark (piece ++ mark :: rest) = ⟨piece ++ [mark], rest⟩ := by
  rw [cutAfter_append_of_not_mem h, cutAfter, if_pos rfl]

/-- A sequence is one piece, or a piece with its mark and a rest. -/
theorem piece_or_marked (mark : α) (l : List α) :
    mark ∉ l ∨ ∃ piece rest, l = piece ++ mark :: rest ∧ mark ∉ piece := by
  by_cases hmark : mark ∈ l
  · exact .inr (List.eq_append_cons_of_mem hmark)
  · exact .inl hmark

theorem pieceAt_zero_of_not_mem {l : List α} (h : mark ∉ l) : pieceAt mark l 0 = l := by
  simp [pieceAt, List.splitOn_eq_singleton h]

theorem pieceAt_zero_append_mark {piece : List α} (h : mark ∉ piece) (rest : List α) :
    pieceAt mark (piece ++ mark :: rest) 0 = piece := by
  simp [pieceAt, List.splitOn_append_cons_self_of_not_mem h]

theorem pieceAt_zero_isPrefix (mark : α) (l : List α) : pieceAt mark l 0 <+: l := by
  rcases piece_or_marked mark l with hmark | ⟨piece, rest, rfl, hpiece⟩
  · exact ⟨[], by rw [pieceAt_zero_of_not_mem hmark, List.append_nil]⟩
  · rw [pieceAt_zero_append_mark hpiece]
    exact List.prefix_append piece _

/-- What is in front of a sequence and has no mark is in its first piece. -/
theorem isPrefix_pieceAt_zero {piece l : List α} (h : mark ∉ piece) (hfront : piece <+: l) :
    piece <+: pieceAt mark l 0 := by
  obtain ⟨more, rfl⟩ := hfront
  rcases piece_or_marked mark more with hmark | ⟨middle, rest, rfl, hmiddle⟩
  · rw [pieceAt_zero_of_not_mem (by simp [h, hmark])]
    exact List.prefix_append piece more
  · rw [← List.append_assoc, pieceAt_zero_append_mark (by simp [h, hmiddle])]
    exact List.prefix_append piece middle

theorem pieceAt_nil (i : Nat) : pieceAt mark [] i = [] := by
  cases i <;> rfl

theorem behindMarks_nil (k : Nat) : behindMarks mark k [] = [] := by
  cases k with
  | zero => exact List.intercalate_splitOn mark
  | succ k => simp [behindMarks, List.splitOn_nil]

theorem behindMarks_zero (l : List α) : behindMarks mark 0 l = l :=
  List.intercalate_splitOn mark

/-- The first cut takes the first line off. -/
theorem line_cutAfter (mark : α) (l : List α) : (cutAfter mark l).line = lineAt mark l 0 := by
  rcases piece_or_marked mark l with hmark | ⟨piece, rest, rfl, hpiece⟩
  · rw [cutAfter_of_not_mem hmark]
    simp [lineAt, pieceAt, List.splitOn_eq_singleton hmark, List.count_eq_zero_of_not_mem hmark]
  · rw [cutAfter_append_mark hpiece]
    simp [lineAt, pieceAt, List.splitOn_append_cons_self_of_not_mem hpiece]

/-- The pieces behind the first one are those of the rest. -/
theorem pieceAt_succ (mark : α) (l : List α) (i : Nat) :
    pieceAt mark l (i + 1) = pieceAt mark (cutAfter mark l).rest i := by
  rcases piece_or_marked mark l with hmark | ⟨piece, rest, rfl, hpiece⟩
  · rw [cutAfter_of_not_mem hmark, pieceAt_nil]
    simp [pieceAt, List.splitOn_eq_singleton hmark]
  · rw [cutAfter_append_mark hpiece]
    simp [pieceAt, List.splitOn_append_cons_self_of_not_mem hpiece]

theorem lineAt_succ (mark : α) (l : List α) (i : Nat) :
    lineAt mark l (i + 1) = lineAt mark (cutAfter mark l).rest i := by
  rw [lineAt, pieceAt_succ]
  rcases piece_or_marked mark l with hmark | ⟨piece, rest, rfl, hpiece⟩
  · simp [cutAfter_of_not_mem hmark, lineAt, List.count_eq_zero_of_not_mem hmark]
  · simp [cutAfter_append_mark hpiece, lineAt, List.count_eq_zero_of_not_mem hpiece]

theorem behindMarks_succ (mark : α) (k : Nat) (l : List α) :
    behindMarks mark (k + 1) l = behindMarks mark k (cutAfter mark l).rest := by
  rcases piece_or_marked mark l with hmark | ⟨piece, rest, rfl, hpiece⟩
  · rw [cutAfter_of_not_mem hmark, behindMarks_nil]
    simp [behindMarks, List.splitOn_eq_singleton hmark]
  · rw [cutAfter_append_mark hpiece]
    simp [behindMarks, List.splitOn_append_cons_self_of_not_mem hpiece]

theorem not_mem_pieceAt (mark : α) (l : List α) (i : Nat) : mark ∉ pieceAt mark l i := by
  induction i generalizing l with
  | zero =>
    rcases piece_or_marked mark l with hmark | ⟨piece, rest, rfl, hpiece⟩
    · simpa [pieceAt, List.splitOn_eq_singleton hmark] using hmark
    · simpa [pieceAt, List.splitOn_append_cons_self_of_not_mem hpiece] using hpiece
  | succ i ih =>
    rw [pieceAt_succ]
    exact ih _

/-- The first `k` lines and what stands behind them are the whole sequence. -/
theorem flatMap_lineAt_append_behindMarks (mark : α) (k : Nat) (l : List α) :
    (List.range k).flatMap (lineAt mark l) ++ behindMarks mark k l = l := by
  induction k generalizing l with
  | zero => exact behindMarks_zero l
  | succ k ih =>
    have hothers : (fun i => lineAt mark l (Nat.succ i)) = lineAt mark (cutAfter mark l).rest :=
      funext (lineAt_succ mark l)
    rw [List.range_succ_eq_map, List.flatMap_cons, List.flatMap_map, behindMarks_succ,
      hothers, List.append_assoc, ih, ← line_cutAfter, cutAfter_line_append_rest]

theorem behindMarks_eq_nil {k : Nat} {l : List α} (h : l.count mark < k) :
    behindMarks mark k l = [] := by
  induction k generalizing l with
  | zero => exact absurd h (Nat.not_lt_zero _)
  | succ k ih =>
    rw [behindMarks_succ]
    rcases piece_or_marked mark l with hmark | ⟨piece, rest, rfl, hpiece⟩
    · rw [cutAfter_of_not_mem hmark, behindMarks_nil]
    · rw [cutAfter_append_mark hpiece]
      rw [List.count_append, List.count_cons_self] at h
      have hfewer : rest.count mark < k := by omega
      exact ih hfewer

end

theorem dropNewline_concat (l : List Char) : dropNewline (l ++ ['\n']) = l := by
  simp [dropNewline]

theorem dropNewline_of_not_mem {l : List Char} (h : '\n' ∉ l) : dropNewline l = l := by
  have hlast : l.getLast? ≠ some '\n' := fun hlast => h (List.mem_of_getLast? hlast)
  rw [dropNewline, if_neg hlast]

theorem dropNewline_lineAt (l : List Char) (i : Nat) :
    dropNewline (lineAt '\n' l i) = pieceAt '\n' l i := by
  unfold lineAt
  split
  · exact dropNewline_concat _
  · rw [List.append_nil]
    exact dropNewline_of_not_mem (not_mem_pieceAt '\n' l i)

/-- A line is cut off whole. -/
theorem line_cutAfter_lineAt {α : Type} [DecidableEq α] (mark : α) (l : List α) (i : Nat) :
    (cutAfter mark (lineAt mark l i)).line = lineAt mark l i := by
  have hpiece : mark ∉ pieceAt mark l i := not_mem_pieceAt mark l i
  unfold lineAt
  split
  · rw [cutAfter_append_mark hpiece]
  · rw [List.append_nil, cutAfter_of_not_mem hpiece]

/-! ### Reads -/

/-- The bytes that an error is about stand in the data, where it says. -/
def DecodeError.StandsIn (e : DecodeError) (data : List UInt8) : Prop :=
  ∃ before after, data = before ++ e.bytes ++ after ∧ e.offset = before.length

/-- The decoder that goes by the name counts the place of an error from the start
of the data. One that takes off a byte order mark first need not do so. -/
def Codecs.Places (codecs : Codecs) (name : String) : Prop :=
  ∀ bytes e, codecs.decode name bytes = .error (.undecodable e) → e.StandsIn bytes

/-- What the bytes of one line are read as under an encoding name. -/
def readBytes (codecs : Codecs) (encoding : String) (line : List UInt8) :
    Except ReadError String :=
  (decodeNamed codecs encoding line).map fun text => String.ofList (dropNewline text)

theorem standsIn_of_decodeNamed {codecs : Codecs} {encoding : String} {bytes : List UInt8}
    {e : DecodeError} (hplaces : Encoding.ofName? encoding = none → codecs.Places encoding)
    (h : decodeNamed codecs encoding bytes = .error (.undecodable e)) : e.StandsIn bytes := by
  unfold decodeNamed at h
  split at h
  · cases h
  split at h
  · cases h
  split at h
  · next known hname =>
    cases hdecode : known.decode bytes with
    | ok text =>
      rw [hdecode] at h
      cases h
    | error e' =>
      rw [hdecode] at h
      cases h
      obtain ⟨before, after, hbytes, hoffset⟩ := Encoding.exists_split_of_scan hdecode
      exact ⟨before, after, hbytes, hoffset.trans (Nat.zero_add _)⟩
  · next hname => exact hplaces hname bytes e h

/-- The bytes that a line fails to be decoded for stand in the line itself. -/
theorem standsIn_of_readBytes {codecs : Codecs} {encoding : String} {line : List UInt8}
    {e : DecodeError} (hplaces : Encoding.ofName? encoding = none → codecs.Places encoding)
    (h : readBytes codecs encoding line = .error (.undecodable e)) : e.StandsIn line := by
  unfold readBytes at h
  cases hdecode : decodeNamed codecs encoding line with
  | ok text =>
    rw [hdecode] at h
    cases h
  | error error =>
    rw [hdecode] at h
    obtain rfl : error = .undecodable e := Except.error.inj h
    exact standsIn_of_decodeNamed hplaces hdecode

namespace Stream

variable (codecs : Codecs) (encoding : String)

theorem readLine_text (content : String) :
    (text content).readLine codecs encoding =
      (.ok (String.ofList (pieceAt '\n' content.toList 0)),
        text (String.ofList (cutAfter '\n' content.toList).rest)) := by
  rw [readLine, line_cutAfter, dropNewline_lineAt]

theorem readLine_bytes (content : List UInt8) :
    (bytes content).readLine codecs encoding =
      (readBytes codecs encoding (lineAt 0x0a content 0),
        bytes (cutAfter 0x0a content).rest) := by
  rw [readLine, line_cutAfter, readBytes]

theorem readLines_text (content : String) (k : Nat) :
    (text content).readLines codecs encoding k =
      ((List.range k).map fun i => .ok (String.ofList (pieceAt '\n' content.toList i)),
        text (String.ofList (behindMarks '\n' k content.toList))) := by
  induction k generalizing content with
  | zero =>
    rw [readLines, behindMarks_zero, String.ofList_toList]
    rfl
  | succ k ih =>
    rw [readLines, readLine_text, ih, List.range_succ_eq_map, List.map_cons, List.map_map,
      behindMarks_succ]
    simp only [String.toList_ofList, ← pieceAt_succ]
    rfl

theorem readLines_bytes (content : List UInt8) (k : Nat) :
    (bytes content).readLines codecs encoding k =
      ((List.range k).map fun i => readBytes codecs encoding (lineAt 0x0a content i),
        bytes (behindMarks 0x0a k content)) := by
  induction k generalizing content with
  | zero =>
    rw [readLines, behindMarks_zero]
    rfl
  | succ k ih =>
    rw [readLines, readLine_bytes, ih, List.range_succ_eq_map, List.map_cons, List.map_map,
      behindMarks_succ]
    simp only [← lineAt_succ]
    rfl

/-- Any number of reads take the first lines of a stream off, one each and in
order, and leave what stands behind them, which is nothing if there are fewer
lines. The encoding name has no say in what is taken and what is left. A text is
given piece by piece. What a read of bytes gives depends on its own line and the
encoding name only, whatever encodings there are: it is what a read gives where
this line is the whole stream. So the place of an error is counted from the start
of the line, as long as the decoder counts from the start of its data. -/
theorem reads_partition_stream (k : Nat) :
    (∀ content : String,
      (text content).readLines codecs encoding k =
        ((List.range k).map fun i => .ok (String.ofList (pieceAt '\n' content.toList i)),
          text (String.ofList (behindMarks '\n' k content.toList))) ∧
      (List.range k).flatMap (lineAt '\n' content.toList) ++
        behindMarks '\n' k content.toList = content.toList ∧
      (content.toList.count '\n' < k → behindMarks '\n' k content.toList = [])) ∧
    ∀ content : List UInt8,
      (bytes content).readLines codecs encoding k =
        ((List.range k).map fun i => readBytes codecs encoding (lineAt 0x0a content i),
          bytes (behindMarks 0x0a k content)) ∧
      (List.range k).flatMap (lineAt 0x0a content) ++ behindMarks 0x0a k content = content ∧
      (content.count 0x0a < k → behindMarks 0x0a k content = []) ∧
      (∀ i, ((bytes (lineAt 0x0a content i)).readLine codecs encoding).1 =
        readBytes codecs encoding (lineAt 0x0a content i)) ∧
      ((Encoding.ofName? encoding = none → codecs.Places encoding) →
        ∀ i e, readBytes codecs encoding (lineAt 0x0a content i) = .error (.undecodable e) →
          e.StandsIn (lineAt 0x0a content i)) := by
  constructor
  · intro content
    exact ⟨readLines_text codecs encoding content k, flatMap_lineAt_append_behindMarks _ k _,
      behindMarks_eq_nil⟩
  · intro content
    refine ⟨readLines_bytes codecs encoding content k, flatMap_lineAt_append_behindMarks _ k _,
      behindMarks_eq_nil, fun i => ?_, fun hplaces i e h => standsIn_of_readBytes hplaces h⟩
    rw [readLine, line_cutAfter_lineAt, readBytes]

end Stream

/-! ### An encoding by a table -/

namespace CodePage

/-- The characters of the bytes from 0x80 on in the code page 1252, up to 0x9f. It
has none for five of them. -/
def highChars : List (Option Char) :=
  [some '\u20AC', none, some '\u201A', some '\u0192', some '\u201E', some '\u2026',
    some '\u2020', some '\u2021', some '\u02C6', some '\u2030', some '\u0160', some '\u2039',
    some '\u0152', none, some '\u017D', none, none, some '\u2018', some '\u2019',
    some '\u201C', some '\u201D', some '\u2022', some '\u2013', some '\u2014', some '\u02DC',
    some '\u2122', some '\u0161', some '\u203A', some '\u0153', none, some '\u017E',
    some '\u0178']

/-- The character of a byte. Outside the table every byte numbers its character. -/
def char? (a : UInt8) : Option Char :=
  if 0x80 ≤ a ∧ a < 0xA0 then (highChars[a.toNat - 0x80]?).join else some (Char.ofNat a.toNat)

/-- Decodes bytes, the first of which stands at `offset` in the data. -/
def decodeFrom (offset : Nat) : List UInt8 → Except DecodeError (List Char)
  | [] => .ok []
  | a :: rest =>
    match char? a with
    | some c => (decodeFrom (offset + 1) rest).map (c :: ·)
    | none => .error ⟨"charmap", "character maps to <undefined>", offset, [a]⟩

/-- An environment that has this one encoding besides the four. -/
def codecs : Codecs where
  decode name bytes :=
    if name = "cp1252" then (decodeFrom 0 bytes).mapError .undecodable
    else .error (.unknownEncoding name)

theorem exists_split_of_decodeFrom {offset : Nat} {bytes : List UInt8} {e : DecodeError}
    (h : decodeFrom offset bytes = .error e) :
    ∃ before after, bytes = before ++ e.bytes ++ after ∧ e.offset = offset + before.length := by
  induction bytes generalizing offset with
  | nil => cases h
  | cons a rest ih =>
    rw [decodeFrom] at h
    split at h
    · next c hchar =>
      cases hrest : decodeFrom (offset + 1) rest with
      | ok text =>
        rw [hrest] at h
        cases h
      | error e' =>
        rw [hrest] at h
        obtain rfl : e' = e := Except.error.inj h
        obtain ⟨before, after, hbytes, hoffset⟩ := ih hrest
        refine ⟨a :: before, after, congrArg (a :: ·) hbytes, ?_⟩
        rw [hoffset, List.length_cons]
        omega
    · obtain rfl := Except.error.inj h
      exact ⟨[], rest, rfl, rfl⟩

theorem places : codecs.Places "cp1252" := by
  intro bytes e h
  cases hdecode : decodeFrom 0 bytes with
  | ok text => simp [codecs, hdecode, Except.mapError] at h
  | error e' =>
    obtain rfl : e' = e := by simpa [codecs, hdecode, Except.mapError] using h
    obtain ⟨before, after, hbytes, hoffset⟩ := exists_split_of_decodeFrom hdecode
    exact ⟨before, after, hbytes, hoffset.trans (Nat.zero_add _)⟩

end CodePage

namespace Stream

/-- A text whose lines are read to the end and beyond, under a name of no
encoding; and bytes in an encoding by a table, whose second line cannot be
decoded and is taken off like the others, with an error that is counted from its
own start. -/
theorem reads_beyond_last_line :
    let lines : String := "a\r\n\nb"
    let content : List UInt8 := [0x80, 0x0a, 0x61, 0x81, 0x0a, 0x62]
    let error : DecodeError := ⟨"charmap", "character maps to <undefined>", 1, [0x81]⟩
    (text lines).readLines .none "x y" 4 =
        ([.ok "a\r", .ok "", .ok "b", .ok ""], text "") ∧
      (bytes content).readLines CodePage.codecs "cp1252" 4 =
        ([.ok "\u20AC", .error (.undecodable error), .ok "b", .ok ""], bytes []) ∧
      error.StandsIn (lineAt 0x0a content 1) := by
  intro lines content error
  obtain ⟨htext, -⟩ := reads_partition_stream .none "x y" 4
  obtain ⟨hlines, -, hnoLine⟩ := htext lines
  obtain ⟨-, hbytes⟩ := reads_partition_stream CodePage.codecs "cp1252" 4
  obtain ⟨hreads, -, hnoByte, -, hplace⟩ := hbytes content
  have herror : readBytes CodePage.codecs "cp1252" (lineAt 0x0a content 1) =
      .error (.undecodable error) := by
    decide +kernel
  refine ⟨?_, ?_, hplace (fun _ => CodePage.places) 1 error herror⟩
  · rw [hlines, hnoLine (by decide)]
    decide +kernel
  · rw [hreads, hnoByte (by decide)]
    decide +kernel

end Stream

end LineTokens

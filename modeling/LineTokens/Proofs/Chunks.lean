import LineTokens.Input.Standard
import LineTokens.Proofs.RoundTrip
import LineTokens.Proofs.StreamLines

/-!
Standard input in chunks. What is decoded of a chunk are whole characters, and
the bytes held back are the rest of it. As these are decoded again with the next
chunk, a text is read alike however its bytes are cut into chunks, and its first
line is read. Of other bytes it matters where the chunks are cut, but the chunks
behind the one with the first newline never do.
-/

namespace LineTokens

theorem line_cutAfter_append_of_mem {α : Type} [DecidableEq α] {mark : α} {l : List α}
    (h : mark ∈ l) (more : List α) : (cutAfter mark (l ++ more)).line = (cutAfter mark l).line := by
  obtain ⟨piece, rest, rfl, hpiece⟩ := List.eq_append_cons_of_mem h
  rw [List.append_assoc, List.cons_append, cutAfter_append_mark hpiece,
    cutAfter_append_mark hpiece]

namespace Encoding

variable {e : Encoding}

/-! ### What a scan leaves -/

/-- A scan that has come to `offset` ends in front of the bytes that are left. -/
inductive Stops (e : Encoding) (offset : Nat) : List UInt8 → Scan.Ending → Prop
  | complete : Stops e offset [] .complete
  | incomplete {a : UInt8} {rest : List UInt8} {reason : DecodeError.Reason} {width : Nat} :
      e.front a rest = .incomplete reason width →
        Stops e offset (a :: rest)
          (.incomplete ⟨e.name, reason.text, offset, (a :: rest).take width⟩)
  | invalid {a : UInt8} {rest : List UInt8} {reason : DecodeError.Reason} {width : Nat} :
      e.front a rest = .invalid reason width →
        Stops e offset (a :: rest)
          (.invalid ⟨e.name, reason.text, offset, (a :: rest).take width⟩)

/-- A scan takes encoded characters off the front, up to where it ends. -/
theorem exists_stops_of_scan (e : Encoding) (offset : Nat) (bytes : List UInt8) :
    ∃ read rest, bytes = read ++ rest ∧ e.encode? (e.scan offset bytes).text = some read ∧
      e.Stops (offset + read.length) rest (e.scan offset bytes).ending := by
  fun_induction scan e offset bytes with
  | case1 offset => exact ⟨[], [], rfl, rfl, .complete⟩
  | case2 offset a rest c tail hchar ih =>
    obtain ⟨read, left, hrest, hread, hstops⟩ := ih
    have hlength : (rest.take tail).length = tail := length_take_of_front hchar
    have hoffset : offset + (a :: rest.take tail ++ read).length =
        offset + 1 + tail + read.length := by
      rw [List.length_append, List.length_cons, hlength]
      omega
    refine ⟨a :: rest.take tail ++ read, left, ?_, ?_, hoffset ▸ hstops⟩
    · rw [List.append_assoc, ← hrest, List.cons_append, List.take_append_drop]
    · exact encode?_cons_eq_some_iff.mpr ⟨_, _, encodeChar?_of_front hchar, hread, rfl⟩
  | case3 offset a rest reason width hincomplete =>
    exact ⟨[], a :: rest, rfl, rfl, .incomplete hincomplete⟩
  | case4 offset a rest reason width hinvalid =>
    exact ⟨[], a :: rest, rfl, rfl, .invalid hinvalid⟩

/-- Behind encoded characters, an encoded text goes on with the others. -/
theorem exists_encode?_behind {whole text : List Char} {read rest : List UInt8}
    (hwhole : e.encode? whole = some (read ++ rest)) (htext : e.encode? text = some read) :
    ∃ others, whole = text ++ others ∧ e.encode? others = some rest := by
  have hdecode : e.decode (read ++ rest) = .ok whole := decode_eq_ok_iff.mpr hwhole
  rw [decode, scan_append_of_encode? htext, Scan.strict_followedBy_of_complete] at hdecode
  cases hothers : (e.scan (0 + read.length) rest).strict with
  | error error =>
    rw [hothers] at hdecode
    cases hdecode
  | ok others =>
    rw [hothers] at hdecode
    exact ⟨others, (Except.ok.inj hdecode).symm, encode?_of_scan hothers⟩

/-- What stands in front of an encoded text is its first character. -/
theorem exists_front_of_encode? {text : List Char} {a : UInt8} {rest : List UInt8}
    (h : e.encode? text = some (a :: rest)) : ∃ c tail, e.front a rest = .char c tail := by
  cases text with
  | nil => cases h
  | cons c text =>
    obtain ⟨bytes, others, hchar, -, happend⟩ := encode?_cons_eq_some_iff.mp h
    obtain ⟨first, tail, rfl, hfront⟩ := front_of_encodeChar? hchar others
    obtain ⟨rfl, rfl⟩ := List.cons.inj happend
    exact ⟨c, _, hfront⟩

/-! ### Parts of encoded texts -/

/-- The bytes are held back rightly: no text ends with them. -/
def Held (e : Encoding) (held : List UInt8) : Prop :=
  ∀ text, e.encode? text = some held → text = []

theorem held_nil : e.Held [] := by
  intro text h
  cases text with
  | nil => rfl
  | cons c text =>
    obtain ⟨bytes, others, hchar, -, happend⟩ := encode?_cons_eq_some_iff.mp h
    obtain ⟨first, tail, rfl, -⟩ := front_of_encodeChar? hchar []
    cases happend

theorem held_of_incomplete {a : UInt8} {rest : List UInt8} {reason : DecodeError.Reason}
    {width : Nat} (h : e.front a rest = .incomplete reason width) : e.Held (a :: rest) := by
  intro text htext
  obtain ⟨c, tail, hfront⟩ := exists_front_of_encode? htext
  rw [h] at hfront
  cases hfront

/-- A part is read off the front, and the rest of its bytes is held back. -/
theorem exists_read_of_decodePart {bytes : List UInt8} {part : Part}
    (h : e.decodePart bytes = .ok part) :
    ∃ read, bytes = read ++ part.held ∧ e.encode? part.text = some read ∧ e.Held part.held := by
  obtain ⟨read, rest, hbytes, hread, hstops⟩ := exists_stops_of_scan e 0 bytes
  refine ⟨read, ?_⟩
  unfold decodePart at h
  generalize e.scan 0 bytes = scan at h hread hstops
  obtain ⟨text, ending⟩ := scan
  cases hstops with
  | complete =>
    obtain rfl := Except.ok.inj h
    exact ⟨hbytes, hread, held_nil⟩
  | @incomplete a rest reason width hincomplete =>
    obtain rfl := Except.ok.inj h
    have hheld : bytes.drop (0 + read.length) = a :: rest := by
      rw [hbytes, Nat.zero_add, List.drop_left]
    dsimp only
    rw [hheld]
    exact ⟨hbytes, hread, held_of_incomplete hincomplete⟩
  | invalid _ => cases h

/-- The front of an encoded text in UTF-8 is never refused, wherever it ends. -/
theorem exists_decodePart_of_encode? {whole : List Char} {bytes more : List UInt8}
    (h : utf8.encode? whole = some (bytes ++ more)) : ∃ part, utf8.decodePart bytes = .ok part := by
  obtain ⟨read, rest, hbytes, hread, hstops⟩ := exists_stops_of_scan utf8 0 bytes
  rw [hbytes, List.append_assoc] at h
  obtain ⟨others, -, hothers⟩ := exists_encode?_behind h hread
  unfold decodePart
  generalize utf8.scan 0 bytes = scan at hstops
  obtain ⟨text, ending⟩ := scan
  cases hstops with
  | complete => exact ⟨_, rfl⟩
  | incomplete _ => exact ⟨_, rfl⟩
  | @invalid a rest reason width hinvalid =>
    rw [List.cons_append] at hothers
    obtain ⟨c, tail, hfront⟩ := exists_front_of_encode? hothers
    have hstays : utf8.front a (rest ++ more) = .invalid reason width :=
      Utf8.front_append_of_invalid hinvalid more
    rw [hstays] at hfront
    cases hfront

end Encoding

/-- Where the bytes have a newline, so has the text, unless they are refused. -/
theorem newline_mem_of_decodePart {bytes : List UInt8} {part : Encoding.Part} (h : 0x0a ∈ bytes)
    (hpart : Encoding.utf8.decodePart bytes = .ok part) : '\n' ∈ part.text := by
  obtain ⟨first, after, rfl⟩ := List.append_of_mem h
  obtain ⟨s, hsettled, hscan⟩ := exists_scan_newline first 0
  rw [Encoding.decodePart, hscan] at hpart
  generalize Encoding.utf8.scan (0 + first.length + 1) after = t at hpart
  rcases hsettled with ⟨hcomplete, hnewline⟩ | ⟨e, hinvalid⟩
  · simp only [Scan.followedBy, hcomplete] at hpart
    have hmem : '\n' ∈ s.text ++ t.text := List.mem_append_left t.text hnewline
    cases hending : t.ending with
    | complete | incomplete e =>
      rw [hending] at hpart
      obtain rfl := Except.ok.inj hpart
      exact hmem
    | invalid e =>
      rw [hending] at hpart
      cases hpart
  · simp only [Scan.followedBy, hinvalid] at hpart
    cases hpart

namespace StandardInput

/-! ### Lines from chunks -/

theorem readFrom_cons {chunk : List UInt8} (hchunk : chunk ≠ []) (line : List Char)
    (held : List UInt8) (others : List (List UInt8)) :
    readFrom line held (chunk :: others) =
      match Encoding.utf8.decodePart (held ++ chunk) with
      | .error e => .error e
      | .ok part =>
        if '\n' ∈ part.text then .ok (line ++ (cutAfter '\n' part.text).line)
        else readFrom (line ++ part.text) part.held others := by
  cases chunk with
  | nil => exact absurd rfl hchunk
  | cons a rest => rfl

/-- However the bytes of a text are cut into chunks, its first line is read. -/
theorem readFrom_of_encode? {contents : List (List UInt8)} (hcontents : [] ∉ contents)
    {held : List UInt8} (hheld : Encoding.utf8.Held held) {text : List Char}
    (htext : Encoding.utf8.encode? text = some (held ++ contents.flatten)) (line : List Char) :
    readFrom line held contents = .ok (line ++ (cutAfter '\n' text).line) := by
  induction contents generalizing held text line with
  | nil =>
    rw [List.flatten_nil, List.append_nil] at htext
    have hdecode : Encoding.utf8.decode held = .ok text := Encoding.decode_eq_ok_iff.mpr htext
    obtain rfl := hheld text htext
    rw [readFrom, hdecode]
    rfl
  | cons chunk others ih =>
    rw [List.mem_cons, not_or] at hcontents
    rw [List.flatten_cons, ← List.append_assoc] at htext
    obtain ⟨part, hpart⟩ := Encoding.exists_decodePart_of_encode? htext
    obtain ⟨read, hread, hdecoded, hleft⟩ := Encoding.exists_read_of_decodePart hpart
    rw [hread, List.append_assoc] at htext
    obtain ⟨rest, rfl, hrest⟩ := Encoding.exists_encode?_behind htext hdecoded
    rw [readFrom_cons (Ne.symm hcontents.1), hpart]
    dsimp only
    split
    · next hnewline => rw [line_cutAfter_append_of_mem hnewline]
    · next hnewline =>
      rw [ih hcontents.2 hleft hrest, cutAfter_append_of_not_mem hnewline, List.append_assoc]

/-- Of the bytes of a text, however they are cut into chunks, the first line is
read. -/
theorem readLine_of_utf8Bytes {contents : List (List UInt8)} (hcontents : [] ∉ contents)
    {text : String} (htext : contents.flatten = utf8Bytes text) :
    (chunks contents).readLine = .ok (String.ofList (pieceAt '\n' text.toList 0)) := by
  have hencode : Encoding.utf8.encode? text.toList = some ([] ++ contents.flatten) := by
    rw [List.nil_append, htext, utf8Bytes_eq_flatMap, Encoding.encode?_utf8]
  have hread := readFrom_of_encode? hcontents Encoding.held_nil hencode []
  rw [readLine, hread, List.nil_append, line_cutAfter]
  dsimp only
  rw [dropNewline_lineAt]

/-- At the end of the input, bytes held back add nothing to the line. -/
theorem eq_of_map_decode_held {held : List UInt8} (hheld : Encoding.utf8.Held held)
    {line text : List Char} (h : (Encoding.utf8.decode held).map (line ++ ·) = .ok text) :
    line = text := by
  cases hdecode : Encoding.utf8.decode held with
  | error e =>
    rw [hdecode] at h
    cases h
  | ok rest =>
    obtain rfl := hheld rest (Encoding.decode_eq_ok_iff.mp hdecode)
    rw [hdecode] at h
    exact (List.append_nil line).symm.trans (Except.ok.inj h)

/-- What is read is the first line of something. -/
theorem exists_line_of_readFrom {line : List Char} {held : List UInt8}
    {contents : List (List UInt8)} {text : List Char} (h : readFrom line held contents = .ok text)
    (hline : '\n' ∉ line) (hheld : Encoding.utf8.Held held) :
    ∃ whole, text = lineAt '\n' whole 0 := by
  fun_induction readFrom line held contents with
  | case1 line held | case2 line held others =>
    obtain rfl := eq_of_map_decode_held hheld h
    exact ⟨line, by rw [← line_cutAfter, cutAfter_of_not_mem hline]⟩
  | case3 line held chunk others hchunk e hpart => cases h
  | case4 line held chunk others hchunk part hpart hnewline =>
    obtain rfl := Except.ok.inj h
    refine ⟨line ++ part.text, ?_⟩
    rw [← line_cutAfter, cutAfter_append_of_not_mem hline]
  | case5 line held chunk others hchunk part hpart hnewline ih =>
    obtain ⟨_, _, _, hleft⟩ := Encoding.exists_read_of_decodePart hpart
    have hmore : '\n' ∉ line ++ part.text := by
      rw [List.mem_append, not_or]
      exact ⟨hline, hnewline⟩
    exact ih h hmore hleft

theorem newline_not_mem_of_readLine {input : StandardInput} {line : String}
    (h : input.readLine = .ok line) : '\n' ∉ line.toList := by
  unfold readLine at h
  split at h
  · cases h
  · split at h
    · cases h
    · next text hread =>
      obtain rfl := Except.ok.inj h
      obtain ⟨whole, rfl⟩ := exists_line_of_readFrom hread List.not_mem_nil Encoding.held_nil
      rw [String.toList_ofList, dropNewline_lineAt]
      exact not_mem_pieceAt _ _ _

/-- Behind a chunk with a newline nothing is read. -/
theorem readFrom_behind_newline {chunk : List UInt8} (h : 0x0a ∈ chunk)
    (before more : List (List UInt8)) (line : List Char) (held : List UInt8) :
    readFrom line held (before ++ chunk :: more) = readFrom line held (before ++ [chunk]) := by
  induction before generalizing line held with
  | nil =>
    have hchunk : chunk ≠ [] := List.ne_nil_of_mem h
    rw [List.nil_append, List.nil_append, readFrom_cons hchunk, readFrom_cons hchunk]
    cases hpart : Encoding.utf8.decodePart (held ++ chunk) with
    | error e => rfl
    | ok part =>
      have hnewline := newline_mem_of_decodePart (List.mem_append_right held h) hpart
      dsimp only
      rw [if_pos hnewline, if_pos hnewline]
  | cons first before ih =>
    by_cases hfirst : first = []
    · rw [hfirst, List.cons_append, List.cons_append, readFrom, readFrom]
    · rw [List.cons_append, List.cons_append, readFrom_cons hfirst, readFrom_cons hfirst]
      simp only [ih]

theorem readLine_behind_newline {chunk : List UInt8} (h : 0x0a ∈ chunk)
    (before more : List (List UInt8)) :
    (chunks (before ++ chunk :: more)).readLine = (chunks (before ++ [chunk])).readLine := by
  rw [readLine, readLine, readFrom_behind_newline h]

/-! ### Bytes cut by size -/

theorem flatten_chunksOf (size : Nat) (bytes : List UInt8) :
    (chunksOf size bytes).flatten = bytes := by
  fun_induction chunksOf size bytes with
  | case1 => rfl
  | case2 a rest ih =>
    rw [List.flatten_cons, ih, List.cons_append, List.take_append_drop]

theorem nil_not_mem_chunksOf (size : Nat) (bytes : List UInt8) : [] ∉ chunksOf size bytes := by
  fun_induction chunksOf size bytes with
  | case1 => exact List.not_mem_nil
  | case2 a rest ih =>
    rw [List.mem_cons, not_or]
    exact ⟨nofun, ih⟩

theorem chunksOf_of_length_le {size : Nat} {bytes : List UInt8} (hbytes : bytes ≠ [])
    (hlength : bytes.length ≤ size) : chunksOf size bytes = [bytes] := by
  cases bytes with
  | nil => exact absurd rfl hbytes
  | cons a rest =>
    have hrest : rest.length ≤ size - 1 := by
      rw [List.length_cons] at hlength
      omega
    rw [chunksOf, List.take_of_length_le hrest, List.drop_eq_nil_of_le hrest, chunksOf]

theorem readLine_bytes_utf8Bytes (text : String) :
    (bytes (utf8Bytes text)).readLine = .ok (String.ofList (pieceAt '\n' text.toList 0)) :=
  readLine_of_utf8Bytes (nil_not_mem_chunksOf _ _) (flatten_chunksOf _ _)

end StandardInput

end LineTokens

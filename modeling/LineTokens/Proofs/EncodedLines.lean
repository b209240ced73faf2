import LineTokens.Proofs.StrictReading

/-!
The lines of encoded texts. Bytes are cut behind the byte 0x0a before they are
decoded. In the encodings where this byte is the newline and in no other
character, a text and its bytes are cut in the same places, and read alike.
-/

namespace LineTokens

namespace Encoding

variable {e : Encoding}

/-- A byte that is in no character of a text is not in the encoded text. -/
theorem not_mem_of_encode? {b : UInt8} {text : List Char} {bytes : List UInt8}
    (h : e.encode? text = some bytes)
    (htext : ∀ c ∈ text, ∀ front, e.encodeChar? c = some front → b ∉ front) : b ∉ bytes := by
  induction text generalizing bytes with
  | nil =>
    obtain rfl := Option.some.inj h
    exact List.not_mem_nil
  | cons c text ih =>
    obtain ⟨front, rest, hfront, hrest, rfl⟩ := encode?_cons_eq_some_iff.mp h
    rw [List.forall_mem_cons] at htext
    rw [List.mem_append, not_or]
    exact ⟨htext.1 front hfront, ih hrest htext.2⟩

/-! ### The newline in one byte -/

section

variable (he : e ≠ .utf16le)

include he

theorem encodeChar?_newline : e.encodeChar? '\n' = some [0x0a] := by
  cases e with
  | utf16le => exact absurd rfl he
  | utf8 | ascii | latin1 => rfl

theorem front_newline (rest : List UInt8) : e.front 0x0a rest = .char '\n' 0 := by
  obtain ⟨a, tail, hbytes, hfront⟩ := front_of_encodeChar? (encodeChar?_newline he) rest
  obtain ⟨rfl, rfl⟩ := List.cons.inj hbytes
  exact hfront

/-- The byte 0x0a is in no character but the newline: at the front it would be
read as one, and bytes further on are no ASCII. -/
theorem eq_newline_of_mem {c : Char} {bytes : List UInt8} (h : e.encodeChar? c = some bytes)
    (hmem : 0x0a ∈ bytes) : c = '\n' := by
  obtain ⟨a, tail, rfl, hfront⟩ := front_of_encodeChar? h []
  rcases List.mem_cons.mp hmem with rfl | htail
  · rw [front_newline he] at hfront
    exact (Front.char.inj hfront).1.symm
  · cases e with
    | utf16le => exact absurd rfl he
    | utf8 =>
      have hbytes : String.utf8EncodeChar c = a :: tail := Option.some.inj h
      have hcontinuation := (Utf8.trailing_of_utf8EncodeChar hbytes).2 0x0a htail
      exact absurd hcontinuation Utf8.not_isContinuation_newline
    | ascii | latin1 =>
      rw [encodeChar?, Option.ite_none_right_eq_some] at h
      obtain ⟨-, rfl⟩ := List.cons.inj (Option.some.inj h.2)
      cases htail

/-- A text and its bytes are cut in the same place. -/
theorem encode?_cutAfter {text : List Char} {bytes : List UInt8} (h : e.encode? text = some bytes) :
    e.encode? (cutAfter '\n' text).line = some (cutAfter 0x0a bytes).line ∧
      e.encode? (cutAfter '\n' text).rest = some (cutAfter 0x0a bytes).rest := by
  have hpiece {piece : List Char} {front : List UInt8} (hfront : e.encode? piece = some front)
      (hnewline : '\n' ∉ piece) : 0x0a ∉ front := by
    refine not_mem_of_encode? hfront fun c hc bytes hbytes hmem => hnewline ?_
    rw [← eq_newline_of_mem he hbytes hmem]
    exact hc
  rcases piece_or_marked '\n' text with hnewline | ⟨piece, rest, rfl, hnewline⟩
  · rw [cutAfter_of_not_mem hnewline, cutAfter_of_not_mem (hpiece h hnewline)]
    exact ⟨h, rfl⟩
  · obtain ⟨front, _, hfront, hmarked, rfl⟩ := encode?_append_eq_some_iff.mp h
    obtain ⟨newline, after, hmark, hafter, rfl⟩ := encode?_cons_eq_some_iff.mp hmarked
    rw [encodeChar?_newline he] at hmark
    obtain rfl := Option.some.inj hmark
    rw [List.singleton_append, cutAfter_append_mark hnewline,
      cutAfter_append_mark (hpiece hfront hnewline)]
    refine ⟨encode?_append_eq_some_iff.mpr ⟨front, [0x0a], hfront, ?_, rfl⟩, hafter⟩
    rw [encode?, encodeChar?_newline he]
    rfl

end

end Encoding

namespace Stream

section

variable (codecs : Codecs) {e : Encoding} {name : String}

/-- One read of the bytes of a text gives what a read of the text gives, and
leaves the bytes of what that leaves. -/
theorem readLine_encoded (he : e ≠ .utf16le) (hname : Encoding.ofName? name = some e)
    {content : String} {encoded : List UInt8} (h : e.encode? content.toList = some encoded)
    (other : String) :
    ∃ (line left : String) (leftBytes : List UInt8),
      (text content).readLine codecs other = (.ok line, text left) ∧
      (bytes encoded).readLine codecs name = (.ok line, bytes leftBytes) ∧
      e.encode? left.toList = some leftBytes := by
  obtain ⟨hline, hrest⟩ := Encoding.encode?_cutAfter he h
  have hread : readBytes codecs name (cutAfter 0x0a encoded).line =
      .ok (String.ofList (dropNewline (cutAfter '\n' content.toList).line)) :=
    (readBytes_eq_ok_iff hname).mpr ⟨_, hline, rfl⟩
  refine ⟨_, String.ofList (cutAfter '\n' content.toList).rest, (cutAfter 0x0a encoded).rest,
    rfl, ?_, ?_⟩
  · rw [readLine, ← hread, readBytes]
  · rw [String.toList_ofList, hrest]

/-- Where the newline is one byte, any number of reads of the bytes of a text
succeed, give the lines that as many reads of the text give, and leave the bytes
of what those leave. -/
theorem bytes_read_like_text (he : e ≠ .utf16le) (hname : Encoding.ofName? name = some e)
    {content : String} {encoded : List UInt8} (h : e.encode? content.toList = some encoded)
    (other : String) (k : Nat) :
    ∃ (lines : List String) (left : String) (leftBytes : List UInt8), lines.length = k ∧
      (text content).readLines codecs other k = (lines.map .ok, text left) ∧
      (bytes encoded).readLines codecs name k = (lines.map .ok, bytes leftBytes) ∧
      e.encode? left.toList = some leftBytes := by
  induction k generalizing content encoded with
  | zero => exact ⟨[], content, encoded, rfl, rfl, rfl, h⟩
  | succ k ih =>
    obtain ⟨line, left, leftBytes, htext, hbytes, hleft⟩ := readLine_encoded codecs he hname h other
    obtain ⟨lines, last, lastBytes, hlength, htexts, hbytess, hlast⟩ := ih hleft
    refine ⟨line :: lines, last, lastBytes, congrArg (· + 1) hlength, ?_, ?_, hlast⟩
    · rw [readLines, htext]
      simp only [htexts]
      rfl
    · rw [readLines, hbytes]
      simp only [hbytess]
      rfl

/-- A text in Latin-1, read beyond its last line. -/
theorem latin1_read_like_text :
    Encoding.latin1 ≠ .utf16le ∧ Encoding.ofName? "iso.8859.1" = some .latin1 ∧
      Encoding.latin1.encode? "\u00e9\r\n\nb".toList = some [0xe9, 0x0d, 0x0a, 0x0a, 0x62] ∧
      ∃ (lines : List String) (left : String) (leftBytes : List UInt8), lines.length = 4 ∧
        (text "\u00e9\r\n\nb").readLines .none "utf-8" 4 = (lines.map .ok, text left) ∧
        (bytes [0xe9, 0x0d, 0x0a, 0x0a, 0x62]).readLines .none "iso.8859.1" 4 =
          (lines.map .ok, bytes leftBytes) ∧
        Encoding.latin1.encode? left.toList = some leftBytes := by
  have he : Encoding.latin1 ≠ .utf16le := by decide
  have hname : Encoding.ofName? "iso.8859.1" = some .latin1 := by decide +kernel
  have hencoded : Encoding.latin1.encode? "\u00e9\r\n\nb".toList =
      some [0xe9, 0x0d, 0x0a, 0x0a, 0x62] := by
    decide
  exact ⟨he, hname, hencoded, bytes_read_like_text .none he hname hencoded "utf-8" 4⟩

end

end Stream

end LineTokens

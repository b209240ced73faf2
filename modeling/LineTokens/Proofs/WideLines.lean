import LineTokens.Proofs.EncodedLines

/-!
Lines of UTF-16. The byte 0x0a, behind which lines are cut, is the first half of
the newline and may be either half of other code units. Behind a first half the
cut leaves half a code unit, which is no text, so a line in front of a newline is
read only where its last character has ended it before.
-/

namespace LineTokens

/-! ### The byte 0x0a in characters -/

namespace Utf16

/-- The characters from U+0A00 to U+0AFF but U+0A0A. Of their two bytes, the
second is 0x0a and the first is not. -/
def EndsInMark (c : Char) : Prop := c.toNat / 256 = 0x0a ∧ c.toNat % 256 ≠ 0x0a

instance (c : Char) : Decidable (EndsInMark c) := inferInstanceAs (Decidable (_ ∧ _))

theorem EndsInMark.ne_newline {c : Char} (h : EndsInMark c) : c ≠ '\n' := by
  rintro rfl
  exact absurd h (by decide)

theorem newline_not_mem {text : List Char} (h : ∀ c ∈ text, 0x0a ∉ encodeChar c) :
    '\n' ∉ text := by
  intro hmem
  exact h '\n' hmem (by decide)

theorem mark_eq_ofNat_iff {n : Nat} : (0x0a : UInt8) = UInt8.ofNat n ↔ n % 256 = 0x0a := by
  rw [← UInt8.toNat_inj, UInt8.toNat_ofNat']
  exact eq_comm

theorem encodeChar_of_endsInMark {c : Char} (h : EndsInMark c) :
    encodeChar c = [UInt8.ofNat c.toNat, 0x0a] ∧ 0x0a ∉ [UInt8.ofNat c.toNat] := by
  obtain ⟨hhigh, hlow⟩ := h
  rw [encodeChar, if_pos (by omega), unitBytes, hhigh, List.mem_singleton, mark_eq_ofNat_iff]
  exact ⟨rfl, hlow⟩

@[simp] theorem length_unitBytes (u : Nat) : (unitBytes u).length = 2 := rfl

theorem unitBytes_of_mem {u : Nat} (hu : u < 0x10000) (hmem : 0x0a ∈ unitBytes u)
    (h : u / 256 = 0x0a → u % 256 = 0x0a) :
    ∃ b, unitBytes u = [0x0a, b] := by
  rw [unitBytes, List.mem_pair, mark_eq_ofNat_iff, mark_eq_ofNat_iff] at hmem
  have hfirst : u % 256 = 0x0a := by omega
  exact ⟨UInt8.ofNat (u / 256), by rw [unitBytes, ← mark_eq_ofNat_iff.mpr hfirst]⟩

/-- Where the byte 0x0a is in another character, it is the first half of a code
unit: the second halves of surrogates lie far above. -/
theorem exists_half_of_mem {c : Char} (hmem : 0x0a ∈ encodeChar c) (h : ¬ EndsInMark c) :
    ∃ start rest, encodeChar c = start ++ 0x0a :: rest ∧ 0x0a ∉ start ∧
      start.length % 2 = 0 := by
  have hnumber : c.toNat < 0x110000 := by
    have hvalid : c.toNat < 0xD800 ∨ 0xDFFF < c.toNat ∧ c.toNat < 0x110000 := c.valid
    omega
  unfold encodeChar at hmem ⊢
  unfold EndsInMark at h
  generalize c.toNat = n at hmem h hnumber
  split at hmem
  · next hone =>
    obtain ⟨b, hunit⟩ := unitBytes_of_mem hone hmem (by omega)
    rw [if_pos hone, hunit]
    exact ⟨[], [b], rfl, List.not_mem_nil, rfl⟩
  · next htwo =>
    rw [if_neg htwo]
    by_cases hfirst : 0x0a ∈ unitBytes (highSurrogate n)
    · have hhigh : IsHighSurrogate (highSurrogate n) := isHighSurrogate_highSurrogate hnumber
      obtain ⟨b, hunit⟩ := unitBytes_of_mem (by omega) hfirst (by omega)
      refine ⟨[], b :: unitBytes (lowSurrogate n), ?_, List.not_mem_nil, rfl⟩
      rw [hunit, List.cons_append, List.singleton_append, List.nil_append]
    · have hlow : IsLowSurrogate (lowSurrogate n) := isLowSurrogate_lowSurrogate n
      have hsecond := (List.mem_append.mp hmem).resolve_left hfirst
      obtain ⟨b, hunit⟩ := unitBytes_of_mem (by omega) hsecond (by omega)
      exact ⟨unitBytes (highSurrogate n), [b], by rw [hunit], hfirst, by rw [length_unitBytes]⟩

theorem even_length_encodeChar (c : Char) : (encodeChar c).length % 2 = 0 := by
  unfold encodeChar
  split <;> simp

end Utf16

/-- A text is without some characters, or has a first one of them. -/
theorem forall_not_or_first (p : Char → Prop) [DecidablePred p] (text : List Char) :
    (∀ c ∈ text, ¬ p c) ∨
      ∃ before c after, text = before ++ c :: after ∧ (∀ d ∈ before, ¬ p d) ∧ p c := by
  cases hfind : text.find? (p ·) with
  | none => exact .inl (by simpa using hfind)
  | some c =>
    obtain ⟨hc, before, after, htext, hbefore⟩ := List.find?_eq_some_iff_append.mp hfind
    exact .inr ⟨before, c, after, htext, by simpa using hbefore, by simpa using hc⟩

namespace Encoding

theorem even_length_of_encode? {text : List Char} {bytes : List UInt8}
    (h : utf16le.encode? text = some bytes) : bytes.length % 2 = 0 := by
  induction text generalizing bytes with
  | nil =>
    obtain rfl := Option.some.inj h
    rfl
  | cons c text ih =>
    obtain ⟨front, rest, hfront, hrest, rfl⟩ := encode?_cons_eq_some_iff.mp h
    obtain rfl := Option.some.inj hfront
    have hchar := Utf16.even_length_encodeChar c
    have htext := ih hrest
    rw [List.length_append]
    omega

/-- Bytes of code units with half of one behind them are no text. -/
theorem exists_decode_error_of_odd_length {bytes : List UInt8} (h : bytes.length % 2 = 1) :
    ∃ error, utf16le.decode bytes = .error error := by
  cases hdecode : utf16le.decode bytes with
  | error error => exact ⟨error, rfl⟩
  | ok text =>
    have heven := even_length_of_encode? (decode_eq_ok_iff.mp hdecode)
    omega

/-- The bytes in front of the first character that has the byte 0x0a. -/
theorem exists_bytes_before_mark {before after : List Char} {c : Char} {bytes : List UInt8}
    (h : utf16le.encode? (before ++ c :: after) = some bytes)
    (hbefore : ∀ d ∈ before, 0x0a ∉ Utf16.encodeChar d) :
    ∃ front rest, utf16le.encode? before = some front ∧ 0x0a ∉ front ∧
      bytes = front ++ (Utf16.encodeChar c ++ rest) := by
  obtain ⟨front, _, hfront, hmarked, rfl⟩ := encode?_append_eq_some_iff.mp h
  obtain ⟨_, rest, hchar, -, rfl⟩ := encode?_cons_eq_some_iff.mp hmarked
  obtain rfl := Option.some.inj hchar
  refine ⟨front, rest, hfront, ?_, rfl⟩
  refine not_mem_of_encode? hfront fun d hd bytes hbytes => ?_
  obtain rfl := Option.some.inj hbytes
  exact hbefore d hd

end Encoding

/-! ### Reads -/

namespace Stream

section

variable {codecs : Codecs} {name : String}
  (hname : Encoding.ofName? name = some .utf16le) {content : String}
  {encoded : List UInt8} (h : Encoding.utf16le.encode? content.toList = some encoded)

include hname h

/-- Without the byte 0x0a, the whole text is one line. -/
theorem readLine_of_no_mark (hmark : ∀ c ∈ content.toList, 0x0a ∉ Utf16.encodeChar c) :
    ((bytes encoded).readLine codecs name).1 = .ok (String.ofList content.toList) := by
  have hbytes : 0x0a ∉ encoded := by
    refine Encoding.not_mem_of_encode? h fun c hc front hfront => ?_
    obtain rfl := Option.some.inj hfront
    exact hmark c hc
  have hnewline : '\n' ∉ content.toList := Utf16.newline_not_mem hmark
  have hread : readBytes codecs name encoded = .ok (String.ofList content.toList) :=
    (readBytes_eq_ok_iff hname).mpr ⟨_, h, by rw [dropNewline_of_not_mem hnewline]⟩
  rw [← hread, readLine, cutAfter_of_not_mem hbytes, readBytes]

section

variable {before after : List Char} {c : Char} (htext : content.toList = before ++ c :: after)
  (hbefore : ∀ d ∈ before, 0x0a ∉ Utf16.encodeChar d)

include htext hbefore

/-- A line ends behind a character whose last byte alone is 0x0a. -/
theorem readLine_of_endsInMark (hc : Utf16.EndsInMark c) :
    ((bytes encoded).readLine codecs name).1 = .ok (String.ofList (before ++ [c])) := by
  rw [htext] at h
  obtain ⟨front, rest, hfront, hfree, rfl⟩ := Encoding.exists_bytes_before_mark h hbefore
  obtain ⟨hchar, hlow⟩ := Utf16.encodeChar_of_endsInMark hc
  have hline : (cutAfter 0x0a (front ++ (Utf16.encodeChar c ++ rest))).line =
      front ++ Utf16.encodeChar c := by
    have hsplit : Utf16.encodeChar c ++ rest = [UInt8.ofNat c.toNat] ++ 0x0a :: rest := by
      rw [hchar]
      rfl
    rw [cutAfter_append_of_not_mem hfree, hsplit, cutAfter_append_mark hlow, hchar]
    rfl
  have hwhole : Encoding.utf16le.encode? (before ++ [c]) = some (front ++ Utf16.encodeChar c) :=
    Encoding.encode?_append_eq_some_iff.mpr
      ⟨front, Utf16.encodeChar c, hfront, Encoding.encode?_cons_eq_some_iff.mpr
        ⟨_, [], rfl, rfl, List.append_nil _⟩, rfl⟩
  have hlast : dropNewline (before ++ [c]) = before ++ [c] := by
    rw [dropNewline, List.getLast?_concat, if_neg (by simpa using hc.ne_newline)]
  have hread : readBytes codecs name (front ++ Utf16.encodeChar c) =
      .ok (String.ofList (before ++ [c])) :=
    (readBytes_eq_ok_iff hname).mpr ⟨_, hwhole, by rw [hlast]⟩
  rw [← hread, readLine, hline, readBytes]

/-- A line that ends between the halves of a code unit is refused. -/
theorem readLine_of_half (hmem : 0x0a ∈ Utf16.encodeChar c) (hc : ¬ Utf16.EndsInMark c) :
    ∃ error, ((bytes encoded).readLine codecs name).1 = .error (.undecodable error) := by
  rw [htext] at h
  obtain ⟨front, rest, hfront, hfree, rfl⟩ := Encoding.exists_bytes_before_mark h hbefore
  obtain ⟨start, more, hchar, hstart, heven⟩ := Utf16.exists_half_of_mem hmem hc
  have hline : (cutAfter 0x0a (front ++ (Utf16.encodeChar c ++ rest))).line =
      front ++ (start ++ [0x0a]) := by
    rw [cutAfter_append_of_not_mem hfree, hchar, List.append_assoc, List.cons_append,
      cutAfter_append_mark hstart]
  have hodd : (front ++ (start ++ [0x0a])).length % 2 = 1 := by
    have hfrontEven := Encoding.even_length_of_encode? hfront
    simp only [List.length_append, List.length_singleton]
    omega
  obtain ⟨error, herror⟩ := Encoding.exists_decode_error_of_odd_length hodd
  exact ⟨error, by rw [← readBytes_of_decode_error hname herror, readLine, hline, readBytes]⟩

end

/-- The three ways in which a read can go, told by the first character that has
the byte 0x0a. -/
theorem readLine_cases :
    ((∀ c ∈ content.toList, 0x0a ∉ Utf16.encodeChar c) ∧
        ((bytes encoded).readLine codecs name).1 = .ok (String.ofList content.toList)) ∨
      (∃ before c, before ++ [c] <+: content.toList ∧
        (∀ d ∈ before, 0x0a ∉ Utf16.encodeChar d) ∧ Utf16.EndsInMark c ∧
        ((bytes encoded).readLine codecs name).1 = .ok (String.ofList (before ++ [c]))) ∨
      ∃ error, ((bytes encoded).readLine codecs name).1 = .error (.undecodable error) := by
  rcases forall_not_or_first (0x0a ∈ Utf16.encodeChar ·) content.toList with
    hfree | ⟨before, c, after, htext, hbefore, hmem⟩
  · exact .inl ⟨hfree, readLine_of_no_mark hname h hfree⟩
  by_cases hc : Utf16.EndsInMark c
  · have hfront : before ++ [c] <+: content.toList := ⟨after, by rw [htext]; simp⟩
    exact .inr (.inl
      ⟨before, c, hfront, hbefore, hc, readLine_of_endsInMark hname h htext hbefore hc⟩)
  · exact .inr (.inr (readLine_of_half hname h htext hbefore hmem hc))

/-- The first line is read exactly if the byte 0x0a is nowhere in the text, or
first in the last character of the line, as its last byte alone. -/
theorem readLine_eq_first_line_iff :
    ((bytes encoded).readLine codecs name).1 = .ok (String.ofList (pieceAt '\n' content.toList 0)) ↔
      (∀ c ∈ content.toList, 0x0a ∉ Utf16.encodeChar c) ∨
        ∃ before c, pieceAt '\n' content.toList 0 = before ++ [c] ∧
          (∀ d ∈ before, 0x0a ∉ Utf16.encodeChar d) ∧ Utf16.EndsInMark c := by
  constructor
  · intro hread
    rcases readLine_cases hname h with
      ⟨hfree, -⟩ | ⟨before, c, -, hbefore, hc, hline⟩ | ⟨error, herror⟩
    · exact .inl hfree
    · rw [hline] at hread
      have hfirst : before ++ [c] = pieceAt '\n' content.toList 0 :=
        String.ofList_injective (Except.ok.inj hread)
      exact .inr ⟨before, c, hfirst.symm, hbefore, hc⟩
    · rw [herror] at hread
      cases hread
  · rintro (hfree | ⟨before, c, hline, hbefore, hc⟩)
    · rw [pieceAt_zero_of_not_mem (Utf16.newline_not_mem hfree)]
      exact readLine_of_no_mark hname h hfree
    · obtain ⟨after, htext⟩ := pieceAt_zero_isPrefix '\n' content.toList
      rw [hline, List.append_assoc] at htext
      rw [hline]
      exact readLine_of_endsInMark hname h htext.symm hbefore hc

/-- Whatever is read is a part of the first line, from its start on. -/
theorem prefix_or_undecodable :
    (∃ line : String, ((bytes encoded).readLine codecs name).1 = .ok line ∧
        line.toList <+: pieceAt '\n' content.toList 0) ∨
      ∃ error, ((bytes encoded).readLine codecs name).1 = .error (.undecodable error) := by
  rcases readLine_cases hname h with
    ⟨hfree, hread⟩ | ⟨before, c, hfront, hbefore, hc, hread⟩ | hrefused
  · refine .inl ⟨_, hread, [], ?_⟩
    rw [List.append_nil, String.toList_ofList,
      pieceAt_zero_of_not_mem (Utf16.newline_not_mem hfree)]
  · refine .inl ⟨_, hread, ?_⟩
    have hline : '\n' ∉ before ++ [c] := by
      simpa [hc.ne_newline.symm] using Utf16.newline_not_mem hbefore
    rw [String.toList_ofList]
    exact isPrefix_pieceAt_zero hline hfront
  · exact .inr hrefused

/-- A read of a text in UTF-16 gives its first line exactly if the byte 0x0a is
nowhere in the text, or first in the last character of the line, as its last
byte alone. A newline has this byte, so that a line before one is read in the
second case only. Otherwise some part of the line is read, or nothing. -/
theorem reads_wide_line_iff :
    let read := ((bytes encoded).readLine codecs name).1
    let first := pieceAt '\n' content.toList 0
    (read = .ok (String.ofList first) ↔
      (∀ c ∈ content.toList, 0x0a ∉ Utf16.encodeChar c) ∨
        ∃ before c, first = before ++ [c] ∧ (∀ d ∈ before, 0x0a ∉ Utf16.encodeChar d) ∧
          Utf16.EndsInMark c) ∧
      ((∃ line : String, read = .ok line ∧ line.toList <+: first) ∨
        ∃ error, read = .error (.undecodable error)) :=
  ⟨readLine_eq_first_line_iff hname h, prefix_or_undecodable hname h⟩

end

/-- U+0A05 ends the line before a newline. -/
theorem reads_wide_line_before_newline :
    Encoding.ofName? "UTF-16LE" = some .utf16le ∧
      Encoding.utf16le.encode? "a\u0a05\nb".toList =
        some [0x61, 0x00, 0x05, 0x0a, 0x0a, 0x00, 0x62, 0x00] ∧
      ((bytes [0x61, 0x00, 0x05, 0x0a, 0x0a, 0x00, 0x62, 0x00]).readLine .none "UTF-16LE").1 =
        .ok "a\u0a05" := by
  have hname : Encoding.ofName? "UTF-16LE" = some .utf16le := by decide +kernel
  have hencoded : Encoding.utf16le.encode? "a\u0a05\nb".toList =
      some [0x61, 0x00, 0x05, 0x0a, 0x0a, 0x00, 0x62, 0x00] := by
    decide
  refine ⟨hname, hencoded, (reads_wide_line_iff hname hencoded).1.mpr (.inr ?_)⟩
  exact ⟨['a'], '\u0a05', by decide, List.forall_mem_singleton.mpr (by decide), by decide⟩

/-- Nothing is read of a line that a newline ends, nor of a character with the
byte of a newline. -/
theorem wide_line_refused_at_newline :
    Encoding.utf16le.encode? "a\n".toList = some [0x61, 0x00, 0x0a, 0x00] ∧
      ((bytes [0x61, 0x00, 0x0a, 0x00]).readLine .none "utf-16-le").1 =
        .error (.undecodable ⟨"utf-16-le", "truncated data", 2, [0x0a]⟩) ∧
      Encoding.utf16le.encode? "\u010a".toList = some [0x0a, 0x01] ∧
      ((bytes [0x0a, 0x01]).readLine .none "utf-16-le").1 =
        .error (.undecodable ⟨"utf-16-le", "truncated data", 0, [0x0a]⟩) := by
  exact ⟨by decide, by decide +kernel, by decide, by decide +kernel⟩

end Stream

end LineTokens

import LineTokens.Proofs.RoundTrip
import LineTokens.Proofs.StreamLines

/-!
Reading lines of bytes strictly and without loss. A line of bytes is read
exactly if it is an encoded text, and can then be written again from what was
read, up to the newline at its end. Bytes that Unicode rules out are refused
wherever they stand in a line.
-/

namespace LineTokens

/-! ### Ill-formed bytes -/

namespace Utf8

/-- A number spelled in two bytes, whether it needs them or not. -/
def spellTwo (n : Nat) : List UInt8 :=
  [UInt8.ofNat (n / 64 % 32 + 192), UInt8.ofNat (n % 64 + 128)]

/-- A number spelled in three bytes, whether it needs them or not. -/
def spellThree (n : Nat) : List UInt8 :=
  [UInt8.ofNat (n / 4096 % 16 + 224), UInt8.ofNat (n / 64 % 64 + 128), UInt8.ofNat (n % 64 + 128)]

/-- A number spelled in four bytes, whether it needs them or not. -/
def spellFour (n : Nat) : List UInt8 :=
  [UInt8.ofNat (n / 262144 % 8 + 240), UInt8.ofNat (n / 4096 % 64 + 128),
    UInt8.ofNat (n / 64 % 64 + 128), UInt8.ofNat (n % 64 + 128)]

/-- In front of the bytes stands a number spelled with more bytes than it needs,
a surrogate, or a character that breaks off before its last byte. -/
inductive IllFormed : List UInt8 → Prop
  | overlongTwo {n : Nat} (after : List UInt8) : n < 0x80 → IllFormed (spellTwo n ++ after)
  | overlongThree {n : Nat} (after : List UInt8) : n < 0x800 → IllFormed (spellThree n ++ after)
  | overlongFour {n : Nat} (after : List UInt8) : n < 0x10000 → IllFormed (spellFour n ++ after)
  | surrogate {n : Nat} (after : List UInt8) :
      0xD800 ≤ n → n < 0xE000 → IllFormed (spellThree n ++ after)
  | truncated {c : Char} {start missing after : List UInt8} :
      String.utf8EncodeChar c = start ++ missing → start ≠ [] → missing ≠ [] →
      (∀ b ∈ after.head?, ¬ IsContinuation b) → IllFormed (start ++ after)

section

variable {a b : UInt8} {rest : List UInt8} {c : Char} {tail : Nat}

theorem front_ne_char_of_lt (hlow : 0x80 ≤ a) (hhigh : a < 0xC2) : front a rest ≠ .char c tail := by
  have hfirst : ¬ a < 0x80 := UInt8.not_lt.mpr hlow
  intro hfront
  rw [front.eq_def, if_neg hfirst, if_pos (.inl hhigh)] at hfront
  cases hfront

theorem front_ne_char_of_not_isSecond (ha : 0x80 ≤ a) (hb : ¬ IsSecond a b) :
    front a (b :: rest) ≠ .char c tail := by
  have hfirst : ¬ a < 0x80 := UInt8.not_lt.mpr ha
  intro hfront
  rw [front.eq_def, if_neg hfirst] at hfront
  split at hfront
  · cases hfront
  · simp only [if_neg hb] at hfront
    split at hfront <;> cases hfront

theorem front_ne_char_of_truncated {start missing after : List UInt8}
    (hchar : String.utf8EncodeChar c = a :: (start ++ missing)) (hmissing : missing ≠ [])
    (hafter : ∀ b ∈ after.head?, ¬ IsContinuation b) {d : Char} :
    front a (start ++ after) ≠ .char d tail := by
  intro hfront
  -- The first byte tells how many belong to it, so one of those behind `start` would.
  obtain ⟨hwhole, -⟩ := trailing_of_utf8EncodeChar hchar
  obtain ⟨htaken, hcontinuation⟩ := trailing_of_utf8EncodeChar (utf8EncodeChar_of_front hfront)
  have hlength : 0 < missing.length := List.length_pos_iff.mpr hmissing
  rw [← hwhole, List.length_take, List.length_append, List.length_append] at htaken
  cases after with
  | nil =>
    rw [List.length_nil] at htaken
    omega
  | cons b after =>
    have hmem : b ∈ (start ++ b :: after).take tail := by
      rw [List.take_append, List.take_cons (by omega)]
      simp
    exact hafter b rfl (hcontinuation b hmem)

end

theorem front_ne_char_of_illFormed {bytes : List UInt8} (h : IllFormed bytes) :
    ∃ a rest, bytes = a :: rest ∧ ∀ c tail, front a rest ≠ .char c tail := by
  cases h with
  | @overlongTwo n after hn =>
    refine ⟨_, _, rfl, fun c tail => front_ne_char_of_lt ?_ ?_⟩
    · exact ofNat_le_ofNat (m := 0x80) (by omega) (by omega)
    · exact ofNat_lt_ofNat (n := 0xC2) (by omega) (by omega)
  | @overlongThree n after hn =>
    refine ⟨_, _, rfl, fun c tail => front_ne_char_of_not_isSecond ?_ ?_⟩
    · exact ofNat_le_ofNat (m := 0x80) (by omega) (by omega)
    · intro hsecond
      have hlead : n / 4096 % 16 + 224 = 0xE0 := by omega
      have hlong := (isSecond_iff.mp hsecond).2.1 (by rw [hlead]; rfl)
      have hshort : UInt8.ofNat (n / 64 % 64 + 128) < 0xA0 :=
        ofNat_lt_ofNat (n := 0xA0) (by omega) (by omega)
      exact absurd hlong (UInt8.not_le.mpr hshort)
  | @overlongFour n after hn =>
    refine ⟨_, _, rfl, fun c tail => front_ne_char_of_not_isSecond ?_ ?_⟩
    · exact ofNat_le_ofNat (m := 0x80) (by omega) (by omega)
    · intro hsecond
      have hlead : n / 262144 % 8 + 240 = 0xF0 := by omega
      have hlong := (isSecond_iff.mp hsecond).2.2.1 (by rw [hlead]; rfl)
      have hshort : UInt8.ofNat (n / 4096 % 64 + 128) < 0x90 :=
        ofNat_lt_ofNat (n := 0x90) (by omega) (by omega)
      exact absurd hlong (UInt8.not_le.mpr hshort)
  | @surrogate n after hlow hhigh =>
    refine ⟨_, _, rfl, fun c tail => front_ne_char_of_not_isSecond ?_ ?_⟩
    · exact ofNat_le_ofNat (m := 0x80) (by omega) (by omega)
    · intro hsecond
      have hlead : n / 4096 % 16 + 224 = 0xED := by omega
      have hmost := (isSecond_iff.mp hsecond).2.2.2.1 (by rw [hlead]; rfl)
      have hmore : 0x9F < UInt8.ofNat (n / 64 % 64 + 128) :=
        ofNat_lt_ofNat (m := 0x9F) (by omega) (by omega)
      exact absurd hmost (UInt8.not_le.mpr hmore)
  | @truncated c start missing after hchar hstart hmissing hafter =>
    cases start with
    | nil => exact absurd rfl hstart
    | cons a start =>
      exact ⟨a, start ++ after, rfl, fun _ _ => front_ne_char_of_truncated hchar hmissing hafter⟩

/-- Something ill-formed starts like a character, with no byte that follows only. -/
theorem lead_of_illFormed {bytes : List UInt8} (h : IllFormed bytes) :
    ∃ a rest, bytes = a :: rest ∧ ¬ IsContinuation a := by
  have hlead {n : Nat} (hlow : 0xC0 ≤ n) (hhigh : n < 256) : ¬ IsContinuation (UInt8.ofNat n) := by
    rw [isContinuation_iff_toNat, UInt8.toNat_ofNat']
    omega
  cases h with
  | overlongTwo after hn => exact ⟨_, _, rfl, hlead (by omega) (by omega)⟩
  | overlongThree after hn => exact ⟨_, _, rfl, hlead (by omega) (by omega)⟩
  | overlongFour after hn => exact ⟨_, _, rfl, hlead (by omega) (by omega)⟩
  | surrogate after hlow hhigh => exact ⟨_, _, rfl, hlead (by omega) (by omega)⟩
  | @truncated c start missing after hchar hstart hmissing hafter =>
    cases start with
    | nil => exact absurd rfl hstart
    | cons a start =>
      refine ⟨a, start ++ after, rfl, fun ha => ?_⟩
      obtain ⟨lead, tail, hencode, hfront⟩ := front_utf8EncodeChar c []
      rw [hchar] at hencode
      obtain ⟨rfl, -⟩ := List.cons.inj hencode
      have hhigh : a < 0xC2 := UInt8.lt_of_le_of_lt ha.2 (by decide)
      exact front_ne_char_of_lt ha.1 hhigh hfront

end Utf8

namespace Utf16

/-- In front of the bytes stands half a code unit with nothing behind it, or a
surrogate that is no part of a pair. -/
inductive IllFormed : List UInt8 → Prop
  | truncated (a : UInt8) : IllFormed [a]
  | loneLow {a b : UInt8} (after : List UInt8) :
      IsLowSurrogate (unit a b) → IllFormed (a :: b :: after)
  | loneHigh {a b : UInt8} {after : List UInt8} :
      IsHighSurrogate (unit a b) →
      (∀ c d rest, after = c :: d :: rest → ¬ IsLowSurrogate (unit c d)) →
      IllFormed (a :: b :: after)

theorem front_ne_char_of_illFormed {bytes : List UInt8} (h : IllFormed bytes) :
    ∃ a rest, bytes = a :: rest ∧ ∀ c tail, front a rest ≠ .char c tail := by
  cases h with
  | truncated a => exact ⟨a, [], rfl, nofun⟩
  | @loneLow a b after hlow =>
    refine ⟨a, b :: after, rfl, fun c tail => ?_⟩
    unfold front
    simp only [if_pos hlow]
    nofun
  | @loneHigh a b after hhigh halone =>
    have hlow : ¬ IsLowSurrogate (unit a b) := by omega
    refine ⟨a, b :: after, rfl, fun c tail => ?_⟩
    unfold front
    simp only [if_neg hlow, if_pos hhigh]
    split
    · next third fourth rest =>
      simp only [if_neg (halone third fourth rest rfl)]
      nofun
    · nofun

end Utf16

namespace Encoding

/-- In front of the bytes stands something that Unicode rules out of the
encoding. The encodings with one byte for each character have no such rule. -/
def IllFormed : Encoding → List UInt8 → Prop
  | utf8 => Utf8.IllFormed
  | utf16le => Utf16.IllFormed
  | ascii | latin1 => fun _ => False

variable {e : Encoding}

theorem exists_scan_error_of_illFormed {bytes : List UInt8} (h : e.IllFormed bytes)
    (offset : Nat) : ∃ error, (e.scan offset bytes).strict = .error error := by
  have hfront : ∃ a rest, bytes = a :: rest ∧ ∀ c tail, e.front a rest ≠ .char c tail := by
    cases e with
    | utf8 => exact Utf8.front_ne_char_of_illFormed h
    | utf16le => exact Utf16.front_ne_char_of_illFormed h
    | ascii | latin1 => cases h
  obtain ⟨a, rest, rfl, hnone⟩ := hfront
  cases hwhat : e.front a rest with
  | char c tail => exact absurd hwhat (hnone c tail)
  | incomplete reason width => exact ⟨_, by rw [scan_cons_of_incomplete hwhat]; rfl⟩
  | invalid reason width => exact ⟨_, by rw [scan_cons_of_invalid hwhat]; rfl⟩

/-- Ill-formed bytes behind any text keep the whole from being decoded. -/
theorem exists_decode_error_of_illFormed {text : List Char} {before bytes : List UInt8}
    (hbefore : e.encode? text = some before) (h : e.IllFormed bytes) :
    ∃ error, e.decode (before ++ bytes) = .error error := by
  obtain ⟨error, herror⟩ := exists_scan_error_of_illFormed h (0 + before.length)
  refine ⟨error, ?_⟩
  rw [decode, scan_append_of_encode? hbefore, Scan.strict_followedBy_of_complete, herror]
  rfl

/-- In UTF-8, an encoded text is cut between characters in front of every byte
that does not follow only. -/
theorem exists_encode?_before_lead {whole : List Char} {before rest : List UInt8} {a : UInt8}
    (h : utf8.encode? whole = some (before ++ a :: rest)) (ha : ¬ Utf8.IsContinuation a) :
    ∃ text, utf8.encode? text = some before := by
  induction whole generalizing before with
  | nil => simp [encode?] at h
  | cons c whole ih =>
    obtain ⟨front, others, hfront, hothers, happend⟩ := encode?_cons_eq_some_iff.mp h
    rcases List.append_eq_append_iff.mp happend with ⟨more, rfl, hmore⟩ | ⟨more, rfl, hmore⟩
    · rw [hmore] at hothers
      obtain ⟨text, htext⟩ := ih hothers
      exact ⟨c :: text, encode?_cons_eq_some_iff.mpr ⟨_, _, hfront, htext, rfl⟩⟩
    · cases more with
      | nil =>
        rw [List.append_nil] at hfront
        exact ⟨[c], encode?_cons_eq_some_iff.mpr ⟨_, [], hfront, rfl, List.append_nil _⟩⟩
      | cons b more =>
        obtain ⟨rfl, -⟩ := List.cons.inj hmore
        -- The byte is in the character, so it is the first one of it.
        cases before with
        | nil => exact ⟨[], rfl⟩
        | cons lead before =>
          have hchar : String.utf8EncodeChar c = lead :: (before ++ a :: more) :=
            Option.some.inj hfront
          have hfollows := (Utf8.trailing_of_utf8EncodeChar hchar).2 a (by simp)
          exact absurd hfollows ha

/-- Ill-formed bytes keep the whole from being decoded in UTF-8, whatever stands
in front of them. -/
theorem exists_decode_error_of_illFormed_utf8 {bytes : List UInt8} (h : Utf8.IllFormed bytes)
    (before : List UInt8) : ∃ error, utf8.decode (before ++ bytes) = .error error := by
  obtain ⟨a, rest, rfl, ha⟩ := Utf8.lead_of_illFormed h
  cases hdecode : utf8.decode (before ++ a :: rest) with
  | error error => exact ⟨error, rfl⟩
  | ok whole =>
    obtain ⟨text, htext⟩ := exists_encode?_before_lead (decode_eq_ok_iff.mp hdecode) ha
    obtain ⟨error, herror⟩ := exists_decode_error_of_illFormed (e := utf8) htext h
    rw [hdecode] at herror
    cases herror

theorem exists_encode?_newline (e : Encoding) : ∃ newline, e.encode? ['\n'] = some newline := by
  cases e <;> exact ⟨_, rfl⟩

end Encoding

/-! ### Lines -/

theorem eq_dropNewline (l : List Char) : l = dropNewline l ∨ l = dropNewline l ++ ['\n'] := by
  unfold dropNewline
  split
  · next hlast => exact .inr (List.dropLast_append_getLast? _ hlast).symm
  · exact .inl rfl

section

variable {codecs : Codecs} {e : Encoding} {name : String}
  (hname : Encoding.ofName? name = some e)

include hname

theorem null_not_mem_of_ofName? : '\x00' ∉ name.toList := by
  have hgoes := List.find?_some hname
  exact (of_decide_eq_true hgoes).1

/-- One of the four encodings decodes alike, whatever others there are. -/
theorem decodeNamed_of_name (bytes : List UInt8) :
    decodeNamed codecs name bytes = (e.decode bytes).mapError .undecodable := by
  unfold decodeNamed
  rw [if_neg (null_not_mem_of_ofName? hname)]
  split
  · next hempty =>
    rw [hempty, Encoding.decode, Encoding.scan]
    rfl
  · rw [hname]

theorem readBytes_of_decode_error {line : List UInt8} {error : DecodeError}
    (h : e.decode line = .error error) :
    readBytes codecs name line = .error (.undecodable error) := by
  rw [readBytes, decodeNamed_of_name hname, h]
  rfl

/-- Only an encoded text is read, without the newline at its end. -/
theorem readBytes_eq_ok_iff {line : List UInt8} {text : String} :
    readBytes codecs name line = .ok text ↔
      ∃ whole, e.encode? whole = some line ∧ String.ofList (dropNewline whole) = text := by
  simp only [readBytes, decodeNamed_of_name hname, ← Encoding.decode_eq_ok_iff]
  cases e.decode line <;> simp [Except.mapError, Except.map]

theorem exists_readBytes_eq_ok_iff {line : List UInt8} :
    (∃ text, readBytes codecs name line = .ok text) ↔
      ∃ text : String, e.encode? text.toList = some line := by
  simp only [readBytes_eq_ok_iff hname]
  constructor
  · rintro ⟨_, whole, hwhole, -⟩
    exact ⟨String.ofList whole, by rw [String.toList_ofList, hwhole]⟩
  · rintro ⟨text, htext⟩
    exact ⟨_, text.toList, htext, rfl⟩

/-- The line that was read, written again, is the line that was there, up to the
newline at its end. -/
theorem encode?_of_readBytes {line : List UInt8} {text : String}
    (h : readBytes codecs name line = .ok text) :
    e.encode? text.toList = some line ∨ e.encode? (text.toList ++ ['\n']) = some line := by
  obtain ⟨whole, hwhole, rfl⟩ := (readBytes_eq_ok_iff hname).mp h
  rw [String.toList_ofList]
  rcases eq_dropNewline whole with heq | heq
  · rw [heq] at hwhole
    exact .inl hwhole
  · rw [heq] at hwhole
    exact .inr hwhole

/-- Two lines that are read alike are one, or differ by a newline at the end. -/
theorem eq_of_readBytes_eq {line line' : List UInt8} {text : String}
    (h : readBytes codecs name line = .ok text) (h' : readBytes codecs name line' = .ok text) :
    ∃ newline, e.encode? ['\n'] = some newline ∧
      (line' = line ∨ line' = line ++ newline ∨ line = line' ++ newline) := by
  obtain ⟨newline, hnewline⟩ := e.exists_encode?_newline
  refine ⟨newline, hnewline, ?_⟩
  have hends {bytes : List UInt8} (hbytes : e.encode? (text.toList ++ ['\n']) = some bytes) :
      ∃ front, e.encode? text.toList = some front ∧ bytes = front ++ newline := by
    obtain ⟨front, rest, hfront, hrest, rfl⟩ := Encoding.encode?_append_eq_some_iff.mp hbytes
    rw [hnewline] at hrest
    exact ⟨front, hfront, congrArg (front ++ ·) (Option.some.inj hrest).symm⟩
  rcases encode?_of_readBytes hname h with hline | hline <;>
    rcases encode?_of_readBytes hname h' with hline' | hline'
  · rw [hline] at hline'
    exact .inl (Option.some.inj hline').symm
  · obtain ⟨front, hfront, rfl⟩ := hends hline'
    rw [hline] at hfront
    exact .inr (.inl (congrArg (· ++ newline) (Option.some.inj hfront).symm))
  · obtain ⟨front, hfront, rfl⟩ := hends hline
    rw [hline'] at hfront
    exact .inr (.inr (congrArg (· ++ newline) (Option.some.inj hfront).symm))
  · rw [hline] at hline'
    exact .inl (Option.some.inj hline').symm

end

namespace Stream

/-- What a read takes off a byte stream is what it decodes. -/
theorem readLine_of_taken {codecs : Codecs} {name : String} {line rest : List UInt8}
    (h : ((bytes (line ++ rest)).readLine codecs name).2 = .bytes rest) :
    ((bytes (line ++ rest)).readLine codecs name).1 = readBytes codecs name line := by
  have hrest : (cutAfter 0x0a (line ++ rest)).rest = rest := Stream.bytes.inj h
  have hcut := cutAfter_line_append_rest 0x0a (line ++ rest)
  rw [hrest] at hcut
  have hline : (cutAfter 0x0a (line ++ rest)).line = line := List.append_cancel_right hcut
  rw [readLine, hline, readBytes]

/-- Reading bytes is strict and loses nothing. Of every byte stream a read takes
a line, and it succeeds exactly if this line is an encoded text. The text read,
written again, is the line or the line without the newline at its end, so that
lines read alike differ by this newline at most. A line in which something
ill-formed stands behind encoded text is refused, and in UTF-8 so is one in which
it stands behind anything else. -/
theorem read_is_strict_and_lossless (codecs : Codecs) {name : String} {e : Encoding}
    (hname : Encoding.ofName? name = some e) (content : List UInt8) :
    let read := (bytes content).readLine codecs name
    ∃ line rest, content = line ++ rest ∧ read.2 = bytes rest ∧
      ((∃ text, read.1 = .ok text) ↔ ∃ text : String, e.encode? text.toList = some line) ∧
      (∀ text, read.1 = .ok text →
        e.encode? text.toList = some line ∨ e.encode? (text.toList ++ ['\n']) = some line) ∧
      (∀ line' rest' text, ((bytes (line' ++ rest')).readLine codecs name).2 = bytes rest' →
        read.1 = .ok text → ((bytes (line' ++ rest')).readLine codecs name).1 = .ok text →
        ∃ newline, e.encode? ['\n'] = some newline ∧
          (line' = line ∨ line' = line ++ newline ∨ line = line' ++ newline)) ∧
      (∀ text before after, e.encode? text = some before → e.IllFormed after →
        line = before ++ after → ∃ error, read.1 = .error (.undecodable error)) ∧
      (e = .utf8 → ∀ before after, Utf8.IllFormed after → line = before ++ after →
        ∃ error, read.1 = .error (.undecodable error)) := by
  intro read
  have hcontent := cutAfter_line_append_rest 0x0a content
  have hread : read.1 = readBytes codecs name (cutAfter 0x0a content).line := rfl
  refine ⟨(cutAfter 0x0a content).line, (cutAfter 0x0a content).rest, hcontent.symm, rfl, ?_⟩
  generalize (cutAfter 0x0a content).line = line at hread
  rw [hread]
  refine ⟨exists_readBytes_eq_ok_iff hname, fun text => encode?_of_readBytes hname, ?_, ?_, ?_⟩
  · intro line' rest' text htaken htext htext'
    rw [readLine_of_taken htaken] at htext'
    exact eq_of_readBytes_eq hname htext htext'
  · rintro text before after hbefore hill rfl
    obtain ⟨error, herror⟩ := Encoding.exists_decode_error_of_illFormed hbefore hill
    exact ⟨error, readBytes_of_decode_error hname herror⟩
  · rintro rfl before after hill rfl
    obtain ⟨error, herror⟩ := Encoding.exists_decode_error_of_illFormed_utf8 hill before
    exact ⟨error, readBytes_of_decode_error hname herror⟩

/-- A newline spelled in two bytes does not end a line and is not read. -/
theorem read_refuses_overlong_newline :
    Encoding.ofName? "UTF_8" = some .utf8 ∧
      ∃ error, ((bytes [0x61, 0xc0, 0x8a, 0x0a, 0x62]).readLine .none "UTF_8").1 =
        .error (.undecodable error) := by
  have hname : Encoding.ofName? "UTF_8" = some .utf8 := by decide +kernel
  obtain ⟨line, rest, hcontent, hrest, -, -, -, hrefused, -⟩ :=
    read_is_strict_and_lossless .none hname [0x61, 0xc0, 0x8a, 0x0a, 0x62]
  have htaken : rest = [0x62] := (Stream.bytes.inj hrest).symm
  have hline : line = [0x61] ++ (Utf8.spellTwo 10 ++ [0x0a]) := by
    rw [htaken] at hcontent
    have hsplit : [0x61, 0xc0, 0x8a, 0x0a] ++ [0x62] = line ++ [0x62] := hcontent
    exact (List.append_cancel_right hsplit).symm
  have hill : Encoding.utf8.IllFormed (Utf8.spellTwo 10 ++ [0x0a]) := .overlongTwo _ (by decide)
  exact ⟨hname, hrefused ['a'] [0x61] _ (by decide) hill hline⟩

end Stream

end LineTokens

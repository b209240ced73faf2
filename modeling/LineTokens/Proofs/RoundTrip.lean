import LineTokens.Proofs.Utf8
import LineTokens.Proofs.Utf16

/-!
Decoding against encoding, in every encoding. What stands in front of bytes is a
character exactly if the bytes that encode it stand there, so strict decoding
accepts exactly the encoded texts and gives each of them back.
-/

namespace LineTokens

namespace Encoding

variable {e : Encoding}

/-! ### One character -/

/-- What stands in front of an encoded character and more bytes is this
character, with all of its bytes. -/
theorem front_of_encodeChar? {c : Char} {bytes : List UInt8} (h : e.encodeChar? c = some bytes)
    (rest : List UInt8) :
    ∃ a tail, bytes = a :: tail ∧ e.front a (tail ++ rest) = .char c tail.length := by
  cases e with
  | utf8 =>
    obtain ⟨a, tail, hbytes, hfront⟩ := Utf8.front_utf8EncodeChar c rest
    exact ⟨a, tail, (Option.some.inj h).symm.trans hbytes, hfront⟩
  | utf16le =>
    obtain ⟨a, tail, hbytes, hfront⟩ := Utf16.front_encodeChar c rest
    exact ⟨a, tail, (Option.some.inj h).symm.trans hbytes, hfront⟩
  | ascii =>
    rw [encodeChar?, Option.ite_none_right_eq_some] at h
    obtain ⟨hnumber, hbytes⟩ := h
    have hfirst : (UInt8.ofNat c.toNat).toNat = c.toNat :=
      UInt8.toNat_ofNat_of_lt (Nat.lt_trans hnumber (by decide))
    have hlow : UInt8.ofNat c.toNat < 0x80 := by
      rw [UInt8.lt_iff_toNat_lt, hfirst]
      exact hnumber
    refine ⟨_, _, (Option.some.inj hbytes).symm, ?_⟩
    rw [front, Ascii.front, if_pos hlow, hfirst, Char.ofNat_toNat]
    rfl
  | latin1 =>
    rw [encodeChar?, Option.ite_none_right_eq_some] at h
    obtain ⟨hnumber, hbytes⟩ := h
    have hfirst : (UInt8.ofNat c.toNat).toNat = c.toNat := UInt8.toNat_ofNat_of_lt hnumber
    refine ⟨_, _, (Option.some.inj hbytes).symm, ?_⟩
    rw [front, Latin1.front, hfirst, Char.ofNat_toNat]
    rfl

/-- What is taken off the front for a character are the bytes that encode it. -/
theorem encodeChar?_of_front {a : UInt8} {rest : List UInt8} {c : Char} {tail : Nat}
    (h : e.front a rest = .char c tail) : e.encodeChar? c = some (a :: rest.take tail) := by
  have hbyte : a.toNat < 0x100 := a.toNat_lt
  have hnumber : (Char.ofNat a.toNat).toNat = a.toNat :=
    toNat_ofNat_of_isValidChar (.inl (by omega))
  cases e with
  | utf8 => exact congrArg some (Utf8.utf8EncodeChar_of_front h)
  | utf16le => exact congrArg some (Utf16.encodeChar_of_front h)
  | ascii =>
    rw [front, Ascii.front] at h
    split at h
    · next hlow =>
      have hsmall : a.toNat < 0x80 := UInt8.lt_iff_toNat_lt.mp hlow
      obtain ⟨rfl, rfl⟩ := Front.char.inj h
      rw [encodeChar?, hnumber, if_pos hsmall, UInt8.ofNat_toNat]
      rfl
    · cases h
  | latin1 =>
    obtain ⟨rfl, rfl⟩ := Front.char.inj h
    rw [encodeChar?, hnumber, if_pos hbyte, UInt8.ofNat_toNat]
    rfl

/-- All bytes of a character in front are there. -/
theorem length_take_of_front {a : UInt8} {rest : List UInt8} {c : Char} {tail : Nat}
    (h : e.front a rest = .char c tail) : (rest.take tail).length = tail := by
  obtain ⟨_, _, hbytes, hfront⟩ := front_of_encodeChar? (encodeChar?_of_front h) (rest.drop tail)
  obtain ⟨rfl, rfl⟩ := List.cons.inj hbytes
  rw [List.take_append_drop, h] at hfront
  exact (Front.char.inj hfront).2.symm

/-! ### Texts -/

/-- An encoded text is scanned to its end, and then what follows it. -/
theorem scan_append_of_encode? {text : List Char} {bytes : List UInt8}
    (h : e.encode? text = some bytes) (offset : Nat) (rest : List UInt8) :
    e.scan offset (bytes ++ rest) =
      (Scan.mk text .complete).followedBy (e.scan (offset + bytes.length) rest) := by
  induction text generalizing bytes offset with
  | nil =>
    obtain rfl := Option.some.inj h
    rfl
  | cons c text ih =>
    obtain ⟨first, others, hfirst, hothers, rfl⟩ := encode?_cons_eq_some_iff.mp h
    obtain ⟨a, tail, rfl, hfront⟩ := front_of_encodeChar? hfirst (others ++ rest)
    have hoffset : offset + 1 + tail.length + others.length =
        offset + (a :: tail ++ others).length := by
      rw [List.length_append, List.length_cons]
      omega
    rw [List.append_assoc, List.cons_append, scan_cons_of_char hfront, List.drop_left,
      ih hothers, hoffset, ← Scan.push_followedBy]
    rfl

theorem scan_of_encode? {text : List Char} {bytes : List UInt8} (h : e.encode? text = some bytes)
    (offset : Nat) : e.scan offset bytes = ⟨text, .complete⟩ := by
  have hscan := scan_append_of_encode? h offset []
  rw [List.append_nil, scan] at hscan
  rw [hscan]
  exact congrArg (Scan.mk · .complete) (List.append_nil text)

theorem encode?_of_scan {offset : Nat} {bytes : List UInt8} {text : List Char}
    (h : (e.scan offset bytes).strict = .ok text) : e.encode? text = some bytes := by
  fun_induction scan e offset bytes generalizing text with
  | case1 offset =>
    obtain rfl := Except.ok.inj h
    rfl
  | case2 offset a rest c tail hchar ih =>
    rw [Scan.strict_push] at h
    cases hstrict : (e.scan (offset + 1 + tail) (rest.drop tail)).strict with
    | error error =>
      rw [hstrict] at h
      cases h
    | ok others =>
      rw [hstrict] at h
      obtain rfl := Except.ok.inj h
      refine encode?_cons_eq_some_iff.mpr
        ⟨_, _, encodeChar?_of_front hchar, ih hstrict, ?_⟩
      rw [List.cons_append, List.take_append_drop]
  | case3 offset a rest reason width hincomplete => cases h
  | case4 offset a rest reason width hinvalid => cases h

/-- Strict decoding accepts exactly the encoded texts. -/
theorem decode_eq_ok_iff {bytes : List UInt8} {text : List Char} :
    e.decode bytes = .ok text ↔ e.encode? text = some bytes := by
  constructor
  · exact encode?_of_scan
  · intro h
    rw [decode, scan_of_encode? h]
    rfl

/-- Every text can be written in UTF-8. -/
theorem encode?_utf8 (text : List Char) :
    utf8.encode? text = some (text.flatMap String.utf8EncodeChar) := by
  induction text with
  | nil => rfl
  | cons c text ih => exact encode?_cons_eq_some_iff.mpr ⟨_, _, rfl, ih, rfl⟩

end Encoding

end LineTokens

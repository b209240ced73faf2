import LineTokens.Encoding.Decode

/-!
Scans of bytes, whatever the encoding. An error says where in the scanned bytes
the offending ones stand, and bytes that stand further on are scanned alike,
with every place moved by as much.
-/

namespace LineTokens

theorem toNat_ofNat_of_isValidChar {n : Nat} (h : n.isValidChar) : (Char.ofNat n).toNat = n := by
  rw [Char.ofNat, dif_pos h]
  rfl

theorem ofNat_eq_of_toNat {n : Nat} {b : UInt8} (h : n % 256 = b.toNat) : UInt8.ofNat n = b := by
  rw [← UInt8.toNat_inj, UInt8.toNat_ofNat']
  exact h

/-- The same error in data with `n` more bytes in front. -/
def DecodeError.shift (n : Nat) (e : DecodeError) : DecodeError :=
  { e with offset := n + e.offset }

theorem DecodeError.shift_injective {n : Nat} {e e' : DecodeError}
    (h : e.shift n = e'.shift n) : e = e' := by
  cases e
  cases e'
  simpa [shift] using h

namespace Scan

def Ending.shift (n : Nat) : Ending → Ending
  | .complete => .complete
  | .incomplete e => .incomplete (e.shift n)
  | .invalid e => .invalid (e.shift n)

/-- The same scan of bytes with `n` more in front. -/
def shift (n : Nat) (s : Scan) : Scan :=
  { s with ending := s.ending.shift n }

/-- A scan that goes on with `t` if it comes to the end of its own bytes. -/
def followedBy (s t : Scan) : Scan :=
  match s.ending with
  | .complete => ⟨s.text ++ t.text, t.ending⟩
  | _ => s

theorem push_followedBy (c : Char) (s t : Scan) :
    (s.push c).followedBy t = (s.followedBy t).push c := by
  obtain ⟨text, ending⟩ := s
  cases ending <;> rfl

theorem strict_push (c : Char) (s : Scan) : (s.push c).strict = s.strict.map (c :: ·) := by
  obtain ⟨text, ending⟩ := s
  cases ending <;> rfl

theorem strict_followedBy_of_complete (text : List Char) (t : Scan) :
    ((Scan.mk text .complete).followedBy t).strict = t.strict.map (text ++ ·) := by
  obtain ⟨more, ending⟩ := t
  cases ending <;> rfl

end Scan

namespace Encoding

variable {e : Encoding} {a : UInt8} {rest : List UInt8}

theorem scan_cons_of_char {c : Char} {tail : Nat} (h : e.front a rest = .char c tail)
    (offset : Nat) :
    e.scan offset (a :: rest) = (e.scan (offset + 1 + tail) (rest.drop tail)).push c := by
  rw [scan, h]

theorem scan_cons_of_invalid {reason : DecodeError.Reason} {width : Nat}
    (h : e.front a rest = .invalid reason width) (offset : Nat) :
    e.scan offset (a :: rest) =
      ⟨[], .invalid ⟨e.name, reason.text, offset, (a :: rest).take width⟩⟩ := by
  rw [scan, h]

theorem scan_cons_of_incomplete {reason : DecodeError.Reason} {width : Nat}
    (h : e.front a rest = .incomplete reason width) (offset : Nat) :
    e.scan offset (a :: rest) =
      ⟨[], .incomplete ⟨e.name, reason.text, offset, (a :: rest).take width⟩⟩ := by
  rw [scan, h]

/-- The offending bytes of an error stand where it says. -/
theorem exists_split_of_scan {offset : Nat} {bytes : List UInt8} {error : DecodeError}
    (h : (e.scan offset bytes).strict = .error error) :
    ∃ before after, bytes = before ++ error.bytes ++ after ∧
      error.offset = offset + before.length := by
  have hfront (offset width : Nat) (reason : DecodeError.Reason) (bytes : List UInt8)
      (herror : error = ⟨e.name, reason.text, offset, bytes.take width⟩) :
      ∃ before after, bytes = before ++ error.bytes ++ after ∧
        error.offset = offset + before.length := by
    subst herror
    exact ⟨[], bytes.drop width, (List.take_append_drop width bytes).symm, rfl⟩
  fun_induction scan e offset bytes with
  | case1 offset => cases h
  | case2 offset a rest c tail hchar ih =>
    rw [Scan.strict_push] at h
    cases hstrict : (e.scan (offset + 1 + tail) (rest.drop tail)).strict with
    | ok text =>
      rw [hstrict] at h
      cases h
    | error error' =>
      rw [hstrict] at h
      cases h
      obtain ⟨before, after, hdrop, hoffset⟩ := ih hstrict
      -- A scan of no bytes has no error, so the character ends within the bytes.
      have hlength : tail ≤ rest.length := by
        rcases Nat.le_total tail rest.length with hle | hge
        · exact hle
        · rw [List.drop_eq_nil_of_le hge, scan] at hstrict
          cases hstrict
      refine ⟨a :: rest.take tail ++ before, after, ?_, ?_⟩
      · calc
          a :: rest = a :: (rest.take tail ++ rest.drop tail) := by
            rw [List.take_append_drop]
          _ = a :: rest.take tail ++ before ++ error.bytes ++ after := by
            simp [hdrop]
      · simp only [hoffset, List.length_append, List.length_cons, List.length_take]
        omega
  | case3 offset a rest reason width hincomplete =>
    exact hfront _ _ _ _ (Except.error.inj h).symm
  | case4 offset a rest reason width hinvalid =>
    exact hfront _ _ _ _ (Except.error.inj h).symm

theorem scan_shift (e : Encoding) (n offset : Nat) (bytes : List UInt8) :
    e.scan (n + offset) bytes = (e.scan offset bytes).shift n := by
  fun_induction scan e offset bytes with
  | case1 offset =>
    rw [scan]
    rfl
  | case2 offset a rest c tail hchar ih =>
    rw [scan_cons_of_char hchar, Nat.add_assoc n, Nat.add_assoc n, ih]
    rfl
  | case3 offset a rest reason width hincomplete =>
    rw [scan_cons_of_incomplete hincomplete]
    rfl
  | case4 offset a rest reason width hinvalid =>
    rw [scan_cons_of_invalid hinvalid]
    rfl

end Encoding

end LineTokens

import LineTokens.Encoding.Encode
import LineTokens.Proofs.Decoding

/-!
UTF-16 as it is written and as it is read from the front. Two bytes tell a code
unit and a code unit tells its two bytes; a number beyond U+FFFF and its pair of
surrogates tell each other.
-/

namespace LineTokens.Utf16

/-! ### Code units -/

theorem unit_ofNat {u : Nat} (h : u < 0x10000) :
    unit (UInt8.ofNat u) (UInt8.ofNat (u / 256)) = u := by
  rw [unit, UInt8.toNat_ofNat', UInt8.toNat_ofNat']
  omega

theorem unitBytes_unit (a b : UInt8) : unitBytes (unit a b) = [a, b] := by
  have ha : a.toNat < 256 := a.toNat_lt
  have hb : b.toNat < 256 := b.toNat_lt
  unfold unitBytes unit
  rw [ofNat_eq_of_toNat (b := a) (by omega), ofNat_eq_of_toNat (b := b) (by omega)]

theorem unit_lt (a b : UInt8) : unit a b < 0x10000 := by
  have ha : a.toNat < 256 := a.toNat_lt
  have hb : b.toNat < 256 := b.toNat_lt
  unfold unit
  omega

/-! ### Surrogates -/

section

variable {n : Nat}

theorem isHighSurrogate_highSurrogate (h : n < 0x110000) : IsHighSurrogate (highSurrogate n) := by
  unfold highSurrogate
  omega

theorem isLowSurrogate_lowSurrogate (n : Nat) : IsLowSurrogate (lowSurrogate n) := by
  unfold lowSurrogate
  omega

theorem combine_surrogates (h : 0x10000 ≤ n) :
    combine (highSurrogate n) (lowSurrogate n) = Char.ofNat n := by
  have hnumber : 0x10000 + (highSurrogate n - 0xD800) * 0x400 + (lowSurrogate n - 0xDC00) = n := by
    unfold highSurrogate lowSurrogate
    omega
  rw [combine, hnumber]

theorem encodeChar_combine {high low : Nat} (hhigh : IsHighSurrogate high)
    (hlow : IsLowSurrogate low) :
    encodeChar (combine high low) = unitBytes high ++ unitBytes low := by
  have hvalid : Nat.isValidChar (0x10000 + (high - 0xD800) * 0x400 + (low - 0xDC00)) :=
    .inr (by omega)
  have hfirst :
      highSurrogate (0x10000 + (high - 0xD800) * 0x400 + (low - 0xDC00)) = high := by
    unfold highSurrogate
    omega
  have hsecond :
      lowSurrogate (0x10000 + (high - 0xD800) * 0x400 + (low - 0xDC00)) = low := by
    unfold lowSurrogate
    omega
  rw [encodeChar, combine, toNat_ofNat_of_isValidChar hvalid, if_neg (by omega), hfirst, hsecond]

end

/-! ### The front -/

section

variable {a b c d : UInt8} (rest : List UInt8)

theorem front_unit (hlow : ¬ IsLowSurrogate (unit a b)) (hhigh : ¬ IsHighSurrogate (unit a b)) :
    front a (b :: rest) = .char (Char.ofNat (unit a b)) 1 := by
  unfold front
  simp only [if_neg hlow, if_neg hhigh]

theorem front_pair (hhigh : IsHighSurrogate (unit a b)) (hlow : IsLowSurrogate (unit c d)) :
    front a (b :: c :: d :: rest) = .char (combine (unit a b) (unit c d)) 3 := by
  have hnot : ¬ IsLowSurrogate (unit a b) := by omega
  unfold front
  simp only [if_neg hnot, if_pos hhigh, if_pos hlow]

end

/-- What stands in front of an encoded character and more bytes is this
character, with all of its bytes. -/
theorem front_encodeChar (c : Char) (rest : List UInt8) :
    ∃ a tail, encodeChar c = a :: tail ∧ front a (tail ++ rest) = .char c tail.length := by
  have hvalid : c.toNat < 0xD800 ∨ 0xDFFF < c.toNat ∧ c.toNat < 0x110000 := c.valid
  have hchar : Char.ofNat c.toNat = c := Char.ofNat_toNat c
  unfold encodeChar
  generalize c.toNat = n at hvalid hchar
  subst hchar
  split
  · next hone =>
    refine ⟨_, _, rfl, ?_⟩
    have hunit := unit_ofNat hone
    have hfront := front_unit (a := UInt8.ofNat n) (b := UInt8.ofNat (n / 256)) rest
      (by rw [hunit]; omega) (by rw [hunit]; omega)
    rw [hunit] at hfront
    exact hfront
  · next htwo =>
    refine ⟨_, _, rfl, ?_⟩
    have hhigh : IsHighSurrogate (highSurrogate n) := isHighSurrogate_highSurrogate (by omega)
    have hlow : IsLowSurrogate (lowSurrogate n) := isLowSurrogate_lowSurrogate n
    have hfirst := unit_ofNat (u := highSurrogate n) (by omega)
    have hsecond := unit_ofNat (u := lowSurrogate n) (by omega)
    have hfront := front_pair rest (hfirst.symm ▸ hhigh) (hsecond.symm ▸ hlow)
    rw [hfirst, hsecond, combine_surrogates (by omega)] at hfront
    exact hfront

/-- What is taken off the front for a character are the bytes that encode it. -/
theorem encodeChar_of_front {a : UInt8} {rest : List UInt8} {c : Char} {tail : Nat}
    (h : front a rest = .char c tail) : encodeChar c = a :: rest.take tail := by
  unfold front at h
  cases rest with
  | nil => cases h
  | cons b rest =>
    by_cases hlow : IsLowSurrogate (unit a b)
    · simp only [if_pos hlow] at h
      cases h
    by_cases hhigh : IsHighSurrogate (unit a b)
    · simp only [if_neg hlow, if_pos hhigh] at h
      split at h
      · next third fourth rest =>
        by_cases hsecond : IsLowSurrogate (unit third fourth)
        · simp only [if_pos hsecond] at h
          obtain ⟨rfl, rfl⟩ := Front.char.inj h
          rw [encodeChar_combine hhigh hsecond, unitBytes_unit, unitBytes_unit]
          rfl
        · simp only [if_neg hsecond] at h
          cases h
      · cases h
    · simp only [if_neg hlow, if_neg hhigh] at h
      obtain ⟨rfl, rfl⟩ := Front.char.inj h
      have hlt := unit_lt a b
      have hvalid : (unit a b).isValidChar := by
        unfold Nat.isValidChar
        omega
      rw [encodeChar, toNat_ofNat_of_isValidChar hvalid, if_pos hlt, unitBytes_unit]
      rfl

end LineTokens.Utf16

import Mathlib.Tactic.SplitIfs
import LineTokens.Proofs.Decoding

/-!
UTF-8 as it is written and as it is read from the front. What stands in front of
an encoded character is this character, and nothing is taken off for a character
but the bytes that encode it. A newline is never part of a longer character, so
that a scan starts afresh behind each one, unless invalid bytes have stopped it
before.
-/

namespace LineTokens

/-- The bytes of a text in UTF-8. -/
def utf8Bytes (text : String) : List UInt8 := text.toUTF8.data.toList

theorem utf8Bytes_eq_flatMap (text : String) :
    utf8Bytes text = text.toList.flatMap String.utf8EncodeChar := by
  have hencode : text.toUTF8 = text.toList.utf8Encode := String.utf8Encode_toList.symm
  rw [utf8Bytes, hencode, List.utf8Encode, List.data_toByteArray]

namespace Utf8

/-! ### Characters of one to four bytes -/

theorem isSecond_iff {a b : UInt8} :
    IsSecond a b ↔ IsContinuation b ∧ (a = 0xE0 → 0xA0 ≤ b) ∧ (a = 0xF0 → 0x90 ≤ b) ∧
      (a = 0xED → b ≤ 0x9F) ∧ (a = 0xF4 → b ≤ 0x8F) := by
  grind [leastSecond, greatestSecond]

section

variable {a b c d : UInt8} (rest : List UInt8)

theorem front_one (ha : a < 0x80) : front a rest = .char (assemble a.toNat []) 0 := by
  rw [front.eq_def, if_pos ha]

theorem front_two (hlow : 0xC2 ≤ a) (hhigh : a < 0xE0) (hb : IsContinuation b) :
    front a (b :: rest) = .char (assemble (a.toNat % 32) [b]) 1 := by
  have hfirst : ¬ a < 0x80 := by grind
  have hlead : ¬ (a < 0xC2 ∨ 0xF4 < a) := by grind
  have hsecond : IsSecond a b := by
    rw [isSecond_iff]
    grind
  rw [front.eq_def, if_neg hfirst, if_neg hlead]
  simp only [if_pos hsecond, if_pos hhigh]

theorem front_more (hlow : 0xE0 ≤ a) (hhigh : a ≤ 0xF4) (hb : IsSecond a b) :
    front a (b :: rest) = frontAfterTwo a b rest := by
  have hfirst : ¬ a < 0x80 := by grind
  have hlead : ¬ (a < 0xC2 ∨ 0xF4 < a) := by grind
  have htwo : ¬ a < 0xE0 := by grind
  rw [front.eq_def, if_neg hfirst, if_neg hlead]
  simp only [if_pos hb, if_neg htwo]

theorem front_three (hlow : 0xE0 ≤ a) (hhigh : a < 0xF0) (hb : IsSecond a b)
    (hc : IsContinuation c) :
    front a (b :: c :: rest) = .char (assemble (a.toNat % 16) [b, c]) 2 := by
  have hmost : a ≤ 0xF4 := by grind
  rw [front_more (c :: rest) hlow hmost hb, frontAfterTwo.eq_def]
  simp only [if_pos hc, if_pos hhigh]

theorem front_four (hlow : 0xF0 ≤ a) (hhigh : a ≤ 0xF4) (hb : IsSecond a b)
    (hc : IsContinuation c) (hd : IsContinuation d) :
    front a (b :: c :: d :: rest) = .char (assemble (a.toNat % 8) [b, c, d]) 3 := by
  have hleast : 0xE0 ≤ a := by grind
  have hthree : ¬ a < 0xF0 := by grind
  rw [front_more (c :: d :: rest) hleast hhigh hb, frontAfterTwo.eq_def]
  simp only [if_pos hc, if_neg hthree, if_pos hd]

end

/-! ### Encoded characters -/

theorem ofNat_le_ofNat {m n : Nat} (h : m ≤ n) (hn : n < 256) :
    UInt8.ofNat m ≤ UInt8.ofNat n := by
  rw [UInt8.le_iff_toNat_le, UInt8.toNat_ofNat', UInt8.toNat_ofNat']
  omega

theorem ofNat_lt_ofNat {m n : Nat} (h : m < n) (hn : n < 256) :
    UInt8.ofNat m < UInt8.ofNat n := by
  rw [UInt8.lt_iff_toNat_lt, UInt8.toNat_ofNat', UInt8.toNat_ofNat']
  omega

theorem ofNat_inj_of_lt {m n : Nat} (hm : m < 256) (hn : n < 256)
    (h : UInt8.ofNat m = UInt8.ofNat n) : m = n := by
  have htoNat := congrArg UInt8.toNat h
  rw [UInt8.toNat_ofNat', UInt8.toNat_ofNat'] at htoNat
  omega

theorem isContinuation_ofNat (n : Nat) : IsContinuation (UInt8.ofNat (n % 64 + 128)) := by
  constructor
  · exact ofNat_le_ofNat (m := 0x80) (by omega) (by omega)
  · exact ofNat_le_ofNat (n := 0xBF) (by omega) (by omega)

/-- The numbers of the bytes that encode a character make up its number. -/
theorem assemble_ofNat {lead n : Nat} {tail : List UInt8}
    (h : tail.foldl (fun n b => n * 64 + b.toNat % 64) lead = n) :
    assemble lead tail = Char.ofNat n := by
  rw [assemble, h]

section

variable {n : Nat} (rest : List UInt8)

theorem front_encoded_one (h : n < 0x80) :
    front (UInt8.ofNat n) rest = .char (Char.ofNat n) 0 := by
  have ha : UInt8.ofNat n < 0x80 := ofNat_lt_ofNat (n := 0x80) h (by omega)
  rw [front_one rest ha, assemble_ofNat]
  rw [List.foldl_nil, UInt8.toNat_ofNat']
  omega

theorem front_encoded_two (hlow : 0x80 ≤ n) (hhigh : n < 0x800) :
    front (UInt8.ofNat (n / 64 % 32 + 192)) (UInt8.ofNat (n % 64 + 128) :: rest) =
      .char (Char.ofNat n) 1 := by
  have hleast : 0xC2 ≤ UInt8.ofNat (n / 64 % 32 + 192) :=
    ofNat_le_ofNat (m := 0xC2) (by omega) (by omega)
  have hmost : UInt8.ofNat (n / 64 % 32 + 192) < 0xE0 :=
    ofNat_lt_ofNat (n := 0xE0) (by omega) (by omega)
  rw [front_two rest hleast hmost (isContinuation_ofNat n), assemble_ofNat]
  simp only [List.foldl_cons, List.foldl_nil, UInt8.toNat_ofNat']
  omega

/-- The numbers of surrogates are left out: their second byte is out of range. -/
theorem front_encoded_three (hlow : 0x800 ≤ n) (hhigh : n < 0x10000)
    (hsurrogate : n < 0xD800 ∨ 0xDFFF < n) :
    front (UInt8.ofNat (n / 4096 % 16 + 224))
        (UInt8.ofNat (n / 64 % 64 + 128) :: UInt8.ofNat (n % 64 + 128) :: rest) =
      .char (Char.ofNat n) 2 := by
  have hleast : 0xE0 ≤ UInt8.ofNat (n / 4096 % 16 + 224) :=
    ofNat_le_ofNat (m := 0xE0) (by omega) (by omega)
  have hmost : UInt8.ofNat (n / 4096 % 16 + 224) < 0xF0 :=
    ofNat_lt_ofNat (n := 0xF0) (by omega) (by omega)
  have hsecond : IsSecond (UInt8.ofNat (n / 4096 % 16 + 224))
      (UInt8.ofNat (n / 64 % 64 + 128)) := by
    refine isSecond_iff.mpr ⟨isContinuation_ofNat (n / 64), ?_, ?_, ?_, ?_⟩
    · intro h
      have hlead := ofNat_inj_of_lt (n := 0xE0) (by omega) (by omega) h
      exact ofNat_le_ofNat (m := 0xA0) (by omega) (by omega)
    · intro h
      rw [h] at hmost
      exact absurd hmost (by decide)
    · intro h
      have hlead := ofNat_inj_of_lt (n := 0xED) (by omega) (by omega) h
      exact ofNat_le_ofNat (n := 0x9F) (by omega) (by omega)
    · intro h
      rw [h] at hmost
      exact absurd hmost (by decide)
  rw [front_three rest hleast hmost hsecond (isContinuation_ofNat n), assemble_ofNat]
  simp only [List.foldl_cons, List.foldl_nil, UInt8.toNat_ofNat']
  omega

theorem front_encoded_four (hlow : 0x10000 ≤ n) (hhigh : n < 0x110000) :
    front (UInt8.ofNat (n / 262144 % 8 + 240))
        (UInt8.ofNat (n / 4096 % 64 + 128) :: UInt8.ofNat (n / 64 % 64 + 128) ::
          UInt8.ofNat (n % 64 + 128) :: rest) =
      .char (Char.ofNat n) 3 := by
  have hleast : 0xF0 ≤ UInt8.ofNat (n / 262144 % 8 + 240) :=
    ofNat_le_ofNat (m := 0xF0) (by omega) (by omega)
  have hmost : UInt8.ofNat (n / 262144 % 8 + 240) ≤ 0xF4 :=
    ofNat_le_ofNat (n := 0xF4) (by omega) (by omega)
  have hsecond : IsSecond (UInt8.ofNat (n / 262144 % 8 + 240))
      (UInt8.ofNat (n / 4096 % 64 + 128)) := by
    refine isSecond_iff.mpr ⟨isContinuation_ofNat (n / 4096), ?_, ?_, ?_, ?_⟩
    · intro h
      rw [h] at hleast
      exact absurd hleast (by decide)
    · intro h
      have hlead := ofNat_inj_of_lt (n := 0xF0) (by omega) (by omega) h
      exact ofNat_le_ofNat (m := 0x90) (by omega) (by omega)
    · intro h
      rw [h] at hleast
      exact absurd hleast (by decide)
    · intro h
      have hlead := ofNat_inj_of_lt (n := 0xF4) (by omega) (by omega) h
      exact ofNat_le_ofNat (n := 0x8F) (by omega) (by omega)
  rw [front_four rest hleast hmost hsecond (isContinuation_ofNat (n / 64))
    (isContinuation_ofNat n), assemble_ofNat]
  simp only [List.foldl_cons, List.foldl_nil, UInt8.toNat_ofNat']
  omega

end

/-- What stands in front of an encoded character and more bytes is this
character, with all of its bytes. -/
theorem front_utf8EncodeChar (c : Char) (rest : List UInt8) :
    ∃ a tail, String.utf8EncodeChar c = a :: tail ∧
      front a (tail ++ rest) = .char c tail.length := by
  have hvalid : c.toNat < 0xD800 ∨ 0xDFFF < c.toNat ∧ c.toNat < 0x110000 := c.valid
  have hval : c.val.toNat = c.toNat := rfl
  have hchar : Char.ofNat c.toNat = c := Char.ofNat_toNat c
  rw [String.utf8EncodeChar, hval]
  generalize c.toNat = n at hvalid hchar
  subst hchar
  split
  · exact ⟨_, _, rfl, front_encoded_one rest (by omega)⟩
  · split
    · exact ⟨_, _, rfl, front_encoded_two rest (by omega) (by omega)⟩
    · split
      · exact ⟨_, _, rfl, front_encoded_three rest (by omega) (by omega) (by omega)⟩
      · exact ⟨_, _, rfl, front_encoded_four rest (by omega) (by omega)⟩

/-! ### Characters told by their bytes -/

theorem isContinuation_iff_toNat {b : UInt8} :
    IsContinuation b ↔ 0x80 ≤ b.toNat ∧ b.toNat ≤ 0xBF := by
  rw [IsContinuation, UInt8.le_iff_toNat_le, UInt8.le_iff_toNat_le]
  rfl

/-- The bytes of a character, by its number. -/
theorem utf8EncodeChar_ofNat {n : Nat} (h : n.isValidChar) :
    String.utf8EncodeChar (Char.ofNat n) =
      if n ≤ 0x7F then [UInt8.ofNat n]
      else if n ≤ 0x7FF then [UInt8.ofNat (n / 64 % 32 + 192), UInt8.ofNat (n % 64 + 128)]
      else if n ≤ 0xFFFF then
        [UInt8.ofNat (n / 4096 % 16 + 224), UInt8.ofNat (n / 64 % 64 + 128),
          UInt8.ofNat (n % 64 + 128)]
      else
        [UInt8.ofNat (n / 262144 % 8 + 240), UInt8.ofNat (n / 4096 % 64 + 128),
          UInt8.ofNat (n / 64 % 64 + 128), UInt8.ofNat (n % 64 + 128)] := by
  have hval : (Char.ofNat n).val.toNat = n := toNat_ofNat_of_isValidChar h
  rw [String.utf8EncodeChar, hval]

section

variable {a b c d : UInt8}

theorem utf8EncodeChar_one (ha : a < 0x80) :
    String.utf8EncodeChar (assemble a.toNat []) = [a] := by
  have hnumber : a.toNat < 0x80 := UInt8.lt_iff_toNat_lt.mp ha
  rw [assemble, List.foldl_nil, utf8EncodeChar_ofNat (.inl (by omega)), if_pos (by omega),
    UInt8.ofNat_toNat]

theorem utf8EncodeChar_two (hlow : 0xC2 ≤ a) (hhigh : a < 0xE0) (hb : IsContinuation b) :
    String.utf8EncodeChar (assemble (a.toNat % 32) [b]) = [a, b] := by
  have hleast : 0xC2 ≤ a.toNat := UInt8.le_iff_toNat_le.mp hlow
  have hmost : a.toNat < 0xE0 := UInt8.lt_iff_toNat_lt.mp hhigh
  rw [isContinuation_iff_toNat] at hb
  simp only [assemble, List.foldl_cons, List.foldl_nil]
  rw [utf8EncodeChar_ofNat (.inl (by omega)), if_neg (by omega), if_pos (by omega),
    ofNat_eq_of_toNat (b := a) (by omega), ofNat_eq_of_toNat (b := b) (by omega)]

/-- The range of the second byte keeps the number from being too small for
three bytes and from being a surrogate's. -/
theorem utf8EncodeChar_three (hlow : 0xE0 ≤ a) (hhigh : a < 0xF0) (hb : IsSecond a b)
    (hc : IsContinuation c) :
    String.utf8EncodeChar (assemble (a.toNat % 16) [b, c]) = [a, b, c] := by
  obtain ⟨hb, he0, -, hed, -⟩ := isSecond_iff.mp hb
  have hleast : 0xE0 ≤ a.toNat := UInt8.le_iff_toNat_le.mp hlow
  have hmost : a.toNat < 0xF0 := UInt8.lt_iff_toNat_lt.mp hhigh
  have hlong : a.toNat = 0xE0 → 0xA0 ≤ b.toNat := fun h =>
    UInt8.le_iff_toNat_le.mp (he0 (UInt8.toNat_inj.mp h))
  have hsurrogate : a.toNat = 0xED → b.toNat ≤ 0x9F := fun h =>
    UInt8.le_iff_toNat_le.mp (hed (UInt8.toNat_inj.mp h))
  rw [isContinuation_iff_toNat] at hb hc
  simp only [assemble, List.foldl_cons, List.foldl_nil]
  rw [utf8EncodeChar_ofNat (by unfold Nat.isValidChar; omega), if_neg (by omega),
    if_neg (by omega), if_pos (by omega), ofNat_eq_of_toNat (b := a) (by omega),
    ofNat_eq_of_toNat (b := b) (by omega), ofNat_eq_of_toNat (b := c) (by omega)]

/-- The range of the second byte keeps the number from being too small for four
bytes and from lying beyond U+10FFFF. -/
theorem utf8EncodeChar_four (hlow : 0xF0 ≤ a) (hhigh : a ≤ 0xF4) (hb : IsSecond a b)
    (hc : IsContinuation c) (hd : IsContinuation d) :
    String.utf8EncodeChar (assemble (a.toNat % 8) [b, c, d]) = [a, b, c, d] := by
  obtain ⟨hb, -, hf0, -, hf4⟩ := isSecond_iff.mp hb
  have hleast : 0xF0 ≤ a.toNat := UInt8.le_iff_toNat_le.mp hlow
  have hmost : a.toNat ≤ 0xF4 := UInt8.le_iff_toNat_le.mp hhigh
  have hlong : a.toNat = 0xF0 → 0x90 ≤ b.toNat := fun h =>
    UInt8.le_iff_toNat_le.mp (hf0 (UInt8.toNat_inj.mp h))
  have hbeyond : a.toNat = 0xF4 → b.toNat ≤ 0x8F := fun h =>
    UInt8.le_iff_toNat_le.mp (hf4 (UInt8.toNat_inj.mp h))
  rw [isContinuation_iff_toNat] at hb hc hd
  simp only [assemble, List.foldl_cons, List.foldl_nil]
  rw [utf8EncodeChar_ofNat (by unfold Nat.isValidChar; omega), if_neg (by omega),
    if_neg (by omega), if_neg (by omega), ofNat_eq_of_toNat (b := a) (by omega),
    ofNat_eq_of_toNat (b := b) (by omega), ofNat_eq_of_toNat (b := c) (by omega),
    ofNat_eq_of_toNat (b := d) (by omega)]

end

theorem utf8EncodeChar_of_frontAfterTwo {a b : UInt8} {rest : List UInt8} {c : Char} {tail : Nat}
    (hlow : 0xE0 ≤ a) (hhigh : a ≤ 0xF4) (hb : IsSecond a b)
    (h : frontAfterTwo a b rest = .char c tail) :
    String.utf8EncodeChar c = a :: (b :: rest).take tail := by
  unfold frontAfterTwo at h
  cases rest with
  | nil => cases h
  | cons third rest =>
    by_cases hthird : IsContinuation third
    · by_cases hthree : a < 0xF0
      · simp only [if_pos hthird, if_pos hthree] at h
        cases h
        exact utf8EncodeChar_three hlow hthree hb hthird
      · simp only [if_pos hthird, if_neg hthree] at h
        cases rest with
        | nil => cases h
        | cons fourth rest =>
          by_cases hfourth : IsContinuation fourth
          · simp only [if_pos hfourth] at h
            cases h
            exact utf8EncodeChar_four (UInt8.not_lt.mp hthree) hhigh hb hthird hfourth
          · simp only [if_neg hfourth] at h
            cases h
    · simp only [if_neg hthird] at h
      cases h

/-- What is taken off the front for a character are the bytes that encode it. -/
theorem utf8EncodeChar_of_front {a : UInt8} {rest : List UInt8} {c : Char} {tail : Nat}
    (h : front a rest = .char c tail) : String.utf8EncodeChar c = a :: rest.take tail := by
  unfold front at h
  by_cases hfirst : a < 0x80
  · simp only [if_pos hfirst] at h
    cases h
    exact utf8EncodeChar_one hfirst
  by_cases hlead : a < 0xC2 ∨ 0xF4 < a
  · simp only [if_neg hfirst, if_pos hlead] at h
    cases h
  simp only [if_neg hfirst, if_neg hlead] at h
  rw [not_or, UInt8.not_lt, UInt8.not_lt] at hlead
  obtain ⟨hlow, hhigh⟩ := hlead
  cases rest with
  | nil => cases h
  | cons b rest =>
    by_cases hb : IsSecond a b
    · by_cases htwo : a < 0xE0
      · simp only [if_pos hb, if_pos htwo] at h
        cases h
        exact utf8EncodeChar_two hlow htwo (isSecond_iff.mp hb).1
      · simp only [if_pos hb, if_neg htwo] at h
        exact utf8EncodeChar_of_frontAfterTwo (UInt8.not_lt.mp htwo) hhigh hb h
    · by_cases hsurrogate : StartsSurrogate a b ∧ rest = []
      · simp only [if_neg hb, if_pos hsurrogate] at h
        cases h
      · simp only [if_neg hb, if_neg hsurrogate] at h
        cases h

/-- How many bytes belong to the character that starts with this one. -/
def trailing (lead : UInt8) : Nat :=
  if lead < 0xC0 then 0 else if lead < 0xE0 then 1 else if lead < 0xF0 then 2 else 3

/-- The first byte of a character tells how many follow, and these are bytes that
follow only. -/
theorem trailing_of_utf8EncodeChar {c : Char} {a : UInt8} {tail : List UInt8}
    (h : String.utf8EncodeChar c = a :: tail) :
    tail.length = trailing a ∧ ∀ b ∈ tail, IsContinuation b := by
  have hnumber : c.val.toNat < 0x110000 := by
    have hvalid : c.toNat < 0xD800 ∨ 0xDFFF < c.toNat ∧ c.toNat < 0x110000 := c.valid
    have hval : c.val.toNat = c.toNat := rfl
    omega
  unfold String.utf8EncodeChar at h
  generalize c.val.toNat = n at h hnumber
  dsimp only at h
  unfold trailing
  split_ifs at h with hone htwo hthree
  · obtain ⟨rfl, rfl⟩ := List.cons.inj h
    have hlow : UInt8.ofNat n < 0xC0 := ofNat_lt_ofNat (n := 0xC0) (by omega) (by omega)
    simp [hlow]
  · obtain ⟨rfl, rfl⟩ := List.cons.inj h
    have hlow : ¬ UInt8.ofNat (n / 64 % 32 + 192) < 0xC0 :=
      UInt8.not_lt.mpr (ofNat_le_ofNat (m := 0xC0) (by omega) (by omega))
    have hhigh : UInt8.ofNat (n / 64 % 32 + 192) < 0xE0 :=
      ofNat_lt_ofNat (n := 0xE0) (by omega) (by omega)
    simp only [if_neg hlow, if_pos hhigh, List.forall_mem_cons]
    exact ⟨rfl, isContinuation_ofNat _, nofun⟩
  · obtain ⟨rfl, rfl⟩ := List.cons.inj h
    have hlow : ¬ UInt8.ofNat (n / 4096 % 16 + 224) < 0xE0 :=
      UInt8.not_lt.mpr (ofNat_le_ofNat (m := 0xE0) (by omega) (by omega))
    have hhigh : UInt8.ofNat (n / 4096 % 16 + 224) < 0xF0 :=
      ofNat_lt_ofNat (n := 0xF0) (by omega) (by omega)
    have hleast : ¬ UInt8.ofNat (n / 4096 % 16 + 224) < 0xC0 := by grind
    simp only [if_neg hleast, if_neg hlow, if_pos hhigh, List.forall_mem_cons]
    exact ⟨rfl, isContinuation_ofNat _, isContinuation_ofNat _, nofun⟩
  · obtain ⟨rfl, rfl⟩ := List.cons.inj h
    have hlow : ¬ UInt8.ofNat (n / 262144 % 8 + 240) < 0xF0 :=
      UInt8.not_lt.mpr (ofNat_le_ofNat (m := 0xF0) (by omega) (by omega))
    have hleast : ¬ UInt8.ofNat (n / 262144 % 8 + 240) < 0xC0 := by grind
    have hmiddle : ¬ UInt8.ofNat (n / 262144 % 8 + 240) < 0xE0 := by grind
    simp only [if_neg hleast, if_neg hmiddle, if_neg hlow, List.forall_mem_cons]
    exact ⟨rfl, isContinuation_ofNat _, isContinuation_ofNat _, isContinuation_ofNat _, nofun⟩

end Utf8

/-! ### Bytes to come -/

namespace Utf8

section

variable {a b : UInt8} {rest : List UInt8} {reason : DecodeError.Reason} {width : Nat}

theorem frontAfterTwo_append_of_invalid (h : frontAfterTwo a b rest = .invalid reason width)
    (more : List UInt8) : frontAfterTwo a b (rest ++ more) = .invalid reason width := by
  unfold frontAfterTwo at h ⊢
  cases rest with
  | nil => cases h
  | cons c rest =>
    by_cases hc : IsContinuation c
    · by_cases hthree : a < 0xF0
      · simp only [if_pos hc, if_pos hthree] at h
        cases h
      · simp only [List.cons_append, if_pos hc, if_neg hthree] at h ⊢
        cases rest with
        | nil => cases h
        | cons d rest => exact h
    · simp only [List.cons_append, if_neg hc] at h ⊢
      exact h

/-- Bytes that are invalid stay so, whatever comes behind them. -/
theorem front_append_of_invalid (h : front a rest = .invalid reason width) (more : List UInt8) :
    front a (rest ++ more) = .invalid reason width := by
  unfold front at h ⊢
  by_cases hfirst : a < 0x80
  · simp only [if_pos hfirst] at h
    cases h
  by_cases hlead : a < 0xC2 ∨ 0xF4 < a
  · simp only [if_neg hfirst, if_pos hlead] at h ⊢
    exact h
  simp only [if_neg hfirst, if_neg hlead] at h ⊢
  cases rest with
  | nil => cases h
  | cons b rest =>
    by_cases hb : IsSecond a b
    · by_cases htwo : a < 0xE0
      · simp only [if_pos hb, if_pos htwo] at h
        cases h
      · simp only [List.cons_append, if_pos hb, if_neg htwo] at h ⊢
        exact frontAfterTwo_append_of_invalid h more
    · by_cases hsurrogate : StartsSurrogate a b ∧ rest = []
      · simp only [if_neg hb, if_pos hsurrogate] at h
        cases h
      · have hmore : ¬ (StartsSurrogate a b ∧ rest ++ more = []) := by
          rintro ⟨hstarts, hnil⟩
          exact hsurrogate ⟨hstarts, (List.append_eq_nil_iff.mp hnil).1⟩
        simp only [List.cons_append, if_neg hb, if_neg hsurrogate, if_neg hmore] at h ⊢
        exact h

end

end Utf8

/-! ### Newlines -/

namespace Utf8

theorem front_newline (rest : List UInt8) : front 0x0a rest = .char '\n' 0 :=
  front_one rest (by decide)

/-- What is taken off the front ends within the first byte and `length` more,
and does not depend on bytes to come. -/
def EndsWithin (length : Nat) : Front → Prop
  | .char _ tail => tail ≤ length
  | .invalid _ width => width ≤ length + 1
  | .incomplete _ _ => False

theorem not_isContinuation_newline : ¬ IsContinuation 0x0a := by
  decide

theorem not_isSecond_newline (a : UInt8) : ¬ IsSecond a 0x0a := by
  intro h
  exact not_isContinuation_newline (isSecond_iff.mp h).1

theorem not_startsSurrogate_newline (a : UInt8) : ¬ StartsSurrogate a 0x0a := by
  intro h
  exact not_isContinuation_newline h.2

theorem frontAfterTwo_before_newline (a b : UInt8) (rest : List UInt8) :
    ∃ f, EndsWithin (rest.length + 1) f ∧
      ∀ after, frontAfterTwo a b (rest ++ 0x0a :: after) = f := by
  unfold frontAfterTwo
  cases rest with
  | nil =>
    simp only [List.nil_append, if_neg not_isContinuation_newline]
    exact ⟨.invalid .invalidContinuation 2, Nat.le_refl 2, fun _ => rfl⟩
  | cons c rest =>
    by_cases hc : IsContinuation c
    · by_cases hthree : a < 0xF0
      · simp only [List.cons_append, if_pos hc, if_pos hthree]
        exact ⟨.char _ 2, Nat.le_add_left 2 _, fun _ => rfl⟩
      · simp only [List.cons_append, if_pos hc, if_neg hthree]
        cases rest with
        | nil =>
          simp only [List.nil_append, if_neg not_isContinuation_newline]
          exact ⟨.invalid .invalidContinuation 3, Nat.le_refl 3, fun _ => rfl⟩
        | cons d rest =>
          by_cases hd : IsContinuation d
          · simp only [List.cons_append, if_pos hd]
            exact ⟨.char _ 3, Nat.le_add_left 3 _, fun _ => rfl⟩
          · simp only [List.cons_append, if_neg hd]
            exact ⟨.invalid .invalidContinuation 3, Nat.le_add_left 3 _, fun _ => rfl⟩
    · simp only [List.cons_append, if_neg hc]
      exact ⟨.invalid .invalidContinuation 2, Nat.le_add_left 2 _, fun _ => rfl⟩

/-- What stands in front of a newline ends before it, whatever follows. -/
theorem front_before_newline (a : UInt8) (rest : List UInt8) :
    ∃ f, EndsWithin rest.length f ∧ ∀ after, front a (rest ++ 0x0a :: after) = f := by
  unfold front
  by_cases hfirst : a < 0x80
  · simp only [if_pos hfirst]
    exact ⟨.char _ 0, Nat.zero_le _, fun _ => rfl⟩
  by_cases hlead : a < 0xC2 ∨ 0xF4 < a
  · simp only [if_neg hfirst, if_pos hlead]
    exact ⟨.invalid .invalidStart 1, Nat.le_add_left 1 _, fun _ => rfl⟩
  simp only [if_neg hfirst, if_neg hlead]
  cases rest with
  | nil =>
    simp only [List.nil_append, if_neg (not_isSecond_newline a), not_startsSurrogate_newline,
      false_and, if_false]
    exact ⟨.invalid .invalidContinuation 1, Nat.le_refl 1, fun _ => rfl⟩
  | cons b rest =>
    by_cases hb : IsSecond a b
    · by_cases htwo : a < 0xE0
      · simp only [List.cons_append, if_pos hb, if_pos htwo]
        exact ⟨.char _ 1, Nat.le_add_left 1 _, fun _ => rfl⟩
      · simp only [List.cons_append, if_pos hb, if_neg htwo]
        exact frontAfterTwo_before_newline a b rest
    · -- A surrogate is not incomplete, since a byte follows its first two.
      have hmore (after : List UInt8) : rest ++ 0x0a :: after ≠ [] := by simp
      simp only [List.cons_append, if_neg hb, hmore, and_false, if_false]
      exact ⟨.invalid .invalidContinuation 1, Nat.le_add_left 1 _, fun _ => rfl⟩

end Utf8

theorem scan_newline (offset : Nat) (after : List UInt8) :
    Encoding.utf8.scan offset (0x0a :: after) =
      (Encoding.utf8.scan (offset + 1) after).push '\n' :=
  Encoding.scan_cons_of_char (e := .utf8) (Utf8.front_newline after) offset

/-- Bytes with a newline in them are scanned up to it first, whatever follows:
either invalid bytes are found there, or the newline is read and the scan goes
on behind it. -/
theorem exists_scan_newline (before : List UInt8) (offset : Nat) :
    ∃ s : Scan, (s.ending = .complete ∧ '\n' ∈ s.text ∨ ∃ e, s.ending = .invalid e) ∧
      ∀ after, Encoding.utf8.scan offset (before ++ 0x0a :: after) =
        s.followedBy (Encoding.utf8.scan (offset + before.length + 1) after) := by
  induction hlength : before.length using Nat.strongRecOn generalizing before offset with
  | ind n ih =>
    subst hlength
    cases before with
    | nil =>
      refine ⟨⟨['\n'], .complete⟩, .inl ⟨rfl, List.mem_singleton_self _⟩, fun after => ?_⟩
      rw [List.nil_append, scan_newline]
      rfl
    | cons a rest =>
      obtain ⟨f, hends, hfront⟩ := Utf8.front_before_newline a rest
      cases f with
      | incomplete _ _ => cases hends
      | invalid reason width =>
        have htake (after : List UInt8) :
            (a :: (rest ++ 0x0a :: after)).take width = (a :: rest).take width := by
          rw [← List.cons_append, List.take_append_of_le_length hends]
        refine ⟨⟨[], .invalid ⟨Encoding.utf8.name, reason.text, offset, (a :: rest).take width⟩⟩,
          .inr ⟨_, rfl⟩, fun after => ?_⟩
        rw [List.cons_append, Encoding.scan_cons_of_invalid (e := .utf8) (hfront after),
          htake]
        rfl
      | char c tail =>
        have htail : tail ≤ rest.length := hends
        have hlength : (rest.drop tail).length = rest.length - tail := List.length_drop
        have hshorter : (rest.drop tail).length < (a :: rest).length := by
          rw [List.length_cons]
          omega
        have hoffset : offset + 1 + tail + (rest.drop tail).length + 1 =
            offset + (a :: rest).length + 1 := by
          rw [List.length_cons]
          omega
        obtain ⟨s, hsettled, hscan⟩ := ih _ hshorter (rest.drop tail) (offset + 1 + tail) rfl
        refine ⟨s.push c, ?_, fun after => ?_⟩
        · rcases hsettled with ⟨hcomplete, hnewline⟩ | ⟨e, hinvalid⟩
          · exact .inl ⟨hcomplete, List.mem_cons_of_mem c hnewline⟩
          · exact .inr ⟨e, hinvalid⟩
        · rw [List.cons_append, Encoding.scan_cons_of_char (e := .utf8) (hfront after),
            List.drop_append_of_le_length htail, hscan, hoffset, Scan.push_followedBy]

end LineTokens

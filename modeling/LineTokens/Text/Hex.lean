/-!
Hexadecimal numerals of a fixed width. They are written in lower case and read
in either.
-/

namespace LineTokens.Hex

/-- The lower-case digit of a value below sixteen. -/
def digit (n : Nat) : Char :=
  if n < 10 then Char.ofNat ('0'.toNat + n) else Char.ofNat ('a'.toNat + (n - 10))

/-- The last `width` hexadecimal digits of `n`, most significant first. -/
def numeral : Nat → Nat → List Char
  | 0, _ => []
  | width + 1, n => numeral width (n / 16) ++ [digit (n % 16)]

@[simp] theorem length_numeral (width n : Nat) : (numeral width n).length = width := by
  induction width generalizing n with
  | zero => rfl
  | succ width ih => simp [numeral, ih]

theorem printable_of_mem_numeral {width n : Nat} {c : Char} (h : c ∈ numeral width n) :
    ' ' ≤ c ∧ c ≤ '~' := by
  have hdigit : ∀ m < 16, ' ' ≤ digit m ∧ digit m ≤ '~' := by decide
  induction width generalizing n with
  | zero => cases h
  | succ width ih =>
    rcases List.mem_append.mp h with hhigh | hlow
    · exact ih hhigh
    · rw [List.mem_singleton.mp hlow]
      exact hdigit _ (Nat.mod_lt n (by decide))

example : numeral 4 0xe9 = ['0', '0', 'e', '9'] := by decide

/-! ### Reading -/

/-- The value of a digit in lower or upper case. -/
def value? (c : Char) : Option Nat :=
  if '0' ≤ c ∧ c ≤ '9' then some (c.toNat - '0'.toNat)
  else if 'a' ≤ c ∧ c ≤ 'f' then some (c.toNat - 'a'.toNat + 10)
  else if 'A' ≤ c ∧ c ≤ 'F' then some (c.toNat - 'A'.toNat + 10)
  else none

/-- The number that some digits write. -/
def number? (digits : List Char) : Option Nat :=
  digits.foldlM (fun n c => (value? c).map (16 * n + ·)) 0

/-- The number that the first `width` characters write. -/
def front? (width : Nat) (text : List Char) : Option Nat :=
  if width ≤ text.length then number? (text.take width) else none

end LineTokens.Hex

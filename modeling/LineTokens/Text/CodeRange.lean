/-!
Sets of characters given by ranges of code points.
-/

namespace LineTokens

/-- The first and the last code point of a range. -/
abbrev CodeRange := Nat × Nat

/-- The character lies in one of the ranges. -/
def InRanges (ranges : List CodeRange) (c : Char) : Prop :=
  ∃ r ∈ ranges, r.1 ≤ c.toNat ∧ c.toNat ≤ r.2

instance (ranges : List CodeRange) (c : Char) : Decidable (InRanges ranges c) :=
  inferInstanceAs (Decidable (∃ r ∈ ranges, r.1 ≤ c.toNat ∧ c.toNat ≤ r.2))

end LineTokens

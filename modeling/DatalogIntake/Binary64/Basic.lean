/-!
# Double precision numbers

A number of the binary64 format is a NaN, an infinity, or a finite number
`±mantissa · 2^(shift − 1074)`. The two numbers are kept in the one way that the format stores
them: the mantissa fills 53 bits unless the shift is zero. So equal finite numbers, zeros apart, are
equal as data, and comparisons are exact arithmetic on natural numbers.

A decimal `digits · 10^exponent` is read as the nearest double, a tie going to the even mantissa;
above the largest finite number it is infinite. The quotient is kept exactly, as two natural
numbers in units of `2^(-1074)`, so there is one rounding.
-/

namespace DatalogIntake

-- Powers are those of the core library here, also where a module beside this one brings others.
attribute [local instance (high)] instPowNat

/-- A finite number `±mantissa · 2^(shift − 1074)`, the mantissa as long as the format stores it. -/
structure FiniteDouble where
  isNegative : Bool
  mantissa : Nat
  shift : Nat
  mantissa_lt : mantissa < 2 ^ (53 : Nat)
  shift_le : shift ≤ 2045
  canonical : shift = 0 ∨ 2 ^ (52 : Nat) ≤ mantissa
deriving DecidableEq

/-- A double precision number. -/
inductive Binary64 where
  | nan
  | infinite (isNegative : Bool)
  | finite (x : FiniteDouble)
deriving DecidableEq

namespace FiniteDouble

/-- The finite number with these parts, if the format stores it in this way. -/
def ofParts? (isNegative : Bool) (mantissa shift : Nat) : Option FiniteDouble :=
  if h : mantissa < 2 ^ (53 : Nat) ∧ shift ≤ 2045 ∧ (shift = 0 ∨ 2 ^ (52 : Nat) ≤ mantissa) then
    some ⟨isNegative, mantissa, shift, h.1, h.2.1, h.2.2⟩
  else none

theorem ofParts?_parts (x : FiniteDouble) : ofParts? x.isNegative x.mantissa x.shift = some x :=
  dif_pos ⟨x.mantissa_lt, x.shift_le, x.canonical⟩

/-- Zero of either sign. -/
def zero (isNegative : Bool) : FiniteDouble :=
  ⟨isNegative, 0, 0, by decide, by decide, Or.inl rfl⟩

/-- The magnitude in units of `2^(-1074)`. -/
def units (x : FiniteDouble) : Nat :=
  x.mantissa * 2 ^ x.shift

/-- The value in units of `2^(-1074)`. -/
def signedUnits (x : FiniteDouble) : Int :=
  if x.isNegative then -(x.units : Int) else x.units

/-- Whether the number is this integer. -/
def isInt (x : FiniteDouble) (n : Int) : Bool :=
  x.signedUnits == n * 2 ^ (1074 : Nat)

end FiniteDouble

/-! ### The nearest double -/

namespace Binary64

/-- The quotient of two natural numbers, rounded to the nearest; a half goes to the even one. -/
def roundDiv (num den : Nat) : Nat :=
  let q := num / den
  let r := num % den
  if 2 * r < den then q
  else if den < 2 * r then q + 1
  else q + q % 2

theorem roundDiv_mul {den : Nat} (h : 0 < den) (n : Nat) : roundDiv (n * den) den = n := by
  simp [roundDiv, Nat.mul_div_cancel n h, h]

/-- Mantissa and shift of the double nearest to `num / den` units, before its size is looked at. -/
def roundedParts (num den : Nat) : Nat × Nat :=
  let shift := (num / den).log2 - 52
  let mantissa := roundDiv num (den * 2 ^ shift)
  if mantissa = 2 ^ (53 : Nat) then (2 ^ (52 : Nat), shift + 1) else (mantissa, shift)

/-- The double nearest to `num / den` units. -/
def ofQuotient (isNegative : Bool) (num den : Nat) : Binary64 :=
  let parts := roundedParts num den
  match FiniteDouble.ofParts? isNegative parts.1 parts.2 with
  | some x => .finite x
  | none => .infinite isNegative

/-- The double nearest to `±digits · 10^exponent`. Numbers from `10^310` on are infinite, and a
number below `2^(-1075)` is zero: both are settled before a large power of ten is formed. -/
def ofDecimal (isNegative : Bool) (digits : Nat) (exponent : Int) : Binary64 :=
  if digits = 0 then .finite (.zero isNegative)
  else
    match exponent with
    | .ofNat e =>
      if 310 ≤ e then .infinite isNegative
      else ofQuotient isNegative (digits * 10 ^ e * 2 ^ (1074 : Nat)) 1
    | .negSucc e =>
      if digits.log2 + 1076 ≤ 3 * (e + 1) then .finite (.zero isNegative)
      else ofQuotient isNegative (digits * 2 ^ (1074 : Nat)) (10 ^ (e + 1))

end Binary64

end DatalogIntake

/-!
# Decimal text

Integers in base ten, and the written forms of a positive decimal fraction `0.d₁d₂…dₙ · 10^point`.
An expansion can be written plainly, with zeros up to the point, or with an exponent; the formats
that use them choose between the two.
-/

namespace DatalogIntake.Decimal

/-! ### Integers -/

/-- The digits of a natural number, the highest first. -/
def ofNat (n : Nat) : List Char :=
  Nat.toDigits 10 n

/-- The decimal text of an integer: a minus sign before a negative one, then the digits. -/
def ofInt : Int → List Char
  | .ofNat n => ofNat n
  | .negSucc n => '-' :: ofNat (n + 1)

/-- The number that a run of digits denotes. -/
def toNat (digits : List Char) : Nat :=
  Nat.ofDigitChars 10 digits 0

@[simp] theorem toNat_ofNat (n : Nat) : toNat (ofNat n) = n := by
  simp [toNat, ofNat]

/-- The integer with this sign and these digits. -/
def toInt (isNegative : Bool) (digits : List Char) : Int :=
  if isNegative then -(toNat digits : Int) else toNat digits

/-! ### Expansions -/

/-- The number `0.d₁d₂…dₙ · 10^point`. -/
structure Expansion where
  digits : List Char
  point : Int
deriving DecidableEq, Repr

/-- Digits around the point, with zeros where the digits do not reach it. A number without a
fraction is written without a point. -/
def Expansion.plain (x : Expansion) : List Char :=
  if x.point ≤ 0 then '0' :: '.' :: List.replicate (-x.point).toNat '0' ++ x.digits
  else if (x.digits.length : Int) ≤ x.point then
    x.digits ++ List.replicate (x.point.toNat - x.digits.length) '0'
  else x.digits.take x.point.toNat ++ '.' :: x.digits.drop x.point.toNat

/-- The plain form, with `.0` after a number without a fraction. -/
def Expansion.positional (x : Expansion) : List Char :=
  if 0 < x.point ∧ (x.digits.length : Int) ≤ x.point then x.plain ++ ['.', '0'] else x.plain

/-- An exponent: its sign, then at least two digits. -/
def exponentText (e : Int) : List Char :=
  let digits := ofNat e.natAbs
  (if e < 0 then '-' else '+') :: (if digits.length < 2 then '0' :: digits else digits)

/-- The first digit, the others after a point, and the exponent of the first digit. -/
def Expansion.scientific (x : Expansion) : List Char :=
  match x.digits with
  | [] => []
  | [d] => d :: 'e' :: exponentText (x.point - 1)
  | d :: rest => d :: '.' :: rest ++ 'e' :: exponentText (x.point - 1)

/-- The expansion with the zeros at its end dropped. -/
def Expansion.trim (x : Expansion) : Expansion :=
  ⟨(x.digits.reverse.dropWhile (· == '0')).reverse, x.point⟩

end DatalogIntake.Decimal

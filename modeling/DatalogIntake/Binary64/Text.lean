import DatalogIntake.Binary64.Basic
import DatalogIntake.Decimal.Basic

/-!
# Written doubles

A finite double is written with the fewest decimal digits that read back as it, and among those
with the nearest to it; a tie goes to the even last digit. For each number of digits from one to
seventeen the two neighbours of the value on that decimal grid are tried. The value itself is a
whole number of units `10^(-1074)`, so the search is exact, and its last resort is that number.

There are two texts of these digits. The short one is positional while the exponent of the first
digit is at least −4 and below 16, with `.0` after a number without a fraction, and has an exponent
otherwise. The plain one never has an exponent: where the short text would, it writes all zeros and
no `.0`.
-/

namespace DatalogIntake

namespace FiniteDouble

-- Powers are those of the core library here, also where a module beside this one brings others.
attribute [local instance (high)] instPowNat

/-- The magnitude in units of `10^(-1074)`. -/
def decimalUnits (x : FiniteDouble) : Nat :=
  x.units * 5 ^ (1074 : Nat)

/-- Whether `±digits · 10^exponent` reads back as the number. -/
def readsBack (x : FiniteDouble) (digits : Nat) (exponent : Int) : Bool :=
  Binary64.ofDecimal x.isNegative digits exponent == .finite x

/-- Of the two neighbours of `value` among the multiples of `grid`, given as the lower of their two
quotients, the nearer one; a tie goes to the even quotient. -/
def nearer (value grid lower : Nat) : Nat :=
  let below := value - lower * grid
  let above := (lower + 1) * grid - value
  if below < above then lower
  else if above < below then lower + 1
  else lower + lower % 2

/-- The quotient to write on the grid of multiples of `grid`, if one of the two neighbours of `value`
is a hit. -/
def onGrid? (isHit : Nat → Bool) (value grid : Nat) : Option Nat :=
  let lower := value / grid
  match isHit lower, isHit (lower + 1) with
  | true, true => some (nearer value grid lower)
  | true, false => some lower
  | false, true => some (lower + 1)
  | false, false => none

/-- The first hit among the grids that leave `count`, `count + 1`, … digits of `length`, and how
many digits its grid drops. -/
def searchGrids (hit? : Nat → Option Nat) (length : Nat) : (tries count : Nat) → Option (Nat × Nat)
  | 0, _ => none
  | tries + 1, count =>
    match hit? (length - count) with
    | some digits => some (digits, length - count)
    | none => searchGrids hit? length tries (count + 1)

/-- The digits that read back on the grid of multiples of `10^drop` units. -/
def digitsAt? (x : FiniteDouble) (drop : Nat) : Option Nat :=
  onGrid? (x.readsBack · (drop - 1074)) x.decimalUnits (10 ^ drop)

/-- The digits to write, as a number, and how many units of `10^(-1074)` they count in. -/
def shortest (x : FiniteDouble) : Nat × Nat :=
  (searchGrids x.digitsAt? (Decimal.ofNat x.decimalUnits).length 17 1).getD (x.decimalUnits, 0)

/-- The digits to write, and where the point stands among them. -/
def expansion (x : FiniteDouble) : Decimal.Expansion :=
  if x.mantissa = 0 then ⟨['0'], 1⟩
  else
    let digits := Decimal.ofNat x.shortest.1
    Decimal.Expansion.trim ⟨digits, digits.length + x.shortest.2 - 1074⟩

/-! ### Texts -/

/-- Whether the short text is positional: the first digit is worth at least `10^(-4)` and less than
`10^16`. -/
def isPositional (x : FiniteDouble) : Bool :=
  -4 < x.expansion.point && x.expansion.point ≤ 16

/-- The text behind its sign. -/
def signed (x : FiniteDouble) (text : List Char) : List Char :=
  if x.isNegative then '-' :: text else text

/-- The short text: positional for ordinary numbers, else with an exponent. -/
def shortText (x : FiniteDouble) : List Char :=
  x.signed (if x.isPositional then x.expansion.positional else x.expansion.scientific)

/-- The text without an exponent. -/
def plainText (x : FiniteDouble) : List Char :=
  x.signed (if x.isPositional then x.expansion.positional else x.expansion.plain)

end FiniteDouble

/-- The text of a double in messages. -/
def Binary64.displayText : Binary64 → List Char
  | .nan => ['n', 'a', 'n']
  | .infinite false => ['i', 'n', 'f']
  | .infinite true => ['-', 'i', 'n', 'f']
  | .finite x => x.shortText

/-- The text of a double in JSON, where the special numbers have names. -/
def Binary64.jsonText : Binary64 → List Char
  | .nan => ['N', 'a', 'N']
  | .infinite false => ['I', 'n', 'f', 'i', 'n', 'i', 't', 'y']
  | .infinite true => ['-', 'I', 'n', 'f', 'i', 'n', 'i', 't', 'y']
  | .finite x => x.shortText

end DatalogIntake

import DatalogIntake.Program.Source
import DatalogIntake.Proofs.Json.Numerals
import Mathlib.Algebra.GroupWithZero.Basic
import Mathlib.Algebra.Order.Field.Rat
import Mathlib.Data.Rat.Cast.Defs

/-!
# Doubles in fixed point

The short text of a double may have an exponent; in source text the double is written in fixed point
instead. All three forms of an expansion denote the same decimal number
(`magnitude_positional`, `magnitude_scientific`, `magnitude_fixed`), for any number of digits and
wherever the point stands among them, before them or behind them. Which double is nearest depends on
the sign and on that number alone (`Binary64.ofDecimal_congr`), so no two doubles share a text of
either kind.

* `Term.source_double_exact`: the form of the text in fixed point, the number that it denotes, and
  when it is the short text. -/

namespace DatalogIntake

-- Powers are those of the core library here, also where a module beside this one brings others.
attribute [local instance (high)] instPowNat

open Decimal FiniteDouble

/-! ### The number that a text denotes -/

namespace Json.Numeral

/-- The decimal number that a literal denotes, without its sign. -/
def magnitude (n : Numeral) : ℚ :=
  toNat (n.whole ++ n.fraction) * 10 ^ (n.exponent.getD 0 - n.fraction.length)

end Json.Numeral

/-- The sign and the magnitude of the decimal number that a text denotes, if it is a number
literal. -/
def Decimal.denoted? (text : List Char) : Option (Bool × ℚ) :=
  match Json.readNumeral text with
  | some (n, []) => some (n.isNegative, n.magnitude)
  | _ => none

/-- A text in fixed point: digits without a superfluous zero before them, or such digits, a point
and more digits. -/
def Decimal.IsFixedPoint (text : List Char) : Prop :=
  ∃ isNegative whole fraction, IsWhole whole ∧ AreDigits fraction ∧
    text = Json.Numeral.signText isNegative ++ (whole ++ fractionText fraction)

/-- A text with an exponent: one digit, or one digit, a point and more digits, and then the letter
`e`, a sign and at least two digits. -/
def Decimal.IsScientific (text : List Char) : Prop :=
  ∃ isNegative digit rest exponent, digit.isDigit = true ∧ AreDigits rest ∧
    text = Json.Numeral.signText isNegative ++
      (digit :: fractionText rest ++ 'e' :: exponentText exponent)

theorem Decimal.denoted?_text {n : Json.Numeral} (hn : n.IsProper) :
    denoted? n.text = some (n.isNegative, n.magnitude) := by
  have hread := Json.readNumeral_text hn Json.endsNumeral_nil
  rw [List.append_nil] at hread
  rw [denoted?, hread]

theorem Decimal.isFixedPoint_text {n : Json.Numeral} (hn : n.IsProper) (he : n.exponent = none) :
    IsFixedPoint n.text := by
  refine ⟨n.isNegative, n.whole, n.fraction, hn.isWhole, hn.areDigits, ?_⟩
  rw [Json.Numeral.text, he, Json.Numeral.exponentPart, List.append_nil]

theorem Decimal.IsFixedPoint.not_mem {text : List Char} (h : IsFixedPoint text) {c : Char}
    (hc : c.isDigit = false) (hsign : c ≠ '-') (hpoint : c ≠ '.') : c ∉ text := by
  obtain ⟨isNegative, whole, fraction, hwhole, hfraction, rfl⟩ := h
  have hdigits : ∀ s, AreDigits s → c ∉ s := fun s hs hmem => by
    rw [hs c hmem] at hc
    cases hc
  have hfrac : c ∉ fractionText fraction := by
    cases fraction with
    | nil => exact List.not_mem_nil
    | cons d rest =>
      rw [fractionText, List.mem_cons, not_or]
      exact ⟨hpoint, hdigits _ hfraction⟩
  have hsigns : c ∉ Json.Numeral.signText isNegative := by
    cases isNegative <;> simp [Json.Numeral.signText, hsign]
  simp only [List.mem_append, not_or]
  exact ⟨hsigns, hdigits _ hwhole.areDigits, hfrac⟩

/-! ### Forms of an expansion -/

/-- The decimal number that an expansion denotes. -/
def Decimal.Expansion.magnitude (x : Expansion) : ℚ :=
  toNat x.digits * 10 ^ (x.point - x.digits.length)

theorem ten_ne_zero : (10 : ℚ) ≠ 0 := by norm_num

theorem mul_pow_mul_zpow (a k : Nat) (i : Int) :
    ((a * 10 ^ k : Nat) : ℚ) * 10 ^ i = a * 10 ^ (k + i) := by
  rw [zpow_add₀ ten_ne_zero, zpow_natCast]
  push_cast
  ring

namespace Json.Numeral

variable (x : FiniteDouble)

/-- The literal of a double without an exponent, and without a point where there is no fraction. -/
def fixed (x : FiniteDouble) : Numeral :=
  ⟨x.isNegative, x.expansion.whole, x.expansion.fraction, none⟩

theorem isProper_fixed : (fixed x).IsProper :=
  ⟨x.expansion_isCanonical.isWhole_whole, x.expansion_isCanonical.areDigits_fraction⟩

theorem text_fixed : (fixed x).text = x.signed x.expansion.plain := by
  rw [Expansion.plain_eq x.expansion_isCanonical.digits_ne]
  unfold text fixed FiniteDouble.signed signText exponentPart
  split_ifs <;> simp

theorem magnitude_fixed : (fixed x).magnitude = x.expansion.magnitude := by
  obtain ⟨k, hvalue, hk⟩ := x.expansion.toNat_whole_fraction
  unfold magnitude fixed Expansion.magnitude
  dsimp only
  rw [hvalue, mul_pow_mul_zpow]
  congr 2
  rw [Option.getD_none]
  omega

theorem magnitude_positional : (positional x).magnitude = x.expansion.magnitude := by
  rw [← magnitude_fixed]
  unfold magnitude positional fixed
  dsimp only
  split_ifs with hf
  · have hzero : toNat (x.expansion.whole ++ ['0']) = toNat x.expansion.whole * 10 ^ 1 :=
      toNat_append_zeros _ 1
    rw [hzero, mul_pow_mul_zpow, hf, List.append_nil]
    rfl
  · rfl

theorem magnitude_scientific : (scientific x).magnitude = x.expansion.magnitude := by
  have hlen := List.length_pos_iff.mpr x.expansion_isCanonical.digits_ne
  unfold magnitude scientific Expansion.magnitude
  dsimp only
  rw [List.take_append_drop]
  congr 2
  rw [Option.getD_some, List.length_drop]
  omega

end Json.Numeral

/-! ### The double that is meant -/

/-- **The nearest double depends on the sign and the number alone.** -/
theorem Binary64.ofDecimal_congr {a b : Nat} {i j : Int} (h : (a : ℚ) * 10 ^ i = b * 10 ^ j)
    (isNegative : Bool) : ofDecimal isNegative a i = ofDecimal isNegative b j := by
  wlog hij : i ≤ j generalizing a b i j
  · exact (this h.symm (by omega)).symm
  obtain ⟨k, rfl⟩ := Int.le.dest hij
  have hab : a = b * 10 ^ k := by
    rw [Int.add_comm, ← mul_pow_mul_zpow] at h
    exact_mod_cast mul_right_cancel₀ (zpow_ne_zero i ten_ne_zero) h
  rw [hab, ofDecimal_mul_pow]

namespace FiniteDouble

variable {x y : FiniteDouble}

/-- A double is known by its sign and the number that its digits denote. -/
theorem eq_of_magnitude (hsign : x.isNegative = y.isNegative)
    (h : x.expansion.magnitude = y.expansion.magnitude) : x = y := by
  have hx := x.ofDecimal_expansion
  rw [hsign, Binary64.ofDecimal_congr h, y.ofDecimal_expansion] at hx
  exact (Binary64.finite.inj hx).symm

theorem plainText_of_isPositional (h : x.isPositional = true) : x.plainText = x.shortText := by
  rw [plainText, shortText, if_pos h, if_pos h]

theorem exists_fixedPoint (x : FiniteDouble) : ∃ n : Json.Numeral, n.text = x.plainText ∧
    n.IsProper ∧ n.exponent = none ∧ n.isNegative = x.isNegative ∧
    n.magnitude = x.expansion.magnitude := by
  unfold plainText
  split_ifs
  · exact ⟨_, Json.Numeral.text_positional x, Json.Numeral.isProper_positional x, rfl, rfl,
      Json.Numeral.magnitude_positional x⟩
  · exact ⟨_, Json.Numeral.text_fixed x, Json.Numeral.isProper_fixed x, rfl, rfl,
      Json.Numeral.magnitude_fixed x⟩

theorem isFixedPoint_plainText (x : FiniteDouble) : IsFixedPoint x.plainText := by
  obtain ⟨n, htext, hn, hexponent, -⟩ := x.exists_fixedPoint
  exact htext ▸ isFixedPoint_text hn hexponent

theorem denoted?_plainText (x : FiniteDouble) :
    denoted? x.plainText = some (x.isNegative, x.expansion.magnitude) := by
  obtain ⟨n, htext, hn, -, hsign, hmagnitude⟩ := x.exists_fixedPoint
  rw [← htext, denoted?_text hn, hsign, hmagnitude]

/-- The short text of any other double has an exponent. -/
theorem isScientific_shortText (h : ¬x.isPositional = true) : IsScientific x.shortText := by
  have hx := x.expansion_isCanonical
  obtain ⟨d, rest, hd⟩ := List.exists_cons_of_ne_nil hx.digits_ne
  have hdigits := hx.areDigits
  rw [hd] at hdigits
  refine ⟨x.isNegative, d, rest, x.expansion.point - 1, hdigits d List.mem_cons_self,
    fun c hc => hdigits c (List.mem_cons_of_mem d hc), ?_⟩
  rw [shortText, if_neg h, ← Json.Numeral.text_scientific]
  simp [Json.Numeral.text, Json.Numeral.scientific, Json.Numeral.exponentPart, hd]

theorem denoted?_shortText (x : FiniteDouble) :
    denoted? x.shortText = some (x.isNegative, x.expansion.magnitude) := by
  by_cases h : x.isPositional = true
  · rw [← plainText_of_isPositional h, denoted?_plainText]
  · rw [shortText, if_neg h, ← Json.Numeral.text_scientific,
      denoted?_text (Json.Numeral.isProper_scientific x), Json.Numeral.magnitude_scientific]
    rfl

theorem eq_of_denoted? {text : List Char}
    (hx : denoted? text = some (x.isNegative, x.expansion.magnitude))
    (hy : denoted? text = some (y.isNegative, y.expansion.magnitude)) : x = y := by
  rw [hx, Option.some.injEq, Prod.mk.injEq] at hy
  exact eq_of_magnitude hy.1 hy.2

theorem plainText_inj : x.plainText = y.plainText ↔ x = y :=
  ⟨fun h => eq_of_denoted? x.denoted?_plainText (h ▸ y.denoted?_plainText), fun h => h ▸ rfl⟩

theorem shortText_inj : x.shortText = y.shortText ↔ x = y :=
  ⟨fun h => eq_of_denoted? x.denoted?_shortText (h ▸ y.denoted?_shortText), fun h => h ▸ rfl⟩

end FiniteDouble

/-- **The source of a double is exact.** The short text of a double is in fixed point or has an
exponent; its source is always in fixed point, without a letter and without a superfluous zero
before its digits. The two texts denote the same decimal number with the same sign, which is that of
the double, also for a zero. They are the same text just when the short one has no exponent, and two
doubles share their source just when they share their short text. -/
theorem Term.source_double_exact (x : FiniteDouble) :
    let source := (Term.double x).source.toList
    (IsFixedPoint x.shortText ∨ IsScientific x.shortText) ∧
      IsFixedPoint source ∧ 'e' ∉ source ∧ 'E' ∉ source ∧
      (∃ m, denoted? x.shortText = some (x.isNegative, m) ∧
        denoted? source = some (x.isNegative, m)) ∧
      (source = x.shortText ↔ 'e' ∉ x.shortText ∧ 'E' ∉ x.shortText) ∧
      ∀ y, (Term.double y).source = (Term.double x).source ↔ y.shortText = x.shortText := by
  intro source
  have hsource : source = x.plainText := String.toList_ofList
  have hfixed := x.isFixedPoint_plainText
  have hletter : ∀ text, IsFixedPoint text → 'e' ∉ text ∧ 'E' ∉ text := fun _ h =>
    ⟨h.not_mem rfl (by decide) (by decide), h.not_mem rfl (by decide) (by decide)⟩
  have hshort : IsFixedPoint x.shortText ∨ IsScientific x.shortText := by
    by_cases h : x.isPositional = true
    · exact Or.inl (plainText_of_isPositional h ▸ hfixed)
    · exact Or.inr (isScientific_shortText h)
  rw [hsource]
  refine ⟨hshort, hfixed, (hletter _ hfixed).1, (hletter _ hfixed).2,
    ⟨_, x.denoted?_shortText, x.denoted?_plainText⟩, ⟨fun h => hletter _ (h ▸ hfixed), fun h => ?_⟩,
    fun y => ?_⟩
  · refine plainText_of_isPositional (by_contra fun hpos => ?_)
    obtain ⟨isNegative, digit, rest, exponent, -, -, htext⟩ := isScientific_shortText hpos
    exact h.1 (htext ▸ by simp)
  · rw [FiniteDouble.shortText_inj, ← FiniteDouble.plainText_inj]
    exact String.ofList_inj

end DatalogIntake

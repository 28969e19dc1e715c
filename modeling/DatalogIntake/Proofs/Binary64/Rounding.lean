import DatalogIntake.Binary64.Basic
import Mathlib.Algebra.Order.Ring.Nat
import Mathlib.Tactic.NormNum
import Mathlib.Tactic.Ring

/-!
# Laws of rounding

The nearest double depends on the quotient alone, not on the two numbers that make it, and a double
is nearest to itself. The two shortcuts of `ofDecimal`, for numbers that are too large or too small,
give what the quotient gives (`ofDecimal_eq`), so a power of ten may be moved between the digits and
the exponent (`ofDecimal_mul_pow`). -/

namespace DatalogIntake.Binary64

/-! ### Quotients -/

theorem roundDiv_mul_left {k : Nat} (hk : 0 < k) (num den : Nat) :
    roundDiv (k * num) (k * den) = roundDiv num den := by
  have hlt : ∀ a b, k * a < k * b ↔ a < b := fun a b => Nat.mul_lt_mul_left hk
  unfold roundDiv
  simp only [Nat.mul_div_mul_left num den hk, Nat.mul_mod_mul_left]
  rw [show 2 * (k * (num % den)) = k * (2 * (num % den)) by ring]
  simp only [hlt]

theorem roundedParts_mul_left {k : Nat} (hk : 0 < k) (num den : Nat) :
    roundedParts (k * num) (k * den) = roundedParts num den := by
  unfold roundedParts
  simp only [Nat.mul_div_mul_left num den hk, Nat.mul_assoc, roundDiv_mul_left hk]

/-- The nearest double depends on the quotient alone. -/
theorem ofQuotient_mul_left {k : Nat} (hk : 0 < k) (neg : Bool) (num den : Nat) :
    ofQuotient neg (k * num) (k * den) = ofQuotient neg num den := by
  unfold ofQuotient
  rw [roundedParts_mul_left hk]

/-- The bits of the magnitude beyond the first 53 are the shift. -/
theorem log2_units (x : FiniteDouble) : x.units.log2 - 52 = x.shift := by
  have hm := x.mantissa_lt
  unfold FiniteDouble.units
  rcases Nat.eq_zero_or_pos x.shift with hs | hs
  · rw [hs, Nat.pow_zero, Nat.mul_one]
    rcases Nat.eq_zero_or_pos x.mantissa with h0 | h0
    · rw [h0]; rfl
    · have := (Nat.log2_lt (by omega)).mpr hm
      omega
  · have hlow : 2 ^ 52 ≤ x.mantissa := x.canonical.resolve_left (by omega)
    have hlog : (x.mantissa * 2 ^ x.shift).log2 = 52 + x.shift := by
      have hne : x.mantissa * 2 ^ x.shift ≠ 0 := by positivity
      refine (Nat.log2_eq_iff hne).mpr ⟨?_, ?_⟩
      · rw [Nat.pow_add]
        exact Nat.mul_le_mul_right _ hlow
      · rw [show 52 + x.shift + 1 = 53 + x.shift by omega, Nat.pow_add]
        exact Nat.mul_lt_mul_of_pos_right hm (by positivity)
    rw [hlog]
    omega

/-- **A double is nearest to itself.** -/
theorem ofQuotient_units (x : FiniteDouble) : ofQuotient x.isNegative x.units 1 = .finite x := by
  have hparts : roundedParts x.units 1 = (x.mantissa, x.shift) := by
    have hm := x.mantissa_lt
    unfold roundedParts
    rw [Nat.div_one, log2_units]
    dsimp only
    rw [Nat.one_mul]
    have hr : roundDiv x.units (2 ^ x.shift) = x.mantissa :=
      roundDiv_mul (by positivity) x.mantissa
    simp only [hr]
    rw [if_neg (by omega)]
  unfold ofQuotient
  rw [hparts]
  dsimp only
  rw [FiniteDouble.ofParts?_parts]

/-- A quotient from `2 ^ 2098` on is beyond the largest double. -/
theorem ofQuotient_huge {num : Nat} (neg : Bool) (h : 2 ^ 2098 ≤ num) :
    ofQuotient neg num 1 = .infinite neg := by
  have hpos : num ≠ 0 := Nat.ne_of_gt (Nat.lt_of_lt_of_le (Nat.two_pow_pos _) h)
  have hlog : 2098 ≤ num.log2 := (Nat.le_log2 hpos).mpr h
  clear h
  have hshift : ∀ m, FiniteDouble.ofParts? neg m (num.log2 - 52) = none := by
    intro m
    unfold FiniteDouble.ofParts?
    rw [dif_neg (by omega)]
  have hshift' : FiniteDouble.ofParts? neg (2 ^ 52) (num.log2 - 52 + 1) = none := by
    unfold FiniteDouble.ofParts?
    rw [dif_neg (by omega)]
  unfold ofQuotient roundedParts
  rw [Nat.div_one]
  dsimp only
  split_ifs
  · rw [hshift']
  · rw [hshift]

theorem ofQuotient_tiny {num den : Nat} (neg : Bool) (h : 2 * num < den) :
    ofQuotient neg num den = .finite (.zero neg) := by
  have hdiv : num / den = 0 := Nat.div_eq_of_lt (by omega)
  have hmod : num % den = num := Nat.mod_eq_of_lt (by omega)
  have hround : roundDiv num den = 0 := by
    unfold roundDiv
    simp only [hdiv, hmod]
    rw [if_pos h]
  have hlog : (0 : Nat).log2 - 52 = 0 := rfl
  have hparts : roundedParts num den = (0, 0) := by
    unfold roundedParts
    rw [hdiv, hlog]
    dsimp only
    rw [Nat.pow_zero, Nat.mul_one, hround]
    rw [if_neg (by decide)]
  unfold ofQuotient
  rw [hparts]
  rfl

/-! ### Decimals -/

/-- The two numbers whose quotient is `digits · 10 ^ exponent` in units. -/
def decimalQuotient (digits : Nat) (exponent : Int) : Nat × Nat :=
  (digits * 10 ^ exponent.toNat * 2 ^ 1074, 10 ^ (-exponent).toNat)

/-- **The shortcuts agree with the quotient.** -/
theorem ofDecimal_eq (neg : Bool) (digits : Nat) (exponent : Int) :
    ofDecimal neg digits exponent =
      ofQuotient neg (decimalQuotient digits exponent).1 (decimalQuotient digits exponent).2 := by
  unfold ofDecimal decimalQuotient
  by_cases hd : digits = 0
  · rw [if_pos hd, hd]
    refine (ofQuotient_tiny neg ?_).symm
    rw [Nat.zero_mul, Nat.zero_mul]
    exact Nat.pow_pos (by decide)
  rw [if_neg hd]
  cases exponent with
  | ofNat e =>
    have he : (-(Int.ofNat e)).toNat = 0 :=
      Int.toNat_of_nonpos (Int.neg_nonpos_of_nonneg (Int.natCast_nonneg e))
    have he' : (Int.ofNat e).toNat = e := rfl
    simp only [he, he', Nat.pow_zero]
    split_ifs with hlarge
    · refine (ofQuotient_huge neg ?_).symm
      have h310 : 2 ^ 1024 ≤ 10 ^ 310 := by decide +kernel
      calc 2 ^ 2098 = 1 * 2 ^ 1024 * 2 ^ 1074 := by rw [Nat.one_mul, ← Nat.pow_add]
        _ ≤ digits * 10 ^ e * 2 ^ 1074 := by
          refine Nat.mul_le_mul_right _ (Nat.mul_le_mul (by omega) ?_)
          exact h310.trans (Nat.pow_le_pow_right (by decide) hlarge)
    · rfl
  | negSucc e =>
    have he : (-(Int.negSucc e)).toNat = e + 1 := rfl
    have he' : (Int.negSucc e).toNat = 0 := rfl
    simp only [he, he', Nat.pow_zero, Nat.mul_one]
    split_ifs with hsmall
    · refine (ofQuotient_tiny neg ?_).symm
      have hlt : digits < 2 ^ (digits.log2 + 1) := Nat.lt_log2_self
      have h8 : 2 ^ (3 * (e + 1)) ≤ 10 ^ (e + 1) := by
        rw [Nat.pow_mul]
        exact Nat.pow_le_pow_left (by decide) _
      calc 2 * (digits * 2 ^ 1074) = digits * 2 ^ 1075 := by rw [Nat.pow_succ 2 1074]; ring
        _ < 2 ^ (digits.log2 + 1) * 2 ^ 1075 := Nat.mul_lt_mul_of_pos_right hlt (by positivity)
        _ = 2 ^ (digits.log2 + 1076) := by rw [← Nat.pow_add]
        _ ≤ 2 ^ (3 * (e + 1)) := Nat.pow_le_pow_right (by decide) hsmall
        _ ≤ 10 ^ (e + 1) := h8
    · rfl

theorem ofDecimal_zero (neg : Bool) (exponent : Int) :
    ofDecimal neg 0 exponent = .finite (.zero neg) := if_pos rfl

theorem ofDecimal_natCast (neg : Bool) (digits k : Nat) :
    ofDecimal neg digits (k : Int) = ofQuotient neg (digits * 10 ^ k * 2 ^ 1074) 1 := by
  rw [ofDecimal_eq]
  unfold decimalQuotient
  rw [Int.toNat_natCast, Int.toNat_of_nonpos (by omega), Nat.pow_zero]

theorem ofDecimal_neg (neg : Bool) (digits k : Nat) :
    ofDecimal neg digits (-(k : Int)) = ofQuotient neg (digits * 2 ^ 1074) (10 ^ k) := by
  rw [ofDecimal_eq]
  unfold decimalQuotient
  rw [Int.neg_neg, Int.toNat_natCast, Int.toNat_of_nonpos (by omega), Nat.pow_zero, Nat.mul_one]

/-- **A power of ten may be moved between the digits and the exponent.** -/
theorem ofDecimal_mul_pow (neg : Bool) (digits k : Nat) (exponent : Int) :
    ofDecimal neg (digits * 10 ^ k) exponent = ofDecimal neg digits (exponent + k) := by
  rw [ofDecimal_eq, ofDecimal_eq]
  unfold decimalQuotient
  dsimp only
  generalize 2 ^ 1074 = u
  obtain ⟨a, ha⟩ : ∃ a, a = exponent.toNat := ⟨_, rfl⟩
  obtain ⟨b, hb⟩ : ∃ b, b = (-exponent).toNat := ⟨_, rfl⟩
  obtain ⟨c, hc⟩ : ∃ c, c = (exponent + k).toNat := ⟨_, rfl⟩
  obtain ⟨d, hd⟩ : ∃ d, d = (-(exponent + k)).toNat := ⟨_, rfl⟩
  have hsum : k + a + d = c + b := by omega
  rw [← ha, ← hb, ← hc, ← hd, ← ofQuotient_mul_left (k := 10 ^ d) (by positivity),
    ← ofQuotient_mul_left (k := 10 ^ b) (by positivity) neg (digits * 10 ^ c * u)]
  congr 1
  · calc 10 ^ d * (digits * 10 ^ k * 10 ^ a * u)
        = digits * 10 ^ (k + a + d) * u := by rw [Nat.pow_add, Nat.pow_add]; ring
      _ = 10 ^ b * (digits * 10 ^ c * u) := by rw [hsum, Nat.pow_add]; ring
  · ring

end DatalogIntake.Binary64

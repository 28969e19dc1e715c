import DatalogIntake.Proofs.Json.Numerals

/-!
# Plain texts of moderate doubles

The shortest digits of a double below `10 ^ 16` end before the sixteenth place in front of the point:
the power itself is a double, so digits that reach it would read back as it (`point_le_sixteen`).
Such a double is written plainly with a fraction, and the text denotes it
(`Json.Numeral.exists_plainText`). -/

namespace DatalogIntake.FiniteDouble

open Decimal Binary64

/-! ### The place of the point -/

theorem searchGrids_snd_le {hit? : Nat → Option Nat} {length tries count : Nat}
    {found : Nat × Nat} (h : searchGrids hit? length tries count = some found) :
    found.2 ≤ length := by
  induction tries generalizing count with
  | zero => cases h
  | succ tries ih =>
    rw [searchGrids] at h
    split at h
    · cases h; exact Nat.sub_le _ _
    · exact ih h

variable {x : FiniteDouble} {m : Nat}

/-- The shortest digits of a number below a power of ten do not go beyond that power. -/
theorem shortest_le (hm : 0 < m) (h : x.decimalUnits < 10 ^ m) :
    x.shortest.2 ≤ m ∧ x.shortest.1 ≤ 10 ^ (m - x.shortest.2) := by
  unfold shortest
  cases hs : searchGrids x.digitsAt? (ofNat x.decimalUnits).length 17 1 with
  | none =>
    rw [Option.getD_none]
    exact ⟨Nat.zero_le m, h.le⟩
  | some found =>
    rw [Option.getD_some]
    have hdrop : found.2 ≤ m :=
      (searchGrids_snd_le hs).trans ((length_ofNat_le_iff hm).mpr h)
    have hlower : x.decimalUnits / 10 ^ found.2 < 10 ^ (m - found.2) := by
      refine Nat.div_lt_of_lt_mul ?_
      rwa [← Nat.pow_add, Nat.add_sub_cancel' hdrop]
    refine ⟨hdrop, ?_⟩
    rcases (x.digitsAt?_eq_some (searchGrids_eq_some hs)).1 with he | he
    · rw [he]; exact hlower.le
    · rw [he]; exact hlower

theorem shortest_lt (hm : 0 < m) (h : x.decimalUnits < 10 ^ m)
    (hpow : ofDecimal x.isNegative 1 (m - 1074) ≠ .finite x) :
    x.shortest.1 < 10 ^ (m - x.shortest.2) := by
  obtain ⟨hdrop, hle⟩ := shortest_le hm h
  refine lt_of_le_of_ne hle fun he => hpow ?_
  have hback := x.ofDecimal_shortest
  rw [he, ← Nat.one_mul (10 ^ _), ofDecimal_mul_pow] at hback
  rw [← hback]
  congr 1
  omega

theorem point_le (hm : 1074 < m) (h : x.decimalUnits < 10 ^ m)
    (hpow : ofDecimal x.isNegative 1 (m - 1074) ≠ .finite x) :
    x.expansion.point ≤ m - 1074 := by
  by_cases h0 : x.mantissa = 0
  · rw [expansion_zero h0]
    dsimp only
    omega
  obtain ⟨k, hdigits, hpoint⟩ := expansion_spec h0
  have hlt := shortest_lt (by omega) h hpow
  have hpos : 0 < m - x.shortest.2 := by
    rcases Nat.eq_zero_or_pos (m - x.shortest.2) with hz | hz
    · rw [hz, Nat.pow_zero] at hlt
      exact absurd (shortest_ne_zero h0) (by omega)
    · exact hz
  have hlen := (length_ofNat_le_iff hpos).mpr hlt
  rw [hdigits, List.length_append, List.length_replicate] at hlen
  omega

/-! ### The sixteenth power of ten -/

/-- The double `±10 ^ 16`. -/
def tenToSixteen (isNegative : Bool) : FiniteDouble :=
  ⟨isNegative, 5 * 10 ^ 15, 1075, by decide, by decide, by decide⟩

theorem units_tenToSixteen (neg : Bool) : (tenToSixteen neg).units = 10 ^ 16 * 2 ^ 1074 := by
  have hhalf : ∀ k, 5 * 10 ^ 15 * 2 ^ (k + 1) = 10 ^ 16 * 2 ^ k := by
    intro k
    rw [Nat.pow_succ]
    omega
  exact hhalf 1074

theorem ofDecimal_sixteen (neg : Bool) : ofDecimal neg 1 16 = .finite (tenToSixteen neg) := by
  have hquotient := ofDecimal_natCast neg 1 16
  rw [Nat.one_mul, ← units_tenToSixteen neg] at hquotient
  exact hquotient.trans (ofQuotient_units (tenToSixteen neg))

/-- **A double below `10 ^ 16` has at most sixteen digits before the point.** -/
theorem point_le_sixteen (h : x.units < 10 ^ 16 * 2 ^ 1074) : x.expansion.point ≤ 16 := by
  have hscale : ∀ k u, u < 10 ^ 16 * 2 ^ k → u * 5 ^ k < 10 ^ (16 + k) := by
    intro k u hu
    rw [Nat.pow_add, show (10 : Nat) ^ k = 2 ^ k * 5 ^ k from Nat.mul_pow 2 5 k, ← Nat.mul_assoc]
    exact Nat.mul_lt_mul_of_pos_right hu (Nat.pow_pos (by decide))
  have hpow : ofDecimal x.isNegative 1 (((16 + 1074 : Nat) : Int) - 1074) ≠ .finite x := by
    intro he
    have h16 : ((16 + 1074 : Nat) : Int) - 1074 = 16 := by decide
    rw [h16, ofDecimal_sixteen] at he
    rw [← Binary64.finite.inj he, units_tenToSixteen] at h
    exact lt_irrefl _ h
  have := point_le (by decide) (hscale 1074 x.units h) hpow
  omega

/-- The plain text of a double below `10 ^ 16` has digits on both sides of the point. -/
theorem plainText_eq (h : x.units < 10 ^ 16 * 2 ^ 1074) :
    x.plainText = x.signed x.expansion.positional := by
  have hpoint := point_le_sixteen h
  unfold plainText
  by_cases hpos : x.isPositional
  · rw [if_pos hpos]
  · rw [if_neg hpos]
    have hsmall : ¬-4 < x.expansion.point := by
      unfold isPositional at hpos
      simp only [Bool.and_eq_true, decide_eq_true_eq] at hpos
      omega
    unfold Expansion.positional
    rw [if_neg (by omega)]

end DatalogIntake.FiniteDouble

namespace DatalogIntake.Json.Numeral

theorem fraction_positional_ne (x : FiniteDouble) : (positional x).fraction ≠ [] := by
  unfold positional
  dsimp only
  split_ifs with h
  · exact List.cons_ne_nil _ _
  · exact h

/-- **The plain text of a double below `10 ^ 16` is a literal with a fraction that denotes it.** -/
theorem exists_plainText {x : FiniteDouble} (h : x.units < 10 ^ 16 * 2 ^ 1074) :
    ∃ n : Numeral, n.IsProper ∧ n.text = x.plainText ∧ n.fraction ≠ [] ∧
      n.value = .ok (.double (.finite x)) :=
  ⟨positional x, isProper_positional x, by rw [text_positional, FiniteDouble.plainText_eq h],
    fraction_positional_ne x, value_positional x⟩

end DatalogIntake.Json.Numeral

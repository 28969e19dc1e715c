import DatalogIntake.Binary64.Text
import DatalogIntake.Proofs.Binary64.Rounding
import DatalogIntake.Proofs.Decimal.Digits

/-!
# The shortest digits read back

Whatever grid the search stops at, the digits that it finds denote a decimal whose nearest double is
the number that was searched for (`ofDecimal_shortest`); where no grid has a hit they are the number
itself, which is a whole number of units `10^(-1074)`. Dropping the zeros at their end changes the
point only, so the expansion of a double denotes it too (`ofDecimal_expansion`), and its digits are
in canonical form (`expansion_isCanonical`). -/

namespace DatalogIntake.FiniteDouble

open Decimal Binary64

variable (x : FiniteDouble)

theorem readsBack_iff (digits : Nat) (exponent : Int) :
    x.readsBack digits exponent = true ↔
      ofDecimal x.isNegative digits exponent = .finite x := by
  unfold readsBack
  rw [beq_iff_eq]

theorem nearer_eq_or (value grid lower : Nat) :
    nearer value grid lower = lower ∨ nearer value grid lower = lower + 1 := by
  unfold nearer
  dsimp only
  split_ifs
  · exact Or.inl rfl
  · exact Or.inr rfl
  · omega

/-- What is written on a grid is one of the two neighbours on it, and a hit. -/
theorem onGrid?_eq_some {isHit : Nat → Bool} {value grid digits : Nat}
    (h : onGrid? isHit value grid = some digits) :
    (digits = value / grid ∨ digits = value / grid + 1) ∧ isHit digits = true := by
  unfold onGrid? at h
  dsimp only at h
  split at h
  · next hlow hhigh =>
    cases h
    rcases nearer_eq_or value grid (value / grid) with he | he
    · rw [he]; exact ⟨Or.inl rfl, hlow⟩
    · rw [he]; exact ⟨Or.inr rfl, hhigh⟩
  · next hlow _ => cases h; exact ⟨Or.inl rfl, hlow⟩
  · next _ hhigh => cases h; exact ⟨Or.inr rfl, hhigh⟩
  · cases h

theorem digitsAt?_eq_some {drop digits : Nat} (h : x.digitsAt? drop = some digits) :
    (digits = x.decimalUnits / 10 ^ drop ∨ digits = x.decimalUnits / 10 ^ drop + 1) ∧
      ofDecimal x.isNegative digits (drop - 1074) = .finite x := by
  obtain ⟨hcases, hback⟩ := onGrid?_eq_some h
  exact ⟨hcases, (x.readsBack_iff _ _).mp hback⟩

/-- A search that succeeds has a hit on the grid that it names. -/
theorem searchGrids_eq_some {hit? : Nat → Option Nat} {length tries count : Nat}
    {found : Nat × Nat} (h : searchGrids hit? length tries count = some found) :
    hit? found.2 = some found.1 := by
  induction tries generalizing count with
  | zero => cases h
  | succ tries ih =>
    rw [searchGrids] at h
    split at h
    · next hgrid => cases h; exact hgrid
    · exact ih h

theorem ofDecimal_decimalUnits :
    ofDecimal x.isNegative x.decimalUnits (-(1074 : Nat)) = .finite x := by
  have hscale : ∀ k, ofQuotient x.isNegative (x.units * 5 ^ k * 2 ^ k) (10 ^ k) = .finite x := by
    intro k
    rw [← ofQuotient_units x, ← ofQuotient_mul_left (Nat.pow_pos (n := k) (show 0 < 10 by decide))
      x.isNegative x.units 1, Nat.mul_one, Nat.mul_assoc, ← Nat.mul_pow, Nat.mul_comm]
  exact (ofDecimal_neg _ _ _).trans (hscale 1074)

/-- **The shortest digits read back.** -/
theorem ofDecimal_shortest :
    ofDecimal x.isNegative x.shortest.1 (x.shortest.2 - 1074) = .finite x := by
  unfold shortest
  cases hs : searchGrids x.digitsAt? (Decimal.ofNat x.decimalUnits).length 17 1 with
  | none =>
    rw [Option.getD_none]
    exact x.ofDecimal_decimalUnits
  | some found =>
    rw [Option.getD_some]
    exact (x.digitsAt?_eq_some (searchGrids_eq_some hs)).2

theorem shortest_ne_zero {x : FiniteDouble} (h : x.mantissa ≠ 0) : x.shortest.1 ≠ 0 := by
  intro h0
  have hback := x.ofDecimal_shortest
  rw [h0, ofDecimal_zero] at hback
  injection hback with hx
  rw [← hx] at h
  exact h rfl

/-! ### The expansion -/

theorem expansion_zero {x : FiniteDouble} (h : x.mantissa = 0) : x.expansion = ⟨['0'], 1⟩ := by
  unfold expansion
  rw [if_pos h]

/-- The digits of the expansion of a number that is not zero are the shortest digits but for zeros
at the end. -/
theorem expansion_spec {x : FiniteDouble} (h : x.mantissa ≠ 0) :
    ∃ k, Decimal.ofNat x.shortest.1 = x.expansion.digits ++ List.replicate k '0' ∧
      x.expansion.point = x.expansion.digits.length + k + x.shortest.2 - 1074 := by
  have he : x.expansion = Expansion.trim ⟨Decimal.ofNat x.shortest.1,
      (Decimal.ofNat x.shortest.1).length + x.shortest.2 - 1074⟩ := by
    unfold expansion
    rw [if_neg h]
  obtain ⟨k, hdigits, hpoint⟩ := trim_digits ⟨Decimal.ofNat x.shortest.1,
    (Decimal.ofNat x.shortest.1).length + x.shortest.2 - 1074⟩
  rw [← he] at hdigits hpoint
  dsimp only at hdigits hpoint
  refine ⟨k, hdigits, ?_⟩
  rw [hpoint, hdigits, List.length_append, List.length_replicate]
  omega

theorem expansion_isCanonical : x.expansion.IsCanonical := by
  by_cases h : x.mantissa = 0
  · rw [expansion_zero h]
    exact .zero
  obtain ⟨k, hdigits, -⟩ := expansion_spec h
  have hpos : 0 < x.shortest.1 := Nat.pos_of_ne_zero (shortest_ne_zero h)
  have hne : x.expansion.digits ≠ [] := by
    intro h0
    rw [h0, List.nil_append] at hdigits
    have hvalue := congrArg toNat hdigits
    rw [toNat_ofNat, ← List.append_nil (List.replicate k '0'), toNat_zeros_append] at hvalue
    rw [hvalue] at hpos
    exact absurd hpos (Nat.lt_irrefl 0)
  refine ⟨hne, fun c hc => ?_, Or.inl fun h0 => ?_⟩
  · refine areDigits_ofNat x.shortest.1 c ?_
    rw [hdigits]
    exact List.mem_append_left _ hc
  · refine head?_ofNat_ne_zero hpos ?_
    rw [hdigits, List.head?_append, h0]
    rfl

/-- **The expansion of a double denotes it.** -/
theorem ofDecimal_expansion :
    ofDecimal x.isNegative (toNat x.expansion.digits)
      (x.expansion.point - x.expansion.digits.length) = .finite x := by
  by_cases h : x.mantissa = 0
  · rw [expansion_zero h]
    have hs : x.shift = 0 := x.canonical.resolve_right (by omega)
    obtain ⟨neg, m, s, _, _, _⟩ := x
    cases h
    cases hs
    exact ofDecimal_zero neg _
  obtain ⟨k, hdigits, hpoint⟩ := expansion_spec h
  have hvalue := congrArg toNat hdigits
  rw [toNat_ofNat, toNat_append_zeros] at hvalue
  have hback := x.ofDecimal_shortest
  rw [hvalue, ofDecimal_mul_pow] at hback
  rw [← hback]
  congr 1
  omega

end DatalogIntake.FiniteDouble

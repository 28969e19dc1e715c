import DatalogIntake.Proofs.Decimal.Digits

/-!
# Written expansions

Each form of an expansion is a whole part, a fraction that may be empty, and an exponent or none.
The whole part is a zero or starts with another digit (`isWhole_whole`), and the digits of the two
parts together are those of the expansion but for zeros at either end (`toNat_whole_fraction`), so
no form changes the number. -/

namespace DatalogIntake.Decimal

/-! ### Parts -/

/-- The digits before the point: a zero, or digits that start with another one. -/
def IsWhole (s : List Char) : Prop :=
  s = ['0'] ∨ AreDigits s ∧ s ≠ [] ∧ s.head? ≠ some '0'

/-- A fraction behind its point; without digits there is no point. -/
def fractionText : List Char → List Char
  | [] => []
  | c :: rest => '.' :: c :: rest

theorem fractionText_of_ne {s : List Char} (h : s ≠ []) : fractionText s = '.' :: s := by
  cases s with
  | nil => exact absurd rfl h
  | cons c rest => rfl

theorem IsWhole.areDigits {s : List Char} (h : IsWhole s) : AreDigits s := by
  rcases h with rfl | h
  · exact areDigits_replicate 1
  · exact h.1

theorem IsWhole.ne_nil {s : List Char} (h : IsWhole s) : s ≠ [] := by
  rcases h with rfl | h
  · exact List.cons_ne_nil _ _
  · exact h.2.1

theorem isWhole_ofNat (n : Nat) : IsWhole (ofNat n) := by
  rcases Nat.eq_zero_or_pos n with rfl | h
  · exact Or.inl rfl
  · exact Or.inr ⟨areDigits_ofNat n, ofNat_ne_nil n, head?_ofNat_ne_zero h⟩

/-! ### Expansions -/

/-- What the plain form has before the point. -/
def Expansion.whole (x : Expansion) : List Char :=
  if x.point ≤ 0 then ['0']
  else if (x.digits.length : Int) ≤ x.point then
    x.digits ++ List.replicate (x.point.toNat - x.digits.length) '0'
  else x.digits.take x.point.toNat

/-- What the plain form has after the point. -/
def Expansion.fraction (x : Expansion) : List Char :=
  if x.point ≤ 0 then List.replicate (-x.point).toNat '0' ++ x.digits
  else if (x.digits.length : Int) ≤ x.point then []
  else x.digits.drop x.point.toNat

variable {x : Expansion}

theorem Expansion.fraction_eq_nil_iff (h : x.digits ≠ []) :
    x.fraction = [] ↔ 0 < x.point ∧ (x.digits.length : Int) ≤ x.point := by
  unfold fraction
  split_ifs with h0 hlen
  · simp [h]; omega
  · simp; omega
  · rw [List.drop_eq_nil_iff]; omega

theorem Expansion.plain_eq (h : x.digits ≠ []) : x.plain = x.whole ++ fractionText x.fraction := by
  have hiff := fraction_eq_nil_iff h
  unfold plain whole
  split_ifs with h0 hlen
  · rw [fractionText_of_ne (by rw [ne_eq, hiff]; omega), fraction, if_pos h0]
    rfl
  · rw [hiff.mpr ⟨by omega, hlen⟩, fractionText, List.append_nil]
  · rw [fractionText_of_ne (by rw [ne_eq, hiff]; omega), fraction, if_neg h0, if_neg hlen]

theorem Expansion.positional_eq (h : x.digits ≠ []) :
    x.positional = x.whole ++ fractionText (if x.fraction = [] then ['0'] else x.fraction) := by
  have hiff := fraction_eq_nil_iff h
  unfold positional
  rw [plain_eq h]
  by_cases hf : x.fraction = []
  · rw [if_pos (hiff.mp hf), if_pos hf, hf, fractionText, List.append_nil]
    rfl
  · rw [if_neg fun hp => hf (hiff.mpr hp), if_neg hf]

theorem Expansion.scientific_eq {d : Char} {rest : List Char} (h : x.digits = d :: rest) :
    x.scientific = [d] ++ fractionText rest ++ 'e' :: exponentText (x.point - 1) := by
  unfold scientific
  rw [h]
  cases rest <;> rfl

/-- The parts of the plain form have the digits of the expansion, with the point at its place. -/
theorem Expansion.toNat_whole_fraction (x : Expansion) :
    ∃ k : Nat, toNat (x.whole ++ x.fraction) = toNat x.digits * 10 ^ k ∧
      (k : Int) = x.point - x.digits.length + x.fraction.length := by
  unfold whole fraction
  split_ifs with h0 hlen
  · refine ⟨0, ?_, ?_⟩
    · rw [List.singleton_append, toNat_zero_cons, toNat_zeros_append, Nat.pow_zero, Nat.mul_one]
    · rw [List.length_append, List.length_replicate]
      omega
  · refine ⟨x.point.toNat - x.digits.length, ?_, ?_⟩
    · rw [List.append_nil, toNat_append_zeros]
    · rw [List.length_nil]
      omega
  · refine ⟨0, ?_, ?_⟩
    · rw [List.take_append_drop, Nat.pow_zero, Nat.mul_one]
    · rw [List.length_drop]
      omega

namespace Expansion.IsCanonical

variable (hx : x.IsCanonical)

include hx

theorem isWhole_whole : IsWhole x.whole := by
  unfold whole
  split_ifs with h0 hlen
  · exact Or.inl rfl
  · rcases hx.head?_ne with hhead | rfl
    · refine Or.inr ⟨hx.areDigits.append (areDigits_replicate _), by simp [hx.digits_ne], ?_⟩
      obtain ⟨c, rest, hc⟩ := List.exists_cons_of_ne_nil hx.digits_ne
      rwa [hc] at hhead ⊢
    · exact Or.inl rfl
  · rcases hx.head?_ne with hhead | rfl
    · refine Or.inr ⟨fun c hc => hx.areDigits c (List.mem_of_mem_take hc), ?_, ?_⟩
      · rw [ne_eq, List.take_eq_nil_iff, not_or]
        exact ⟨by omega, hx.digits_ne⟩
      · rwa [List.head?_take, if_neg (by omega)]
    · exact absurd (show ((1 : Nat) : Int) ≤ 1 by decide) hlen

theorem areDigits_fraction : AreDigits x.fraction := by
  unfold fraction
  split_ifs
  · exact (areDigits_replicate _).append hx.areDigits
  · exact areDigits_nil
  · exact fun c hc => hx.areDigits c (List.mem_of_mem_drop hc)

end Expansion.IsCanonical

end DatalogIntake.Decimal

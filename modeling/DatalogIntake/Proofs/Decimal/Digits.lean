import DatalogIntake.Decimal.Basic
import Mathlib.Data.Nat.Init
import Mathlib.Tactic.Ring

/-!
# Runs of digits

The digits of a number are digits, at least one, and the first is a zero for zero only. A run of
digits is read from the left: appending a run shifts the number by its length, and zeros in front of
a run do not count. -/

namespace DatalogIntake.Decimal

/-- A run of digits. -/
def AreDigits (s : List Char) : Prop := ∀ c ∈ s, c.isDigit = true

theorem areDigits_nil : AreDigits [] := fun _ hc => absurd hc List.not_mem_nil

theorem AreDigits.append {a b : List Char} (ha : AreDigits a) (hb : AreDigits b) :
    AreDigits (a ++ b) := by
  intro c hc
  rcases List.mem_append.mp hc with hc | hc
  · exact ha c hc
  · exact hb c hc

theorem areDigits_replicate (n : Nat) : AreDigits (List.replicate n '0') := by
  intro c hc
  rw [List.eq_of_mem_replicate hc]
  rfl

theorem areDigits_ofNat (n : Nat) : AreDigits (ofNat n) := fun _ hc =>
  Nat.isDigit_of_mem_toDigits (by decide) (by decide) hc

theorem ofNat_ne_nil (n : Nat) : ofNat n ≠ [] := Nat.toDigits_ne_nil

theorem head?_ofNat_ne_zero {n : Nat} (h : 0 < n) : (ofNat n).head? ≠ some '0' := by
  induction n using Nat.strong_induction_on with
  | _ n ih =>
    unfold ofNat at ih ⊢
    by_cases h10 : n < 10
    · rw [Nat.toDigits_of_lt_base h10]
      intro he
      have hd : Nat.digitChar n = '0' := by simpa using he
      have := congrArg Char.toNat hd
      rw [Nat.toNat_digitChar_of_lt_ten h10] at this
      have hz : '0'.toNat = 48 := rfl
      omega
    · rw [Nat.toDigits_of_base_le (by decide) (by omega), List.head?_append]
      have hrec := ih (n / 10) (by omega) (by omega)
      cases hd : (Nat.toDigits 10 (n / 10)).head? with
      | none => exact absurd (List.head?_eq_none_iff.mp hd) Nat.toDigits_ne_nil
      | some c => rwa [hd] at hrec

theorem toNat_append (a b : List Char) : toNat (a ++ b) = toNat a * 10 ^ b.length + toNat b := by
  unfold toNat
  rw [Nat.ofDigitChars_append, Nat.ofDigitChars_eq_ofDigitChars_zero, Nat.mul_comm]

theorem toNat_append_zeros (a : List Char) (n : Nat) :
    toNat (a ++ List.replicate n '0') = toNat a * 10 ^ n := by
  rw [toNat_append]
  simp [toNat]

theorem toNat_zeros_append (n : Nat) (b : List Char) :
    toNat (List.replicate n '0' ++ b) = toNat b := by
  rw [toNat_append]
  simp [toNat]

theorem toNat_zero_cons (b : List Char) : toNat ('0' :: b) = toNat b := toNat_zeros_append 1 b

/-- A number with at most `k` digits is below `10 ^ k`. -/
theorem length_ofNat_le_iff {n k : Nat} (h : 0 < k) : (ofNat n).length ≤ k ↔ n < 10 ^ k :=
  Nat.length_toDigits_le_iff (by decide) h

/-! ### Expansions -/

/-- An expansion in canonical form: digits, at least one, the first of them not zero; zero has the
digit `0` before the point. -/
structure Expansion.IsCanonical (x : Expansion) : Prop where
  digits_ne : x.digits ≠ []
  areDigits : AreDigits x.digits
  head?_ne : x.digits.head? ≠ some '0' ∨ x = ⟨['0'], 1⟩

theorem Expansion.IsCanonical.zero : Expansion.IsCanonical ⟨['0'], 1⟩ :=
  ⟨List.cons_ne_nil _ _, areDigits_replicate 1, Or.inr rfl⟩

theorem trim_digits (x : Expansion) :
    ∃ k, x.digits = x.trim.digits ++ List.replicate k '0' ∧ x.trim.point = x.point := by
  refine ⟨(x.digits.reverse.takeWhile (· == '0')).length, ?_, rfl⟩
  have hz : x.digits.reverse.takeWhile (· == '0') =
      List.replicate (x.digits.reverse.takeWhile (· == '0')).length '0' := by
    refine List.eq_replicate_of_mem fun c hc => ?_
    simpa using List.all_eq_true.mp List.all_takeWhile c hc
  have := congrArg List.reverse
    (List.takeWhile_append_dropWhile (p := (· == '0')) (l := x.digits.reverse))
  rw [List.reverse_append, List.reverse_reverse, hz, List.reverse_replicate] at this
  exact this.symm

end DatalogIntake.Decimal

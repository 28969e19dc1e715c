import Mathlib.Data.List.Basic

/-!
# The first item that fails

Where a list is gone through item by item and the first failure ends the walk, the outcome is that
of the item described here. Where one item ends the walk, the list is cut in front of the first
place that has it. -/

namespace DatalogIntake

variable {α : Type} {ok : α → Prop}

/-- The item at a place is the first of a list for which something does not hold. -/
def FirstFailing (ok : α → Prop) (l : List α) (i : Nat) (a : α) : Prop :=
  ∃ before after, l = before ++ a :: after ∧ before.length = i ∧ (∀ b ∈ before, ok b) ∧ ¬ok a

theorem not_firstFailing_nil {i : Nat} {a : α} : ¬FirstFailing ok [] i a := by
  rintro ⟨before, after, h, -⟩
  exact absurd h (by simp)

theorem exists_firstFailing_cons {a : α} {l : List α} {P : Nat → α → Prop} :
    (∃ i x, FirstFailing ok (a :: l) i x ∧ P i x) ↔
      (¬ok a ∧ P 0 a) ∨ (ok a ∧ ∃ i x, FirstFailing ok l i x ∧ P (i + 1) x) := by
  constructor
  · rintro ⟨_, x, ⟨before, after, h, rfl, hb, hx⟩, hP⟩
    cases before with
    | nil =>
      obtain ⟨rfl, rfl⟩ := List.cons.inj h
      exact Or.inl ⟨hx, hP⟩
    | cons b before =>
      obtain ⟨rfl, rfl⟩ := List.cons.inj h
      have hb' := fun c hc => hb c (List.mem_cons_of_mem a hc)
      exact Or.inr ⟨hb a List.mem_cons_self, _, x, ⟨before, after, rfl, rfl, hb', hx⟩, hP⟩
  · rintro (⟨hx, hP⟩ | ⟨ha, _, x, ⟨before, after, rfl, rfl, hb, hx⟩, hP⟩)
    · exact ⟨0, a, ⟨[], l, rfl, rfl, by simp, hx⟩, hP⟩
    · refine ⟨_, x, ⟨a :: before, after, rfl, rfl, fun c hc => ?_, hx⟩, hP⟩
      rcases List.mem_cons.mp hc with rfl | hc
      · exact ha
      · exact hb c hc

/-- A list with an item that fails has a first one. -/
theorem exists_firstFailing {l : List α} (h : ¬∀ a ∈ l, ok a) : ∃ i a, FirstFailing ok l i a := by
  suffices ∃ i a, FirstFailing ok l i a ∧ True by simpa using this
  induction l with
  | nil => exact absurd (by simp) h
  | cons a l ih =>
    apply exists_firstFailing_cons.mpr
    by_cases ha : ok a
    · exact Or.inr ⟨ha, ih fun hl => h (List.forall_mem_cons.mpr ⟨ha, hl⟩)⟩
    · exact Or.inl ⟨ha, trivial⟩

/-- The first of several lists in a row is the first of one of them, those before it empty. -/
theorem head?_flatMap_eq_some {β : Type} {f : α → List β} {l : List α} {b : β} :
    (l.flatMap f).head? = some b ↔
      ∃ i a, FirstFailing (fun a => f a = []) l i a ∧ (f a).head? = some b := by
  induction l with
  | nil => simp [not_firstFailing_nil]
  | cons a l ih =>
    rw [List.flatMap_cons, exists_firstFailing_cons, ← ih]
    cases f a <;> simp

theorem takeWhile_dropWhile_of_not_mem [BEq α] [LawfulBEq α] {s r : List α} {a : α} (h : a ∉ s) :
    (s ++ a :: r).takeWhile (· != a) = s ∧ (s ++ a :: r).dropWhile (· != a) = a :: r := by
  have hs : ∀ b ∈ s, (b != a) = true := fun b hb => bne_iff_ne.mpr fun e => h (e ▸ hb)
  rw [List.takeWhile_append_of_pos hs, List.dropWhile_append_of_pos hs]
  simp

end DatalogIntake

import Mathlib.Data.List.Infix

/-!
# Braces

Text seen through its braces alone. A *gap* has no opening brace. A *block* starts with an opening
brace, opens as many braces as it closes, and is *deep* before its end: every shorter prefix opens
more than it closes. An *open part* is deep throughout.

* `IsGap.append_inj`, `IsBlock.append_inj`, `IsOpen.not_block`: where they end is determined by the
  text. A gap ends at the first opening brace, and neither a block nor an open part has a block as a
  proper prefix.
* `IsOpen.concat`, `IsOpen.block`: an open part with one more character is open or a block. -/

namespace DatalogIntake

/-! ### Gaps, blocks and open parts -/

/-- How many more braces a text opens than it closes. -/
def excess (t : List Char) : Int := (t.count '{' : Int) - t.count '}'

/-- Text without an opening brace. -/
def IsGap (g : List Char) : Prop := '{' ∉ g

/-- An object that is not closed yet. -/
structure IsOpen (o : List Char) : Prop where
  starts : o.head? = some '{'
  deep : ∀ p, p <+: o → p ≠ [] → 0 < excess p

/-- The text from an opening brace to the brace that closes it. -/
structure IsBlock (c : List Char) : Prop where
  starts : c.head? = some '{'
  even : c.count '{' = c.count '}'
  deep : ∀ p, p <+: c → p ≠ [] → p ≠ c → 0 < excess p

@[simp] theorem excess_nil : excess [] = 0 := rfl

@[simp] theorem excess_append (a b : List Char) : excess (a ++ b) = excess a + excess b := by
  simp only [excess, List.count_append]
  omega

@[simp] theorem excess_open : excess ['{'] = 1 := by decide

@[simp] theorem excess_close : excess ['}'] = -1 := by decide

theorem excess_other {c : Char} (h : c ≠ '{') (h' : c ≠ '}') : excess [c] = 0 := by
  simp [excess, h, h']

theorem IsBlock.ne_nil {c : List Char} (h : IsBlock c) : c ≠ [] := by
  rintro rfl
  exact absurd h.starts (by simp)

theorem IsBlock.excess_eq {c : List Char} (h : IsBlock c) : excess c = 0 := by
  unfold excess
  rw [h.even]
  omega

theorem IsOpen.ne_nil {o : List Char} (h : IsOpen o) : o ≠ [] := by
  rintro rfl
  exact absurd h.starts (by simp)

theorem IsOpen.excess_pos {o : List Char} (h : IsOpen o) : 0 < excess o :=
  h.deep o List.prefix_rfl h.ne_nil

theorem isGap_append {a b : List Char} : IsGap (a ++ b) ↔ IsGap a ∧ IsGap b := by
  simp [IsGap]

theorem isGap_nil : IsGap [] := by simp [IsGap]

instance : DecidablePred IsGap := fun g => inferInstanceAs (Decidable ('{' ∉ g))

instance : DecidablePred IsOpen := fun o =>
  decidable_of_iff (o.head? = some '{' ∧ ∀ p ∈ o.inits, p ≠ [] → 0 < excess p)
    ⟨fun h => ⟨h.1, fun p hp => h.2 p ((List.mem_inits p o).mpr hp)⟩,
      fun h => ⟨h.1, fun p hp => h.2 p ((List.mem_inits p o).mp hp)⟩⟩

instance : DecidablePred IsBlock := fun c =>
  decidable_of_iff (c.head? = some '{' ∧ c.count '{' = c.count '}' ∧
      ∀ p ∈ c.inits, p ≠ [] → p ≠ c → 0 < excess p)
    ⟨fun h => ⟨h.1, h.2.1, fun p hp => h.2.2 p ((List.mem_inits p c).mpr hp)⟩,
      fun h => ⟨h.1, h.2, fun p hp => h.3 p ((List.mem_inits p c).mp hp)⟩⟩

/-! ### Where they end -/

theorem IsGap.append_inj {g g' u u' : List Char} (hg : IsGap g) (hg' : IsGap g')
    (hu : u = [] ∨ u.head? = some '{') (hu' : u' = [] ∨ u'.head? = some '{')
    (h : g ++ u = g' ++ u') : g = g' ∧ u = u' := by
  have take : ∀ {a b : List Char}, IsGap a → (b = [] ∨ b.head? = some '{') →
      (a ++ b).takeWhile (· != '{') = a := by
    intro a b ha hb
    have hpos : ∀ c ∈ a, (c != '{') = true := by
      intro c hc
      rw [bne_iff_ne]
      rintro rfl
      exact ha hc
    rw [List.takeWhile_append_of_pos hpos]
    rcases hb with rfl | hb
    · simp
    · obtain ⟨r, rfl⟩ : ∃ r, b = '{' :: r := by
        cases b with
        | nil => simp at hb
        | cons x r => exact ⟨r, by simpa using hb⟩
      simp
  have hgg : g = g' := by rw [← take hg hu, ← take hg' hu', h]
  subst hgg
  exact ⟨rfl, List.append_cancel_left h⟩

/-- A block ends at the first place where as many braces are closed as opened. -/
theorem IsBlock.append_inj {c c' s s' : List Char} (hc : IsBlock c) (hc' : IsBlock c')
    (h : c ++ s = c' ++ s') : c = c' ∧ s = s' := by
  have key : ∀ {a b : List Char}, IsBlock a → IsBlock b → a <+: b → a = b := by
    intro a b ha hb hab
    by_contra hne
    have := hb.deep a hab ha.ne_nil hne
    rw [ha.excess_eq] at this
    omega
  have hcc : c = c' := by
    rcases List.prefix_or_prefix_of_prefix (List.prefix_append c s)
      (h ▸ List.prefix_append c' s') with hp | hp
    · exact key hc hc' hp
    · exact (key hc' hc hp).symm
  subst hcc
  exact ⟨rfl, List.append_cancel_left h⟩

/-- No block is a prefix of an open part. -/
theorem IsOpen.not_block {c s o : List Char} (ho : IsOpen o) (hc : IsBlock c) : c ++ s ≠ o := by
  rintro rfl
  have := ho.deep c (List.prefix_append c s) hc.ne_nil
  rw [hc.excess_eq] at this
  omega

/-! ### One more character of an object -/

/-- The depth moves by one at most, so an open part stays open or becomes a block. -/
theorem excess_concat_nonneg {o : List Char} {c : Char} (ho : IsOpen o) : 0 ≤ excess (o ++ [c]) := by
  have h := ho.excess_pos
  rw [excess_append]
  by_cases h1 : c = '{'
  · subst h1; rw [excess_open]; omega
  · by_cases h2 : c = '}'
    · subst h2; rw [excess_close]; omega
    · rw [excess_other h1 h2]; omega

theorem isOpen_single : IsOpen ['{'] := by decide

theorem IsOpen.concat {o : List Char} {c : Char} (ho : IsOpen o) (h : excess (o ++ [c]) ≠ 0) :
    IsOpen (o ++ [c]) := by
  refine ⟨List.mem_head?_append_of_mem_head? ho.starts, fun p hp hne => ?_⟩
  rcases List.prefix_concat_iff.mp hp with rfl | hp
  · have := excess_concat_nonneg (c := c) ho; omega
  · exact ho.deep p hp hne

theorem IsOpen.block {o : List Char} {c : Char} (ho : IsOpen o) (h : excess (o ++ [c]) = 0) :
    IsBlock (o ++ [c]) := by
  refine ⟨List.mem_head?_append_of_mem_head? ho.starts, by unfold excess at h; omega,
    fun p hp hne hne' => ?_⟩
  rcases List.prefix_concat_iff.mp hp with rfl | hp
  · exact absurd rfl hne'
  · exact ho.deep p hp hne

end DatalogIntake

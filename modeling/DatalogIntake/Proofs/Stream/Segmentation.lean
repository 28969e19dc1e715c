import DatalogIntake.Proofs.Text.Braces

/-!
# Segmentations of a text

A segmentation is a list of blocks, each with the gap before it, then a gap, then an open part or
nothing. It is determined by the text.

* `Segmentation.existsUnique_cuts`: every text has exactly one segmentation.
* `Segmentation.push`: one more character; by `Cuts.push` and `cuts_foldl_push` a segmentation of a
  text becomes one of the text with the characters after it. -/

namespace DatalogIntake

/-! ### Segmentations -/

/-- A text in segments: the blocks, each after its gap, the gap after the last block, and the open
part that follows it. -/
structure Segmentation where
  pieces : List (List Char × List Char)
  gap : List Char
  tail : List Char
deriving DecidableEq

namespace Segmentation

/-- The blocks in order. -/
def blocks (f : Segmentation) : List (List Char) := f.pieces.map Prod.snd

/-- The text behind the last block. -/
def rest (f : Segmentation) : List Char := f.gap ++ f.tail

/-- The text in one piece. -/
def text (f : Segmentation) : List Char := f.pieces.flatMap (fun p => p.1 ++ p.2) ++ f.rest

/-- The segments of a text are of their kinds. -/
structure Cuts (f : Segmentation) (t : List Char) : Prop where
  text_eq : f.text = t
  isGap_of_mem : ∀ p ∈ f.pieces, IsGap p.1
  isBlock_of_mem : ∀ p ∈ f.pieces, IsBlock p.2
  isGap : IsGap f.gap
  isOpen : f.tail = [] ∨ IsOpen f.tail

instance (f : Segmentation) (t : List Char) : Decidable (f.Cuts t) :=
  decidable_of_iff (f.text = t ∧ (∀ p ∈ f.pieces, IsGap p.1) ∧ (∀ p ∈ f.pieces, IsBlock p.2) ∧
      IsGap f.gap ∧ (f.tail = [] ∨ IsOpen f.tail))
    ⟨fun h => ⟨h.1, h.2.1, h.2.2.1, h.2.2.2.1, h.2.2.2.2⟩,
      fun h => ⟨h.1, h.2, h.3, h.4, h.5⟩⟩

theorem Cuts.of_cons {p : List Char × List Char} {ps : List (List Char × List Char)}
    {g o t : List Char} (h : Cuts ⟨p :: ps, g, o⟩ t) :
    IsGap p.1 ∧ IsBlock p.2 ∧ Cuts ⟨ps, g, o⟩ (text ⟨ps, g, o⟩) ∧
      t = p.1 ++ (p.2 ++ text ⟨ps, g, o⟩) := by
  refine ⟨h.2 p (by simp), h.3 p (by simp), ⟨rfl, fun q hq => h.2 q (by simp [hq]),
    fun q hq => h.3 q (by simp [hq]), h.4, h.5⟩, ?_⟩
  rw [← h.1]
  simp [text, rest]

theorem head?_of_tail {o : List Char} (h : o = [] ∨ IsOpen o) : o = [] ∨ o.head? = some '{' :=
  h.imp_right IsOpen.starts

theorem head?_block_append {c s : List Char} (h : IsBlock c) : (c ++ s).head? = some '{' :=
  List.mem_head?_append_of_mem_head? h.starts

theorem Cuts.not_nil {p : List Char × List Char} {ps : List (List Char × List Char)}
    {a b o r t : List Char} (h : Cuts ⟨p :: ps, b, r⟩ t) : ¬Cuts ⟨[], a, o⟩ t := by
  intro hnil
  obtain ⟨hp, hb, -, ht⟩ := h.of_cons
  have e : a ++ o = p.1 ++ (p.2 ++ text ⟨ps, b, r⟩) := by
    rw [← ht, ← hnil.1]; simp [text, rest]
  obtain ⟨-, h⟩ :=
    hnil.4.append_inj hp (head?_of_tail hnil.5) (Or.inr (head?_block_append hb)) e
  rcases hnil.5 with rfl | ho
  · exact absurd h.symm (by simp [hb.ne_nil])
  · exact absurd h.symm (ho.not_block hb)

/-- Two segmentations of one text are the same. -/
theorem Cuts.unique {f g : Segmentation} {t : List Char} (hf : f.Cuts t) (hg : g.Cuts t) :
    f = g := by
  obtain ⟨ps, a, o⟩ := f
  obtain ⟨qs, b, r⟩ := g
  induction ps generalizing qs t with
  | nil =>
    cases qs with
    | nil =>
      have e : a ++ o = b ++ r := by simpa [text, rest] using hf.1.trans hg.1.symm
      obtain ⟨rfl, rfl⟩ :=
        hf.4.append_inj hg.4 (head?_of_tail hf.5) (head?_of_tail hg.5) e
      rfl
    | cons q qs => exact absurd hf hg.not_nil
  | cons p ps ih =>
    cases qs with
    | nil => exact absurd hg hf.not_nil
    | cons q qs =>
      obtain ⟨hp, hb, hps, ht⟩ := hf.of_cons
      obtain ⟨hq, hc, hqs, ht'⟩ := hg.of_cons
      obtain ⟨h1, h⟩ := hp.append_inj hq (Or.inr (head?_block_append hb))
        (Or.inr (head?_block_append hc)) (ht.symm.trans ht')
      obtain ⟨h2, h3⟩ := hb.append_inj hc h
      have := ih hps qs (h3 ▸ hqs)
      simp only [mk.injEq] at this ⊢
      exact ⟨by rw [this.1, Prod.ext h1 h2], this.2⟩

/-! ### One more character of a text -/

/-- The segmentation of the text with one more character. -/
def push (f : Segmentation) (c : Char) : Segmentation :=
  if f.tail = [] ∧ c ≠ '{' then { f with gap := f.gap ++ [c] }
  else if excess (f.tail ++ [c]) = 0 then ⟨f.pieces ++ [(f.gap, f.tail ++ [c])], [], []⟩
  else { f with tail := f.tail ++ [c] }

/-- The segmentation of the empty text. -/
def empty : Segmentation := ⟨[], [], []⟩

theorem cuts_empty : empty.Cuts [] :=
  ⟨rfl, by simp [empty], by simp [empty], isGap_nil, Or.inl rfl⟩

theorem isOpen_push {f : Segmentation} (h : f.tail = [] ∨ IsOpen f.tail) (c : Char) :
    (f.push c).tail = [] ∨ IsOpen (f.push c).tail := by
  unfold push
  split_ifs with h1 h2
  · exact h
  · exact Or.inl rfl
  · by_cases ht : f.tail = []
    · have hc : c = '{' := not_and_not_right.mp h1 ht
      rw [ht, hc]
      exact Or.inr isOpen_single
    · exact Or.inr ((h.resolve_left ht).concat h2)

/-- **One more character.** A segmentation of a text becomes one of the longer text. -/
theorem Cuts.push {f : Segmentation} {t : List Char} (h : f.Cuts t) (c : Char) :
    (f.push c).Cuts (t ++ [c]) := by
  have hopen := isOpen_push h.isOpen c
  obtain ⟨rfl, hg, hb, hgap, ho⟩ := h
  unfold Segmentation.push at hopen ⊢
  split_ifs at hopen ⊢ with h1 h2
  · refine ⟨by simp [text, rest, h1.1], hg, hb, isGap_append.mpr ⟨hgap, ?_⟩, hopen⟩
    simpa [IsGap] using Ne.symm h1.2
  · have hne : f.tail ≠ [] := by
      intro ht
      rw [ht, not_and_not_right.mp h1 ht] at h2
      exact absurd h2 (by decide)
    refine ⟨by simp [text, rest], ?_, ?_, isGap_nil, hopen⟩
    · intro p hp
      rcases List.mem_append.mp hp with hp | hp
      · exact hg p hp
      · rw [List.mem_singleton.mp hp]; exact hgap
    · intro p hp
      rcases List.mem_append.mp hp with hp | hp
      · exact hb p hp
      · rw [List.mem_singleton.mp hp]; exact (ho.resolve_left hne).block h2
  · exact ⟨by simp [text, rest], hg, hb, hgap, hopen⟩

theorem cuts_foldl_push {f : Segmentation} {t : List Char} (h : f.Cuts t) (u : List Char) :
    (u.foldl Segmentation.push f).Cuts (t ++ u) := by
  induction u generalizing f t with
  | nil => simpa using h
  | cons c u ih => simpa using ih (h.push c)

/-- **Every text has exactly one segmentation.** -/
theorem existsUnique_cuts (t : List Char) : ∃! f : Segmentation, f.Cuts t := by
  have h := cuts_foldl_push cuts_empty t
  exact ⟨_, h, fun g hg => hg.unique h⟩

end Segmentation

end DatalogIntake

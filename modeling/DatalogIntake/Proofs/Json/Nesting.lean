import DatalogIntake.Json.Reader
import DatalogIntake.Proofs.Text.Braces
import Mathlib.Data.List.TakeWhile

/-!
# Brackets and braces of JSON text

Outside of string literals the brackets and braces of a JSON text are those of its arrays and
objects. A text is *regular* up to a depth when it is put together from single characters, whole
literals and whole containers that nest no deeper. Every part that the reader takes off a text is
regular up to the room that it has, and the facts about regular text follow by induction on how it
is put together.

* `rawLiterals`, `nesting`: the string literals of a text, as they are written, and how many
  containers are open at once in it.
* `Regular.rawLiterals_append`, `Regular.nested`, `Regular.nesting_le`: its literals end with it,
  its braces nest if those of its literals do, and it nests no deeper than its depth.
* `readsRegular`: induction over the grammar.
* `isBlock_of_object`: the text of an object is a block, if the braces in each of its literals
  nest.
* `nesting_le_of_ofChars?`: a text that is read nests no deeper than there is room for. -/

namespace DatalogIntake

/-- Braces that nest: as many are closed as opened, and never more before. -/
structure Nested (s : List Char) : Prop where
  even : excess s = 0
  nonneg : ∀ p, p <+: s → 0 ≤ excess p

instance : DecidablePred Nested := fun s =>
  decidable_of_iff (excess s = 0 ∧ ∀ p ∈ s.inits, 0 ≤ excess p)
    ⟨fun h => ⟨h.1, fun p hp => h.2 p ((List.mem_inits p s).mpr hp)⟩,
      fun h => ⟨h.1, fun p hp => h.2 p ((List.mem_inits p s).mp hp)⟩⟩

theorem nested_nil : Nested [] := by decide

/-- A prefix of two texts in a row ends in the first or in the second. -/
theorem prefix_append_cases {a b p : List Char} (h : p <+: a ++ b) :
    p <+: a ∨ ∃ q, q <+: b ∧ p = a ++ q := by
  rcases List.prefix_or_prefix_of_prefix h (List.prefix_append a b) with hp | ⟨q, rfl⟩
  · exact Or.inl hp
  · exact Or.inr ⟨q, (List.prefix_append_right_inj a).mp h, rfl⟩

theorem Nested.append {a b : List Char} (ha : Nested a) (hb : Nested b) : Nested (a ++ b) := by
  refine ⟨by rw [excess_append, ha.even, hb.even]; rfl, fun p hp => ?_⟩
  rcases prefix_append_cases hp with hp | ⟨q, hq, rfl⟩
  · exact ha.nonneg p hp
  · have := hb.nonneg q hq
    rw [excess_append, ha.even]
    omega

theorem nested_char {c : Char} (h : c ≠ '{' ∧ c ≠ '}') : Nested [c] := by
  have he := excess_other h.1 h.2
  refine ⟨he, fun p hp => ?_⟩
  rcases List.prefix_cons_iff.mp hp with rfl | ⟨q, rfl, hq⟩
  · simp
  · rw [List.prefix_nil.mp hq]; exact Int.le_of_eq he.symm

theorem nested_of_plain {s : List Char} (h : ∀ c ∈ s, c ≠ '{' ∧ c ≠ '}') : Nested s := by
  induction s with
  | nil => exact nested_nil
  | cons c s ih =>
    obtain ⟨hc, hs⟩ := List.forall_mem_cons.mp h
    exact (nested_char hc).append (ih hs)

theorem Nested.enclosed {o c : Char} {s : List Char} (h : Nested s) (ho : o ≠ '{' ∧ o ≠ '}')
    (hc : c ≠ '{' ∧ c ≠ '}') : Nested (o :: s ++ [c]) :=
  ((nested_char ho).append h).append (nested_char hc)

/-- Braces around text that nests make a block. -/
theorem Nested.block {s : List Char} (h : Nested s) : IsBlock ('{' :: s ++ ['}']) := by
  have hcons : ∀ p : List Char, excess ('{' :: p) = 1 + excess p := fun p =>
    excess_append ['{'] p
  refine ⟨rfl, ?_, fun p hp hne hne' => ?_⟩
  · have : excess ('{' :: s ++ ['}']) = 0 := by
      rw [excess_append, hcons, h.even]; rfl
    unfold excess at this
    omega
  · rcases List.prefix_cons_iff.mp hp with rfl | ⟨q, rfl, hq⟩
    · exact absurd rfl hne
    · rcases List.prefix_concat_iff.mp hq with rfl | hq
      · exact absurd rfl hne'
      · have := h.nonneg q hq
        rw [hcons]
        omega

theorem Nested.braced {s : List Char} (h : Nested s) : Nested ('{' :: s ++ ['}']) := by
  refine ⟨h.block.excess_eq, fun p hp => ?_⟩
  by_cases hne : p = []
  · rw [hne]; simp
  · by_cases hne' : p = '{' :: s ++ ['}']
    · rw [hne']; exact Int.le_of_eq h.block.excess_eq.symm
    · exact Int.le_of_lt (h.block.deep p hp hne hne')

namespace Json

/-! ### String literals -/

/-- The string literals of a text as they are written, without their quotes. Inside a literal the
characters passed are kept, the nearest first; a backslash takes the character after it along. -/
def literalsFrom : Option (List Char) → List Char → List (List Char)
  | none, [] => []
  | none, c :: rest => if c = '"' then literalsFrom (some []) rest else literalsFrom none rest
  | some _, [] => []
  | some raw, '"' :: rest => raw.reverse :: literalsFrom none rest
  | some raw, '\\' :: c :: rest => literalsFrom (some (c :: '\\' :: raw)) rest
  | some raw, c :: rest => literalsFrom (some (c :: raw)) rest

/-- The string literals of a text as they are written. -/
def rawLiterals (t : List Char) : List (List Char) := literalsFrom none t

/-! ### Open containers -/

/-- A text without its string literals. Inside a literal a backslash takes the character after it
along. -/
def outsideFrom : Bool → List Char → List Char
  | false, [] => []
  | false, c :: rest => if c = '"' then outsideFrom true rest else c :: outsideFrom false rest
  | true, [] => []
  | true, '"' :: rest => outsideFrom false rest
  | true, '\\' :: _ :: rest => outsideFrom true rest
  | true, _ :: rest => outsideFrom true rest

/-- A bracket or brace that opens a container. -/
def isOpening (c : Char) : Bool := c == '[' || c == '{'

/-- A bracket or brace that closes a container. -/
def isClosing (c : Char) : Bool := c == ']' || c == '}'

/-- The most that a beginning of a text opens beyond what it closes. -/
def climb : List Char → Nat
  | [] => 0
  | c :: rest =>
    if isOpening c then climb rest + 1
    else if isClosing c then climb rest - 1
    else climb rest

/-- The most containers that are open at once in a text. -/
def nesting (s : List Char) : Nat := climb (outsideFrom false s)

/-! ### Regular text -/

/-- A character that is neither a quote nor a bracket nor a brace. -/
def IsPlain (c : Char) : Prop := c ≠ '"' ∧ c ≠ '[' ∧ c ≠ ']' ∧ c ≠ '{' ∧ c ≠ '}'

instance : DecidablePred IsPlain := fun c =>
  inferInstanceAs (Decidable (c ≠ '"' ∧ c ≠ '[' ∧ c ≠ ']' ∧ c ≠ '{' ∧ c ≠ '}'))

/-- What stands between the quotes of a string literal. -/
inductive IsRaw : List Char → Prop
  | nil : IsRaw []
  | char {c : Char} {raw : List Char} (hquote : c ≠ '"') (hslash : c ≠ '\\') (h : IsRaw raw) :
    IsRaw (c :: raw)
  | escape (c : Char) {raw : List Char} (h : IsRaw raw) : IsRaw ('\\' :: c :: raw)

/-- Text put together from characters, whole literals and whole containers, which nest no deeper
than `d`. -/
inductive Regular : Nat → List Char → Prop
  | nil {d : Nat} : Regular d []
  | plain {d : Nat} {c : Char} (h : IsPlain c) : Regular d [c]
  | literal {d : Nat} {raw : List Char} (h : IsRaw raw) : Regular d ('"' :: raw ++ ['"'])
  | array {d : Nat} {u : List Char} (h : Regular d u) : Regular (d + 1) ('[' :: u ++ [']'])
  | object {d : Nat} {u : List Char} (h : Regular d u) : Regular (d + 1) ('{' :: u ++ ['}'])
  | append {d : Nat} {u v : List Char} (hu : Regular d u) (hv : Regular d v) : Regular d (u ++ v)

theorem regular_of_plain {d : Nat} {s : List Char} (h : ∀ c ∈ s, IsPlain c) : Regular d s := by
  induction s with
  | nil => exact .nil
  | cons c s ih =>
    obtain ⟨hc, hs⟩ := List.forall_mem_cons.mp h
    exact .append (.plain hc) (ih hs)

section Facts

variable {d : Nat} {raw u : List Char}

theorem rawLiterals_cons {c : Char} (h : c ≠ '"') (s : List Char) :
    rawLiterals (c :: s) = rawLiterals s := by
  rw [rawLiterals, literalsFrom, if_neg h]
  rfl

theorem literalsFrom_raw (h : IsRaw raw) (acc r : List Char) :
    literalsFrom (some acc) (raw ++ r) = literalsFrom (some (raw.reverse ++ acc)) r := by
  induction h generalizing acc with
  | nil => rfl
  | char hquote hslash _ ih =>
    rw [List.cons_append, literalsFrom, ih, List.reverse_cons, List.append_assoc,
      List.singleton_append]
    · exact hquote
    · exact fun _ _ h _ => hslash h
  | escape c _ ih =>
    rw [List.cons_append, List.cons_append, literalsFrom, ih, List.reverse_cons, List.reverse_cons,
      List.append_assoc, List.append_assoc]
    rfl

theorem rawLiterals_literal (h : IsRaw raw) (r : List Char) :
    rawLiterals ('"' :: raw ++ ['"'] ++ r) = raw :: rawLiterals r := by
  rw [List.append_assoc, rawLiterals, List.cons_append, literalsFrom, if_pos rfl,
    List.singleton_append, literalsFrom_raw h, literalsFrom, List.append_nil, List.reverse_reverse]
  rfl

theorem rawLiterals_container_append {o c : Char} (ho : o ≠ '"') (hc : c ≠ '"')
    (h : ∀ r, rawLiterals (u ++ r) = rawLiterals u ++ rawLiterals r) (r : List Char) :
    rawLiterals (o :: u ++ [c] ++ r) = rawLiterals u ++ rawLiterals r := by
  rw [List.append_assoc, List.cons_append, rawLiterals_cons ho, h, List.singleton_append,
    rawLiterals_cons hc]

/-- Literals that a text has in front of every remainder are those that it has alone. -/
theorem rawLiterals_append_of_forall {t : List Char} (ls : List (List Char))
    (h : ∀ r, rawLiterals (t ++ r) = ls ++ rawLiterals r) (r : List Char) :
    rawLiterals (t ++ r) = rawLiterals t ++ rawLiterals r := by
  have halone := h []
  rw [List.append_nil, show rawLiterals [] = [] from rfl, List.append_nil] at halone
  rw [h, halone]

/-- **The literals of regular text end with it.** -/
theorem Regular.rawLiterals_append (h : Regular d u) (r : List Char) :
    rawLiterals (u ++ r) = rawLiterals u ++ rawLiterals r := by
  induction h generalizing r with
  | nil => rfl
  | plain h => exact rawLiterals_append_of_forall [] (rawLiterals_cons h.1) r
  | literal h => exact rawLiterals_append_of_forall [_] (rawLiterals_literal h) r
  | array _ ih =>
    exact rawLiterals_append_of_forall _ (rawLiterals_container_append (by decide) (by decide) ih) r
  | object _ ih =>
    exact rawLiterals_append_of_forall _ (rawLiterals_container_append (by decide) (by decide) ih) r
  | append _ _ ihu ihv => rw [List.append_assoc, ihu, ihv, ihu, List.append_assoc]

theorem Regular.rawLiterals_container {o c : Char} (ho : o ≠ '"') (hc : c ≠ '"')
    (h : Regular d u) : rawLiterals (o :: u ++ [c]) = rawLiterals u := by
  rw [List.cons_append, rawLiterals_cons ho, h.rawLiterals_append, rawLiterals_cons hc]
  exact List.append_nil _

/-- **The braces of regular text nest if those of its literals do.** -/
theorem Regular.nested (h : Regular d u) (hl : ∀ l ∈ rawLiterals u, Nested l) :
    Nested u := by
  induction h with
  | nil => exact nested_nil
  | plain h => exact nested_char h.2.2.2
  | literal h =>
    have hself := rawLiterals_literal h []
    rw [List.append_nil] at hself
    have hraw := hl _ (hself ▸ List.mem_cons_self)
    exact hraw.enclosed (by decide) (by decide)
  | array hu ih =>
    rw [hu.rawLiterals_container (by decide) (by decide)] at hl
    exact (ih hl).enclosed (by decide) (by decide)
  | object hu ih =>
    rw [hu.rawLiterals_container (by decide) (by decide)] at hl
    exact (ih hl).braced
  | append hu _ ihu ihv =>
    rw [hu.rawLiterals_append] at hl
    exact (ihu fun l h => hl l (List.mem_append_left _ h)).append
      (ihv fun l h => hl l (List.mem_append_right _ h))

theorem outsideFrom_raw {raw : List Char} (h : IsRaw raw) (r : List Char) :
    outsideFrom true (raw ++ r) = outsideFrom true r := by
  induction h with
  | nil => rfl
  | char hquote hslash _ ih =>
    rw [List.cons_append, outsideFrom, ih]
    · exact hquote
    · exact fun _ _ h _ => hslash h
  | escape c _ ih => exact ih

theorem nesting_literal {raw : List Char} (h : IsRaw raw) (r : List Char) :
    nesting ('"' :: raw ++ ['"'] ++ r) = nesting r := by
  rw [List.append_assoc, nesting, List.cons_append, outsideFrom, if_pos rfl, outsideFrom_raw h]
  rfl

theorem nesting_plain {c : Char} (h : IsPlain c) (s : List Char) :
    nesting (c :: s) = nesting s := by
  obtain ⟨hquote, hbracket, hbracket', hbrace, hbrace'⟩ := h
  simp [nesting, outsideFrom, climb, isOpening, isClosing, *]

theorem nesting_opening {c : Char} (h : isOpening c = true) (s : List Char) :
    nesting (c :: s) = nesting s + 1 := by
  have hc : c ≠ '"' := by
    rintro rfl
    exact absurd h (by decide)
  rw [nesting, outsideFrom, if_neg hc, climb, if_pos h]
  rfl

theorem nesting_closing {c : Char} (h : isClosing c = true) (s : List Char) :
    nesting (c :: s) = nesting s - 1 := by
  have hc : c ≠ '"' := by
    rintro rfl
    exact absurd h (by decide)
  have hopen : ¬isOpening c = true := by
    simp only [isClosing, Bool.or_eq_true, beq_iff_eq] at h
    rcases h with rfl | rfl <;> decide
  rw [nesting, outsideFrom, if_neg hc, climb, if_neg hopen, if_pos h]
  rfl

/-- A container nests one deeper than what it holds, and what follows it is not in it. -/
theorem nesting_container {o c : Char} (ho : isOpening o = true) (hc : isClosing c = true)
    (h : ∀ r, nesting r ≤ nesting (u ++ r) ∧ nesting (u ++ r) ≤ max d (nesting r)) (r : List Char) :
    nesting r ≤ nesting (o :: u ++ [c] ++ r) ∧
      nesting (o :: u ++ [c] ++ r) ≤ max (d + 1) (nesting r) := by
  have hinside := h (c :: r)
  rw [nesting_closing hc] at hinside
  rw [List.append_assoc, List.cons_append, nesting_opening ho, List.singleton_append]
  omega

/-- **Regular text nests no deeper than its depth**, and no less deep than what follows it. -/
theorem Regular.nesting_le (h : Regular d u) (r : List Char) :
    nesting r ≤ nesting (u ++ r) ∧ nesting (u ++ r) ≤ max d (nesting r) := by
  induction h generalizing r with
  | nil => exact ⟨Nat.le_refl _, Nat.le_max_right _ _⟩
  | plain h =>
    rw [List.singleton_append, nesting_plain h]
    exact ⟨Nat.le_refl _, Nat.le_max_right _ _⟩
  | literal h =>
    rw [nesting_literal h]
    exact ⟨Nat.le_refl _, Nat.le_max_right _ _⟩
  | array _ ih => exact nesting_container rfl rfl ih r
  | object _ ih => exact nesting_container rfl rfl ih r
  | @append _ u v _ _ ihu ihv =>
    rw [List.append_assoc]
    have hu := ihu (v ++ r)
    have hv := ihv r
    omega

end Facts

/-! ### The reader on strings -/

theorem IsRaw.append {a b : List Char} (ha : IsRaw a) (hb : IsRaw b) : IsRaw (a ++ b) := by
  induction ha with
  | nil => exact hb
  | char hquote hslash _ ih => exact .char hquote hslash ih
  | escape c _ ih => exact .escape c ih

theorem hexDigit?_ne {c : Char} {n : Nat} (h : hexDigit? c = some n) : c ≠ '"' ∧ c ≠ '\\' := by
  have hq : hexDigit? '"' = none := by decide
  have hb : hexDigit? '\\' = none := by decide
  constructor
  · rintro rfl
    rw [hq] at h
    cases h
  · rintro rfl
    rw [hb] at h
    cases h

theorem isRaw_hexNumber {a b c d : Char} {n : Nat} (h : hexNumber? a b c d = some n) :
    IsRaw [a, b, c, d] := by
  have digit : ∀ {x : Char} {m : Nat} {raw : List Char}, hexDigit? x = some m → IsRaw raw →
      IsRaw (x :: raw) := fun hx => .char (hexDigit?_ne hx).1 (hexDigit?_ne hx).2
  unfold hexNumber? at h
  split at h
  · next ha hb hc hd => exact digit ha (digit hb (digit hc (digit hd .nil)))
  · cases h

theorem consUnit_eq_ok {u : Nat} {r : Reading (List Nat)} {units : List Nat} {rest : List Char}
    (h : consUnit u r = .ok (units, rest)) : ∃ us, r = .ok (us, rest) ∧ units = u :: us := by
  cases r with
  | error e => cases h
  | ok x => cases h; exact ⟨x.1, rfl, rfl⟩

/-- The text that the reader takes for a string is one literal and its closing quote. -/
theorem readUnits_literal {opening : Nat} {s rest : List Char} {units : List Nat}
    (h : readUnits opening s = .ok (units, rest)) :
    ∃ raw, s = raw ++ '"' :: rest ∧ IsRaw raw := by
  fun_induction readUnits opening s generalizing units with
  | case1 => cases h
  | case2 => cases h; exact ⟨[], rfl, .nil⟩
  | case3 => cases h
  | case4 a b c d s u _ hu ih =>
    obtain ⟨us, hus, -⟩ := consUnit_eq_ok h
    obtain ⟨raw, rfl, hraw⟩ := ih hus
    exact ⟨'\\' :: 'u' :: ([a, b, c, d] ++ raw), by simp,
      .escape 'u' ((isRaw_hexNumber hu).append hraw)⟩
  | case5 => cases h
  | case6 => cases h
  | case7 c s _ _ e _ ih =>
    obtain ⟨us, hus, -⟩ := consUnit_eq_ok h
    obtain ⟨raw, rfl, hraw⟩ := ih hus
    exact ⟨'\\' :: c :: raw, rfl, .escape c hraw⟩
  | case8 => cases h
  | case9 => cases h
  | case10 c s hq hb hu hu' hesc _ ih =>
    obtain ⟨us, hus, -⟩ := consUnit_eq_ok h
    obtain ⟨raw, rfl, hraw⟩ := ih hus
    have hne : c ≠ '\\' := by
      rintro rfl
      cases hr : raw ++ '"' :: rest with
      | nil => simp at hr
      | cons d t => exact hesc d t rfl hr
    exact ⟨c :: raw, rfl, .char hq hne hraw⟩

/-! ### The reader on numbers -/

theorem isPlain_of_isDigit {c : Char} (h : c.isDigit) : IsPlain c := by
  refine ⟨?_, ?_, ?_, ?_, ?_⟩ <;> (rintro rfl; exact absurd h (by decide))

theorem digits_plain (s : List Char) :
    s = s.takeWhile Char.isDigit ++ s.dropWhile Char.isDigit ∧
      ∀ c ∈ s.takeWhile Char.isDigit, IsPlain c :=
  ⟨List.takeWhile_append_dropWhile.symm, fun _ hc => isPlain_of_isDigit (List.mem_takeWhile_imp hc)⟩

/-- A part of a text that holds neither quotes nor brackets nor braces. -/
def TakesPlain (s rest : List Char) : Prop := ∃ u, s = u ++ rest ∧ ∀ c ∈ u, IsPlain c

theorem TakesPlain.refl (s : List Char) : TakesPlain s s := ⟨[], rfl, by simp⟩

theorem TakesPlain.trans {s t r : List Char} (h : TakesPlain s t) (h' : TakesPlain t r) :
    TakesPlain s r := by
  obtain ⟨u, rfl, hu⟩ := h
  obtain ⟨v, rfl, hv⟩ := h'
  refine ⟨u ++ v, by simp, fun c hc => ?_⟩
  rcases List.mem_append.mp hc with hc | hc
  · exact hu c hc
  · exact hv c hc

theorem takesPlain_cons {c : Char} (h : IsPlain c) (s : List Char) : TakesPlain (c :: s) s :=
  ⟨[c], rfl, by simpa using h⟩

theorem takesPlain_digits (s : List Char) : TakesPlain s (s.dropWhile Char.isDigit) :=
  ⟨_, (digits_plain s).1, (digits_plain s).2⟩

theorem readWhole_takes {s rest digits : List Char} (h : readWhole s = some (digits, rest)) :
    TakesPlain s rest := by
  unfold readWhole at h
  split at h
  · cases h
  · next c s =>
    split_ifs at h with h0 hd
    · cases h; exact takesPlain_cons (h0 ▸ by decide) _
    · cases h
      exact (takesPlain_cons (isPlain_of_isDigit hd) s).trans (takesPlain_digits s)

theorem readFraction_takes (s : List Char) : TakesPlain s (readFraction s).2 := by
  unfold readFraction
  split
  · next s =>
    split_ifs
    · exact .refl _
    · exact (takesPlain_cons (by decide) s).trans (takesPlain_digits s)
  · exact .refl _

theorem readSign_takes (s : List Char) : TakesPlain s (readSign s).2 := by
  unfold readSign
  split
  · exact takesPlain_cons (by decide) _
  · exact takesPlain_cons (by decide) _
  · exact .refl _

theorem readExponent_takes (s : List Char) : TakesPlain s (readExponent s).2 := by
  unfold readExponent
  split
  · exact .refl _
  · next c s =>
    dsimp only
    split_ifs with he hd
    · exact .refl _
    · refine (takesPlain_cons ?_ s).trans ((readSign_takes s).trans (takesPlain_digits _))
      rcases he with rfl | rfl <;> decide
    · exact .refl _

theorem readNumeral_takes {s rest : List Char} {n : Numeral} (h : readNumeral s = some (n, rest)) :
    TakesPlain s rest := by
  have hparts : ∀ {t r digits : List Char}, readWhole t = some (digits, r) →
      TakesPlain t (readExponent (readFraction r).2).2 := fun hw =>
    (readWhole_takes hw).trans ((readFraction_takes _).trans (readExponent_takes _))
  unfold readNumeral at h
  dsimp only at h
  split at h
  · cases h
  · next hw =>
    cases h
    split at hw
    · exact (takesPlain_cons (by decide) _).trans (hparts hw)
    · exact hparts hw

theorem readScalar_takes {s rest : List Char} {v : Json} (h : readScalar s = .ok (v, rest)) :
    TakesPlain s rest := by
  have word : ∀ u : List Char, (∀ c ∈ u, IsPlain c) → TakesPlain (u ++ rest) rest := fun u hu =>
    ⟨u, rfl, hu⟩
  unfold readScalar at h
  split at h
  · cases h; exact word ['n', 'u', 'l', 'l'] (by simp [IsPlain])
  · cases h; exact word ['t', 'r', 'u', 'e'] (by simp [IsPlain])
  · cases h; exact word ['f', 'a', 'l', 's', 'e'] (by simp [IsPlain])
  · cases h; exact word ['N', 'a', 'N'] (by simp [IsPlain])
  · cases h; exact word ['I', 'n', 'f', 'i', 'n', 'i', 't', 'y'] (by simp [IsPlain])
  · cases h; exact word ['-', 'I', 'n', 'f', 'i', 'n', 'i', 't', 'y'] (by simp [IsPlain])
  · split at h
    · cases h
    · next n r hn =>
      cases hv : n.value with
      | error e => rw [hv] at h; cases h
      | ok x => rw [hv] at h; cases h; exact readNumeral_takes hn

/-! ### The reader on values -/

/-- A part that is regular up to a depth is taken off a text. -/
def TakesRegular (d : Nat) (s rest : List Char) : Prop := ∃ u, s = u ++ rest ∧ Regular d u

section Takes

variable {d : Nat} {s rest : List Char}

theorem TakesPlain.regular (h : TakesPlain s rest) : TakesRegular d s rest := by
  obtain ⟨u, hs, hu⟩ := h
  exact ⟨u, hs, regular_of_plain hu⟩

theorem TakesRegular.trans {t r : List Char} (h : TakesRegular d s t) (h' : TakesRegular d t r) :
    TakesRegular d s r := by
  obtain ⟨u, rfl, hu⟩ := h
  obtain ⟨v, rfl, hv⟩ := h'
  exact ⟨u ++ v, by simp, hu.append hv⟩

theorem TakesRegular.object (h : TakesRegular d s ('}' :: rest)) :
    TakesRegular (d + 1) ('{' :: s) rest := by
  obtain ⟨u, rfl, hu⟩ := h
  exact ⟨'{' :: u ++ ['}'], by simp, hu.object⟩

theorem TakesRegular.array (h : TakesRegular d s (']' :: rest)) :
    TakesRegular (d + 1) ('[' :: s) rest := by
  obtain ⟨u, rfl, hu⟩ := h
  exact ⟨'[' :: u ++ [']'], by simp, hu.array⟩

theorem takesRegular_cons {c : Char} (h : IsPlain c) (s : List Char) : TakesRegular d (c :: s) s :=
  (takesPlain_cons h s).regular

theorem isPlain_of_isGap {c : Char} (h : isGap c = true) : IsPlain c := by
  refine ⟨?_, ?_, ?_, ?_, ?_⟩ <;> (rintro rfl; exact absurd h (by decide))

theorem skipGap_takes (s : List Char) : TakesRegular d s (skipGap s) :=
  TakesPlain.regular ⟨s.takeWhile isGap, List.takeWhile_append_dropWhile.symm,
    fun _ hc => isPlain_of_isGap (List.mem_takeWhile_imp hc)⟩

theorem takesRegular_token {c : Char} (hs : skipGap s = c :: rest) (hc : IsPlain c) :
    TakesRegular d s rest :=
  (hs ▸ skipGap_takes s).trans (takesRegular_cons hc rest)

end Takes

theorem andThen_eq_ok {α β : Type} {r : Reading α} {next : α → List Char → Reading β}
    {x : β × List Char} (h : andThen r next = .ok x) :
    ∃ a rest, r = .ok (a, rest) ∧ next a rest = .ok x := by
  cases r with
  | error e => cases h
  | ok y => exact ⟨y.1, y.2, rfl, h⟩

/-- Inside of a container there is less room than around it. -/
theorem enter_eq_ok {α : Type} {container : Container} {room : Nat} {inside : Nat → Reading α}
    {x : α × List Char} (h : enter container room inside = .ok x) :
    ∃ left, room = left + 1 ∧ inside left = .ok x := by
  cases room with
  | zero => cases h
  | succ left => exact ⟨left, rfl, h⟩

theorem readString_takes {d : Nat} {s rest : List Char} {text : String}
    (h : readString s = .ok (text, rest)) : TakesRegular d ('"' :: s) rest := by
  obtain ⟨units, r, hr, h⟩ := andThen_eq_ok h
  cases h
  obtain ⟨raw, hs, hraw⟩ := readUnits_literal hr
  exact ⟨'"' :: raw ++ ['"'], by rw [hs]; simp, .literal hraw⟩

/-- What the reader takes off within a bound. -/
structure ReadsRegular (bound : Nat) : Prop where
  value : ∀ {room s rest v}, readValue room bound s = .ok (v, rest) → TakesRegular room s rest
  items : ∀ {room s rest items}, readItems room bound s = .ok (items, rest) →
    TakesRegular room s (']' :: rest)
  members : ∀ {room s rest members}, readMembers room bound s = .ok (members, rest) →
    TakesRegular room s ('}' :: rest)

/-- The reader leaves an object at its closing brace. -/
theorem readObject_takes {room bound : Nat} (ih : ReadsRegular bound) {s rest : List Char}
    {v : Json} (h : readValue room (bound + 1) ('{' :: s) = .ok (v, rest)) :
    ∃ left, room = left + 1 ∧ TakesRegular left s ('}' :: rest) := by
  rw [readValue] at h
  obtain ⟨left, rfl, h⟩ := enter_eq_ok h
  refine ⟨left, rfl, ?_⟩
  split at h
  · next hs =>
    cases h
    exact hs ▸ skipGap_takes s
  · obtain ⟨members, r, hm, h⟩ := andThen_eq_ok h
    cases h
    exact (skipGap_takes s).trans (ih.members hm)

/-- The reader leaves an array at its closing bracket. -/
theorem readArray_takes {room bound : Nat} (ih : ReadsRegular bound) {s rest : List Char}
    {v : Json} (h : readValue room (bound + 1) ('[' :: s) = .ok (v, rest)) :
    ∃ left, room = left + 1 ∧ TakesRegular left s (']' :: rest) := by
  rw [readValue] at h
  obtain ⟨left, rfl, h⟩ := enter_eq_ok h
  refine ⟨left, rfl, ?_⟩
  split at h
  · next hs =>
    cases h
    exact hs ▸ skipGap_takes s
  · obtain ⟨items, r, hi, h⟩ := andThen_eq_ok h
    cases h
    exact (skipGap_takes s).trans (ih.items hi)

theorem readValue_regular {room bound : Nat} (ih : ReadsRegular bound) {s rest : List Char}
    {v : Json} (h : readValue room (bound + 1) s = .ok (v, rest)) : TakesRegular room s rest := by
  by_cases hobject : ∃ s', s = '{' :: s'
  · obtain ⟨s', rfl⟩ := hobject
    obtain ⟨left, rfl, hs⟩ := readObject_takes ih h
    exact hs.object
  by_cases harray : ∃ s', s = '[' :: s'
  · obtain ⟨s', rfl⟩ := harray
    obtain ⟨left, rfl, hs⟩ := readArray_takes ih h
    exact hs.array
  unfold readValue at h
  split at h
  · obtain ⟨text, r, hr, h⟩ := andThen_eq_ok h
    cases h
    exact readString_takes hr
  · exact absurd ⟨_, rfl⟩ hobject
  · exact absurd ⟨_, rfl⟩ harray
  · exact (readScalar_takes h).regular

theorem readItems_regular {room bound : Nat} (ih : ReadsRegular bound) {s rest : List Char}
    {items : List Json} (h : readItems room (bound + 1) s = .ok (items, rest)) :
    TakesRegular room s (']' :: rest) := by
  unfold readItems at h
  obtain ⟨item, r, hv, h⟩ := andThen_eq_ok h
  refine (ih.value hv).trans ?_
  split at h
  · next hs =>
    cases h
    exact hs ▸ skipGap_takes r
  · next r' hs =>
    obtain ⟨items', t, hi, h⟩ := andThen_eq_ok h
    cases h
    exact (takesRegular_token hs (by decide)).trans ((skipGap_takes r').trans (ih.items hi))
  · cases h

theorem readMembers_regular {room bound : Nat} (ih : ReadsRegular bound) {s rest : List Char}
    {members : List (String × Json)} (h : readMembers room (bound + 1) s = .ok (members, rest)) :
    TakesRegular room s ('}' :: rest) := by
  unfold readMembers at h
  split at h
  · obtain ⟨key, r, hk, h⟩ := andThen_eq_ok h
    refine (readString_takes hk).trans ?_
    split at h
    · next r' hcolon =>
      obtain ⟨value, t, hv, h⟩ := andThen_eq_ok h
      refine (takesRegular_token hcolon (by decide)).trans
        ((skipGap_takes r').trans ((ih.value hv).trans ?_))
      split at h
      · next hs =>
        cases h
        exact hs ▸ skipGap_takes t
      · next t' hs =>
        obtain ⟨members', t'', hm, h⟩ := andThen_eq_ok h
        cases h
        exact (takesRegular_token hs (by decide)).trans
          ((skipGap_takes t').trans (ih.members hm))
      · cases h
    · cases h
  · cases h

/-- **Whatever the reader takes off a text is regular.** -/
theorem readsRegular (bound : Nat) : ReadsRegular bound := by
  induction bound with
  | zero =>
    refine ⟨fun h => ?_, fun h => ?_, fun h => ?_⟩
    · unfold readValue at h; cases h
    · unfold readItems at h; cases h
    · unfold readMembers at h; cases h
  | succ bound ih => exact ⟨readValue_regular ih, readItems_regular ih, readMembers_regular ih⟩

theorem eq_nil_of_blank {u rest : List Char} (h : skipGap rest = [])
    (hend : (u ++ '}' :: rest).getLast? = some '}') : rest = [] := by
  cases hr : rest.getLast? with
  | none => exact List.getLast?_eq_none_iff.mp hr
  | some c =>
    have hc : c = '}' := by simpa [List.getLast?_cons, hr] using hend
    have hgap := List.dropWhile_eq_nil_iff.mp h c (List.mem_of_getLast? hr)
    rw [hc] at hgap
    exact absurd hgap (by decide)

/-- A text that is read is one value, with gaps around it. -/
theorem readValue_of_ofChars? {room : Nat} {s : List Char} {v : Json}
    (h : ofChars? room s = .ok v) :
    ∃ rest, readValue room (2 * s.length + 1) (skipGap s) = .ok (v, rest) ∧ skipGap rest = [] := by
  unfold ofChars? readWholeText at h
  split at h
  · cases h
  · split at h
    · cases h
    · next value rest hr =>
      split at h
      · next hrest =>
        cases h
        exact ⟨rest, hr, hrest⟩
      · cases h

/-- **A text that is read nests no deeper than there is room for.** -/
theorem nesting_le_of_ofChars? {room : Nat} {s : List Char} {v : Json}
    (h : ofChars? room s = .ok v) : nesting s ≤ room := by
  obtain ⟨rest, hr, hrest⟩ := readValue_of_ofChars? h
  obtain ⟨u, hu, hregular⟩ :=
    (skipGap_takes s).trans (((readsRegular _).value hr).trans (skipGap_takes rest))
  rw [hrest] at hu
  rw [hu]
  exact (hregular.nesting_le []).2.trans (Nat.max_le.mpr ⟨Nat.le_refl _, Nat.zero_le _⟩)

/-- The whole text of an object that ends in a brace, in front of which nothing is skipped. -/
theorem object_text {room : Nat} {t : List Char} {fields : List (String × Json)}
    (h : ofChars? room t = .ok (.obj fields)) (hstart : t.head? = some '{')
    (hend : t.getLast? = some '}') : ∃ d u, t = '{' :: u ++ ['}'] ∧ Regular d u := by
  obtain ⟨s, rfl⟩ : ∃ s, t = '{' :: s := by
    cases t with
    | nil => simp at hstart
    | cons c s => exact ⟨s, by simpa using hstart⟩
  obtain ⟨rest, hr, hrest⟩ := readValue_of_ofChars? h
  rw [show skipGap ('{' :: s) = '{' :: s from rfl] at hr
  obtain ⟨left, -, u, rfl, hu⟩ := readObject_takes (readsRegular _) hr
  obtain rfl : rest = [] := eq_nil_of_blank (u := '{' :: u) hrest (by simpa using hend)
  exact ⟨left, u, by simp, hu⟩

/-- **The text of an object is a block**, if the braces in each of its literals nest. -/
theorem isBlock_of_object {room : Nat} {t : List Char} {fields : List (String × Json)}
    (h : ofChars? room t = .ok (.obj fields)) (hstart : t.head? = some '{')
    (hend : t.getLast? = some '}') (hlit : ∀ l ∈ rawLiterals t, Nested l) : IsBlock t := by
  obtain ⟨d, u, rfl, hu⟩ := object_text h hstart hend
  rw [hu.rawLiterals_container (by decide) (by decide)] at hlit
  exact (hu.nested hlit).block

end Json

end DatalogIntake

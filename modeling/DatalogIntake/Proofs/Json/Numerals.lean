import DatalogIntake.Json.Reader
import DatalogIntake.Proofs.Binary64.ReadBack
import DatalogIntake.Proofs.Decimal.Notation

/-!
# Number literals

A number literal is a sign, a whole part, a fraction and an exponent, and the reader takes exactly
these off the front of a text (`readNumeral_text`), provided that what follows cannot go on with the
number (`EndsNumeral`). The texts that are written for integers and for finite doubles are such
literals, and the values of these are the numbers that were written. -/

namespace DatalogIntake.Json

open Decimal

/-! ### Runs of digits -/

/-- A text that does not start with a digit. -/
def NoDigit (r : List Char) : Prop := ∀ c ∈ r.head?, c.isDigit = false

theorem takeWhile_append_of_head {p : Char → Bool} {s r : List Char} (hs : ∀ c ∈ s, p c = true)
    (hr : ∀ c ∈ r.head?, p c = false) :
    (s ++ r).takeWhile p = s ∧ (s ++ r).dropWhile p = r := by
  rw [List.takeWhile_append_of_pos hs, List.dropWhile_append_of_pos hs]
  cases r with
  | nil => simp
  | cons c r => simp [hr c rfl]

theorem takeWhile_digits {s r : List Char} (hs : AreDigits s) (hr : NoDigit r) :
    (s ++ r).takeWhile Char.isDigit = s ∧ (s ++ r).dropWhile Char.isDigit = r :=
  takeWhile_append_of_head hs hr

/-! ### What follows a number -/

/-- A text that cannot go on with the number before it: it starts with no digit, with no letter of
an exponent, and with a point only when no digit is behind that. -/
structure EndsNumeral (r : List Char) : Prop where
  noDigit : NoDigit r
  noLetter : ∀ c ∈ r.head?, c ≠ 'e' ∧ c ≠ 'E'
  noFraction : r.head? = some '.' → NoDigit r.tail

theorem noDigit_nil : NoDigit [] := fun c hc => absurd hc (Option.not_mem_none c)

theorem endsNumeral_nil : EndsNumeral [] :=
  ⟨noDigit_nil, fun c hc => absurd hc (Option.not_mem_none c), fun _ => noDigit_nil⟩

theorem EndsNumeral.cons {c : Char} (hc : c.isDigit = false ∧ c ≠ 'e' ∧ c ≠ 'E' ∧ c ≠ '.')
    (r : List Char) : EndsNumeral (c :: r) := by
  refine ⟨?_, ?_, fun h => absurd (Option.some.inj h) hc.2.2.2⟩
  · rintro _ ⟨⟩
    exact hc.1
  · rintro _ ⟨⟩
    exact ⟨hc.2.1, hc.2.2.1⟩

theorem EndsNumeral.point {r : List Char} (hr : NoDigit r) : EndsNumeral ('.' :: r) := by
  refine ⟨?_, ?_, fun _ => hr⟩ <;> rintro _ ⟨⟩ <;> decide

/-! ### The parts of a literal -/

namespace Numeral

/-- The sign of a literal. -/
def signText (isNegative : Bool) : List Char :=
  if isNegative then ['-'] else []

/-- The exponent of a literal, if it has one. -/
def exponentPart : Option Int → List Char
  | none => []
  | some e => 'e' :: exponentText e

/-- A literal as it is written. -/
def text (n : Numeral) : List Char :=
  signText n.isNegative ++ (n.whole ++ (fractionText n.fraction ++ exponentPart n.exponent))

/-- The parts of a literal are what they should be. -/
structure IsProper (n : Numeral) : Prop where
  isWhole : IsWhole n.whole
  areDigits : AreDigits n.fraction

end Numeral

theorem readWhole_append {s r : List Char} (hs : IsWhole s) (hr : NoDigit r) :
    readWhole (s ++ r) = some (s, r) := by
  rcases hs with rfl | ⟨hdigits, hne, hhead⟩
  · rfl
  · cases s with
    | nil => exact absurd rfl hne
    | cons c s =>
      have hc : c ≠ '0' := fun e => hhead (by rw [e]; rfl)
      have hrest : AreDigits s := fun d hd => hdigits d (List.mem_cons_of_mem c hd)
      rw [List.cons_append, readWhole, if_neg hc, if_pos (hdigits c List.mem_cons_self),
        (takeWhile_digits hrest hr).1, (takeWhile_digits hrest hr).2]

theorem readFraction_append {s r : List Char} (hs : AreDigits s) (hr : NoDigit r)
    (hpoint : r.head? = some '.' → NoDigit r.tail) :
    readFraction (fractionText s ++ r) = (s, r) := by
  cases s with
  | nil =>
    rw [fractionText, List.nil_append]
    cases r with
    | nil => rfl
    | cons c r =>
      unfold readFraction
      split
      · next rest heq =>
        obtain ⟨rfl, rfl⟩ := List.cons.inj heq
        have hnone : r.takeWhile Char.isDigit = [] :=
          (takeWhile_digits areDigits_nil (hpoint rfl)).1
        rw [hnone]
        rfl
      · rfl
  | cons c s =>
    rw [fractionText, List.cons_append, readFraction, (takeWhile_digits hs hr).1,
      (takeWhile_digits hs hr).2]
    rfl

theorem readExponent_none {r : List Char} (hr : ∀ c ∈ r.head?, c ≠ 'e' ∧ c ≠ 'E') :
    readExponent r = (none, r) := by
  cases r with
  | nil => rfl
  | cons c r =>
    have hc := hr c rfl
    rw [readExponent, if_neg (by tauto)]

/-- An exponent has digits, and they denote its size. -/
theorem exponentText_eq (e : Int) :
    ∃ ds, exponentText e = (if e < 0 then '-' else '+') :: ds ∧ AreDigits ds ∧ ds ≠ [] ∧
      toNat ds = e.natAbs := by
  refine ⟨_, rfl, ?_, ?_, ?_⟩
  · split_ifs
    · exact (areDigits_replicate 1).append (areDigits_ofNat _)
    · exact areDigits_ofNat _
  · split_ifs
    · exact List.cons_ne_nil _ _
    · exact ofNat_ne_nil _
  · split_ifs
    · rw [toNat_zero_cons, toNat_ofNat]
    · rw [toNat_ofNat]

theorem readExponent_some (e : Int) {r : List Char} (hr : NoDigit r) :
    readExponent ('e' :: exponentText e ++ r) = (some e, r) := by
  obtain ⟨ds, htext, hdigits, hne, hvalue⟩ := exponentText_eq e
  have hsign : readSign (exponentText e ++ r) = (decide (e < 0), ds ++ r) := by
    rw [htext]
    by_cases he : e < 0
    · rw [if_pos he, decide_eq_true he]; rfl
    · rw [if_neg he, decide_eq_false he]; rfl
  rw [List.cons_append, readExponent, if_pos (Or.inl rfl), hsign]
  dsimp only
  rw [(takeWhile_digits hdigits hr).1, (takeWhile_digits hdigits hr).2,
    if_neg (by simpa using hne)]
  unfold toInt
  rw [hvalue]
  congr 2
  split_ifs with he
  · have := of_decide_eq_true he; omega
  · have : ¬e < 0 := fun h => he (decide_eq_true h)
    omega

theorem noDigit_exponentPart {r : List Char} (hr : NoDigit r) (e : Option Int) :
    NoDigit (Numeral.exponentPart e ++ r) := by
  cases e with
  | none => exact hr
  | some e => rintro _ ⟨⟩; rfl

/-- **A literal is read off the front of a text.** -/
theorem readNumeral_text {n : Numeral} (hn : n.IsProper) {r : List Char} (hr : EndsNumeral r) :
    readNumeral (n.text ++ r) = some (n, r) := by
  obtain ⟨neg, whole, fraction, exponent⟩ := n
  obtain ⟨hwhole, hfraction⟩ := hn
  dsimp only at hwhole hfraction
  -- the reader is followed from the last part to the first, each with what is behind it
  have hexp : readExponent (Numeral.exponentPart exponent ++ r) = (exponent, r) := by
    cases exponent with
    | none => exact readExponent_none hr.noLetter
    | some e => exact readExponent_some e hr.noDigit
  have hfrac : readFraction (fractionText fraction ++ (Numeral.exponentPart exponent ++ r)) =
      (fraction, Numeral.exponentPart exponent ++ r) := by
    refine readFraction_append hfraction (noDigit_exponentPart hr.noDigit exponent) ?_
    cases exponent with
    | none => exact hr.noFraction
    | some e => exact fun h => absurd (Option.some.inj h) (by decide)
  have hnext : NoDigit (fractionText fraction ++ (Numeral.exponentPart exponent ++ r)) := by
    cases fraction with
    | nil => exact noDigit_exponentPart hr.noDigit exponent
    | cons c f => rintro _ ⟨⟩; rfl
  have hread := readWhole_append hwhole hnext
  unfold readNumeral
  cases neg with
  | true =>
    simp only [Numeral.text, Numeral.signText, if_true, List.cons_append, List.nil_append,
      List.append_assoc, hread, hfrac, hexp]
  | false =>
    have hminus : ∀ s, whole ++ (fractionText fraction ++ (Numeral.exponentPart exponent ++ r)) ≠
        '-' :: s := by
      intro s hs
      obtain ⟨c, rest, rfl⟩ := List.exists_cons_of_ne_nil hwhole.ne_nil
      have hc := hwhole.areDigits c List.mem_cons_self
      rw [(List.cons.inj hs).1] at hc
      exact absurd hc (by decide)
    simp only [Numeral.text, Numeral.signText, if_neg Bool.false_ne_true, List.nil_append,
      List.append_assoc]
    split
    · next heq => rw [hread] at heq; cases heq
    · next heq =>
      rw [hread] at heq
      cases heq
      simp only [hfrac, hexp]

/-! ### Written numbers -/

namespace Numeral

/-- The literal of an integer. -/
def ofInt (i : Int) : Numeral :=
  ⟨decide (i < 0), ofNat i.natAbs, [], none⟩

/-- The literal of a double with digits on both sides of the point. -/
def positional (x : FiniteDouble) : Numeral :=
  ⟨x.isNegative, x.expansion.whole,
    if x.expansion.fraction = [] then ['0'] else x.expansion.fraction, none⟩

/-- The literal of a double with one digit before the point and an exponent. -/
def scientific (x : FiniteDouble) : Numeral :=
  ⟨x.isNegative, x.expansion.digits.take 1, x.expansion.digits.drop 1, some (x.expansion.point - 1)⟩

/-! #### Integers -/

theorem isProper_ofInt (i : Int) : (ofInt i).IsProper := ⟨isWhole_ofNat _, areDigits_nil⟩

theorem text_ofInt (i : Int) : (ofInt i).text = Decimal.ofInt i := by
  cases i with
  | ofNat n =>
    simp [text, ofInt, signText, fractionText, exponentPart, Decimal.ofInt]
  | negSucc n =>
    simp [text, ofInt, signText, fractionText, exponentPart, Decimal.ofInt, Int.negSucc_lt_zero]

theorem toInt_ofInt (i : Int) : toInt (ofInt i).isNegative (ofInt i).whole = i := by
  unfold ofInt toInt
  rw [toNat_ofNat]
  by_cases hi : i < 0
  · rw [decide_eq_true hi, if_pos rfl]
    omega
  · rw [decide_eq_false hi, if_neg Bool.false_ne_true]
    omega

theorem value_ofInt {i : Int} (h : (ofNat i.natAbs).length ≤ maxIntegerDigits) :
    (ofInt i).value = .ok (.int i) := by
  have hvalue := toInt_ofInt i
  unfold value
  unfold ofInt at hvalue ⊢
  simp only [List.isEmpty_nil, Option.isNone_none, Bool.and_self, if_true, if_pos h, hvalue]

/-! #### Doubles -/

variable (x : FiniteDouble)

theorem isProper_positional : (positional x).IsProper := by
  refine ⟨x.expansion_isCanonical.isWhole_whole, ?_⟩
  unfold positional
  dsimp only
  split_ifs
  · exact areDigits_replicate 1
  · exact x.expansion_isCanonical.areDigits_fraction

theorem text_positional : (positional x).text = x.signed x.expansion.positional := by
  rw [Expansion.positional_eq x.expansion_isCanonical.digits_ne]
  unfold text positional FiniteDouble.signed signText exponentPart
  split_ifs <;> simp

theorem value_positional : (positional x).value = .ok (.double (.finite x)) := by
  obtain ⟨k, hvalue, hk⟩ := x.expansion.toNat_whole_fraction
  have hback := x.ofDecimal_expansion
  unfold value positional
  dsimp only
  by_cases hf : x.expansion.fraction = []
  · rw [hf, List.append_nil] at hvalue
    rw [hf, List.length_nil] at hk
    rw [if_pos hf, ← List.replicate_one, toNat_append_zeros, hvalue, Nat.mul_assoc, ← Nat.pow_add,
      Binary64.ofDecimal_mul_pow, ← hback]
    simp only [List.replicate_one, List.isEmpty_cons, Bool.false_and, if_neg Bool.false_ne_true]
    congr 3
    simp only [Option.getD_none, List.length_singleton]
    omega
  · have hne : x.expansion.fraction.isEmpty = false := by simpa using hf
    rw [if_neg hf, hvalue, Binary64.ofDecimal_mul_pow, hne, Bool.false_and,
      if_neg Bool.false_ne_true, ← hback]
    congr 3
    rw [Option.getD_none]
    omega

theorem isProper_scientific : (scientific x).IsProper := by
  have hx := x.expansion_isCanonical
  obtain ⟨d, rest, hd⟩ := List.exists_cons_of_ne_nil hx.digits_ne
  have hdigits := hx.areDigits
  rw [hd] at hdigits
  constructor
  · unfold scientific
    rw [hd]
    rcases hx.head?_ne with hhead | hzero
    · refine Or.inr ⟨fun c hc => hdigits c (List.mem_of_mem_take hc), List.cons_ne_nil _ _, ?_⟩
      rwa [hd] at hhead
    · rw [hzero] at hd
      obtain ⟨rfl, -⟩ := List.cons.inj hd
      exact Or.inl rfl
  · unfold scientific
    rw [hd]
    exact fun c hc => hdigits c (List.mem_of_mem_drop hc)

theorem text_scientific : (scientific x).text = x.signed x.expansion.scientific := by
  obtain ⟨d, rest, hd⟩ := List.exists_cons_of_ne_nil x.expansion_isCanonical.digits_ne
  rw [Expansion.scientific_eq hd]
  unfold text scientific FiniteDouble.signed signText exponentPart
  rw [hd]
  split_ifs <;> simp

theorem value_scientific : (scientific x).value = .ok (.double (.finite x)) := by
  unfold value scientific
  dsimp only
  rw [Option.isNone_some, Bool.and_false, if_neg Bool.false_ne_true, List.take_append_drop,
    ← x.ofDecimal_expansion]
  congr 3
  have hlen := List.length_pos_iff.mpr x.expansion_isCanonical.digits_ne
  rw [Option.getD_some, List.length_drop]
  omega

/-- **The short text of a double is a literal that denotes it.** -/
theorem exists_shortText :
    ∃ n : Numeral, n.IsProper ∧ n.text = x.shortText ∧ n.value = .ok (.double (.finite x)) := by
  unfold FiniteDouble.shortText
  split_ifs
  · exact ⟨_, isProper_positional x, text_positional x, value_positional x⟩
  · exact ⟨_, isProper_scientific x, text_scientific x, value_scientific x⟩

end Numeral

end DatalogIntake.Json

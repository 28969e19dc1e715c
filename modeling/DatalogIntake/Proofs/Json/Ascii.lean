import DatalogIntake.Proofs.Json.Nesting
import DatalogIntake.Proofs.Json.RoundTrip

/-!
# JSON text in ASCII

A JSON text can be spelled in ASCII: outside of string literals it has no other characters, and
inside a character beyond ASCII can be written as an escape, or as two that are the halves of a
pair. A text that is read keeps its value in this spelling (`ofChars?_toAscii`). The reader takes
the same steps on both: each of its parts commutes with the spelling, and the units of a string
differ in that a character beyond the first plane is split (`readUnits_toAscii`), which makes no
difference to the string. -/

namespace DatalogIntake.Json

/-! ### Spelling -/

/-- The units of a code point: itself, or the two halves of a pair. -/
def splitUnit (u : Nat) : List Nat :=
  if u < 0x10000 then [u]
  else [0xd800 + (u - 0x10000) / 0x400, 0xdc00 + (u - 0x10000) % 0x400]

/-- The escape of a unit, with four digits. -/
def escapeUnit (u : Nat) : List Char := '\\' :: 'u' :: Text.hexDigits 4 u

/-- A character of ASCII, but for the last, which is written as an escape. -/
def IsAscii (c : Char) : Prop := c.toNat < 0x7f

instance : DecidablePred IsAscii := fun c => inferInstanceAs (Decidable (c.toNat < 0x7f))

/-- A character in ASCII: itself, or its units as escapes. -/
def asciiChar (c : Char) : List Char :=
  if IsAscii c then [c] else (splitUnit c.toNat).flatMap escapeUnit

/-- A text in ASCII. -/
def toAscii (s : List Char) : List Char := s.flatMap asciiChar

theorem toAscii_append (a b : List Char) : toAscii (a ++ b) = toAscii a ++ toAscii b :=
  List.flatMap_append

theorem toAscii_cons {c : Char} (h : IsAscii c) (s : List Char) :
    toAscii (c :: s) = c :: toAscii s := by
  rw [toAscii, List.flatMap_cons, asciiChar, if_pos h]
  rfl

theorem splitUnit_eq (u : Nat) : ∃ v vs, splitUnit u = v :: vs := by
  unfold splitUnit
  split_ifs <;> exact ⟨_, _, rfl⟩

theorem toAscii_cons_of_not {c : Char} (h : ¬IsAscii c) (s : List Char) :
    ∃ t, toAscii (c :: s) = '\\' :: t := by
  obtain ⟨v, vs, hunits⟩ := splitUnit_eq c.toNat
  rw [toAscii, List.flatMap_cons, asciiChar, if_neg h, hunits]
  exact ⟨_, rfl⟩

theorem toAscii_ne_nil {s : List Char} (h : s ≠ []) : toAscii s ≠ [] := by
  obtain ⟨c, s, rfl⟩ := List.exists_cons_of_ne_nil h
  by_cases hc : IsAscii c
  · rw [toAscii_cons hc]
    exact List.cons_ne_nil _ _
  · obtain ⟨t, ht⟩ := toAscii_cons_of_not hc s
    rw [ht]
    exact List.cons_ne_nil _ _

theorem toAscii_eq_self {s : List Char} (h : ∀ c ∈ s, IsAscii c) : toAscii s = s := by
  induction s with
  | nil => rfl
  | cons c s ih =>
    obtain ⟨hc, hs⟩ := List.forall_mem_cons.mp h
    rw [toAscii_cons hc, ih hs]

theorem head?_toAscii {s : List Char} {c : Char} (hc : c ≠ '\\') (h : (toAscii s).head? = some c) :
    s.head? = some c := by
  cases s with
  | nil => cases h
  | cons d s =>
    by_cases hd : IsAscii d
    · rwa [toAscii_cons hd] at h
    · obtain ⟨t, ht⟩ := toAscii_cons_of_not hd s
      rw [ht] at h
      exact absurd (Option.some.inj h).symm hc

theorem length_le_toAscii (s : List Char) : s.length ≤ (toAscii s).length := by
  induction s with
  | nil => exact Nat.le_refl _
  | cons c s ih =>
    have hc : 1 ≤ (asciiChar c).length := by
      have hne := toAscii_ne_nil (List.cons_ne_nil c [])
      rw [toAscii, List.flatMap_singleton] at hne
      exact List.length_pos_iff.mpr hne
    rw [toAscii, List.flatMap_cons, List.length_append, List.length_cons]
    unfold toAscii at ih
    omega

/-- Runs of characters of ASCII, without the backslash, are the same in both spellings. -/
theorem runs_toAscii {p : Char → Bool} (hp : ∀ c, p c = true → IsAscii c) (hback : p '\\' = false)
    (s : List Char) :
    (toAscii s).takeWhile p = s.takeWhile p ∧
      (toAscii s).dropWhile p = toAscii (s.dropWhile p) := by
  induction s with
  | nil => exact ⟨rfl, rfl⟩
  | cons c s ih =>
    by_cases hc : p c = true
    · rw [toAscii_cons (hp c hc), List.takeWhile_cons_of_pos hc, List.takeWhile_cons_of_pos hc,
        List.dropWhile_cons_of_pos hc, List.dropWhile_cons_of_pos hc, ih.1]
      exact ⟨rfl, ih.2⟩
    · rw [List.takeWhile_cons_of_neg hc, List.dropWhile_cons_of_neg hc]
      by_cases hascii : IsAscii c
      · rw [toAscii_cons hascii, List.takeWhile_cons_of_neg hc, List.dropWhile_cons_of_neg hc]
        exact ⟨rfl, rfl⟩
      · obtain ⟨t, ht⟩ := toAscii_cons_of_not hascii s
        have hneg : ¬p '\\' = true := by rw [hback]; exact Bool.false_ne_true
        rw [ht, List.takeWhile_cons_of_neg hneg, List.dropWhile_cons_of_neg hneg]
        exact ⟨rfl, rfl⟩

theorem isAscii_of_isGap (c : Char) (h : isGap c = true) : IsAscii c := by
  simp only [isGap, Bool.or_eq_true, beq_iff_eq, or_assoc] at h
  rcases h with rfl | rfl | rfl | rfl <;> decide

theorem toNat_le_of_isDigit {c : Char} (h : c.isDigit = true) : c.toNat ≤ 57 := by
  simp only [Char.isDigit, Bool.and_eq_true, decide_eq_true_eq] at h
  exact h.2

theorem isAscii_of_isDigit (c : Char) (h : c.isDigit = true) : IsAscii c :=
  (toNat_le_of_isDigit h).trans_lt (by decide)

theorem skipGap_toAscii (s : List Char) : skipGap (toAscii s) = toAscii (skipGap s) :=
  (runs_toAscii isAscii_of_isGap rfl s).2

theorem takeDigits_toAscii (s : List Char) :
    (toAscii s).takeWhile Char.isDigit = s.takeWhile Char.isDigit :=
  (runs_toAscii isAscii_of_isDigit rfl s).1

theorem dropDigits_toAscii (s : List Char) :
    (toAscii s).dropWhile Char.isDigit = toAscii (s.dropWhile Char.isDigit) :=
  (runs_toAscii isAscii_of_isDigit rfl s).2

/-! ### Strings -/

theorem hexDigit?_lt {c : Char} {d : Nat} (h : hexDigit? c = some d) : d < 16 ∧ IsAscii c := by
  unfold IsAscii
  unfold hexDigit? at h
  split_ifs at h with hdigit hlower hupper
  · have hle := toNat_le_of_isDigit hdigit
    cases h
    simp only [Char.reduceToNat]
    omega
  · have hle : c.toNat ≤ 102 := hlower.2
    cases h
    simp only [Char.reduceToNat]
    omega
  · have hle : c.toNat ≤ 70 := hupper.2
    cases h
    simp only [Char.reduceToNat]
    omega

theorem hexNumber?_lt {a b c d : Char} {u : Nat} (h : hexNumber? a b c d = some u) :
    u < 0x10000 ∧ IsAscii a ∧ IsAscii b ∧ IsAscii c ∧ IsAscii d := by
  unfold hexNumber? at h
  split at h
  · next ha hb hc hd =>
    cases h
    obtain ⟨la, ha⟩ := hexDigit?_lt ha
    obtain ⟨lb, hb⟩ := hexDigit?_lt hb
    obtain ⟨lc, hc⟩ := hexDigit?_lt hc
    obtain ⟨ld, hd⟩ := hexDigit?_lt hd
    exact ⟨by omega, ha, hb, hc, hd⟩
  · cases h

theorem shortEscape?_ascii {c e : Char} (h : shortEscape? c = some e) : IsAscii c ∧ IsAscii e := by
  unfold shortEscape? at h
  split at h <;> cases h <;> decide

theorem lt_of_mem_splitUnit {u v : Nat} (hu : u < 0x110000) (h : v ∈ splitUnit u) :
    v < 0x10000 := by
  unfold splitUnit at h
  split_ifs at h with hsmall
  · rw [List.mem_singleton.mp h]
    exact hsmall
  · simp only [List.mem_cons, List.not_mem_nil, or_false] at h
    omega

theorem readUnits_escapes {opening : Nat} {s r : List Char} {us vs : List Nat}
    (hus : ∀ u ∈ us, u < 0x10000) (h : readUnits opening s = .ok (vs, r)) :
    readUnits opening (us.flatMap escapeUnit ++ s) = .ok (us ++ vs, r) := by
  have hs : s ≠ [] := by rintro rfl; cases h
  induction us with
  | nil => exact h
  | cons u us ih =>
    rw [List.flatMap_cons, List.append_assoc, escapeUnit,
      readUnits_hexDigits opening (hus u List.mem_cons_self) (by simp [hs]),
      ih fun v hv => hus v (List.mem_cons_of_mem u hv)]
    rfl

/-- A string that is read is read in ASCII as well, with its units split. -/
theorem readUnits_toAscii {opening : Nat} {s rest : List Char} {units : List Nat}
    (h : readUnits opening s = .ok (units, rest)) (opening' : Nat) :
    readUnits opening' (toAscii s) = .ok (units.flatMap splitUnit, toAscii rest) ∧
      ∀ u ∈ units, u < 0x110000 := by
  have split_small : ∀ {u : Nat}, u < 0x10000 → splitUnit u = [u] := fun hu => if_pos hu
  fun_induction readUnits opening s generalizing units with
  | case1 => cases h
  | case2 => cases h; exact ⟨by rw [toAscii_cons (by decide)]; rfl, by simp⟩
  | case3 => cases h
  | case4 a b c d s u hs hu ih =>
    obtain ⟨us, hus, rfl⟩ := consUnit_eq_ok h
    obtain ⟨hread, hall⟩ := ih hus
    obtain ⟨hlt, ha, hb, hc, hd⟩ := hexNumber?_lt hu
    have hne : toAscii s ≠ [] := toAscii_ne_nil (by rintro rfl; cases hs)
    refine ⟨?_, List.forall_mem_cons.mpr ⟨by omega, hall⟩⟩
    rw [toAscii_cons (by decide), toAscii_cons (by decide), toAscii_cons ha, toAscii_cons hb,
      toAscii_cons hc, toAscii_cons hd, readUnits_hexNumber opening' hu hne, hread,
      List.flatMap_cons, split_small hlt]
    rfl
  | case5 => cases h
  | case6 => cases h
  | case7 c s hu hu' e he ih =>
    obtain ⟨us, hus, rfl⟩ := consUnit_eq_ok h
    obtain ⟨hread, hall⟩ := ih hus
    obtain ⟨hc, hlt⟩ := shortEscape?_ascii he
    unfold IsAscii at hlt
    refine ⟨?_, List.forall_mem_cons.mpr ⟨by omega, hall⟩⟩
    rw [toAscii_cons (by decide), toAscii_cons hc, readUnits_shortEscape opening' he hu', hread,
      List.flatMap_cons, split_small (by omega)]
    rfl
  | case8 => cases h
  | case9 => cases h
  | case10 c s hq hb hu hu' hesc hlow ih =>
    obtain ⟨us, hus, rfl⟩ := consUnit_eq_ok h
    obtain ⟨hread, hall⟩ := ih hus
    have hvalid : c.toNat < 0x110000 := by
      have h : c.toNat < 0xd800 ∨ 0xdfff < c.toNat ∧ c.toNat < 0x110000 := c.valid
      omega
    refine ⟨?_, List.forall_mem_cons.mpr ⟨hvalid, hall⟩⟩
    by_cases hascii : IsAscii c
    · have hback : c ≠ '\\' := by
        rintro rfl
        cases s with
        | nil => exact hb rfl rfl
        | cons d s => exact hesc d s rfl rfl
      unfold IsAscii at hascii
      rw [toAscii_cons hascii, readUnits_char opening' hq hback hlow, hread, List.flatMap_cons,
        split_small (by omega)]
      rfl
    · rw [toAscii, List.flatMap_cons, asciiChar, if_neg hascii, List.flatMap_cons]
      exact readUnits_escapes (fun v hv => lt_of_mem_splitUnit hvalid hv) hread

/-- The halves of a pair make the character of the code point that was split. -/
theorem charsOfUnits_splitUnit {u : Nat} (hu : u < 0x110000) (hlarge : ¬u < 0x10000)
    (units : List Nat) :
    charsOfUnits (splitUnit u ++ units) = charOfUnit u :: charsOfUnits units := by
  have hpair : (isHighHalf (0xd800 + (u - 0x10000) / 0x400) &&
      isLowHalf (0xdc00 + (u - 0x10000) % 0x400)) = true := by
    simp only [isHighHalf, isLowHalf, Bool.and_eq_true, decide_eq_true_eq]
    omega
  rw [splitUnit, if_neg hlarge]
  show charsOfUnits (_ :: _ :: units) = _
  have hvalue : 0x10000 + (0xd800 + (u - 0x10000) / 0x400 - 0xd800) * 0x400 +
      (0xdc00 + (u - 0x10000) % 0x400 - 0xdc00) = u := by omega
  rw [charsOfUnits, if_pos hpair, hvalue]

theorem isLowHalf_of_splitUnit {v w : Nat} {ws : List Nat} (h : splitUnit v = w :: ws)
    (hv : v < 0x110000) (hlow : isLowHalf w = true) : w = v := by
  unfold splitUnit at h
  split_ifs at h with hsmall
  · exact (List.cons.inj h).1.symm
  · rw [← (List.cons.inj h).1] at hlow
    simp only [isLowHalf, Bool.and_eq_true, decide_eq_true_eq] at hlow
    omega

/-- **The split of code points makes no difference to the characters of a string.** -/
theorem charsOfUnits_flatMap_splitUnit {units : List Nat} (h : ∀ u ∈ units, u < 0x110000) :
    charsOfUnits (units.flatMap splitUnit) = charsOfUnits units := by
  fun_induction charsOfUnits units with
  | case1 => rfl
  | case2 u =>
    by_cases hu : u < 0x10000
    · rw [List.flatMap_singleton, splitUnit, if_pos hu, charsOfUnits]
    · rw [List.flatMap_singleton, ← List.append_nil (splitUnit u)]
      exact charsOfUnits_splitUnit (h u List.mem_cons_self) hu []
  | case3 u v units hpair ih =>
    have hsmall : u < 0x10000 ∧ v < 0x10000 := by
      simp only [isHighHalf, isLowHalf, Bool.and_eq_true, decide_eq_true_eq] at hpair
      omega
    rw [List.flatMap_cons, List.flatMap_cons, splitUnit, if_pos hsmall.1, splitUnit,
      if_pos hsmall.2]
    show charsOfUnits (u :: v :: units.flatMap splitUnit) = _
    rw [charsOfUnits, if_pos hpair, ih fun w hw => h w (by simp [hw])]
  | case4 u v units hpair ih =>
    obtain ⟨hu, hrest⟩ := List.forall_mem_cons.mp h
    rw [List.flatMap_cons, ← ih hrest]
    by_cases hsmall : u < 0x10000
    · obtain ⟨w, ws, hw⟩ := splitUnit_eq v
      have hpair' : ¬(isHighHalf u && isLowHalf w) = true := by
        rw [Bool.and_eq_true] at hpair ⊢
        rintro ⟨hhigh, hlow⟩
        rw [isLowHalf_of_splitUnit hw (hrest v List.mem_cons_self) hlow] at hlow
        exact hpair ⟨hhigh, hlow⟩
      rw [List.flatMap_cons, hw, splitUnit, if_pos hsmall]
      show charsOfUnits (u :: w :: (ws ++ units.flatMap splitUnit)) = _
      rw [charsOfUnits, if_neg hpair']
      rfl
    · exact charsOfUnits_splitUnit hu hsmall _

theorem readString_toAscii {s rest : List Char} {text : String}
    (h : readString s = .ok (text, rest)) : readString (toAscii s) = .ok (text, toAscii rest) := by
  obtain ⟨units, r, hunits, h⟩ := andThen_eq_ok h
  obtain ⟨hread, hlt⟩ := readUnits_toAscii hunits ((toAscii s).length + 1)
  cases h
  rw [readString, hread, andThen_ok, charsOfUnits_flatMap_splitUnit hlt]

/-! ### Numbers -/

theorem readWhole_toAscii (s : List Char) :
    readWhole (toAscii s) = (readWhole s).map fun p => (p.1, toAscii p.2) := by
  cases s with
  | nil => rfl
  | cons c s =>
    by_cases hc : IsAscii c
    · rw [toAscii_cons hc]
      rw [readWhole, readWhole, takeDigits_toAscii, dropDigits_toAscii]
      split_ifs <;> rfl
    · obtain ⟨t, ht⟩ := toAscii_cons_of_not hc s
      have hzero : c ≠ '0' := by rintro rfl; exact hc (by decide)
      have hdigit : ¬c.isDigit = true := fun h => hc (isAscii_of_isDigit c h)
      rw [ht, readWhole, readWhole, if_neg hzero, if_neg hdigit]
      rfl

theorem readFraction_none {s : List Char} (h : s.head? ≠ some '.') : readFraction s = ([], s) := by
  unfold readFraction
  split
  · exact absurd rfl h
  · rfl

theorem readFraction_toAscii (s : List Char) :
    readFraction (toAscii s) = ((readFraction s).1, toAscii (readFraction s).2) := by
  by_cases hs : s.head? = some '.'
  · obtain ⟨t, rfl⟩ := List.head?_eq_some_iff.mp hs
    rw [toAscii_cons (by decide), readFraction, readFraction, takeDigits_toAscii,
      dropDigits_toAscii]
    split_ifs
    · rw [toAscii_cons (by decide)]
    · rfl
  · rw [readFraction_none hs, readFraction_none (mt (head?_toAscii (by decide)) hs)]

theorem readSign_none {s : List Char} (hminus : s.head? ≠ some '-') (hplus : s.head? ≠ some '+') :
    readSign s = (false, s) := by
  unfold readSign
  split
  · exact absurd rfl hminus
  · exact absurd rfl hplus
  · rfl

theorem readSign_toAscii (s : List Char) :
    readSign (toAscii s) = ((readSign s).1, toAscii (readSign s).2) := by
  by_cases hminus : s.head? = some '-'
  · obtain ⟨t, rfl⟩ := List.head?_eq_some_iff.mp hminus
    rw [toAscii_cons (by decide)]
    rfl
  by_cases hplus : s.head? = some '+'
  · obtain ⟨t, rfl⟩ := List.head?_eq_some_iff.mp hplus
    rw [toAscii_cons (by decide)]
    rfl
  rw [readSign_none hminus hplus, readSign_none (mt (head?_toAscii (by decide)) hminus)
    (mt (head?_toAscii (by decide)) hplus)]

theorem readExponent_toAscii (s : List Char) :
    readExponent (toAscii s) = ((readExponent s).1, toAscii (readExponent s).2) := by
  cases s with
  | nil => rfl
  | cons c s =>
    by_cases hletter : c = 'e' ∨ c = 'E'
    · have hc : IsAscii c := by rcases hletter with rfl | rfl <;> decide
      rw [toAscii_cons hc, readExponent, readExponent, if_pos hletter, if_pos hletter]
      dsimp only
      rw [readSign_toAscii, takeDigits_toAscii, dropDigits_toAscii]
      split_ifs
      · rw [toAscii_cons hc]
      · rfl
    · have hnone : ∀ d ∈ (c :: s).head?, d ≠ 'e' ∧ d ≠ 'E' := by
        rintro _ ⟨⟩
        exact not_or.mp hletter
      have hnone' : ∀ d ∈ (toAscii (c :: s)).head?, d ≠ 'e' ∧ d ≠ 'E' := by
        intro d hd
        by_cases hback : d = '\\'
        · subst hback; decide
        · exact hnone d (head?_toAscii hback hd)
      rw [readExponent_none hnone, readExponent_none hnone']

theorem readNumeral_unsigned {s : List Char} (h : s.head? ≠ some '-') :
    readNumeral s = (readWhole s).map fun p =>
      (⟨false, p.1, (readFraction p.2).1, (readExponent (readFraction p.2).2).1⟩,
        (readExponent (readFraction p.2).2).2) := by
  unfold readNumeral
  split
  · exact absurd rfl h
  · dsimp only
    cases readWhole s <;> rfl

theorem readNumeral_minus (s : List Char) :
    readNumeral ('-' :: s) = (readWhole s).map fun p =>
      (⟨true, p.1, (readFraction p.2).1, (readExponent (readFraction p.2).2).1⟩,
        (readExponent (readFraction p.2).2).2) := by
  rw [readNumeral]
  dsimp only
  cases readWhole s <;> rfl

theorem readNumeral_toAscii (s : List Char) :
    readNumeral (toAscii s) = (readNumeral s).map fun p => (p.1, toAscii p.2) := by
  by_cases hs : s.head? = some '-'
  · obtain ⟨t, rfl⟩ := List.head?_eq_some_iff.mp hs
    rw [toAscii_cons (by decide), readNumeral_minus, readNumeral_minus, readWhole_toAscii]
    simp only [Option.map_map, Function.comp_def, readFraction_toAscii, readExponent_toAscii]
  · rw [readNumeral_unsigned hs, readNumeral_unsigned (mt (head?_toAscii (by decide)) hs),
      readWhole_toAscii]
    simp only [Option.map_map, Function.comp_def, readFraction_toAscii, readExponent_toAscii]

theorem readScalar_toAscii {s rest : List Char} {v : Json} (h : readScalar s = .ok (v, rest)) :
    readScalar (toAscii s) = .ok (v, toAscii rest) := by
  have word : ∀ {w : List Char}, (∀ c ∈ w, IsAscii c) →
      readScalar (w ++ toAscii rest) = .ok (v, toAscii rest) →
      readScalar (toAscii (w ++ rest)) = .ok (v, toAscii rest) := by
    intro w hw hread
    rwa [toAscii_append, toAscii_eq_self hw]
  unfold readScalar at h
  split at h
  · cases h; exact word (w := ['n', 'u', 'l', 'l']) (by simp [IsAscii]) rfl
  · cases h; exact word (w := ['t', 'r', 'u', 'e']) (by simp [IsAscii]) rfl
  · cases h; exact word (w := ['f', 'a', 'l', 's', 'e']) (by simp [IsAscii]) rfl
  · cases h; exact word (w := ['N', 'a', 'N']) (by simp [IsAscii]) rfl
  · cases h; exact word (w := ['I', 'n', 'f', 'i', 'n', 'i', 't', 'y']) (by simp [IsAscii]) rfl
  · cases h; exact word (w := ['-', 'I', 'n', 'f', 'i', 'n', 'i', 't', 'y']) (by simp [IsAscii]) rfl
  · split at h
    · cases h
    · next n r hn =>
      cases hv : n.value with
      | error e => rw [hv] at h; cases h
      | ok x =>
        rw [hv] at h
        cases h
        exact readScalar_of_numeral (by rw [readNumeral_toAscii, hn]; rfl) hv

/-! ### Values -/

/-- What is read within a bound is read as the same in ASCII, within one that is no less. -/
structure ReadsInAscii (bound more : Nat) : Prop where
  value : ∀ {room s rest v}, readValue room bound s = .ok (v, rest) →
    readValue room more (toAscii s) = .ok (v, toAscii rest)
  items : ∀ {room s rest items}, readItems room bound s = .ok (items, rest) →
    readItems room more (toAscii s) = .ok (items, toAscii rest)
  members : ∀ {room s rest members}, readMembers room bound s = .ok (members, rest) →
    readMembers room more (toAscii s) = .ok (members, toAscii rest)

theorem skipGap_toAscii_cons {s rest : List Char} {c : Char} (hc : IsAscii c)
    (h : skipGap s = c :: rest) : skipGap (toAscii s) = c :: toAscii rest := by
  rw [skipGap_toAscii, h, toAscii_cons hc]

theorem readValue_toAscii {room bound more : Nat} (ih : ReadsInAscii bound more)
    {s rest : List Char} {v : Json} (h : readValue room (bound + 1) s = .ok (v, rest)) :
    readValue room (more + 1) (toAscii s) = .ok (v, toAscii rest) := by
  unfold readValue at h
  split at h
  · obtain ⟨text, r, hr, h⟩ := andThen_eq_ok h
    cases h
    rw [toAscii_cons (by decide), readValue, readString_toAscii hr, andThen_ok]
  · obtain ⟨left, rfl, h⟩ := enter_eq_ok h
    rw [toAscii_cons (by decide), readValue, enter_succ]
    split at h
    · next hs =>
      cases h
      rw [skipGap_toAscii_cons (by decide) hs]
      rfl
    · obtain ⟨members, r, hm, h⟩ := andThen_eq_ok h
      obtain ⟨t, ht⟩ := starts_of_readMembers hm
      cases h
      have hread := ih.members hm
      rw [skipGap_toAscii]
      rw [ht, toAscii_cons (by decide)] at hread ⊢
      show andThen (readMembers left more ('"' :: toAscii t)) _ = _
      rw [hread, andThen_ok]
  · obtain ⟨left, rfl, h⟩ := enter_eq_ok h
    rw [toAscii_cons (by decide), readValue, enter_succ]
    split at h
    · next hs =>
      cases h
      rw [skipGap_toAscii_cons (by decide) hs]
      rfl
    · obtain ⟨items, r, hi, h⟩ := andThen_eq_ok h
      cases h
      have hread := ih.items hi
      rw [skipGap_toAscii]
      split
      · next heq =>
        rw [heq] at hread
        exact absurd rfl (starts_of_readItems hread).2
      · rw [hread, andThen_ok]
  · exact readValue_of_scalar room more (readScalar_toAscii h)

theorem readItems_toAscii {room bound more : Nat} (ih : ReadsInAscii bound more)
    {s rest : List Char} {items : List Json} (h : readItems room (bound + 1) s = .ok (items, rest)) :
    readItems room (more + 1) (toAscii s) = .ok (items, toAscii rest) := by
  unfold readItems at h
  obtain ⟨item, r, hv, h⟩ := andThen_eq_ok h
  rw [readItems, ih.value hv, andThen_ok]
  split at h
  · next hs =>
    cases h
    rw [skipGap_toAscii_cons (by decide) hs]
    rfl
  · next r' hs =>
    obtain ⟨items', t, hi, h⟩ := andThen_eq_ok h
    cases h
    rw [skipGap_toAscii_cons (by decide) hs]
    show andThen (readItems room more (skipGap (toAscii r'))) _ = _
    rw [skipGap_toAscii, ih.items hi, andThen_ok]
  · cases h

theorem readMembers_toAscii {room bound more : Nat} (ih : ReadsInAscii bound more)
    {s rest : List Char} {members : List (String × Json)}
    (h : readMembers room (bound + 1) s = .ok (members, rest)) :
    readMembers room (more + 1) (toAscii s) = .ok (members, toAscii rest) := by
  unfold readMembers at h
  split at h
  · obtain ⟨key, r, hk, h⟩ := andThen_eq_ok h
    rw [toAscii_cons (by decide), readMembers, readString_toAscii hk, andThen_ok]
    split at h
    · next r' hcolon =>
      obtain ⟨value, t, hv, h⟩ := andThen_eq_ok h
      rw [skipGap_toAscii_cons (by decide) hcolon]
      show andThen (readValue room more (skipGap (toAscii r'))) _ = _
      rw [skipGap_toAscii, ih.value hv, andThen_ok]
      split at h
      · next hs =>
        cases h
        rw [skipGap_toAscii_cons (by decide) hs]
        rfl
      · next t' hs =>
        obtain ⟨members', t'', hm, h⟩ := andThen_eq_ok h
        cases h
        rw [skipGap_toAscii_cons (by decide) hs]
        show andThen (readMembers room more (skipGap (toAscii t'))) _ = _
        rw [skipGap_toAscii, ih.members hm, andThen_ok]
      · cases h
    · cases h
  · cases h

theorem readsInAscii {bound more : Nat} (h : bound ≤ more) : ReadsInAscii bound more := by
  induction bound generalizing more with
  | zero => refine ⟨fun h => ?_, fun h => ?_, fun h => ?_⟩ <;> cases h
  | succ bound ih =>
    obtain ⟨more, rfl⟩ : ∃ m, more = m + 1 := ⟨more - 1, by omega⟩
    have ih := ih (Nat.le_of_succ_le_succ h)
    exact ⟨readValue_toAscii ih, readItems_toAscii ih, readMembers_toAscii ih⟩

/-- A whole text is read as a value: no mark stands before it, and blanks around it. -/
theorem readWholeText_eq_ok {room : Nat} {s : List Char} {v : Json} :
    readWholeText room s = .ok v ↔ s.head? ≠ some '\ufeff' ∧
      ∃ rest, readValue room (2 * s.length + 1) (skipGap s) = .ok (v, rest) ∧
        skipGap rest = [] := by
  unfold readWholeText
  split
  · simp
  · next hmark =>
    have hhead : s.head? ≠ some '\ufeff' := by
      intro h
      obtain ⟨t, ht⟩ := List.head?_eq_some_iff.mp h
      exact hmark t ht
    cases readValue room (2 * s.length + 1) (skipGap s) with
    | error e => simp
    | ok x =>
      obtain ⟨value, rest⟩ := x
      dsimp only
      split
      · next hrest => simp [hhead, hrest]
      · next hrest =>
        have hrest : skipGap rest ≠ [] := hrest
        simp [hrest]

/-- **A text denotes the same value in ASCII.** -/
theorem ofChars?_toAscii {room : Nat} {s : List Char} {v : Json} (h : ofChars? room s = .ok v) :
    ofChars? room (toAscii s) = .ok v := by
  have hwhole : readWholeText room s = .ok v := by
    unfold ofChars? at h
    cases hread : readWholeText room s with
    | error e => rw [hread] at h; cases h
    | ok w => rw [hread] at h; cases h; rfl
  obtain ⟨hmark, rest, hvalue, hrest⟩ := readWholeText_eq_ok.mp hwhole
  have hbound : 2 * s.length + 1 ≤ 2 * (toAscii s).length + 1 := by
    have := length_le_toAscii s
    omega
  have hread := (readsInAscii hbound).value hvalue
  have hspelled : readWholeText room (toAscii s) = .ok v := by
    refine readWholeText_eq_ok.mpr ⟨mt (head?_toAscii (by decide)) hmark, toAscii rest, ?_, ?_⟩
    · rwa [skipGap_toAscii]
    · rw [skipGap_toAscii, hrest]
      rfl
  rw [ofChars?, hspelled]
  rfl

end DatalogIntake.Json

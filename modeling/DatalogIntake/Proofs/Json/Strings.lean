import DatalogIntake.Json.Reader
import DatalogIntake.Json.Writer
import Mathlib.Tactic.SplitIfs

/-!
# Strings in JSON text

Every character of a string is written as itself or as an escape, and the reader turns it into one
unit, its code point (`readUnits_escapeChar`). No character is half of a pair, so the units are read
as the characters that were written, and a written string is read back (`readString_writeString`).
-/

namespace DatalogIntake.Json

/-! ### Hexadecimal digits -/

theorem hexDigit?_digitChar : ∀ d < 16, hexDigit? (Nat.digitChar d) = some d := by decide

/-- Four hexadecimal digits denote the number that they were written for. -/
theorem hexNumber?_hexDigits {n : Nat} (h : n < 0x10000) :
    ∃ a b c d, Text.hexDigits 4 n = [a, b, c, d] ∧ hexNumber? a b c d = some n := by
  refine ⟨_, _, _, _, rfl, ?_⟩
  unfold hexNumber?
  rw [hexDigit?_digitChar _ (Nat.mod_lt _ (by decide)),
    hexDigit?_digitChar _ (Nat.mod_lt _ (by decide)),
    hexDigit?_digitChar _ (Nat.mod_lt _ (by decide)),
    hexDigit?_digitChar _ (Nat.mod_lt _ (by decide))]
  dsimp only
  congr 1
  omega

/-! ### Units -/

theorem escapeChar_cases (c : Char) :
    (∃ e, escapeChar c = ['\\', e] ∧ shortEscape? e = some c ∧ e ≠ 'u') ∨
    (c.toNat < 0x20 ∧ escapeChar c = '\\' :: 'u' :: Text.hexDigits 4 c.toNat) ∨
    (escapeChar c = [c] ∧ c ≠ '"' ∧ c ≠ '\\' ∧ ¬c.toNat < 0x20) := by
  unfold escapeChar
  split_ifs with h1 h2 h3 h4 h5 h6 h7 h8
  · exact Or.inl ⟨'"', rfl, by rw [h1]; rfl, by decide⟩
  · exact Or.inl ⟨'\\', rfl, by rw [h2]; rfl, by decide⟩
  · exact Or.inl ⟨'n', rfl, by rw [h3]; rfl, by decide⟩
  · exact Or.inl ⟨'r', rfl, by rw [h4]; rfl, by decide⟩
  · exact Or.inl ⟨'t', rfl, by rw [h5]; rfl, by decide⟩
  · exact Or.inl ⟨'b', rfl, by rw [h6]; rfl, by decide⟩
  · exact Or.inl ⟨'f', rfl, by rw [h7]; rfl, by decide⟩
  · exact Or.inr (Or.inl ⟨h8, rfl⟩)
  · exact Or.inr (Or.inr ⟨rfl, h1, h2, h8⟩)

theorem readUnits_shortEscape (opening : Nat) {c e : Char} (h : shortEscape? e = some c)
    (hu : e ≠ 'u') (s : List Char) :
    readUnits opening ('\\' :: e :: s) = consUnit c.toNat (readUnits opening s) := by
  rw [readUnits, h]
  · exact fun _ _ _ _ _ he _ => hu he
  · exact hu

theorem readUnits_hexNumber (opening : Nat) {a b c d : Char} {u : Nat}
    (h : hexNumber? a b c d = some u) {s : List Char} (hs : s ≠ []) :
    readUnits opening ('\\' :: 'u' :: a :: b :: c :: d :: s) =
      consUnit u (readUnits opening s) := by
  have hne : s.isEmpty = false := by simpa using hs
  rw [readUnits, h, hne]

theorem readUnits_hexDigits (opening : Nat) {u : Nat} (hu : u < 0x10000) {s : List Char}
    (hs : s ≠ []) :
    readUnits opening ('\\' :: 'u' :: Text.hexDigits 4 u ++ s) =
      consUnit u (readUnits opening s) := by
  obtain ⟨a, b, c, d, hdigits, hnumber⟩ := hexNumber?_hexDigits hu
  rw [hdigits]
  exact readUnits_hexNumber opening hnumber hs

theorem readUnits_char (opening : Nat) {c : Char} (hquote : c ≠ '"') (hback : c ≠ '\\')
    (hlow : ¬c.toNat < 0x20) (s : List Char) :
    readUnits opening (c :: s) = consUnit c.toNat (readUnits opening s) := by
  rw [readUnits, if_neg hlow]
  · exact fun h => absurd h hquote
  all_goals intros; exact hback ‹_›

/-- A written character is read as its code point. -/
theorem readUnits_escapeChar (opening : Nat) (c : Char) {s : List Char} (hs : s ≠ []) :
    readUnits opening (escapeChar c ++ s) = consUnit c.toNat (readUnits opening s) := by
  rcases escapeChar_cases c with ⟨e, he, hshort, hu⟩ | ⟨hlow, he⟩ | ⟨he, hquote, hback, hlow⟩
  · rw [he]
    exact readUnits_shortEscape opening hshort hu s
  · rw [he]
    exact readUnits_hexDigits opening (Nat.lt_trans hlow (by decide)) hs
  · rw [he]
    exact readUnits_char opening hquote hback hlow s

theorem readUnits_flatMap (opening : Nat) (cs r : List Char) :
    readUnits opening (cs.flatMap escapeChar ++ '"' :: r) = .ok (cs.map Char.toNat, r) := by
  induction cs with
  | nil => rfl
  | cons c cs ih =>
    rw [List.flatMap_cons, List.append_assoc, readUnits_escapeChar _ _ (by simp), ih]
    rfl

/-! ### Characters -/

/-- A character is no half of a pair. -/
theorem isHighHalf_toNat (c : Char) : isHighHalf c.toNat = false := by
  have hvalid : c.toNat < 0xd800 ∨ 0xdfff < c.toNat ∧ c.toNat < 0x110000 := c.valid
  unfold isHighHalf
  rw [Bool.and_eq_false_iff, decide_eq_false_iff_not, decide_eq_false_iff_not]
  omega

theorem charOfUnit_toNat (c : Char) : charOfUnit c.toNat = c := by
  unfold charOfUnit
  rw [if_pos (show c.toNat.isValidChar from c.valid), Char.ofNat_toNat]

theorem charsOfUnits_cons {u : Nat} (h : isHighHalf u = false) (units : List Nat) :
    charsOfUnits (u :: units) = charOfUnit u :: charsOfUnits units := by
  cases units with
  | nil => rfl
  | cons v units => rw [charsOfUnits, h, Bool.false_and, if_neg Bool.false_ne_true]

theorem charsOfUnits_map_toNat (cs : List Char) : charsOfUnits (cs.map Char.toNat) = cs := by
  induction cs with
  | nil => rfl
  | cons c cs ih =>
    rw [List.map_cons, charsOfUnits_cons (isHighHalf_toNat c), charOfUnit_toNat, ih]

/-- **A written string is read back**, with the quote before it taken off. -/
theorem readString_writeString (s : String) (r : List Char) :
    ∃ t, writeString s = '"' :: t ∧ readString (t ++ r) = .ok (s, r) := by
  refine ⟨s.toList.flatMap escapeChar ++ ['"'], rfl, ?_⟩
  unfold readString
  rw [List.append_assoc, List.singleton_append, readUnits_flatMap, andThen_ok,
    charsOfUnits_map_toNat, String.ofList_toList]

end DatalogIntake.Json

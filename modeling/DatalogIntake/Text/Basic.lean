/-!
# Text

What the library asks of plain text: whether one text occurs in another, how texts are listed, and
whether a text is blank.
-/

namespace DatalogIntake.Text

/-! ### Searching -/

/-- Whether a text occurs in another. -/
def occursIn (pattern : List Char) : List Char → Bool
  | [] => pattern.isEmpty
  | c :: rest => pattern.isPrefixOf (c :: rest) || occursIn pattern rest

theorem occursIn_iff {pattern text : List Char} :
    occursIn pattern text = true ↔ pattern <:+: text := by
  induction text with
  | nil => simp [occursIn]
  | cons c rest ih =>
    rw [occursIn, Bool.or_eq_true, List.isPrefixOf_iff_prefix, ih, List.infix_cons_iff]

/-! ### Listings -/

/-- Texts with a comma and a blank between two. -/
def commaList (items : List String) : String :=
  ", ".intercalate items

/-- A listing in brackets. -/
def bracketed (items : List String) : String :=
  "[" ++ commaList items ++ "]"

/-- A listing in parentheses; a text alone is followed by a comma. -/
def parenthesized : List String → String
  | [s] => "(" ++ s ++ ",)"
  | items => "(" ++ commaList items ++ ")"

/-- A listing in braces. -/
def braced (items : List String) : String :=
  "\x7b" ++ commaList items ++ "\x7d"

theorem toList_commaList_cons (s t : String) (rest : List String) :
    (commaList (s :: t :: rest)).toList =
      s.toList ++ ',' :: ' ' :: (commaList (t :: rest)).toList := by
  simp [commaList, String.toList_intercalate, List.intercalate]

/-! ### Blank text

A leftover counts as empty when it holds blank characters only. The set is the Unicode property
White_Space together with the four information separators; it is a table here because the character
class of the core library knows four ASCII blanks only. -/

/-- The blank characters, as ranges of code points in ascending order. -/
def blankRanges : List (Nat × Nat) :=
  [(0x09, 0x0d), (0x1c, 0x20), (0x85, 0x85), (0xa0, 0xa0), (0x1680, 0x1680), (0x2000, 0x200a),
    (0x2028, 0x2029), (0x202f, 0x202f), (0x205f, 0x205f), (0x3000, 0x3000)]

/-- A blank character: white space or an information separator. -/
def isBlank (c : Char) : Bool :=
  blankRanges.any fun r => r.1 ≤ c.toNat && c.toNat ≤ r.2

/-- Text without a character that is not blank. -/
def isBlankText (cs : List Char) : Bool :=
  cs.all isBlank

theorem not_isBlank_brace : isBlank '{' = false ∧ isBlank '}' = false := ⟨rfl, rfl⟩

end DatalogIntake.Text

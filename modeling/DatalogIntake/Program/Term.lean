import DatalogIntake.Binary64.Basic

/-!
# Names and terms

Predicates, rules and queries carry names. A name is an ASCII letter or underscore, then ASCII
letters, digits and underscores; a single line feed after them is let through. `Name` keeps the
test in the type, so every name inside a program has passed it.

A term is a text, an integer, a finite double or a truth value. A text that starts with the marker
`?` is a reference to a variable, whose name is the text without the marker; any other text is a
literal. Where only variables can stand the marker may be left out.
-/

namespace DatalogIntake

/-! ### Names -/

/-- A character that may stand first in a name. -/
def Name.isStart (c : Char) : Bool :=
  c.isAlpha || c == '_'

/-- A character that may follow in a name. -/
def Name.isFollow (c : Char) : Bool :=
  c.isAlphanum || c == '_'

/-- What may come after the first character: following characters, then at most one line feed. -/
def Name.isTail : List Char → Bool
  | [] => true
  | ['\n'] => true
  | c :: rest => Name.isFollow c && Name.isTail rest

/-- The text of a name. -/
def Name.isName : List Char → Bool
  | [] => false
  | c :: rest => Name.isStart c && Name.isTail rest

/-- The text of a name that is an identifier and nothing else. -/
def Name.isIdentifier : List Char → Bool
  | [] => false
  | c :: rest => Name.isStart c && rest.all Name.isFollow

/-- A text that has passed the test for names. -/
structure Name where
  text : String
  isName_text : Name.isName text.toList = true
deriving DecidableEq

/-- The name with this text, if it is one. -/
def Name.ofText? (text : String) : Option Name :=
  if h : Name.isName text.toList = true then some ⟨text, h⟩ else none

theorem Name.ofText?_text (name : Name) : Name.ofText? name.text = some name := by
  simp [Name.ofText?, name.isName_text]

theorem Name.text_of_ofText? {text : String} {name : Name} (h : Name.ofText? text = some name) :
    name.text = text := by
  unfold Name.ofText? at h
  split at h
  · cases h; rfl
  · cases h

theorem Name.ext_text {a b : Name} (h : a.text = b.text) : a = b := by
  cases a; cases b; cases h; rfl

/-! ### The marker -/

namespace Variable

/-- The character before the name of a variable. -/
def marker : Char := '?'

/-- A text that starts with the marker. -/
def isMarked (text : String) : Bool :=
  match text.toList with
  | [] => false
  | c :: _ => c == marker

/-- The text without the marker; one without a marker is left alone. -/
def bare (text : String) : String :=
  match text.toList with
  | [] => text
  | c :: rest => if c == marker then String.ofList rest else text

theorem bare_of_not_isMarked {text : String} (h : isMarked text = false) : bare text = text := by
  unfold isMarked at h
  unfold bare
  split
  · rfl
  · next heq =>
    rw [heq] at h
    simp [h]

theorem bare_mark (name : String) : bare (String.ofList (marker :: name.toList)) = name := by
  simp [bare]

theorem toList_of_isMarked {text : String} (h : isMarked text = true) :
    text.toList = '?' :: (bare text).toList := by
  unfold isMarked at h
  unfold bare
  split at h
  · cases h
  · next c rest heq =>
    rw [beq_iff_eq] at h
    rw [heq, h]
    simp [marker]

end Variable

/-! ### Terms -/

/-- An argument of a predicate or the right side of a comparison. -/
inductive Term where
  | text (s : String)
  | int (n : Int)
  | double (x : FiniteDouble)
  | bool (b : Bool)
deriving DecidableEq

namespace Term

/-- The name of the variable that a term refers to. -/
def variableName? : Term → Option String
  | .text s => if Variable.isMarked s then some (Variable.bare s) else none
  | .int _ => none
  | .double _ => none
  | .bool _ => none

/-- The integer that a number or a truth value stands for, if it is one exactly. -/
def integer? : Term → Option Int
  | .int n => some n
  | .bool b => some (if b then 1 else 0)
  | .text _ => none
  | .double _ => none

/-- Whether two terms are equal as values: texts as texts, and numbers and truth values by the
exact number that they stand for, whatever their kind. -/
def agrees : Term → Term → Bool
  | .text s, .text t => s == t
  | .double x, .double y => x.signedUnits == y.signedUnits
  | .double x, b => b.integer?.any x.isInt
  | a, .double y => a.integer?.any y.isInt
  | a, b => a.integer?.isSome && a.integer? == b.integer?

end Term

end DatalogIntake

import DatalogIntake.Binary64.Text
import DatalogIntake.Json.Basic
import DatalogIntake.Text.Basic
import DatalogIntake.Text.Quoted

/-!
# Writing values

A value is written on one line, with blanks after commas and colons, or over several lines with a
given indentation. Characters beyond ASCII stand for themselves; in strings the quote, the
backslash and the control characters are escaped. Empty containers stay on one line in both.

A message about a bad value shows the value itself or the name of its kind. Strings are shown
quoted, lists in brackets and objects in braces, with the words `None`, `True` and `False` for the
constants.
-/

namespace DatalogIntake.Json

/-! ### JSON text -/

/-- How a text is laid out: on one line, or over lines indented by a number of blanks for each
level. -/
inductive Layout where
  | line
  | indented (width : Nat)
deriving DecidableEq, Repr

/-- The layout for an indentation: none is one line, and a negative one counts as zero. -/
def Layout.ofIndent : Option Int → Layout
  | none => .line
  | some width => .indented width.toNat

/-- The start of a new line at a level of nesting, in a layout that has lines. -/
def Layout.newline (layout : Layout) (level : Nat) : List Char :=
  match layout with
  | .line => []
  | .indented width => '\n' :: List.replicate (width * level) ' '

/-- What stands between two items at a level of nesting. -/
def Layout.separator (layout : Layout) (level : Nat) : List Char :=
  match layout with
  | .line => [',', ' ']
  | .indented _ => ',' :: layout.newline level

/-- One character of a string. -/
def escapeChar (c : Char) : List Char :=
  if c = '"' then ['\\', '"']
  else if c = '\\' then ['\\', '\\']
  else if c = '\n' then ['\\', 'n']
  else if c = '\r' then ['\\', 'r']
  else if c = '\t' then ['\\', 't']
  else if c = '\x08' then ['\\', 'b']
  else if c = '\x0c' then ['\\', 'f']
  else if c.toNat < 0x20 then '\\' :: 'u' :: Text.hexDigits 4 c.toNat
  else [c]

/-- A string between its quotes. -/
def writeString (s : String) : List Char :=
  '"' :: s.toList.flatMap escapeChar ++ ['"']

mutual

/-- A value at a level of nesting. -/
def write (layout : Layout) (level : Nat) : Json → List Char
  | .null => ['n', 'u', 'l', 'l']
  | .bool true => ['t', 'r', 'u', 'e']
  | .bool false => ['f', 'a', 'l', 's', 'e']
  | .int n => Decimal.ofInt n
  | .double x => x.jsonText
  | .str s => writeString s
  | .arr [] => ['[', ']']
  | .arr (item :: rest) =>
    '[' :: layout.newline (level + 1) ++ write layout (level + 1) item ++
      writeItems layout (level + 1) rest ++ layout.newline level ++ [']']
  | .obj [] => ['{', '}']
  | .obj ((key, value) :: rest) =>
    '{' :: layout.newline (level + 1) ++ writeString key ++ ':' :: ' ' ::
      write layout (level + 1) value ++
      writeFields layout (level + 1) rest ++ layout.newline level ++ ['}']

/-- Items that follow another, each after a separator. -/
def writeItems (layout : Layout) (level : Nat) : List Json → List Char
  | [] => []
  | item :: rest =>
    layout.separator level ++ write layout level item ++ writeItems layout level rest

/-- Fields that follow another, each after a separator. -/
def writeFields (layout : Layout) (level : Nat) : List (String × Json) → List Char
  | [] => []
  | (key, value) :: rest =>
    layout.separator level ++ writeString key ++ ':' :: ' ' :: write layout level value ++
      writeFields layout level rest

end

/-- The text of a value. -/
def toText (value : Json) (layout : Layout) : String :=
  String.ofList (write layout 0 value)

/-! ### Values in messages -/

/-- The word for a truth value. -/
def displayBool (b : Bool) : String :=
  if b then "True" else "False"

/-- The name of the kind of a value. -/
def kindName : Json → String
  | .null => "NoneType"
  | .bool _ => "bool"
  | .int _ => "int"
  | .double _ => "float"
  | .str _ => "str"
  | .arr _ => "list"
  | .obj _ => "dict"

mutual

/-- A value as messages show it. -/
def display : Json → String
  | .null => "None"
  | .bool b => displayBool b
  | .int n => String.ofList (Decimal.ofInt n)
  | .double x => String.ofList x.displayText
  | .str s => Text.quoted s
  | .arr items => Text.bracketed (displayItems items)
  | .obj fields => Text.braced (displayFields fields)

/-- The items of an array as messages show them. -/
def displayItems : List Json → List String
  | [] => []
  | item :: rest => display item :: displayItems rest

/-- The fields of an object as messages show them. -/
def displayFields : List (String × Json) → List String
  | [] => []
  | (key, value) :: rest => (Text.quoted key ++ ": " ++ display value) :: displayFields rest

end

/-- A value as messages show it, with a string left as it is. -/
def plainDisplay : Json → String
  | .str s => s
  | value => value.display

end DatalogIntake.Json

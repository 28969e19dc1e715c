import DatalogIntake.Binary64.Basic
import DatalogIntake.Decimal.Basic
import DatalogIntake.Json.Basic

/-!
# Reading JSON text

A recursive reader over the characters of a text. Every step returns the rest of the text; a
failure says what was missed and how many characters were left at that place, from which the
offset, the line and the column follow. Beside the values of the standard the literals `NaN`,
`Infinity` and `-Infinity` are read. Strings are sequences of Unicode scalar values: an escape that
is half of a pair and stands alone names none, and U+FFFD is read in its place.

Two limits are failures of a kind of their own. An integer literal has at most 4300 digits. And as
many containers can be open at once as there is *room* for: the reader shares the room with the
calls around it, so how much of it is left is a parameter.
-/

namespace DatalogIntake.Json

/-! ### Failures -/

/-- What the reader missed, or what it refused. -/
inductive Cause where
  | value
  | extraData
  | propertyName
  | colon
  | comma
  | unterminatedString
  | controlCharacter
  | escape
  | unicodeEscape
  | byteOrderMark
deriving DecidableEq, Repr

/-- The words for a cause. -/
def Cause.message : Cause → String
  | .value => "Expecting value"
  | .extraData => "Extra data"
  | .propertyName => "Expecting property name enclosed in double quotes"
  | .colon => "Expecting ':' delimiter"
  | .comma => "Expecting ',' delimiter"
  | .unterminatedString => "Unterminated string starting at"
  | .controlCharacter => "Invalid control character at"
  | .escape => "Invalid \\escape"
  | .unicodeEscape => "Invalid \\uXXXX escape"
  | .byteOrderMark => "Unexpected UTF-8 BOM (decode using utf-8-sig)"

/-- A value that holds others. -/
inductive Container where
  | array
  | object
deriving DecidableEq, Repr

/-- The word for a container. -/
def Container.word : Container → String
  | .array => "array"
  | .object => "object"

/-- A limit of the reader that a text goes beyond: an integer literal has too many digits, or a
container opens and there is no room left for it. -/
inductive Overrun where
  | longInteger (digits : Nat)
  | deepNesting (container : Container)
deriving DecidableEq, Repr

/-- Why reading stopped: the text is malformed with `left` characters to go, or goes beyond a
limit. -/
inductive Stop where
  | malformed (cause : Cause) (left : Nat)
  | overrun (e : Overrun)
deriving DecidableEq, Repr

/-- A value read from the front of a text, with the rest of the text. -/
abbrev Reading (α : Type) := Except Stop (α × List Char)

/-- Reads on in the rest of the text with what has been read. -/
def andThen {α β : Type} (r : Reading α) (next : α → List Char → Reading β) : Reading β :=
  match r with
  | .ok (a, rest) => next a rest
  | .error e => .error e

@[simp] theorem andThen_ok {α β : Type} (a : α) (rest : List Char)
    (next : α → List Char → Reading β) : andThen (.ok (a, rest)) next = next a rest := rfl

/-! ### Blanks and literals -/

/-- The blanks between the tokens of JSON. -/
def isGap (c : Char) : Bool :=
  c == ' ' || c == '\t' || c == '\n' || c == '\r'

/-- The text after its leading blanks. -/
def skipGap (s : List Char) : List Char :=
  s.dropWhile isGap

/-! ### Numbers -/

/-- The most digits an integer literal may have. -/
def maxIntegerDigits : Nat := 4300

/-- The parts of a number literal. -/
structure Numeral where
  isNegative : Bool
  whole : List Char
  fraction : List Char
  exponent : Option Int
deriving DecidableEq, Repr

/-- The whole part of a number: a zero, or digits that start with another digit. -/
def readWhole : List Char → Option (List Char × List Char)
  | [] => none
  | c :: rest =>
    if c = '0' then some (['0'], rest)
    else if c.isDigit then some (c :: rest.takeWhile Char.isDigit, rest.dropWhile Char.isDigit)
    else none

/-- The digits of a fraction. A point without a digit after it is left in the text. -/
def readFraction (s : List Char) : List Char × List Char :=
  match s with
  | '.' :: rest =>
    if (rest.takeWhile Char.isDigit).isEmpty then ([], s)
    else (rest.takeWhile Char.isDigit, rest.dropWhile Char.isDigit)
  | _ => ([], s)

/-- The sign of an exponent, and the text after it. -/
def readSign : List Char → Bool × List Char
  | '-' :: rest => (true, rest)
  | '+' :: rest => (false, rest)
  | s => (false, s)

/-- An exponent. A letter `e` without digits after it is left in the text. -/
def readExponent (s : List Char) : Option Int × List Char :=
  match s with
  | [] => (none, [])
  | c :: rest =>
    if c = 'e' ∨ c = 'E' then
      let signed := readSign rest
      let digits := signed.2.takeWhile Char.isDigit
      if digits.isEmpty then (none, s)
      else (some (Decimal.toInt signed.1 digits), signed.2.dropWhile Char.isDigit)
    else (none, s)

/-- A number literal at the front of a text. -/
def readNumeral (s : List Char) : Option (Numeral × List Char) :=
  let signed : Bool × List Char :=
    match s with
    | '-' :: rest => (true, rest)
    | _ => (false, s)
  match readWhole signed.2 with
  | none => none
  | some (whole, rest) =>
    let fraction := readFraction rest
    let exponent := readExponent fraction.2
    some (⟨signed.1, whole, fraction.1, exponent.1⟩, exponent.2)

/-- The value of a number literal: a double if it has a fraction or an exponent. -/
def Numeral.value (n : Numeral) : Except Stop Json :=
  if n.fraction.isEmpty && n.exponent.isNone then
    if n.whole.length ≤ maxIntegerDigits then .ok (.int (Decimal.toInt n.isNegative n.whole))
    else .error (.overrun (.longInteger n.whole.length))
  else
    .ok (.double (Binary64.ofDecimal n.isNegative (Decimal.toNat (n.whole ++ n.fraction))
      (n.exponent.getD 0 - n.fraction.length)))

/-! ### Strings -/

/-- The character that a one-letter escape stands for. -/
def shortEscape? : Char → Option Char
  | '"' => some '"'
  | '\\' => some '\\'
  | '/' => some '/'
  | 'b' => some '\x08'
  | 'f' => some '\x0c'
  | 'n' => some '\n'
  | 'r' => some '\r'
  | 't' => some '\t'
  | _ => none

/-- The value of a hexadecimal digit. -/
def hexDigit? (c : Char) : Option Nat :=
  if c.isDigit then some (c.toNat - '0'.toNat)
  else if 'a' ≤ c ∧ c ≤ 'f' then some (c.toNat - 'a'.toNat + 10)
  else if 'A' ≤ c ∧ c ≤ 'F' then some (c.toNat - 'A'.toNat + 10)
  else none

/-- The number that four hexadecimal digits denote. -/
def hexNumber? (a b c d : Char) : Option Nat :=
  match hexDigit? a, hexDigit? b, hexDigit? c, hexDigit? d with
  | some a, some b, some c, some d => some (((a * 16 + b) * 16 + c) * 16 + d)
  | _, _, _, _ => none

/-- Puts a unit before those read after it. -/
def consUnit (u : Nat) (r : Reading (List Nat)) : Reading (List Nat) :=
  andThen r fun units rest => .ok (u :: units, rest)

/-- The units of a string up to its closing quote: the code point of a character, the number of a
four digit escape. The opening quote is `opening` characters before the end of the text. -/
def readUnits (opening : Nat) : List Char → Reading (List Nat)
  | [] => .error (.malformed .unterminatedString opening)
  | '"' :: rest => .ok ([], rest)
  | ['\\'] => .error (.malformed .unterminatedString opening)
  | '\\' :: 'u' :: a :: b :: c :: d :: rest =>
    match hexNumber? a b c d, rest.isEmpty with
    | some u, false => consUnit u (readUnits opening rest)
    | _, _ => .error (.malformed .unicodeEscape (rest.length + 5))
  | '\\' :: 'u' :: rest => .error (.malformed .unicodeEscape (rest.length + 1))
  | '\\' :: c :: rest =>
    match shortEscape? c with
    | some e => consUnit e.toNat (readUnits opening rest)
    | none => .error (.malformed .escape (rest.length + 2))
  | c :: rest =>
    if c.toNat < 0x20 then .error (.malformed .controlCharacter (rest.length + 1))
    else consUnit c.toNat (readUnits opening rest)

/-- The character of a unit; half of a pair that stands alone has none, and is replaced. -/
def charOfUnit (u : Nat) : Char :=
  if u.isValidChar then Char.ofNat u else '\ufffd'

/-- The first half of a pair of units. -/
def isHighHalf (u : Nat) : Bool :=
  0xd800 ≤ u && u < 0xdc00

/-- The second half of a pair of units. -/
def isLowHalf (u : Nat) : Bool :=
  0xdc00 ≤ u && u < 0xe000

/-- The characters of a run of units: two halves of a pair make one character. -/
def charsOfUnits : List Nat → List Char
  | [] => []
  | [u] => [charOfUnit u]
  | u :: v :: rest =>
    if isHighHalf u && isLowHalf v then
      charOfUnit (0x10000 + (u - 0xd800) * 0x400 + (v - 0xdc00)) :: charsOfUnits rest
    else charOfUnit u :: charsOfUnits (v :: rest)

/-- A string whose opening quote has been read. -/
def readString (s : List Char) : Reading String :=
  andThen (readUnits (s.length + 1) s) fun units rest =>
    .ok (String.ofList (charsOfUnits units), rest)

/-! ### Values -/

/-- A literal or a number. -/
def readScalar : List Char → Reading Json
  | 'n' :: 'u' :: 'l' :: 'l' :: rest => .ok (.null, rest)
  | 't' :: 'r' :: 'u' :: 'e' :: rest => .ok (.bool true, rest)
  | 'f' :: 'a' :: 'l' :: 's' :: 'e' :: rest => .ok (.bool false, rest)
  | 'N' :: 'a' :: 'N' :: rest => .ok (.double .nan, rest)
  | 'I' :: 'n' :: 'f' :: 'i' :: 'n' :: 'i' :: 't' :: 'y' :: rest =>
    .ok (.double (.infinite false), rest)
  | '-' :: 'I' :: 'n' :: 'f' :: 'i' :: 'n' :: 'i' :: 't' :: 'y' :: rest =>
    .ok (.double (.infinite true), rest)
  | s =>
    match readNumeral s with
    | none => .error (.malformed .value s.length)
    | some (n, rest) => n.value.map (·, rest)

/-- Goes inside of a container that opens, if there is room for it, and reads on in the room that
is left. -/
def enter {α : Type} (container : Container) (room : Nat) (inside : Nat → Reading α) : Reading α :=
  match room with
  | 0 => .error (.overrun (.deepNesting container))
  | left + 1 => inside left

@[simp] theorem enter_succ {α : Type} (container : Container) (room : Nat)
    (inside : Nat → Reading α) : enter container (room + 1) inside = inside room := rfl

mutual

/-- A value at the front of a text, of which `room` containers can be open at once. The second
number bounds the depth of the recursion. -/
def readValue : Nat → Nat → List Char → Reading Json
  | _, 0, s => .error (.malformed .value s.length)
  | room, bound + 1, s =>
    match s with
    | '"' :: rest => andThen (readString rest) fun text rest => .ok (.str text, rest)
    | '{' :: rest => enter .object room fun left =>
      match skipGap rest with
      | '}' :: rest => .ok (.obj [], rest)
      | rest => andThen (readMembers left bound rest) fun members rest =>
        .ok (.obj (fieldsOfMembers members), rest)
    | '[' :: rest => enter .array room fun left =>
      match skipGap rest with
      | ']' :: rest => .ok (.arr [], rest)
      | rest => andThen (readItems left bound rest) fun items rest => .ok (.arr items, rest)
    | s => readScalar s

/-- The items of an array from the first on, up to its closing bracket. -/
def readItems : Nat → Nat → List Char → Reading (List Json)
  | _, 0, s => .error (.malformed .value s.length)
  | room, bound + 1, s =>
    andThen (readValue room bound s) fun item rest =>
      match skipGap rest with
      | ']' :: rest => .ok ([item], rest)
      | ',' :: rest => andThen (readItems room bound (skipGap rest)) fun items rest =>
        .ok (item :: items, rest)
      | rest => .error (.malformed .comma rest.length)

/-- The members of an object from the first on, up to its closing brace. -/
def readMembers : Nat → Nat → List Char → Reading (List (String × Json))
  | _, 0, s => .error (.malformed .value s.length)
  | room, bound + 1, s =>
    match s with
    | '"' :: rest =>
      andThen (readString rest) fun key rest =>
        match skipGap rest with
        | ':' :: rest =>
          andThen (readValue room bound (skipGap rest)) fun value rest =>
            match skipGap rest with
            | '}' :: rest => .ok ([(key, value)], rest)
            | ',' :: rest => andThen (readMembers room bound (skipGap rest)) fun members rest =>
              .ok ((key, value) :: members, rest)
            | rest => .error (.malformed .comma rest.length)
        | rest => .error (.malformed .colon rest.length)
    | s => .error (.malformed .propertyName s.length)

end

/-- A whole text: one value, with blanks around it. A value of `n` characters is read within a
bound of `2 n + 1`, since a bracket or a separator is read at every second step at least. -/
def readWholeText (room : Nat) (s : List Char) : Except Stop Json :=
  match s with
  | '\ufeff' :: _ => .error (.malformed .byteOrderMark s.length)
  | _ =>
    match readValue room (2 * s.length + 1) (skipGap s) with
    | .error e => .error e
    | .ok (value, rest) =>
      match skipGap rest with
      | [] => .ok value
      | rest => .error (.malformed .extraData rest.length)

/-! ### Places -/

/-- A place in a text: its offset from zero, its line and column from one. -/
structure Place where
  offset : Nat
  line : Nat
  column : Nat
deriving DecidableEq, Repr

/-- The place after the characters `before`. Only a line feed ends a line. -/
def Place.after (before : List Char) : Place where
  offset := before.length
  line := before.count '\n' + 1
  column := (before.reverse.takeWhile (· != '\n')).length + 1

/-- Why a text was not read. -/
inductive ReadError where
  | malformed (cause : Cause) (place : Place)
  | overrun (e : Overrun)
deriving DecidableEq, Repr

/-- The words for a limit that a text goes beyond. -/
def Overrun.message : Overrun → String
  | .longInteger digits =>
    s!"Exceeds the limit ({maxIntegerDigits} digits) for integer string conversion: " ++
      s!"value has {digits} digits; use sys.set_int_max_str_digits() to increase the limit"
  | .deepNesting container =>
    s!"maximum recursion depth exceeded while decoding a JSON {container.word} " ++
      "from a unicode string"

/-- The words for a failure. -/
def ReadError.message : ReadError → String
  | .malformed cause place =>
    s!"{cause.message}: line {place.line} column {place.column} (char {place.offset})"
  | .overrun e => e.message

/-- The failure of a text that stopped the reader. -/
def Stop.toError (s : List Char) : Stop → ReadError
  | .malformed cause left => .malformed cause (.after (s.take (s.length - left)))
  | .overrun e => .overrun e

/-- The value that a text denotes, where `room` containers can be open at once. -/
def ofChars? (room : Nat) (s : List Char) : Except ReadError Json :=
  (readWholeText room s).mapError (Stop.toError s)

/-- The value that a text denotes, where `room` containers can be open at once. -/
def ofText? (room : Nat) (text : String) : Except ReadError Json :=
  ofChars? room text.toList

end DatalogIntake.Json

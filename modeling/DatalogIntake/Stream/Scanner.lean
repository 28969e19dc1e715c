import DatalogIntake.Json.Writer
import DatalogIntake.Stream.Candidate

/-!
# The object scanner

A stream of text holds JSON objects with other text between them. The scanner counts braces: an
object starts at an opening brace at depth zero and ends where the depth is zero again. Braces in
strings count as well, so an object whose strings hold unbalanced braces is cut in the wrong place.

Text comes in chunks, and the scanner keeps what it still needs between them: the text that no
object has used up, the depth, the start of the open object and the position from which to go on.
-/

namespace DatalogIntake

/-! ### Walking over text -/

/-- A place in the buffer: the characters passed, the nearest first, the depth there, and the offset
of the object that is open. -/
structure Cursor where
  passed : List Char
  depth : Int
  start : Option Nat
deriving DecidableEq

/-- What one character does: the cursor moves on, or an object that started at an offset is
complete. -/
inductive Move where
  | on (cursor : Cursor)
  | complete (candidate : List Char) (start : Nat)
deriving DecidableEq

/-- The depth behind a closing brace. One that closes nothing leaves the depth as it is. -/
def lowered (depth : Int) : Int :=
  if 0 < depth then depth - 1 else depth

@[simp] theorem lowered_zero : lowered 0 = 0 := rfl

@[simp] theorem lowered_succ (d : Nat) : lowered ((d : Int) + 1) = d := by
  unfold lowered
  split <;> omega

/-- Passes one character. A closing brace that leads to depth zero completes the object that is
open, if there is one, and is passed like any other character otherwise. -/
def Cursor.step (k : Cursor) (c : Char) : Move :=
  if c = '{' then
    .on ⟨c :: k.passed, k.depth + 1, if k.depth = 0 then some k.passed.length else k.start⟩
  else if c = '}' then
    match k.start with
    | some start =>
      if lowered k.depth = 0 then .complete ((c :: k.passed).reverse.drop start) start
      else .on ⟨c :: k.passed, lowered k.depth, k.start⟩
    | none => .on ⟨c :: k.passed, lowered k.depth, none⟩
  else .on { k with passed := c :: k.passed }

/-- What a walk over text leaves: buffer, depth and start, the objects and reports in order, and
what ended it before its time. -/
structure Walk (α : Type) where
  buffer : List Char
  depth : Int
  start : Option Nat
  objects : List α
  reports : List Diagnostic
  escape : Option Json.Overrun
deriving DecidableEq

/-- A walk with an object before its own. -/
def Walk.withObject {α : Type} (a : α) (w : Walk α) : Walk α :=
  { w with objects := a :: w.objects }

/-- A walk with a report before its own. -/
def Walk.withReport {α : Type} (d : Diagnostic) (w : Walk α) : Walk α :=
  { w with reports := d :: w.reports }

/-- Walks from a cursor over the text ahead of it. After a complete object the buffer is cut and the
walk goes on at its start. Where a candidate goes beyond a limit of the reader the walk ends before
the cut, the depth already back at zero. -/
def Cursor.walk {α : Type} (decode : List Char → Decoded α) (k : Cursor) : List Char → Walk α
  | [] => ⟨k.passed.reverse, k.depth, k.start, [], [], none⟩
  | c :: ahead =>
    match k.step c with
    | .on k => k.walk decode ahead
    | .complete candidate start =>
      match decode candidate with
      | .object a => (Cursor.walk decode ⟨[], 0, none⟩ ahead).withObject a
      | .rejected e =>
        (Cursor.walk decode ⟨[], 0, none⟩ ahead).withReport (.rejected candidate e)
      | .escaped e => ⟨k.passed.reverse ++ c :: ahead, 0, some start, [], [], some e⟩

/-! ### The scanner -/

/-- The state of a scanner between two chunks. -/
structure Scanner where
  buffer : List Char := []
  depth : Int := 0
  start : Option Nat := none
  position : Nat := 0
  isFinished : Bool := false
deriving DecidableEq

/-- Why a chunk gave no objects. -/
inductive FeedError where
  | finished
  | notText (kind : String)
  | overrun (e : Json.Overrun)
deriving DecidableEq

/-- The words for why a chunk gave no objects. -/
def FeedError.message : FeedError → String
  | .finished => "ObjectScanner has already finished."
  | .notText kind => s!"Stream chunks must be str, got {kind}."
  | .overrun e => e.message

/-- What feeding a chunk leaves: the scanner, the reports, and the objects that the chunk has
completed. -/
structure Fed (α : Type) where
  scanner : Scanner
  reports : List Diagnostic
  outcome : Except FeedError (List α)

namespace Scanner

/-- Feeds a text. The objects of a text whose walk ends early are lost, and the position stays. -/
def feedText {α : Type} (decode : List Char → Decoded α) (s : Scanner) (text : List Char) :
    Fed α :=
  let buffer := s.buffer ++ text
  let w := Cursor.walk decode ⟨(buffer.take s.position).reverse, s.depth, s.start⟩
    (buffer.drop s.position)
  let left : Scanner := { s with buffer := w.buffer, depth := w.depth, start := w.start }
  match w.escape with
  | some e => ⟨left, w.reports, .error (.overrun e)⟩
  | none =>
    let position := if s.position < buffer.length then w.buffer.length else s.position
    ⟨{ left with position := position }, w.reports, .ok w.objects⟩

/-- Feeds a chunk, which has to be a text, unless the scanner has finished. -/
def feed {α : Type} (decode : List Char → Decoded α) (s : Scanner) (chunk : Json) : Fed α :=
  if s.isFinished then ⟨s, [], .error .finished⟩
  else
    match chunk with
    | .str text => s.feedText decode text.toList
    | other => ⟨s, [], .error (.notText other.kindName)⟩

end Scanner

end DatalogIntake

import DatalogIntake.Json.Basic
import DatalogIntake.Shape.Basic

/-!
# Checking shapes

A value is checked against a shape in full: faults are counted, not stopped at. An absent field
that is required is one fault, and so is a value of the wrong kind, in which nothing further is
looked at; a term of the wrong kind counts once for each of the four kinds it could have been.
Fields that a record does not declare are passed over.
-/

namespace DatalogIntake

/-- A number of faults, which is not zero. -/
structure Faults where
  count : Nat
  count_pos : 0 < count
deriving DecidableEq

namespace Faults

/-- A single fault. -/
def one : Faults := ⟨1, by decide⟩

/-- The faults of two places together. -/
def add (a b : Faults) : Faults :=
  ⟨a.count + b.count, Nat.add_pos_left a.count_pos b.count⟩

end Faults

/-- The outcome of a check: what the value carries, or how many faults it has. -/
abbrev Checked (α : Type) := Except Faults α

namespace Checked

/-- A value with one fault. -/
def fault {α : Type} : Checked α := .error .one

/-- Two checks side by side, their faults counted together. -/
def both {α β : Type} : Checked α → Checked β → Checked (α × β)
  | .ok a, .ok b => .ok (a, b)
  | .ok _, .error n => .error n
  | .error n, .ok _ => .error n
  | .error n, .error m => .error (n.add m)

/-- A check of every item of a list, their faults counted together. -/
def all {α β : Type} (check : α → Checked β) : List α → Checked (List β)
  | [] => .ok []
  | a :: rest => (both (check a) (all check rest)).map fun p => p.1 :: p.2

end Checked

namespace Shape

/-! ### Values without parts -/

/-- A string. -/
def checkText : Json → Checked String
  | .str s => .ok s
  | _ => .fault

/-- A term; each of the four kinds of a term that a value is not of counts. -/
def checkScalar : Json → Checked Scalar
  | .str s => .ok (.text s)
  | .int n => .ok (.int n)
  | .double x => .ok (.double x)
  | .bool b => .ok (.bool b)
  | _ => .error ⟨4, by decide⟩

/-- The words for false and for true, in lower case. -/
def flagWords : List (String × Bool) :=
  [("0", false), ("off", false), ("f", false), ("n", false), ("no", false), ("false", false),
    ("1", true), ("on", true), ("t", true), ("y", true), ("yes", true), ("true", true)]

/-- The truth value that a value is commonly written for: zero and one of either kind of number,
and the usual words in upper or lower case. -/
def flag? : Json → Option Bool
  | .bool b => some b
  | .int n => if n = 0 then some false else if n = 1 then some true else none
  | .double (.finite x) => if x.isInt 0 then some false else if x.isInt 1 then some true else none
  | .str s => flagWords.lookup (String.ofList (s.toList.map Char.toLower))
  | _ => none

/-- A truth value. -/
def checkFlag (value : Json) : Checked Bool :=
  match flag? value with
  | some b => .ok b
  | none => .fault

/-- One fixed string. -/
def checkTag (word : String) (value : Json) : Checked Unit :=
  if value = .str word then .ok () else .fault

/-- One of a list of strings. -/
def checkChoice (words : List String) : Json → Checked { w : String // w ∈ words }
  | .str s => if h : s ∈ words then .ok ⟨s, h⟩ else .fault
  | _ => .fault

/-! ### Containers -/

/-- A list, its items checked one by one. -/
def checkList {α : Type} (item : Json → Checked α) : Json → Checked (List α)
  | .arr items => Checked.all item items
  | _ => .fault

/-- An object, its fields checked by name. -/
def checkObject {α : Type} (fields : List (String × Json) → Checked α) : Json → Checked α
  | .obj members => fields members
  | _ => .fault

/-- A declared field of an object. -/
def checkField {α : Type} (value : Json → Checked α) (default : Option α) : Option Json → Checked α
  | some v => value v
  | none =>
    match default with
    | some a => .ok a
    | none => .fault

/-- The tag of an object. -/
def tagOf? (key : String) (members : List (String × Json)) : Option String :=
  match Json.lookup key members with
  | some (.str word) => some word
  | _ => none

end Shape

/-! ### Shapes -/

mutual

/-- Checks a value against a shape. -/
def Shape.check : (s : Shape) → Json → Checked s.Carrier
  | .text => Shape.checkText
  | .scalar => Shape.checkScalar
  | .flag => Shape.checkFlag
  | .tag word => Shape.checkTag word
  | .choice words => Shape.checkChoice words
  | .list item => Shape.checkList item.check
  | .record _ fields => Shape.checkObject fields.check
  | .tagged key branches => Shape.checkObject fun members =>
    match Shape.tagOf? key members with
    | some tag => branches.check tag members
    | none => .fault
termination_by structural s => s

/-- Checks the members of an object against the declared fields. -/
def Fields.check : (f : Fields) → List (String × Json) → Checked f.Carrier
  | .none => fun _ => .ok ()
  | .field name shape isRequired _ rest => fun members =>
    Checked.both
      (Shape.checkField shape.check (if isRequired then none else shape.default?)
        (Json.lookup name members))
      (rest.check members)
termination_by structural f => f

/-- Checks the members of an object against the record that a tag chooses. -/
def Branches.check : (b : Branches) → String → List (String × Json) → Checked b.Carrier
  | .none => fun _ _ => .fault
  | .branch word _ fields rest => fun tag members =>
    if tag = word then (fields.check members).map .inl else (rest.check tag members).map .inr
termination_by structural b => b

end

/-! ### Dumps -/

/-- The value that a scalar was. -/
def Scalar.toJson : Scalar → Json
  | .text s => .str s
  | .int n => .int n
  | .double x => .double x
  | .bool b => .bool b

mutual

/-- The value of what a shape carries, with every declared field and nothing else. -/
def Shape.dump : (s : Shape) → s.Carrier → Json
  | .text => fun s => .str s
  | .scalar => Scalar.toJson
  | .flag => fun b => .bool b
  | .tag word => fun _ => .str word
  | .choice _ => fun w => .str w.val
  | .list item => fun items => .arr (items.map item.dump)
  | .record _ fields => fun x => .obj (fields.dump x)
  | .tagged _ branches => fun x => .obj (branches.dump x)
termination_by structural s => s

/-- The members of an object with declared fields. -/
def Fields.dump : (f : Fields) → f.Carrier → List (String × Json)
  | .none => fun _ => []
  | .field name shape _ _ rest => fun x => (name, shape.dump x.1) :: rest.dump x.2
termination_by structural f => f

/-- The members of an object of one of several records. -/
def Branches.dump : (b : Branches) → b.Carrier → List (String × Json)
  | .none => fun x => x.elim
  | .branch _ _ fields rest => fun x =>
    match x with
    | .inl x => fields.dump x
    | .inr x => rest.dump x
termination_by structural b => b

end

end DatalogIntake

import DatalogIntake.Binary64.Basic

/-!
# Shapes

A shape describes the JSON values that the generative service is to answer with: objects with
declared fields, lists, texts, terms and flags. Each shape has a type of the data that a value of
that shape carries, so what has been checked needs no second look.
-/

namespace DatalogIntake

/-- A text, a number or a truth value, as it was given: a term before its number is known to be
finite. -/
inductive Scalar where
  | text (s : String)
  | int (n : Int)
  | double (x : Binary64)
  | bool (b : Bool)
deriving DecidableEq

mutual

/-- The shape of a value. -/
inductive Shape where
  /-- Any string. -/
  | text
  /-- Any string, number or truth value. -/
  | scalar
  /-- A truth value, or another value that is commonly written for one. -/
  | flag
  /-- One fixed string. -/
  | tag (word : String)
  /-- One of a list of strings. -/
  | choice (words : List String)
  /-- A list of values of one shape. -/
  | list (item : Shape)
  /-- An object with declared fields, under a title. -/
  | record (title : String) (fields : Fields)
  /-- An object whose field `key` tells which of several records it is. -/
  | tagged (key : String) (branches : Branches)

/-- The declared fields of an object. A field that is not required takes the default of its shape
when it is absent. -/
inductive Fields where
  | none
  | field (name : String) (shape : Shape) (isRequired : Bool) (description : String) (rest : Fields)

/-- The records that a tag chooses from. -/
inductive Branches where
  | none
  | branch (tag : String) (title : String) (fields : Fields) (rest : Branches)

end

mutual

/-- What a value of a shape carries. -/
def Shape.Carrier : Shape → Type
  | .text => String
  | .scalar => Scalar
  | .flag => Bool
  | .tag _ => Unit
  | .choice words => { w : String // w ∈ words }
  | .list item => List item.Carrier
  | .record _ fields => fields.Carrier
  | .tagged _ branches => branches.Carrier
termination_by structural s => s

/-- What an object with declared fields carries. -/
def Fields.Carrier : Fields → Type
  | .none => Unit
  | .field _ shape _ _ rest => shape.Carrier × rest.Carrier
termination_by structural f => f

/-- What an object of one of several records carries. -/
def Branches.Carrier : Branches → Type
  | .none => Empty
  | .branch _ _ fields rest => fields.Carrier ⊕ rest.Carrier
termination_by structural b => b

end

/-- What an absent value of a shape stands for, where it has a default. -/
def Shape.default? : (s : Shape) → Option s.Carrier
  | .flag => some false
  | .tag _ => some ()
  | .text => none
  | .scalar => none
  | .choice _ => none
  | .list _ => none
  | .record _ _ => none
  | .tagged _ _ => none

/-- The title of a record. -/
def Shape.title : Shape → String
  | .record title _ => title
  | _ => ""

end DatalogIntake

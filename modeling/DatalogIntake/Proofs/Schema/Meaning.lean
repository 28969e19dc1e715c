import DatalogIntake.Json.Basic

/-!
# The meaning of a schema

Which values conform to a JSON Schema. A schema is an object of keywords, and a value conforms to it
if it meets each of them: `type`, `const`, `enum`, `properties`, `required`, `items`, `anyOf`,
`oneOf` and `$ref`. Any other keyword is an annotation, which every value meets.

References are followed as often as needed: a value conforms to a document if it is accepted from
some number of references on that may follow one another (`Schema.Conforms`). -/

namespace DatalogIntake.Schema

-- Powers are those of the core library here, also where a module beside this one brings others.
attribute [local instance (high)] instPowNat

/-! ### Keywords without parts -/

/-- Whether a number is without a fraction. -/
def isWhole : Binary64 → Bool
  | .finite x => x.units % 2 ^ (1074 : Nat) == 0
  | _ => false

/-- Whether a value is of a type. A number without a fraction is an integer, however it is
written. -/
def isOfType (name : String) : Json → Bool
  | .null => name == "null"
  | .bool _ => name == "boolean"
  | .int _ => name == "integer" || name == "number"
  | .double x => name == "number" || (name == "integer" && isWhole x)
  | .str _ => name == "string"
  | .arr _ => name == "array"
  | .obj _ => name == "object"

/-- Whether a value is of the type that a list of types names. -/
def isOfNamedType (value : Json) : Json → Bool
  | .str name => isOfType name value
  | _ => false

/-- Whether the items of a value are accepted by the schema `true` or `false`. -/
def allowsItems (b : Bool) : Json → Bool
  | .arr items => b || items.isEmpty
  | _ => true

/-- Whether an object has the members with these names; other values need none. -/
def hasMembers (names : List Json) : Json → Bool
  | .obj members => names.all fun name =>
    match name with
    | .str name => (Json.lookup name members).isSome
    | _ => true
  | _ => true

/-- Whether a value is the constant, if a constant is asked for. The constants of the schemas here
are strings, so two ways of writing one number or one object need no care. -/
def isConstant (keyword : String) (argument value : Json) : Bool :=
  keyword != "const" || value == argument

/-! ### Schemas -/

mutual

/-- Whether a value is accepted by a schema, where references are accepted as given. The schema
`true` accepts every value, and `false` none. -/
def accepts (refs : String → Json → Bool) : Json → Json → Bool
  | .obj keywords => meetsAll refs keywords
  | .bool b => fun _ => b
  | _ => fun _ => true
termination_by structural s => s

/-- Whether a value meets all keywords. -/
def meetsAll (refs : String → Json → Bool) : List (String × Json) → Json → Bool
  | [] => fun _ => true
  | (keyword, argument) :: rest => fun value =>
    meets refs keyword argument value && meetsAll refs rest value
termination_by structural k => k

/-- Whether a value meets a keyword with its argument. -/
def meets (refs : String → Json → Bool) (keyword : String) : Json → Json → Bool
  | .str word => fun value =>
    if keyword = "type" then isOfType word value
    else if keyword = "$ref" then refs word value
    else isConstant keyword (.str word) value
  | .bool b => fun value =>
    if keyword = "items" then allowsItems b value else isConstant keyword (.bool b) value
  | .arr items => fun value =>
    if keyword = "type" then items.any (isOfNamedType value)
    else if keyword = "anyOf" then (outcomes refs items value).contains true
    else if keyword = "oneOf" then (outcomes refs items value).count true == 1
    else if keyword = "enum" then items.contains value
    else if keyword = "required" then hasMembers items value
    else isConstant keyword (.arr items) value
  | .obj members => fun value =>
    if keyword = "properties" then
      match value with
      | .obj fields => fits refs members fields
      | _ => true
    else if keyword = "items" then
      match value with
      | .arr items => items.all (meetsAll refs members)
      | _ => true
    else isConstant keyword (.obj members) value
  | argument => isConstant keyword argument
termination_by structural a => a

/-- Which of several schemas accept a value. -/
def outcomes (refs : String → Json → Bool) : List Json → Json → List Bool
  | [] => fun _ => []
  | schema :: rest => fun value => accepts refs schema value :: outcomes refs rest value
termination_by structural l => l

/-- Whether the members of an object are accepted by the schemas of their names. -/
def fits (refs : String → Json → Bool) : List (String × Json) → List (String × Json) → Bool
  | [] => fun _ => true
  | (name, schema) :: rest => fun members =>
    (match Json.lookup name members with
      | some value => accepts refs schema value
      | none => true) && fits refs rest members
termination_by structural p => p

end

/-! ### Documents -/

/-- The path by which the definition with a title is referred to. -/
def path (title : String) : String := "#/$defs/" ++ title

/-- The definitions of a document, by path. -/
def definitionsOf : Json → List (String × Json)
  | .obj members =>
    match Json.lookup "$defs" members with
    | some (.obj definitions) => definitions.map fun d => (path d.1, d.2)
    | _ => []
  | _ => []

/-- Whether a value is accepted by what a path refers to, where so many references may follow one
another. -/
def within (definitions : List (String × Json)) : Nat → String → Json → Bool
  | 0 => fun _ _ => false
  | links + 1 => fun path value =>
    match Json.lookup path definitions with
    | some schema => accepts (within definitions links) schema value
    | none => false

/-- A value conforms to a schema document. -/
def Conforms (document value : Json) : Prop :=
  ∃ least, ∀ links, least ≤ links →
    accepts (within (definitionsOf document) links) document value = true

/-- A value that is accepted with any number of references beyond some conforms. -/
theorem conforms_of_add {document value : Json} (least : Nat)
    (h : ∀ more, accepts (within (definitionsOf document) (more + least)) document value = true) :
    Conforms document value := by
  refine ⟨least, fun links hlinks => ?_⟩
  obtain ⟨more, rfl⟩ := Nat.exists_eq_add_of_le' hlinks
  exact h more

end DatalogIntake.Schema

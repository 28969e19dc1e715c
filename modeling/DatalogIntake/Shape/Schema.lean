import DatalogIntake.Json.Basic
import DatalogIntake.Shape.Basic

/-!
# Schemas

The JSON Schema of a shape, as it is handed to the service. Records stand among the definitions of
the schema and are referred to by their title; each field has a title made from its name, and a
description where the shape gives one.
-/

namespace DatalogIntake

namespace Schema

/-- The words of a name, each with a capital first letter. -/
def titleChars : (startsWord : Bool) → List Char → List Char
  | _, [] => []
  | startsWord, c :: rest =>
    if c = '_' then ' ' :: titleChars true rest
    else (if startsWord then c.toUpper else c.toLower) :: titleChars false rest

/-- The title of a field. -/
def fieldTitle (name : String) : String :=
  String.ofList (titleChars true name.toList)

/-- A reference to the definition with a title. -/
def refTo (title : String) : Json :=
  .obj [("$ref", .str ("#/$defs/" ++ title))]

/-- The schema of a plain type. -/
def ofType (name : String) : Json :=
  .obj [("type", .str name)]

/-- Adds a member in front of an object. -/
def withMember (key : String) (value : Json) : Json → Json
  | .obj members => .obj ((key, value) :: members)
  | other => other

/-- Adds a description, where there is one. -/
def withDescription (description : String) (schema : Json) : Json :=
  if description.isEmpty then schema else withMember "description" (.str description) schema

/-- The default of a shape as a value. -/
def defaultOf? : Shape → Option Json
  | .flag => some (.bool false)
  | .tag word => some (.str word)
  | _ => none

/-- Adds the default of a field that may be left out. -/
def withDefault (isRequired : Bool) (shape : Shape) (schema : Json) : Json :=
  match isRequired, defaultOf? shape with
  | false, some value => withMember "default" value schema
  | _, _ => schema

/-- The schema of a record: its properties, the names of those that are required, its title. -/
def ofRecord (title : String) (properties : List (String × Json)) (required : List String) : Json :=
  .obj [("properties", .obj properties), ("required", .arr (required.map .str)),
    ("title", .str title), ("type", .str "object")]

end Schema

/-- The names of the fields that are required. -/
def Fields.requiredNames : Fields → List String
  | .none => []
  | .field name _ isRequired _ rest =>
    if isRequired then name :: rest.requiredNames else rest.requiredNames

/-- References to the records of a choice. -/
def Branches.references : Branches → List Json
  | .none => []
  | .branch _ title _ rest => Schema.refTo title :: rest.references

/-- The paths of the records of a choice, by tag. -/
def Branches.mapping : Branches → List (String × Json)
  | .none => []
  | .branch tag title _ rest => (tag, .str ("#/$defs/" ++ title)) :: rest.mapping

/-- The schema of a shape where it is used; a record is referred to. -/
def Shape.schema : Shape → Json
  | .text => Schema.ofType "string"
  | .scalar => .obj [("anyOf", .arr
      [Schema.ofType "string", Schema.ofType "integer", Schema.ofType "number",
        Schema.ofType "boolean"])]
  | .flag => Schema.ofType "boolean"
  | .tag word => .obj [("const", .str word), ("type", .str "string")]
  | .choice words => .obj [("enum", .arr (words.map .str)), ("type", .str "string")]
  | .list item => .obj [("items", item.schema), ("type", .str "array")]
  | .record title _ => Schema.refTo title
  | .tagged key branches => .obj
    [("discriminator", .obj [("mapping", .obj branches.mapping), ("propertyName", .str key)]),
      ("oneOf", .arr branches.references)]

/-- The schema of a field. A reference stands alone; any other schema gets a title. -/
def Shape.fieldSchema (shape : Shape) (name : String) (isRequired : Bool) (description : String) :
    Json :=
  match shape with
  | .record title _ => Schema.refTo title
  | _ =>
    Schema.withDefault isRequired shape
      (Schema.withDescription description
        (Schema.withMember "title" (.str (Schema.fieldTitle name)) shape.schema))

/-- The schemas of the declared fields, by name. -/
def Fields.properties : Fields → List (String × Json)
  | .none => []
  | .field name shape isRequired description rest =>
    (name, shape.fieldSchema name isRequired description) :: rest.properties

mutual

/-- The definitions that the schema of a shape refers to, by title. -/
def Shape.definitions : Shape → List (String × Json)
  | .text => []
  | .scalar => []
  | .flag => []
  | .tag _ => []
  | .choice _ => []
  | .list item => item.definitions
  | .record title fields =>
    (title, Schema.ofRecord title fields.properties fields.requiredNames) :: fields.definitions
  | .tagged _ branches => branches.definitions
termination_by structural s => s

/-- The definitions that the schemas of declared fields refer to. -/
def Fields.definitions : Fields → List (String × Json)
  | .none => []
  | .field _ shape _ _ rest => shape.definitions ++ rest.definitions
termination_by structural f => f

/-- The definitions of the records of a choice, and those that they refer to. -/
def Branches.definitions : Branches → List (String × Json)
  | .none => []
  | .branch _ title fields rest =>
    (title, Schema.ofRecord title fields.properties fields.requiredNames) ::
      (fields.definitions ++ rest.definitions)
termination_by structural b => b

end

/-- The schema of a record with the definitions that it refers to, each once. -/
def Shape.schemaDocument : Shape → Json
  | .record title fields =>
    Schema.withMember "$defs" (.obj (Json.fieldsOfMembers fields.definitions))
      (Schema.ofRecord title fields.properties fields.requiredNames)
  | shape => shape.schema

end DatalogIntake

import DatalogIntake.Json.Reader
import DatalogIntake.Program.Draft
import DatalogIntake.Text.Basic

/-!
# Reading program documents

A document is checked from the outside in: an object where one is due, lists where lists are due,
then the parts in order, the inner ones first. A field that is absent takes its default, or null
where it has none; fields that a document does not know are passed over. What has been read is
handed to the builders as a draft.

The values are those that a text can be read as, so they are nested no deeper than the reader has
room for; that there is room to display one of them in an error is taken for granted.
-/

namespace DatalogIntake

namespace Json

/-- The value of a field, or null when there is none. -/
def field (key : String) (fields : List (String × Json)) : Json :=
  (lookup key fields).getD .null

/-- The value of a field, or its default when there is none. -/
def fieldOr (key : String) (default : Json) (fields : List (String × Json)) : Json :=
  (lookup key fields).getD default

/-- The fields of an object; any other value is a violation. -/
def fieldsOr (data : Json) (v : Violation) : Except BuildError (List (String × Json)) :=
  match data with
  | .obj fields => .ok fields
  | _ => refuse v

/-- The items of an array; any other value is a violation. -/
def itemsOr (data : Json) (v : Violation) : Except BuildError (List Json) :=
  match data with
  | .arr items => .ok items
  | _ => refuse v

end Json

/-! ### Clauses -/

/-- The atom of a document. The type may be left out. -/
def Atom.ofJson? (data : Json) : Except BuildError Atom := do
  let fields ← data.fieldsOr .atomNotObject
  let type := Json.fieldOr "type" (.str "atom") fields
  if type ≠ .str "atom" then refuse (.atomOfOtherType type)
  AtomDraft.build {
    predicate := .json (Json.field "predicate" fields)
    args := .json (Json.fieldOr "args" (.arr []) fields)
    isNegated := .json (Json.fieldOr "isNegated" (.bool false) fields)
  }

/-- Whether a key is found in a value: as a key of an object, an item of an array or a part of a
string. Other values cannot be searched. -/
def Json.hasKey (key : String) (data : Json) : Except BuildError Bool :=
  match data with
  | .obj fields => .ok (lookup key fields).isSome
  | .arr items => .ok (items.contains (.str key))
  | .str s => .ok (Text.occursIn key.toList s.toList)
  | _ => .error (.misuse (.notSearchable data.kindName))

/-- The comparison of a document. The value is looked for before the document is known to be an
object. -/
def Comparison.ofJson? (data : Json) : Except BuildError Comparison := do
  let hasValue ← data.hasKey "value"
  if !hasValue then refuse .comparisonWithoutValue
  match data with
  | .obj fields =>
    ComparisonDraft.build {
      left := .json (Json.field "variable" fields)
      operator := .json (Json.field "operator" fields)
      right := .json (Json.field "value" fields)
    }
  | _ => .error (.misuse (.withoutFields data.kindName))

/-- The clause of a document, by its type. -/
def Clause.ofJson? (data : Json) : Except BuildError Clause := do
  let fields ← data.fieldsOr .clauseNotObject
  let type := Json.field "type" fields
  if type = .str "atom" then .atom <$> Atom.ofJson? data
  else if type = .str "comparison" then .comparison <$> Comparison.ofJson? data
  else refuse (.clauseOfUnknownType type)

/-- A clause that is an object is read by its type. -/
theorem Clause.ofJson?_obj (fields : List (String × Json)) :
    Clause.ofJson? (.obj fields) =
      if Json.field "type" fields = .str "atom" then .atom <$> Atom.ofJson? (.obj fields)
      else if Json.field "type" fields = .str "comparison" then
        .comparison <$> Comparison.ofJson? (.obj fields)
      else refuse (.clauseOfUnknownType (Json.field "type" fields)) := rfl

/-! ### Rules and queries -/

/-- The head of a document. -/
def Head.ofJson? (data : Json) : Except BuildError Head := do
  let fields ← data.fieldsOr .headNotObject
  HeadDraft.build {
    predicate := .json (Json.field "predicate" fields)
    args := .json (Json.fieldOr "args" (.arr []) fields)
  }

/-- The rule of a document. -/
def Rule.ofJson? (data : Json) : Except BuildError Rule := do
  let fields ← data.fieldsOr .ruleNotObject
  let items ← (Json.fieldOr "body" (.arr []) fields).itemsOr .bodyNotList
  let head ← Head.ofJson? (Json.field "head" fields)
  let body ← buildAll Clause.ofJson? items
  RuleDraft.build {
    name := .json (Json.field "name" fields)
    goal := .json (Json.fieldOr "naturalLanguageGoal" (.str "") fields)
    head := .head head
    body := .list (body.map Clause.toPart)
  }

/-- The query of a document. -/
def Query.ofJson? (data : Json) : Except BuildError Query := do
  let fields ← data.fieldsOr .queryNotObject
  let items ← (Json.fieldOr "where" (.arr []) fields).itemsOr .whereNotList
  let atoms ← buildAll Atom.ofJson? items
  QueryDraft.build {
    name := .json (Json.field "name" fields)
    description := .json (Json.fieldOr "description" (.str "") fields)
    find := .json (Json.fieldOr "find" (.arr []) fields)
    atoms := .list (atoms.map .atom)
  }

/-! ### Programs -/

/-- The program of a document. -/
def Program.ofJson? (data : Json) : Except BuildError Program := do
  let fields ← data.fieldsOr .programNotObject
  let ruleItems ← (Json.fieldOr "rules" (.arr []) fields).itemsOr .rulesNotList
  let queryItems ← (Json.fieldOr "queries" (.arr []) fields).itemsOr .queriesNotList
  let rules ← buildAll Rule.ofJson? ruleItems
  let queries ← buildAll Query.ofJson? queryItems
  ProgramDraft.build {
    rules := .list (rules.map .rule)
    queries := .list (queries.map .query)
  }

/-- Why a text is not the document of a program. -/
inductive DocumentError where
  | unreadable (e : Json.ReadError)
  | invalid (e : BuildError)

/-- The words for why a text is not a document. -/
def DocumentError.message : DocumentError → String
  | .unreadable e => e.message
  | .invalid e => e.message

/-- The program whose document a text is, in the room that the reader has. -/
def Program.ofText? (room : Nat) (text : String) : Except DocumentError Program :=
  match Json.ofText? room text with
  | .error e => .error (.unreadable e)
  | .ok data => (Program.ofJson? data).mapError .invalid

end DatalogIntake

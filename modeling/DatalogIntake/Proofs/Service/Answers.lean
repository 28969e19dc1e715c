import DatalogIntake.Proofs.Schema.Agreement
import DatalogIntake.Proofs.Service.Outcomes

/-!
# Answers that conform to the schema

The service is given the schema of a program and answers in JSON. Of the answers that conform to the
schema, those are let through in whose rules every clause has its type
(`conforming_answer_accepted_iff`). The schema alone does not ask for the type of an atom, which
has a default that the queries use; a clause is refused without one (`untypedAnswer_refused`). -/

namespace DatalogIntake

/-! ### The clauses of an answer -/

/-- The clauses in the bodies of the rules of an answer. -/
def bodyClauses (answer : Json) : List Json :=
  (answer.itemsAt "rules").flatMap (Json.itemsAt "ruleBody")

theorem isTagged_clauseShape {clause : Json} :
    clauseShape.IsTagged clause ↔ clause.lacks "type" = false := by
  cases clause with
  | obj members =>
    simp [clauseShape, atomFields, comparisonFields, Shape.IsTagged, Branches.IsTagged,
      Fields.IsTagged, Json.lacks]
  | _ => simp [clauseShape, Shape.IsTagged, Json.lacks]

theorem isTagged_ruleShape {rule : Json} :
    ruleShape.IsTagged rule ↔
      ∀ clause ∈ rule.itemsAt "ruleBody", clause.lacks "type" = false := by
  simp only [← isTagged_clauseShape]
  cases rule with
  | obj members =>
    rw [Json.forall_itemsAt]
    simp [ruleShape, headShape, Shape.IsTagged, Fields.IsTagged]
  | _ => simp [ruleShape, Shape.IsTagged, Json.itemsAt]

theorem isTagged_programShape {answer : Json} :
    programShape.IsTagged answer ↔ ∀ clause ∈ bodyClauses answer, clause.lacks "type" = false := by
  have hrules : (∀ clause ∈ bodyClauses answer, clause.lacks "type" = false) ↔
      ∀ rule ∈ answer.itemsAt "rules", ruleShape.IsTagged rule := by
    simp only [bodyClauses, List.mem_flatMap, isTagged_ruleShape]
    exact ⟨fun h rule hrule clause hclause => h clause ⟨rule, hrule, hclause⟩,
      fun h clause ⟨rule, hrule, hclause⟩ => h rule hrule clause hclause⟩
  rw [hrules]
  cases answer with
  | obj members =>
    rw [Json.forall_itemsAt]
    simp [programShape, queryShape, atomShape, atomFields, Shape.IsTagged, Fields.IsTagged]
  | _ => simp [programShape, Shape.IsTagged, Json.itemsAt]

/-! ### Conforming answers -/

/-- **An answer that conforms to the schema passes the check just when every clause in its rules has
a type**, and its text is refused for its shape only when some clause has none. -/
theorem conforming_answer_accepted_iff {answer : Json}
    (h : Schema.Conforms programShape.schemaDocument answer) :
    ((∃ a, programShape.check answer = .ok a) ↔
      ∀ clause ∈ bodyClauses answer, clause.lacks "type" = false) ∧
    ∀ room text, Json.ofText? room text = .ok answer →
      ((∃ faults, programOfResponse? room text = .error (.misshapen .program faults)) ↔
        ∃ clause ∈ bodyClauses answer, clause.lacks "type" = true) := by
  have hcheck : (∃ a, programShape.check answer = .ok a) ↔
      ∀ clause ∈ bodyClauses answer, clause.lacks "type" = false :=
    (Shape.check_iff_of_conforms (by decide +kernel) h).trans isTagged_programShape
  refine ⟨hcheck, fun room text htext => ?_⟩
  rw [programOfResponse?_misshapen_iff htext, hcheck]
  simp

/-- An answer with one rule and one query. -/
def answerOf (body atoms : List Json) : Json :=
  .obj [
    ("rules", .arr [.obj [
      ("name", .str "cheap_hotel"), ("naturalLanguageGoal", .str "Which hotels are cheap?"),
      ("ruleHead", .obj [("predicate", .str "cheap"), ("headArguments", .arr [.str "HID"])]),
      ("ruleBody", .arr body)]]),
    ("queries", .arr [.obj [
      ("name", .str "cheap_hotels"), ("description", .str "Cheap hotels"),
      ("find", .arr [.str "HID"]), ("where", .arr atoms)]])]

/-- An atom without its type. -/
def untypedAtom : Json :=
  .obj [("predicate", .str "hotel_price"), ("args", .arr [.str "HID", .str "Price"])]

/-- An atom with its type. -/
def typedAtom : Json := .obj [("type", .str "atom"), ("predicate", .str "hotel_price"),
  ("args", .arr [.str "HID", .int 80]), ("isNegated", .bool true)]

/-- A comparison. -/
def comparison : Json := .obj [("type", .str "comparison"), ("variable", .str "Price"),
  ("operator", .str "<"), ("value", .int 100)]

set_option maxRecDepth 10000 in
/-- A typed atom and a comparison in a rule conform, with an untyped atom in a query. -/
theorem conforming_answer_accepted_typed :
    let answer := answerOf [typedAtom, comparison] [untypedAtom]
    Schema.Conforms programShape.schemaDocument answer ∧
      Json.ofText? 6 (answer.toText .line) = .ok answer ∧
      (∃ a, programShape.check answer = .ok a) ∧
      ¬∃ faults, programOfResponse? 6 (answer.toText .line) =
        .error (.misshapen .program faults) := by
  intro answer
  have hconforms : Schema.Conforms programShape.schemaDocument answer :=
    Schema.conforms_of_add 3 fun _ => rfl
  have hread : Json.ofText? 6 (answer.toText .line) = .ok answer := by
    refine Json.ofText?_toText ?_ .line
    simp [answer, answerOf, typedAtom, comparison, untypedAtom, Json.IsReadable, Json.AreReadable,
      Json.HaveReadable]
    decide
  obtain ⟨hcheck, hresponse⟩ := conforming_answer_accepted_iff hconforms
  refine ⟨hconforms, hread, hcheck.mpr (by decide +kernel), ?_⟩
  rw [hresponse 6 _ hread]
  decide +kernel

set_option maxRecDepth 10000 in
/-- **A conforming answer can be refused**: an atom in a rule has no type. -/
theorem untypedAnswer_refused :
    let answer := answerOf [untypedAtom] []
    Schema.Conforms programShape.schemaDocument answer ∧
      Json.ofText? 6 (answer.toText .line) = .ok answer ∧
      programShape.check answer = .error .one ∧
      programOfResponse? 6 (answer.toText .line) = .error (.misshapen .program .one) := by
  intro answer
  have hconforms : Schema.Conforms programShape.schemaDocument answer :=
    Schema.conforms_of_add 3 fun _ => rfl
  have hread : Json.ofText? 6 (answer.toText .line) = .ok answer := by
    refine Json.ofText?_toText ?_ .line
    simp [answer, answerOf, untypedAtom, Json.IsReadable, Json.AreReadable, Json.HaveReadable]
  have hcheck : programShape.check answer = .error .one := rfl
  exact ⟨hconforms, hread, hcheck, programOfResponse?_of_faults hread hcheck⟩

end DatalogIntake

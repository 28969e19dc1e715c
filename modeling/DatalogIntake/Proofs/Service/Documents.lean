import DatalogIntake.Proofs.Document.Members
import DatalogIntake.Proofs.Program.Violations
import DatalogIntake.Proofs.Shape.Conforming
import DatalogIntake.Service.Response
import Mathlib.Data.List.Nodup

/-!
# Answers as documents

An answer of the service and a stored document describe a program in almost the same way: a document
has other keys for the head and the body of a rule and for the arguments of a head, and says for
every atom whether it is negated. `programDocument` makes a document of an answer: declared fields
only, under their keys in a document, with every negation spelled out.

* `answer_document_agree`: an answer that conforms to its shape and its document make the same
  program, or break the same rule of the program model. -/

namespace DatalogIntake

/-! ### Tables of fields -/

/-- What becomes of a field: its key, the key that it gets, and what its value is turned into. -/
structure FieldChange where
  key : String
  target : String
  convert : Json → Json

/-- A field that stays as it is. -/
def FieldChange.keep (key : String) : FieldChange := ⟨key, key, id⟩

/-- The fields that are kept. No two have one key, before or after. -/
structure FieldTable where
  changes : List FieldChange
  keys_nodup : (changes.map FieldChange.key).Nodup
  targets_nodup : (changes.map FieldChange.target).Nodup

namespace FieldTable

/-- The members that a table keeps, as it changes them. -/
def apply (t : FieldTable) (members : List (String × Json)) : List (String × Json) :=
  members.filterMap fun m =>
    (t.changes.find? fun f => f.key == m.1).map fun f => (f.target, f.convert m.2)

theorem find?_key {t : FieldTable} {f : FieldChange} (hf : f ∈ t.changes) :
    (t.changes.find? fun g => g.key == f.key) = some f := by
  rw [List.find?_eq_some_iff_append]
  obtain ⟨before, after, hsplit⟩ := List.append_of_mem hf
  refine ⟨by simp, before, after, hsplit, fun g hg => ?_⟩
  have hnodup := t.keys_nodup
  rw [hsplit, List.map_append, List.nodup_append] at hnodup
  simpa using hnodup.2.2 g.key (List.mem_map_of_mem hg) f.key (by simp)

theorem target_inj {t : FieldTable} {f g : FieldChange} (hf : f ∈ t.changes) (hg : g ∈ t.changes)
    (h : g.target = f.target) : g = f :=
  List.inj_on_of_nodup_map t.targets_nodup hg hf h

/-- **A kept field is found under its new key.** -/
theorem lookup_apply {t : FieldTable} {f : FieldChange} (hf : f ∈ t.changes)
    (members : List (String × Json)) :
    Json.lookup f.target (t.apply members) = (Json.lookup f.key members).map f.convert := by
  induction members with
  | nil => rfl
  | cons m rest ih =>
    obtain ⟨key, value⟩ := m
    rw [Json.lookup]
    by_cases hkey : key = f.key
    · rw [if_pos hkey, apply, List.filterMap_cons, hkey, find?_key hf]
      simp [Json.lookup]
    · rw [if_neg hkey, ← ih, apply, List.filterMap_cons]
      cases hfind : t.changes.find? fun g => g.key == key with
      | none => rfl
      | some g =>
        have hg : g ∈ t.changes := List.mem_of_find?_eq_some hfind
        have hgkey : g.key = key := by simpa using List.find?_some hfind
        have hne : g.target ≠ f.target := fun h => hkey (hgkey ▸ congrArg _ (target_inj hf hg h))
        simp [Json.lookup, hne, apply]

theorem lookup_keep {t : FieldTable} {key : String} (h : FieldChange.keep key ∈ t.changes)
    (members : List (String × Json)) :
    Json.lookup key (t.apply members) = Json.lookup key members :=
  (lookup_apply h members).trans Option.map_id'

theorem lookup_change {t : FieldTable} {key : String} (target : String) (convert : Json → Json)
    (h : ⟨key, target, convert⟩ ∈ t.changes) {members : List (String × Json)} {v : Json}
    (hv : Json.lookup key members = some v) :
    Json.lookup target (t.apply members) = some (convert v) :=
  (lookup_apply h members).trans (congrArg _ hv)

end FieldTable

/-! ### Documents -/

/-- The fields of an atom. -/
def atomTable : FieldTable where
  changes := [.keep "type", .keep "predicate", .keep "args", .keep "isNegated"]
  keys_nodup := by decide
  targets_nodup := by decide

/-- Whether an atom with these members is negated: what the value given is commonly written for, and
not negated where none is given. -/
def isNegatedBy (members : List (String × Json)) : Bool :=
  ((Json.lookup "isNegated" members).bind Shape.flag?).getD false

/-- The document of an atom. -/
def atomDocument : Json → Json :=
  changeMembers fun members =>
    Json.setField "isNegated" (.bool (isNegatedBy members)) (atomTable.apply members)

/-- The fields of a comparison. -/
def comparisonTable : FieldTable where
  changes := [.keep "type", .keep "variable", .keep "operator", .keep "value"]
  keys_nodup := by decide
  targets_nodup := by decide

/-- The document of a comparison. -/
def comparisonDocument : Json → Json :=
  changeMembers comparisonTable.apply

/-- The document of a clause, by its type. -/
def clauseDocument : Json → Json
  | .obj members =>
    if Shape.tagOf? "type" members = some "comparison" then comparisonDocument (.obj members)
    else atomDocument (.obj members)
  | value => value

/-- The fields of a head. -/
def headTable : FieldTable where
  changes := [.keep "predicate", ⟨"headArguments", "args", id⟩]
  keys_nodup := by decide
  targets_nodup := by decide

/-- The document of a head. -/
def headDocument : Json → Json :=
  changeMembers headTable.apply

/-- The fields of a rule. -/
def ruleTable : FieldTable where
  changes := [.keep "name", .keep "naturalLanguageGoal", ⟨"ruleHead", "head", headDocument⟩,
    ⟨"ruleBody", "body", changeItems clauseDocument⟩]
  keys_nodup := by decide
  targets_nodup := by decide

/-- The document of a rule. -/
def ruleDocument : Json → Json :=
  changeMembers ruleTable.apply

/-- The fields of a query. -/
def queryTable : FieldTable where
  changes := [.keep "name", .keep "description", .keep "find",
    ⟨"where", "where", changeItems atomDocument⟩]
  keys_nodup := by decide
  targets_nodup := by decide

/-- The document of a query. -/
def queryDocument : Json → Json :=
  changeMembers queryTable.apply

/-- The fields of a program. -/
def programTable : FieldTable where
  changes := [⟨"rules", "rules", changeItems ruleDocument⟩,
    ⟨"queries", "queries", changeItems queryDocument⟩]
  keys_nodup := by decide
  targets_nodup := by decide

/-- The document of a program. -/
def programDocument : Json → Json :=
  changeMembers programTable.apply

/-! ### Lists and fields -/

/-- The documents of a list of values that conform are read as the values are built. -/
theorem buildAll_documents {α β : Type} {check : Json → Checked α} {document : Json → Json}
    {read : Json → Except BuildError β} {build : α → Except BuildError β}
    (h : ∀ {v a}, check v = .ok a → read (document v) = build a) {items : List Json} {as : List α}
    (hall : List.Forall₂ (fun v a => check v = .ok a) items as) :
    buildAll read (items.map document) = buildAll build as := by
  induction hall with
  | nil => rfl
  | cons hv _ ih => rw [List.map_cons, buildAll, buildAll, h hv, ih]

theorem itemsOr_list (parts : List Part) (v : Violation) :
    (Part.list parts).itemsOr v = .ok parts := rfl

theorem itemsOr_texts (ss : List String) (v : Violation) :
    (Part.json (.arr (ss.map .str))).itemsOr v = .ok (ss.map textPart) := by
  simp [Part.itemsOr, Part.items?, Function.comp_def, textPart]

theorem itemsOr_scalars (xs : List Scalar) (v : Violation) :
    (Part.json (.arr (xs.map Scalar.toJson))).itemsOr v = .ok (xs.map Scalar.toPart) := by
  simp [Part.itemsOr, Part.items?, Function.comp_def, Scalar.toPart]

/-! ### Clauses -/

theorem Atom.ofJson?_obj {fields : List (String × Json)} {predicate args isNegated : Json}
    (htype : Json.fieldOr "type" (.str "atom") fields = .str "atom")
    (hpredicate : Json.lookup "predicate" fields = some predicate)
    (hargs : Json.lookup "args" fields = some args)
    (hnegated : Json.lookup "isNegated" fields = some isNegated) :
    Atom.ofJson? (.obj fields) =
      AtomDraft.build ⟨.json predicate, .json args, .json isNegated⟩ := by
  rw [Atom.ofJson?, Json.fieldsOr]
  simp only [htype, field_of_lookup hpredicate, fieldOr_of_lookup hargs, fieldOr_of_lookup hnegated,
    bind, Except.bind, ne_eq, not_true_eq_false, if_false]

theorem AtomDraft.build_scalars (predicate isNegated : Part) (xs : List Scalar) :
    AtomDraft.build ⟨predicate, .json (.arr (xs.map Scalar.toJson)), isNegated⟩ =
      AtomDraft.build ⟨predicate, .list (xs.map Scalar.toPart), isNegated⟩ := by
  simp only [AtomDraft.build, itemsOr_scalars, itemsOr_list]

theorem lookup_atomDocument {key : String} (hkey : key ≠ "isNegated")
    (h : FieldChange.keep key ∈ atomTable.changes) (members : List (String × Json)) :
    Json.lookup key
        (Json.setField "isNegated" (.bool (isNegatedBy members)) (atomTable.apply members)) =
      Json.lookup key members := by
  rw [Json.lookup_setField_of_ne hkey, FieldTable.lookup_keep h]

theorem isNegatedBy_of_check {members : List (String × Json)} {b : Bool}
    (h : Shape.checkField Shape.checkFlag (some false) (Json.lookup "isNegated" members) = .ok b) :
    isNegatedBy members = b := by
  rcases Shape.checkField_default.mp h with ⟨hnone, rfl⟩ | ⟨v, hsome, hv⟩
  · rw [isNegatedBy, hnone]; rfl
  · rw [isNegatedBy, hsome, Option.bind_some, Shape.checkFlag_eq_ok.mp hv, Option.getD_some]

theorem type_of_check {members : List (String × Json)} {word : String}
    (h : Shape.checkField (Shape.checkTag word) (some ()) (Json.lookup "type" members) = .ok ()) :
    Json.fieldOr "type" (.str word) members = .str word := by
  rcases Shape.checkField_default.mp h with ⟨hnone, -⟩ | ⟨v, hsome, hv⟩
  · rw [Json.fieldOr, hnone, Option.getD_none]
  · rw [fieldOr_of_lookup hsome, Shape.checkTag_eq_ok.mp hv]

/-- **An atom and its document.** -/
theorem atom_document_agree {v : Json} {a : atomFields.Carrier} (h : atomShape.check v = .ok a) :
    Atom.ofJson? (atomDocument v) = atomOfAnswer? a := by
  obtain ⟨⟨⟩, predicate, args, isNegated, ⟨⟩⟩ := a
  obtain ⟨members, rfl, hmembers⟩ := Shape.check_record.mp h
  obtain ⟨htype, hmembers⟩ := Fields.check_eq_ok.mp hmembers
  obtain ⟨⟨_, hpredicate, hp⟩, hmembers⟩ := Fields.check_required.mp hmembers
  obtain ⟨⟨_, hargs, ha⟩, hmembers⟩ := Fields.check_required.mp hmembers
  obtain ⟨hnegated, -⟩ := Fields.check_eq_ok.mp hmembers
  obtain rfl := Shape.checkText_eq_ok.mp hp
  obtain rfl := Shape.check_scalars.mp ha
  obtain rfl := isNegatedBy_of_check hnegated
  have htype' := type_of_check htype
  rw [Json.fieldOr, ← lookup_atomDocument (by decide) (by simp [atomTable])] at htype'
  rw [← lookup_atomDocument (by decide) (by simp [atomTable])] at hpredicate hargs
  have hself := Json.lookup_setField_self "isNegated" (.bool (isNegatedBy members))
    (atomTable.apply members)
  exact (Atom.ofJson?_obj htype' hpredicate hargs hself).trans (AtomDraft.build_scalars _ _ _)

theorem Comparison.ofJson?_obj {fields : List (String × Json)} {left operator right : Json}
    (hleft : Json.lookup "variable" fields = some left)
    (hoperator : Json.lookup "operator" fields = some operator)
    (hright : Json.lookup "value" fields = some right) :
    Comparison.ofJson? (.obj fields) =
      ComparisonDraft.build ⟨.json left, .json operator, .json right⟩ := by
  rw [Comparison.ofJson?, Json.hasKey]
  simp only [hright, field_of_lookup hleft, field_of_lookup hoperator, field_of_lookup hright,
    bind, Except.bind, Option.isSome_some, Bool.not_true, Bool.false_eq_true, if_false]

/-- **A comparison and its document.** -/
theorem comparison_document_agree {v : Json} {c : comparisonFields.Carrier}
    (h : comparisonShape.check v = .ok c) :
    Comparison.ofJson? (comparisonDocument v) = comparisonOfAnswer? c := by
  obtain ⟨⟨⟩, left, operator, right, ⟨⟩⟩ := c
  obtain ⟨members, rfl, hmembers⟩ := Shape.check_record.mp h
  obtain ⟨-, hmembers⟩ := Fields.check_required.mp hmembers
  obtain ⟨⟨_, hleft, hl⟩, hmembers⟩ := Fields.check_required.mp hmembers
  obtain ⟨⟨_, hoperator, ho⟩, hmembers⟩ := Fields.check_required.mp hmembers
  obtain ⟨⟨_, hright, hr⟩, -⟩ := Fields.check_required.mp hmembers
  obtain rfl := Shape.checkText_eq_ok.mp hl
  obtain rfl := Shape.checkChoice_eq_ok.mp ho
  obtain rfl := Shape.checkScalar_eq_ok.mp hr
  rw [← FieldTable.lookup_keep (t := comparisonTable) (by simp [comparisonTable])]
    at hleft hoperator hright
  exact Comparison.ofJson?_obj hleft hoperator hright

theorem Clause.ofJson?_atom {fields : List (String × Json)}
    (h : Json.lookup "type" fields = some (.str "atom")) :
    Clause.ofJson? (.obj fields) = .atom <$> Atom.ofJson? (.obj fields) := by
  rw [Clause.ofJson?_obj, field_of_lookup h, if_pos rfl]

theorem Clause.ofJson?_comparison {fields : List (String × Json)}
    (h : Json.lookup "type" fields = some (.str "comparison")) :
    Clause.ofJson? (.obj fields) = .comparison <$> Comparison.ofJson? (.obj fields) := by
  rw [Clause.ofJson?_obj, field_of_lookup h, if_neg (by simp), if_pos rfl]

/-- **A clause and its document.** -/
theorem clause_document_agree {v : Json} {c : clauseShape.Carrier}
    (h : clauseShape.check v = .ok c) : Clause.ofJson? (clauseDocument v) = clauseOfAnswer? c := by
  obtain ⟨members, word, rfl, htype, hbranch⟩ := Shape.check_tagged.mp h
  have htag := Shape.tagOf?_eq_some.mpr htype
  rcases Branches.check_branch.mp hbranch with ⟨rfl, a, ha, rfl⟩ | ⟨-, c, hc, rfl⟩
  · have hatom : atomShape.check (.obj members) = .ok a := ha
    have htype' := htype
    rw [← lookup_atomDocument (by decide) (by simp [atomTable])] at htype'
    rw [clauseDocument, htag, if_neg (by decide)]
    exact (Clause.ofJson?_atom htype').trans (congrArg _ (atom_document_agree hatom))
  · rcases Branches.check_branch.mp hc with ⟨rfl, d, hd, rfl⟩ | ⟨-, d, -, -⟩
    · have hcomparison : comparisonShape.check (.obj members) = .ok d := hd
      have htype' := htype
      rw [← FieldTable.lookup_keep (t := comparisonTable) (by simp [comparisonTable])] at htype'
      rw [clauseDocument, htag, if_pos rfl]
      exact (Clause.ofJson?_comparison htype').trans
        (congrArg _ (comparison_document_agree hcomparison))
    · exact d.elim

/-! ### Rules and queries -/

theorem Head.ofJson?_obj {fields : List (String × Json)} {predicate args : Json}
    (hpredicate : Json.lookup "predicate" fields = some predicate)
    (hargs : Json.lookup "args" fields = some args) :
    Head.ofJson? (.obj fields) = HeadDraft.build ⟨.json predicate, .json args⟩ := by
  rw [Head.ofJson?, Json.fieldsOr]
  simp only [field_of_lookup hpredicate, fieldOr_of_lookup hargs, bind, Except.bind]

theorem HeadDraft.build_texts (predicate : Part) (ss : List String) :
    HeadDraft.build ⟨predicate, .json (.arr (ss.map .str))⟩ =
      HeadDraft.build ⟨predicate, .list (ss.map textPart)⟩ := by
  simp only [HeadDraft.build, itemsOr_texts, itemsOr_list]

/-- **A head and its document.** -/
theorem head_document_agree {v : Json} {a : headShape.Carrier} (h : headShape.check v = .ok a) :
    Head.ofJson? (headDocument v) = headOfAnswer? a := by
  obtain ⟨predicate, args, ⟨⟩⟩ := a
  obtain ⟨members, rfl, hmembers⟩ := Shape.check_record.mp h
  obtain ⟨⟨_, hpredicate, hp⟩, hmembers⟩ := Fields.check_required.mp hmembers
  obtain ⟨⟨_, hargs, ha⟩, -⟩ := Fields.check_required.mp hmembers
  obtain rfl := Shape.checkText_eq_ok.mp hp
  obtain rfl := Shape.check_texts.mp ha
  rw [← FieldTable.lookup_keep (t := headTable) (by simp [headTable])] at hpredicate
  have hargs' := FieldTable.lookup_change (t := headTable) "args" id (by simp [headTable]) hargs
  exact (Head.ofJson?_obj hpredicate hargs').trans (HeadDraft.build_texts _ _)

theorem Rule.ofJson?_obj {fields : List (String × Json)} {name goal head : Json} {items : List Json}
    (hname : Json.lookup "name" fields = some name)
    (hgoal : Json.lookup "naturalLanguageGoal" fields = some goal)
    (hhead : Json.lookup "head" fields = some head)
    (hbody : Json.lookup "body" fields = some (.arr items)) :
    Rule.ofJson? (.obj fields) = (do
      let head ← Head.ofJson? head
      let body ← buildAll Clause.ofJson? items
      RuleDraft.build ⟨.json name, .head head, .list (body.map Clause.toPart), .json goal⟩) := by
  rw [Rule.ofJson?, Json.fieldsOr]
  simp only [field_of_lookup hname, fieldOr_of_lookup hgoal, field_of_lookup hhead,
    fieldOr_of_lookup hbody, Json.itemsOr, bind, Except.bind]

/-- **A rule and its document.** -/
theorem rule_document_agree {v : Json} {r : ruleShape.Carrier} (h : ruleShape.check v = .ok r) :
    Rule.ofJson? (ruleDocument v) = ruleOfAnswer? r := by
  obtain ⟨name, goal, head, body, ⟨⟩⟩ := r
  obtain ⟨members, rfl, hmembers⟩ := Shape.check_record.mp h
  obtain ⟨⟨_, hname, hn⟩, hmembers⟩ := Fields.check_required.mp hmembers
  obtain ⟨⟨_, hgoal, hg⟩, hmembers⟩ := Fields.check_required.mp hmembers
  obtain ⟨⟨v, hhead, hv⟩, hmembers⟩ := Fields.check_required.mp hmembers
  obtain ⟨⟨_, hbody, hb⟩, -⟩ := Fields.check_required.mp hmembers
  obtain rfl := Shape.checkText_eq_ok.mp hn
  obtain rfl := Shape.checkText_eq_ok.mp hg
  obtain ⟨items, rfl, hitems⟩ := Shape.check_list.mp hb
  rw [← FieldTable.lookup_keep (t := ruleTable) (by simp [ruleTable])] at hname hgoal
  have hhead' := FieldTable.lookup_change (t := ruleTable) "head" headDocument
    (by simp [ruleTable]) hhead
  have hbody' := FieldTable.lookup_change (t := ruleTable) "body" (changeItems clauseDocument)
    (by simp [ruleTable]) hbody
  refine (Rule.ofJson?_obj hname hgoal hhead' hbody').trans ?_
  rw [head_document_agree hv, buildAll_documents clause_document_agree hitems]
  rfl

theorem Query.ofJson?_obj {fields : List (String × Json)} {name description find : Json}
    {items : List Json} (hname : Json.lookup "name" fields = some name)
    (hdescription : Json.lookup "description" fields = some description)
    (hfind : Json.lookup "find" fields = some find)
    (hwhere : Json.lookup "where" fields = some (.arr items)) :
    Query.ofJson? (.obj fields) = (do
      let atoms ← buildAll Atom.ofJson? items
      QueryDraft.build ⟨.json name, .list (atoms.map .atom), .json find, .json description⟩) := by
  rw [Query.ofJson?, Json.fieldsOr]
  simp only [field_of_lookup hname, fieldOr_of_lookup hdescription, fieldOr_of_lookup hfind,
    fieldOr_of_lookup hwhere, Json.itemsOr, bind, Except.bind]

theorem QueryDraft.build_texts (name atoms description : Part) (ss : List String) :
    QueryDraft.build ⟨name, atoms, .json (.arr (ss.map .str)), description⟩ =
      QueryDraft.build ⟨name, atoms, .list (ss.map textPart), description⟩ := by
  simp only [QueryDraft.build, itemsOr_texts, itemsOr_list]

/-- **A query and its document.** -/
theorem query_document_agree {v : Json} {q : queryShape.Carrier} (h : queryShape.check v = .ok q) :
    Query.ofJson? (queryDocument v) = queryOfAnswer? q := by
  obtain ⟨name, description, find, atoms, ⟨⟩⟩ := q
  obtain ⟨members, rfl, hmembers⟩ := Shape.check_record.mp h
  obtain ⟨⟨_, hname, hn⟩, hmembers⟩ := Fields.check_required.mp hmembers
  obtain ⟨⟨_, hdescription, hd⟩, hmembers⟩ := Fields.check_required.mp hmembers
  obtain ⟨⟨_, hfind, hf⟩, hmembers⟩ := Fields.check_required.mp hmembers
  obtain ⟨⟨_, hwhere, hw⟩, -⟩ := Fields.check_required.mp hmembers
  obtain rfl := Shape.checkText_eq_ok.mp hn
  obtain rfl := Shape.checkText_eq_ok.mp hd
  obtain rfl := Shape.check_texts.mp hf
  obtain ⟨items, rfl, hitems⟩ := Shape.check_list.mp hw
  rw [← FieldTable.lookup_keep (t := queryTable) (by simp [queryTable])] at hname hdescription hfind
  have hwhere' := FieldTable.lookup_change (t := queryTable) "where" (changeItems atomDocument)
    (by simp [queryTable]) hwhere
  refine (Query.ofJson?_obj hname hdescription hfind hwhere').trans ?_
  rw [buildAll_documents atom_document_agree hitems]
  exact bind_congr fun _ => QueryDraft.build_texts _ _ _ _

/-! ### Programs -/

theorem Program.ofJson?_obj {fields : List (String × Json)} {rules queries : List Json}
    (hrules : Json.lookup "rules" fields = some (.arr rules))
    (hqueries : Json.lookup "queries" fields = some (.arr queries)) :
    Program.ofJson? (.obj fields) = (do
      let rules ← buildAll Rule.ofJson? rules
      let queries ← buildAll Query.ofJson? queries
      ProgramDraft.build ⟨.list (rules.map .rule), .list (queries.map .query)⟩) := by
  rw [Program.ofJson?, Json.fieldsOr]
  simp only [fieldOr_of_lookup hrules, fieldOr_of_lookup hqueries, Json.itemsOr, bind, Except.bind]

/-- **A program and its document.** -/
theorem program_document_agree {v : Json} {p : programShape.Carrier}
    (h : programShape.check v = .ok p) :
    Program.ofJson? (programDocument v) = programOfAnswer? p := by
  obtain ⟨rules, queries, ⟨⟩⟩ := p
  obtain ⟨members, rfl, hmembers⟩ := Shape.check_record.mp h
  obtain ⟨⟨_, hrules, hr⟩, hmembers⟩ := Fields.check_required.mp hmembers
  obtain ⟨⟨_, hqueries, hq⟩, -⟩ := Fields.check_required.mp hmembers
  obtain ⟨ruleItems, rfl, hruleItems⟩ := Shape.check_list.mp hr
  obtain ⟨queryItems, rfl, hqueryItems⟩ := Shape.check_list.mp hq
  have hrules' := FieldTable.lookup_change (t := programTable) "rules" (changeItems ruleDocument)
    (by simp [programTable]) hrules
  have hqueries' := FieldTable.lookup_change (t := programTable) "queries"
    (changeItems queryDocument) (by simp [programTable]) hqueries
  refine (Program.ofJson?_obj hrules' hqueries').trans ?_
  rw [buildAll_documents rule_document_agree hruleItems,
    buildAll_documents query_document_agree hqueryItems]
  rfl

/-- **An answer and its document agree.** The value of an answer that conforms and the document of
that value make the same program, or they break the same rule of the program model, and the response
is refused in the words in which the document is. -/
theorem answer_document_agree {value : Json} {answer : programShape.Carrier}
    (h : programShape.check value = .ok answer) :
    (∃ p, programOfAnswer? answer = .ok p ∧ Program.ofJson? (programDocument value) = .ok p ∧
        ∀ room text, Json.ofText? room text = .ok value →
          programOfResponse? room text = .ok p) ∨
      ∃ v, programOfAnswer? answer = .error (.violation v) ∧
        Program.ofJson? (programDocument value) = .error (.violation v) ∧
        ∀ room text, Json.ofText? room text = .ok value →
          ∃ e, programOfResponse? room text = .error (.invalid e) ∧
            (ResponseError.invalid e).message = v.message := by
  have hagree := program_document_agree h
  have hresponse : ∀ room text, Json.ofText? room text = .ok value →
      programOfResponse? room text = (programOfAnswer? answer).mapError .invalid := by
    intro room text htext
    simp only [programOfResponse?, readResponse, htext, h, bind, Except.bind]
  rcases (programOfAnswer?_refusesOnly answer).cases with ⟨p, hp⟩ | ⟨v, hv⟩
  · refine Or.inl ⟨p, hp, hagree.trans hp, fun room text htext => ?_⟩
    rw [hresponse room text htext, hp]
    rfl
  · refine Or.inr ⟨v, hv, hagree.trans hv, fun room text htext => ⟨.violation v, ?_, rfl⟩⟩
    rw [hresponse room text htext, hv]
    rfl

/-- A negation in words, a type that is left out and a field that nobody declared; and an answer
whose second query has the name of the first. -/
theorem answer_document_agree_negated :
    let atom (more : List (String × Json)) : Json :=
      .obj (("predicate", .str "p") :: ("args", .arr [.str "?x", .int 1]) :: more)
    let query : Json := .obj [("name", .str "q"), ("description", .str ""), ("find", .arr []),
      ("where", .arr [atom [("note", .null)]])]
    let rule : Json := .obj [("name", .str "r"), ("naturalLanguageGoal", .str "g"),
      ("ruleHead", .obj [("predicate", .str "h"), ("headArguments", .arr [.str "x"])]),
      ("ruleBody", .arr [atom [("type", .str "atom"), ("isNegated", .str "Yes")]])]
    let value (queries : List Json) : Json :=
      .obj [("queries", .arr queries), ("rules", .arr [rule])]
    let args : List Scalar := [.text "?x", .int 1]
    let asked : queryShape.Carrier := ("q", "", [], [((), "p", args, false, ())], ())
    let made : ruleShape.Carrier :=
      ("r", "g", ("h", ["x"], ()), [.inl ((), "p", args, true, ())], ())
    programShape.check (value [query]) = .ok ([made], [asked], ()) ∧
    (∃ p, programOfAnswer? ([made], [asked], ()) = .ok p ∧
      Program.ofJson? (programDocument (value [query])) = .ok p ∧
      p.rules.map Rule.body = [[.atom ⟨⟨"p", by decide⟩, [.text "?x", .int 1], true⟩]]) ∧
    programShape.check (value [query, query]) = .ok ([made], [asked, asked], ()) ∧
    ∃ v, Program.ofJson? (programDocument (value [query, query])) = .error (.violation v) ∧
      v.message = "Duplicate query name: q" := by
  intro atom query rule value args asked made
  have hone : programShape.check (value [query]) = .ok ([made], [asked], ()) := by rfl
  have htwo : programShape.check (value [query, query]) = .ok ([made], [asked, asked], ()) := by rfl
  refine ⟨hone, ?_, htwo, ?_⟩
  · have hbuilt : (programOfAnswer? ([made], [asked], ())).map (fun p => p.rules.map Rule.body) =
        .ok [[.atom ⟨⟨"p", by decide⟩, [.text "?x", .int 1], true⟩]] := by rfl
    rcases answer_document_agree hone with ⟨p, hp, hd, -⟩ | ⟨v, hv, -⟩
    · rw [hp] at hbuilt
      exact ⟨p, hp, hd, Except.ok.inj hbuilt⟩
    · rw [hv] at hbuilt
      cases hbuilt
  · have hrefused : programOfAnswer? ([made], [asked, asked], ()) =
        .error (.violation (.duplicateQuery ⟨"q", by decide⟩)) := by rfl
    rcases answer_document_agree htwo with ⟨p, hp, -⟩ | ⟨v, hv, hd, -⟩
    · rw [hrefused] at hp
      cases hp
    · rw [hrefused] at hv
      cases hv
      exact ⟨_, hd, by decide⟩

end DatalogIntake

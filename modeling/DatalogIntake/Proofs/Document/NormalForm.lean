import DatalogIntake.Proofs.Document.Members
import DatalogIntake.Proofs.Program.Building

/-!
# Normal forms of documents

The normal form of a document has the fields of its kind and no others, in a fixed order, with their
defaults where they were left out. A document is read as an atom, a rule or a program just when its
normal form is the document of that atom, rule or program (`Atom.ofJson?_eq_ok` to
`Program.ofJson?_eq_ok`). -/

namespace DatalogIntake

/-! ### Normal forms -/

namespace Document

/-- The normal form of the document of an atom. -/
def normalAtom : Json → Json :=
  changeMembers fun fields => [
    ("type", Json.fieldOr "type" (.str "atom") fields),
    ("predicate", Json.field "predicate" fields),
    ("args", Json.fieldOr "args" (.arr []) fields),
    ("isNegated", Json.fieldOr "isNegated" (.bool false) fields)]

/-- The normal form of the document of a comparison. -/
def normalComparison : Json → Json :=
  changeMembers fun fields => [
    ("type", Json.field "type" fields),
    ("variable", Json.field "variable" fields),
    ("operator", Json.field "operator" fields),
    ("value", Json.field "value" fields)]

/-- The normal form of the document of a clause, by its type. -/
def normalClause (v : Json) : Json :=
  if v.member "type" = .str "atom" then normalAtom v
  else if v.member "type" = .str "comparison" then normalComparison v
  else v

/-- The normal form of the document of a head. -/
def normalHead : Json → Json :=
  changeMembers fun fields => [
    ("predicate", Json.field "predicate" fields),
    ("args", Json.fieldOr "args" (.arr []) fields)]

/-- The normal form of the document of a rule. -/
def normalRule : Json → Json :=
  changeMembers fun fields => [
    ("name", Json.field "name" fields),
    ("naturalLanguageGoal", Json.fieldOr "naturalLanguageGoal" (.str "") fields),
    ("head", normalHead (Json.field "head" fields)),
    ("body", changeItems normalClause (Json.fieldOr "body" (.arr []) fields))]

/-- The normal form of the document of a query. -/
def normalQuery : Json → Json :=
  changeMembers fun fields => [
    ("name", Json.field "name" fields),
    ("description", Json.fieldOr "description" (.str "") fields),
    ("find", Json.fieldOr "find" (.arr []) fields),
    ("where", changeItems normalAtom (Json.fieldOr "where" (.arr []) fields))]

/-- The normal form of the document of a program. -/
def normalProgram : Json → Json :=
  changeMembers fun fields => [
    ("rules", changeItems normalRule (Json.fieldOr "rules" (.arr []) fields)),
    ("queries", changeItems normalQuery (Json.fieldOr "queries" (.arr []) fields))]

end Document

open Document

/-! ### Steps -/

theorem Json.fieldsOr_eq_ok {v : Json} {e : Violation} {fields : List (String × Json)} :
    v.fieldsOr e = .ok fields ↔ v = .obj fields := by
  cases v <;> simp [Json.fieldsOr]

theorem Json.itemsOr_eq_ok {v : Json} {e : Violation} {items : List Json} :
    v.itemsOr e = .ok items ↔ v = .arr items := by
  cases v <;> simp [Json.itemsOr]

theorem Part.items?_json_eq_some {α : Type} {encode : α → Json} {v : Json} {l : List α} :
    (Part.json v).items? = some (l.map fun a => .json (encode a)) ↔ v = .arr (l.map encode) := by
  cases v with
  | arr items =>
    have hinj : Function.Injective Part.json := fun _ _ h => Part.json.inj h
    have hmap : (l.map fun a => Part.json (encode a)) = (l.map encode).map .json := by
      rw [List.map_map]
      rfl
    rw [hmap, items?, Option.some.injEq, Json.arr.injEq]
    exact (List.map_injective_iff.mpr hinj).eq_iff
  | _ => simp [items?]

/-- A list of documents is read item by item, its normal form made item by item. -/
theorem changeItems_eq_arr {change : Json → Json} {v : Json} {items : List Json} :
    changeItems change v = .arr items ↔ ∃ given, v = .arr given ∧ given.map change = items := by
  cases v <;> simp [changeItems]

theorem changeMembers_eq_obj {change : List (String × Json) → List (String × Json)} {v : Json}
    {fields : List (String × Json)} :
    changeMembers change v = .obj fields ↔ ∃ given, v = .obj given ∧ change given = fields := by
  cases v <;> simp [changeMembers]

theorem Part.elements?_list_map {α : Type} {f : α → Part} (hf : Function.Injective f)
    {xs ys : List α} : (Part.list (xs.map f)).elements? = some (ys.map f) ↔ xs = ys := by
  rw [elements?, items?, Option.some.injEq]
  · exact (List.map_injective_iff.mpr hf).eq_iff
  all_goals simp

theorem Clause.toPart_injective : Function.Injective Clause.toPart := by
  intro a b h
  cases a <;> cases b <;> cases h <;> rfl

/-! ### Clauses -/

theorem Atom.ofJson?_eq_ok {v : Json} {a : Atom} :
    Atom.ofJson? v = .ok a ↔ normalAtom v = a.toJson := by
  simp only [Atom.ofJson?, bind_eq_ok, Json.fieldsOr_eq_ok, unless_refused_eq_ok,
    AtomDraft.build_eq_ok, Part.items?_json_eq_some, normalAtom, Atom.toJson, changeMembers_eq_obj]
  simp

/-- An object with a value is looked into for a comparison. -/
theorem Comparison.ofJson?_eq_ok {fields : List (String × Json)} {c : Comparison} :
    Comparison.ofJson? (.obj fields) = .ok c ↔ Json.field "variable" fields = .str c.left ∧
      Json.field "operator" fields = .str c.operator.symbol ∧
      Json.field "value" fields = c.right.toJson := by
  have hvalue : Json.field "value" fields = c.right.toJson →
      (Json.lookup "value" fields).isSome = true := by
    intro hv
    cases hl : Json.lookup "value" fields with
    | some v => rfl
    | none =>
      rw [Json.field, hl] at hv
      cases hr : c.right <;> rw [hr] at hv <;> cases hv
  simp only [Comparison.ofJson?, Json.hasKey, bind_eq_ok, unless_refused_eq_ok,
    ComparisonDraft.build_eq_ok, Except.ok.injEq, exists_eq_left', Part.json.injEq, Bool.not_eq_true',
    Bool.not_eq_false]
  exact ⟨fun h => h.2, fun h => ⟨hvalue h.2.2, h⟩⟩

theorem Comparison.normal_eq_toJson {fields : List (String × Json)} {c : Comparison}
    (htype : Json.field "type" fields = .str "comparison") :
    normalComparison (.obj fields) = c.toJson ↔ Json.field "variable" fields = .str c.left ∧
      Json.field "operator" fields = .str c.operator.symbol ∧
      Json.field "value" fields = c.right.toJson := by
  simp [normalComparison, changeMembers, Comparison.toJson, htype]

theorem Clause.member_type_toJson (c : Clause) :
    c.toJson.member "type" = .str "atom" ∨ c.toJson.member "type" = .str "comparison" := by
  cases c with
  | atom a => exact Or.inl rfl
  | comparison c => exact Or.inr rfl

theorem Clause.ofJson?_eq_ok {v : Json} {c : Clause} :
    Clause.ofJson? v = .ok c ↔ normalClause v = c.toJson := by
  cases v with
  | obj fields =>
    rw [ofJson?_obj]
    by_cases hatom : Json.field "type" fields = .str "atom"
    · have hnormal : normalClause (.obj fields) = normalAtom (.obj fields) := if_pos hatom
      rw [if_pos hatom, hnormal, map_build_eq_ok]
      simp only [Atom.ofJson?_eq_ok]
      cases c with
      | atom a => simp [Clause.toJson]
      | comparison c => simp [Clause.toJson, normalAtom, changeMembers, Comparison.toJson]
    by_cases hcomparison : Json.field "type" fields = .str "comparison"
    · have hnormal : normalClause (.obj fields) = normalComparison (.obj fields) :=
        (if_neg hatom).trans (if_pos hcomparison)
      rw [if_neg hatom, if_pos hcomparison, hnormal, map_build_eq_ok]
      simp only [Comparison.ofJson?_eq_ok, ← Comparison.normal_eq_toJson hcomparison]
      cases c with
      | atom a => simp [Clause.toJson, normalComparison, changeMembers, Atom.toJson]
      | comparison c => simp [Clause.toJson]
    · have hnormal : normalClause (.obj fields) = .obj fields :=
        (if_neg hatom).trans (if_neg hcomparison)
      rw [if_neg hatom, if_neg hcomparison, hnormal]
      refine iff_of_false refuse_ne_ok fun h => ?_
      have htype := c.member_type_toJson
      rw [← h] at htype
      exact htype.elim hatom hcomparison
  | _ =>
    refine iff_of_false ?_ ?_
    · simp [Clause.ofJson?, Json.fieldsOr, bind_eq_ok]
    · cases c <;> simp [normalClause, Json.member, Clause.toJson, Atom.toJson, Comparison.toJson]

/-! ### Rules and queries -/

theorem Head.ofJson?_eq_ok {v : Json} {h : Head} :
    Head.ofJson? v = .ok h ↔ normalHead v = h.toJson := by
  simp only [Head.ofJson?, bind_eq_ok, Json.fieldsOr_eq_ok, HeadDraft.build_eq_ok,
    Part.items?_json_eq_some, normalHead, Head.toJson, changeMembers_eq_obj]
  simp

theorem Rule.ofJson?_eq_ok {v : Json} {r : Rule} :
    Rule.ofJson? v = .ok r ↔ normalRule v = r.toJson := by
  simp only [Rule.ofJson?, bind_eq_ok, Json.fieldsOr_eq_ok, Json.itemsOr_eq_ok,
    RuleDraft.build_eq_ok, Head.ofJson?_eq_ok, Part.elements?_list_map Clause.toPart_injective,
    buildAll_eq_ok_iff_map fun _ _ => Clause.ofJson?_eq_ok, Part.json.injEq, Part.head.injEq,
    normalRule, Rule.toJson, changeMembers_eq_obj, changeItems_eq_arr, List.cons.injEq,
    Prod.mk.injEq, true_and, and_true]
  constructor
  · rintro ⟨fields, rfl, items, hitems, _, hh, _, hb, hn, hg, rfl, rfl⟩
    exact ⟨fields, rfl, hn, hg, hh, items, hitems, hb⟩
  · rintro ⟨fields, rfl, hn, hg, hh, items, hitems, hb⟩
    exact ⟨fields, rfl, items, hitems, _, hh, _, hb, hn, hg, rfl, rfl⟩

theorem Query.ofJson?_eq_ok {v : Json} {q : Query} :
    Query.ofJson? v = .ok q ↔ normalQuery v = q.toJson := by
  have hatom : Function.Injective Part.atom := fun _ _ h => Part.atom.inj h
  simp only [Query.ofJson?, bind_eq_ok, Json.fieldsOr_eq_ok, Json.itemsOr_eq_ok,
    QueryDraft.build_eq_ok, buildAll_eq_ok_iff_map fun _ _ => Atom.ofJson?_eq_ok,
    Part.items?_json_eq_some, Part.elements?_list_map hatom, Part.json.injEq, normalQuery,
    Query.toJson, changeMembers_eq_obj, changeItems_eq_arr, List.cons.injEq, Prod.mk.injEq,
    true_and, and_true]
  constructor
  · rintro ⟨fields, rfl, items, hitems, _, ha, hn, hd, rfl, hf⟩
    exact ⟨fields, rfl, hn, hd, hf, items, hitems, ha⟩
  · rintro ⟨fields, rfl, hn, hd, hf, items, hitems, ha⟩
    exact ⟨fields, rfl, items, hitems, _, ha, hn, hd, rfl, hf⟩

/-! ### Programs -/

/-- **A document is read as the program whose document is its normal form.** -/
theorem Program.ofJson?_eq_ok {v : Json} {p : Program} :
    Program.ofJson? v = .ok p ↔ normalProgram v = p.toJson := by
  have hrule : Function.Injective Part.rule := fun _ _ h => Part.rule.inj h
  have hquery : Function.Injective Part.query := fun _ _ h => Part.query.inj h
  simp only [Program.ofJson?, bind_eq_ok, Json.fieldsOr_eq_ok, Json.itemsOr_eq_ok,
    ProgramDraft.build_eq_ok, buildAll_eq_ok_iff_map fun _ _ => Rule.ofJson?_eq_ok,
    buildAll_eq_ok_iff_map fun _ _ => Query.ofJson?_eq_ok, Part.elements?_list_map hrule,
    Part.elements?_list_map hquery, normalProgram, Program.toJson, changeMembers_eq_obj,
    changeItems_eq_arr, List.cons.injEq, Prod.mk.injEq, true_and, and_true]
  constructor
  · rintro ⟨fields, rfl, rules, hrules, queries, hqueries, _, hr, _, hq, rfl, rfl⟩
    exact ⟨fields, rfl, ⟨rules, hrules, hr⟩, queries, hqueries, hq⟩
  · rintro ⟨fields, rfl, ⟨rules, hrules, hr⟩, queries, hqueries, hq⟩
    exact ⟨fields, rfl, rules, hrules, queries, hqueries, _, hr, _, hq, rfl, rfl⟩

end DatalogIntake

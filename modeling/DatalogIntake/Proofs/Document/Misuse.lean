import DatalogIntake.Proofs.Document.Grammar

/-!
# Values that readers of documents misuse

The readers of the parts of a document are open to values of every kind. A value that keeps to the
grammar of its kind is read as the part whose document is its normal form, and all but one of the
readers refuse any other value by a violation (`Document.IsReadAs`). The reader of comparisons looks
for a value before it knows that it has an object in front of it, so it can be handed something that
cannot be searched, and something that is searched with success and has no members.

* `documentParts_outcome`: what becomes of a value of any kind under each of the six readers, and
  which values the reader of comparisons misuses.
* `comparison_misuse`: one number, which the other five refuse. -/

namespace DatalogIntake

namespace Document

/-- The outcome of reading a value: the part whose document is the normal form of the value, if the
value keeps to a grammar, and otherwise a violation. -/
def IsReadAs {α : Type} (grammar : Prop) (normal : Json) (encode : α → Json)
    (r : Except BuildError α) : Prop :=
  (grammar ∧ ∃ a, r = .ok a ∧ normal = encode a) ∨
    (¬grammar ∧ ∃ e, r = .error (.violation e))

/-- A reader that never misuses a value, and that reads the values of a grammar as their normal
form. -/
theorem IsReadAs.intro {α : Type} {grammar : Prop} {normal : Json} {encode : α → Json}
    {r : Except BuildError α} (hr : RefusesOnly r) (hok : ∀ a, r = .ok a ↔ normal = encode a)
    (hgrammar : grammar ↔ ∃ a, normal = encode a) : IsReadAs grammar normal encode r := by
  rcases hr.cases with ⟨a, ha⟩ | ⟨e, he⟩
  · have hnormal := (hok a).mp ha
    exact Or.inl ⟨hgrammar.mpr ⟨a, hnormal⟩, a, ha, hnormal⟩
  · refine Or.inr ⟨fun h => ?_, e, he⟩
    obtain ⟨a, ha⟩ := hgrammar.mp h
    cases ((hok a).mpr ha).symm.trans he

/-! ### Comparisons -/

/-- A comparison, whose type is not looked at. -/
def IsComparison : Json → Prop := Json.IsObjectWith ComparisonMembers

/-- The normal form of the document of a comparison, with the type that it should have. -/
def typedComparison : Json → Json :=
  changeMembers fun fields => [
    ("type", .str "comparison"),
    ("variable", Json.field "variable" fields),
    ("operator", Json.field "operator" fields),
    ("value", Json.field "value" fields)]

/-- How the reader of comparisons misuses a value: it looks for the members of a list or a string in
which it has found a value, and it searches what has neither members nor items nor characters. -/
def misuse? : Json → Option Misuse
  | .obj _ => none
  | .arr items => if .str "value" ∈ items then some (.withoutFields "list") else none
  | .str s =>
    if Text.occursIn "value".toList s.toList then some (.withoutFields "str") else none
  | v => some (.notSearchable v.kindName)

theorem typedComparison_eq_toJson {members : List (String × Json)} {c : Comparison} :
    typedComparison (.obj members) = c.toJson ↔
      Json.field "variable" members = .str c.left ∧
        Json.field "operator" members = .str c.operator.symbol ∧
        Json.field "value" members = c.right.toJson := by
  simp [typedComparison, changeMembers, Comparison.toJson]

theorem isReadAs_comparison (members : List (String × Json)) :
    IsReadAs (IsComparison (.obj members)) (typedComparison (.obj members)) Comparison.toJson
      (Comparison.ofJson? (.obj members)) := by
  refine .intro (Comparison.ofJson?_refusesOnly members) (fun c => ?_) ?_
  · rw [Comparison.ofJson?_eq_ok, typedComparison_eq_toJson]
  · simp only [typedComparison_eq_toJson]
    exact comparisonMembers_iff

theorem isReadAs_refused {v : Json} (h : ¬IsComparison v)
    (hr : Comparison.ofJson? v = .error (.violation .comparisonWithoutValue)) :
    IsReadAs (IsComparison v) (typedComparison v) Comparison.toJson (Comparison.ofJson? v) :=
  Or.inr ⟨h, _, hr⟩

/-- The reader of comparisons misuses a value, or else reads it by the grammar. -/
theorem comparison_outcome (v : Json) :
    (∃ m, misuse? v = some m ∧ Comparison.ofJson? v = .error (.misuse m)) ∨
      (misuse? v = none ∧
        IsReadAs (IsComparison v) (typedComparison v) Comparison.toJson
          (Comparison.ofJson? v)) := by
  cases v with
  | obj members => exact Or.inr ⟨rfl, isReadAs_comparison members⟩
  | arr items =>
    by_cases h : Json.str "value" ∈ items
    · refine Or.inl ⟨_, if_pos h, ?_⟩
      have hfound : items.contains (.str "value") = true := List.contains_iff_mem.mpr h
      simp only [Comparison.ofJson?, Json.hasKey, hfound]
      rfl
    · refine Or.inr ⟨if_neg h, isReadAs_refused id ?_⟩
      have hfound : items.contains (.str "value") = false := by simpa using h
      simp only [Comparison.ofJson?, Json.hasKey, hfound]
      rfl
  | str s =>
    by_cases h : Text.occursIn "value".toList s.toList = true
    · refine Or.inl ⟨_, if_pos h, ?_⟩
      simp only [Comparison.ofJson?, Json.hasKey, h]
      rfl
    · refine Or.inr ⟨if_neg h, isReadAs_refused id ?_⟩
      simp only [Comparison.ofJson?, Json.hasKey, eq_false_of_ne_true h]
      rfl
  | null => exact Or.inl ⟨_, rfl, rfl⟩
  | bool b => exact Or.inl ⟨_, rfl, rfl⟩
  | int n => exact Or.inl ⟨_, rfl, rfl⟩
  | double x => exact Or.inl ⟨_, rfl, rfl⟩

/-! ### All readers -/

/-- **What becomes of a value of any kind.** The readers of atoms, clauses, heads, rules and queries
read what keeps to the grammar of their kind as the part whose document is its normal form, and
refuse every other value by a violation. So does the reader of comparisons, but for the values that
it misuses: a list with the word `value` among its items, a string in which that word occurs, and
whatever is neither an object nor a list nor a string. -/
theorem documentParts_outcome (v : Json) :
    IsReadAs (IsAtom v) (normalAtom v) Atom.toJson (Atom.ofJson? v) ∧
    IsReadAs (IsClause v) (normalClause v) Clause.toJson (Clause.ofJson? v) ∧
    IsReadAs (IsHead v) (normalHead v) Head.toJson (Head.ofJson? v) ∧
    IsReadAs (IsRule v) (normalRule v) Rule.toJson (Rule.ofJson? v) ∧
    IsReadAs (IsQuery v) (normalQuery v) Query.toJson (Query.ofJson? v) ∧
    ((∃ m, misuse? v = some m ∧ Comparison.ofJson? v = .error (.misuse m)) ∨
      (misuse? v = none ∧
        IsReadAs (IsComparison v) (typedComparison v) Comparison.toJson
          (Comparison.ofJson? v))) := by
  refine ⟨?_, ?_, ?_, ?_, ?_, comparison_outcome v⟩
  · exact .intro (Atom.ofJson?_refusesOnly v) (fun _ => Atom.ofJson?_eq_ok) isAtom_iff
  · exact .intro (Clause.ofJson?_refusesOnly v) (fun _ => Clause.ofJson?_eq_ok) isClause_iff
  · exact .intro (Head.ofJson?_refusesOnly v) (fun _ => Head.ofJson?_eq_ok) isHead_iff
  · exact .intro (Rule.ofJson?_refusesOnly v) (fun _ => Rule.ofJson?_eq_ok) isRule_iff
  · exact .intro (Query.ofJson?_refusesOnly v) (fun _ => Query.ofJson?_eq_ok) isQuery_iff

/-- **A number is refused by all readers but that of comparisons**, which tries to search it. -/
theorem comparison_misuse :
    let v := Json.int 5
    Atom.ofJson? v = .error (.violation .atomNotObject) ∧
      Clause.ofJson? v = .error (.violation .clauseNotObject) ∧
      Head.ofJson? v = .error (.violation .headNotObject) ∧
      Rule.ofJson? v = .error (.violation .ruleNotObject) ∧
      Query.ofJson? v = .error (.violation .queryNotObject) ∧
      Comparison.ofJson? v = .error (.misuse (.notSearchable "int")) ∧
      ∀ e, Comparison.ofJson? v ≠ .error (.violation e) :=
  ⟨rfl, rfl, rfl, rfl, rfl, rfl, fun _ h => by cases h⟩

end Document

end DatalogIntake

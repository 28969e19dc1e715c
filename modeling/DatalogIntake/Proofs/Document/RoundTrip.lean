import DatalogIntake.Proofs.Document.NormalForm
import DatalogIntake.Proofs.Json.RoundTrip

/-!
# Documents are read back

The document of a program is its own normal form, so it is read as that program
(`Program.ofJson?_toJson`). The text of the document is read as the document, where the reader of
numbers leaves its only mark: an integer must not have too many digits (`Program.ofText_toText`). -/

namespace DatalogIntake

/-! ### Documents are normal -/

namespace Document

theorem normalAtom_toJson (a : Atom) : normalAtom a.toJson = a.toJson := by
  simp [normalAtom, changeMembers, Atom.toJson, Json.field, Json.fieldOr, Json.lookup]

theorem normalComparison_toJson (c : Comparison) : normalComparison c.toJson = c.toJson := by
  simp [normalComparison, changeMembers, Comparison.toJson, Json.field, Json.lookup]

theorem normalClause_toJson (c : Clause) : normalClause c.toJson = c.toJson := by
  cases c with
  | atom a => exact (if_pos rfl).trans (normalAtom_toJson a)
  | comparison c =>
    have hatom : c.toJson.member "type" ≠ .str "atom" := by
      simp [Comparison.toJson, Json.member, Json.field, Json.lookup]
    exact (if_neg hatom).trans ((if_pos rfl).trans (normalComparison_toJson c))

theorem normalHead_toJson (h : Head) : normalHead h.toJson = h.toJson := by
  simp [normalHead, changeMembers, Head.toJson, Json.field, Json.fieldOr, Json.lookup]

theorem changeItems_toJson {α : Type} {normal : Json → Json} {toJson : α → Json}
    (h : ∀ a, normal (toJson a) = toJson a) (l : List α) :
    changeItems normal (.arr (l.map toJson)) = .arr (l.map toJson) := by
  simp [changeItems, Function.comp_def, h]

theorem normalRule_toJson (r : Rule) : normalRule r.toJson = r.toJson := by
  simp [normalRule, changeMembers, Rule.toJson, Json.field, Json.fieldOr, Json.lookup,
    normalHead_toJson, changeItems_toJson normalClause_toJson]

theorem normalQuery_toJson (q : Query) : normalQuery q.toJson = q.toJson := by
  simp [normalQuery, changeMembers, Query.toJson, Json.field, Json.fieldOr, Json.lookup,
    changeItems_toJson normalAtom_toJson]

theorem normalProgram_toJson (p : Program) : normalProgram p.toJson = p.toJson := by
  simp [normalProgram, changeMembers, Program.toJson, Json.fieldOr, Json.lookup,
    changeItems_toJson normalRule_toJson, changeItems_toJson normalQuery_toJson]

end Document

/-- **The document of a program is read as that program.** -/
theorem Program.ofJson?_toJson (p : Program) : Program.ofJson? p.toJson = .ok p :=
  Program.ofJson?_eq_ok.mpr (Document.normalProgram_toJson p)

/-! ### Texts -/

/-- The terms of a clause. -/
def Clause.terms : Clause → List Term
  | .atom a => a.args
  | .comparison c => [c.right]

/-- The terms of a program, those of its rules and then those of its queries. -/
def Program.terms (p : Program) : List Term :=
  p.rules.flatMap (fun r => r.body.flatMap Clause.terms) ++
    p.queries.flatMap fun q => q.atoms.flatMap Atom.args

/-- An integer that a reader takes has at most so many digits. -/
def Term.IsShort : Term → Prop
  | .int n => (Decimal.ofNat n.natAbs).length ≤ Json.maxIntegerDigits
  | .text _ => True
  | .double _ => True
  | .bool _ => True

instance : (t : Term) → Decidable t.IsShort
  | .int n =>
    inferInstanceAs (Decidable ((Decimal.ofNat n.natAbs).length ≤ Json.maxIntegerDigits))
  | .text _ => inferInstanceAs (Decidable True)
  | .double _ => inferInstanceAs (Decidable True)
  | .bool _ => inferInstanceAs (Decidable True)

variable {room : Nat}

theorem Term.isReadable_toJson {t : Term} : t.toJson.IsReadable room ↔ t.IsShort := by
  cases t <;> exact Iff.rfl

theorem Json.areReadable_map {α : Type} {encode : α → Json} {l : List α} :
    Json.AreReadable (l.map encode) room ↔ ∀ a ∈ l, (encode a).IsReadable room := by
  rw [Json.areReadable_iff, List.forall_mem_map]

theorem Atom.isReadable_toJson {a : Atom} :
    a.toJson.IsReadable (room + 2) ↔ ∀ t ∈ a.args, t.IsShort := by
  simp [Atom.toJson, Json.IsReadable, Json.HaveReadable, Json.areReadable_map,
    Term.isReadable_toJson]

theorem Clause.isReadable_toJson {c : Clause} :
    c.toJson.IsReadable (room + 2) ↔ ∀ t ∈ c.terms, t.IsShort := by
  cases c with
  | atom a => exact Atom.isReadable_toJson
  | comparison c =>
    simp [Clause.toJson, Comparison.toJson, Clause.terms, Json.IsReadable, Json.HaveReadable,
      Term.isReadable_toJson]

theorem Head.isReadable_toJson (h : Head) : h.toJson.IsReadable (room + 2) := by
  simp [Head.toJson, Json.IsReadable, Json.HaveReadable, Json.areReadable_map]

theorem Rule.isReadable_toJson {r : Rule} :
    r.toJson.IsReadable (room + 4) ↔ ∀ t ∈ r.body.flatMap Clause.terms, t.IsShort := by
  rw [List.forall_mem_flatMap]
  simp [Rule.toJson, Json.IsReadable, Json.HaveReadable, Json.areReadable_map,
    Head.isReadable_toJson, Clause.isReadable_toJson]

theorem Query.isReadable_toJson {q : Query} :
    q.toJson.IsReadable (room + 4) ↔ ∀ t ∈ q.atoms.flatMap Atom.args, t.IsShort := by
  rw [List.forall_mem_flatMap]
  simp [Query.toJson, Json.IsReadable, Json.HaveReadable, Json.areReadable_map,
    Atom.isReadable_toJson]

/-- A document can be read when the integers of the program are short. -/
theorem Program.isReadable_toJson_iff {p : Program} :
    p.toJson.IsReadable (room + 6) ↔ ∀ t ∈ p.terms, t.IsShort := by
  have hrule : ∀ r : Rule, r.toJson.IsReadable (room + 4) ↔
      ∀ t ∈ r.body.flatMap Clause.terms, t.IsShort := fun _ => Rule.isReadable_toJson
  have hquery : ∀ q : Query, q.toJson.IsReadable (room + 4) ↔
      ∀ t ∈ q.atoms.flatMap Atom.args, t.IsShort := fun _ => Query.isReadable_toJson
  rw [Program.terms, List.forall_mem_append, List.forall_mem_flatMap, List.forall_mem_flatMap]
  simp only [← hrule, ← hquery]
  simp [Program.toJson, Json.IsReadable, Json.HaveReadable, Json.areReadable_map]

/-- How deep containers are nested in the document of a program: the arguments of an atom stand in a
clause, in a body, in a rule, in a list of rules, in the document. -/
def Program.documentDepth : Nat := 6

theorem Program.isReadable_toJson {p : Program} (hroom : documentDepth ≤ room)
    (h : ∀ t ∈ p.terms, t.IsShort) : p.toJson.IsReadable room := by
  have hread : p.toJson.IsReadable documentDepth := isReadable_toJson_iff.mpr h
  exact hread.mono hroom

/-- **The text of a program is read as that program**, whatever the indentation: the same rules and
queries in the same order, each term with its value and its kind. There has to be room for a
document. -/
theorem Program.ofText_toText (hroom : documentDepth ≤ room) (p : Program) (indent : Option Int)
    (h : ∀ t ∈ p.terms, t.IsShort) : Program.ofText? room (p.toText indent) = .ok p := by
  have hread := Json.ofText?_toText (Program.isReadable_toJson hroom h) (.ofIndent indent)
  unfold Program.ofText? Program.toText
  rw [hread]
  show (Program.ofJson? p.toJson).mapError DocumentError.invalid = .ok p
  rw [Program.ofJson?_toJson]
  rfl

/-- A program whose terms are equal as numbers, or look like one another in a text. -/
def Program.lookalikes : Program where
  rules := [{
    name := ⟨"r", by decide⟩
    goal := "a \"goal\"\n\u00e9 \\ \x7b\x7d"
    head := ⟨⟨"p", by decide⟩, ["?x", "y"]⟩
    body := [
      .atom ⟨⟨"q", by decide⟩, [.int 1, .double ⟨false, 2 ^ 52, 1022, by decide, by decide, by decide⟩,
        .bool true, .text "1", .text "true", .text "?x"], true⟩,
      .comparison ⟨"?x", .lessOrEqual, .int (-1000000000000000000000000000000),
        by decide⟩]
    body_ne := List.cons_ne_nil _ _
  }]
  queries := [
    ⟨⟨"a", by decide⟩, "", ["?x", "x"], [⟨⟨"p", by decide⟩, [.double (.zero true)], false⟩],
      List.cons_ne_nil _ _, by simp⟩,
    ⟨⟨"b", by decide⟩, "\t", ["z"], [⟨⟨"p", by decide⟩, [], false⟩], List.cons_ne_nil _ _, by simp⟩]
  names_nodup := by simp

theorem Program.ofText_toText_lookalikes :
    documentDepth ≤ 6 ∧ (∀ t ∈ lookalikes.terms, t.IsShort) ∧
      Program.ofText? 6 (lookalikes.toText none) = .ok lookalikes ∧
      Program.ofText? 6 (lookalikes.toText (some (-1))) = .ok lookalikes :=
  ⟨le_rfl, by decide, Program.ofText_toText le_rfl lookalikes none (by decide),
    Program.ofText_toText le_rfl lookalikes (some (-1)) (by decide)⟩

end DatalogIntake

import DatalogIntake.Proofs.Document.RoundTrip
import DatalogIntake.Proofs.Service.Outcomes

/-!
# Responses are read back

Every program is said by an answer (`Program.saysProgram_toAnswerJson`). Atoms, comparisons and
queries are written in an answer as in a document, heads and rules under other keys. Where the
integers of the program are short, the text of the answer is a response that stands for the program
(`programOfResponse?_toText`). -/

namespace DatalogIntake

open Json Answer

/-! ### Answers of programs -/

/-- The answer of a head. -/
def Head.toAnswerJson (h : Head) : Json :=
  .obj [("predicate", .str h.predicate.text), ("headArguments", .arr (h.args.map .str))]

/-- The answer of a rule. -/
def Rule.toAnswerJson (r : Rule) : Json :=
  .obj [("name", .str r.name.text), ("naturalLanguageGoal", .str r.goal),
    ("ruleHead", r.head.toAnswerJson), ("ruleBody", .arr (r.body.map Clause.toJson))]

/-- The answer of a program. -/
def Program.toAnswerJson (p : Program) : Json :=
  .obj [("rules", .arr (p.rules.map Rule.toAnswerJson)),
    ("queries", .arr (p.queries.map Query.toJson))]

/-! ### What they say -/

theorem Answer.saysList_map {α : Type} {R : α → Json → Prop} {encode : α → Json}
    (h : ∀ a, R a (encode a)) (l : List α) : SaysList R l (.arr (l.map encode)) := by
  rw [SaysList, List.forall₂_map_left_iff]
  exact List.forall₂_same.mpr fun a _ => h a

theorem Json.standsFor_bool (b : Bool) : StandsFor b (.bool b) := rfl

theorem Atom.saysAtom_toJson (a : Atom) : SaysAtom a a.toJson :=
  ⟨fun _ h => (Option.some.inj h).symm, ⟨_, rfl, rfl⟩, ⟨_, rfl, rfl⟩, standsFor_bool a.isNegated⟩

theorem Clause.saysClause_toJson (c : Clause) : SaysClause c c.toJson := by
  cases c with
  | atom a => exact ⟨⟨_, rfl, rfl⟩, a.saysAtom_toJson.2⟩
  | comparison c => exact ⟨⟨_, rfl, rfl⟩, ⟨_, rfl, rfl⟩, ⟨_, rfl, rfl⟩, ⟨_, rfl, rfl⟩⟩

theorem Head.saysHead_toAnswerJson (h : Head) : SaysHead h h.toAnswerJson :=
  ⟨⟨_, rfl, rfl⟩, ⟨_, rfl, rfl⟩⟩

theorem Rule.saysRule_toAnswerJson (r : Rule) : SaysRule r r.toAnswerJson :=
  ⟨⟨_, rfl, rfl⟩, ⟨_, rfl, rfl⟩, ⟨_, rfl, r.head.saysHead_toAnswerJson⟩,
    ⟨_, rfl, saysList_map Clause.saysClause_toJson r.body⟩⟩

theorem Query.saysQuery_toJson (q : Query) : SaysQuery q q.toJson :=
  ⟨⟨_, rfl, rfl⟩, ⟨_, rfl, rfl⟩, ⟨_, rfl, rfl⟩, ⟨_, rfl, saysList_map Atom.saysAtom_toJson q.atoms⟩⟩

/-- **The answer of a program says that program.** -/
theorem Program.saysProgram_toAnswerJson (p : Program) : SaysProgram p p.toAnswerJson :=
  ⟨⟨_, rfl, saysList_map Rule.saysRule_toAnswerJson p.rules⟩,
    ⟨_, rfl, saysList_map Query.saysQuery_toJson p.queries⟩⟩

/-! ### Texts -/

variable {room : Nat}

theorem Head.isReadable_toAnswerJson (h : Head) : h.toAnswerJson.IsReadable (room + 2) := by
  simp [toAnswerJson, IsReadable, HaveReadable, areReadable_map]

theorem Rule.isReadable_toAnswerJson {r : Rule} :
    r.toAnswerJson.IsReadable (room + 4) ↔ ∀ t ∈ r.body.flatMap Clause.terms, t.IsShort := by
  rw [List.forall_mem_flatMap]
  simp [toAnswerJson, IsReadable, HaveReadable, areReadable_map, Head.isReadable_toAnswerJson,
    Clause.isReadable_toJson]

theorem Program.isReadable_toAnswerJson {p : Program} :
    p.toAnswerJson.IsReadable (room + 6) ↔ ∀ t ∈ p.terms, t.IsShort := by
  have hrule : ∀ r : Rule, r.toAnswerJson.IsReadable (room + 4) ↔
      ∀ t ∈ r.body.flatMap Clause.terms, t.IsShort := fun _ => Rule.isReadable_toAnswerJson
  have hquery : ∀ q : Query, q.toJson.IsReadable (room + 4) ↔
      ∀ t ∈ q.atoms.flatMap Atom.args, t.IsShort := fun _ => Query.isReadable_toJson
  rw [terms, List.forall_mem_append, List.forall_mem_flatMap, List.forall_mem_flatMap]
  simp only [← hrule, ← hquery]
  simp [toAnswerJson, IsReadable, HaveReadable, areReadable_map]

/-- **A program with short integers comes out of a response**, where there is room for it. -/
theorem programOfResponse?_toText (hroom : Program.documentDepth ≤ room) {p : Program}
    (h : ∀ t ∈ p.terms, t.IsShort) (layout : Layout) :
    programOfResponse? room (p.toAnswerJson.toText layout) = .ok p := by
  have hread : p.toAnswerJson.IsReadable Program.documentDepth :=
    Program.isReadable_toAnswerJson.mpr h
  exact (programOfResponse?_eq_ok (ofText?_toText (hread.mono hroom) layout)).mpr
    p.saysProgram_toAnswerJson

end DatalogIntake

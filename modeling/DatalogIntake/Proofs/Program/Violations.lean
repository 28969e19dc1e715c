import DatalogIntake.Document.Reader
import DatalogIntake.Service.Program

/-!
# Builders refuse by violations

A builder can fail in two ways, and the second, a misuse, is left to callers that offer parts of the
wrong kind. On the way from an answer there are none: what is walked over is a list
(`programOfAnswer?_refusesOnly`). -/

namespace DatalogIntake

/-- A result that is no misuse: something built, or a violation. -/
def RefusesOnly {α : Type} (r : Except BuildError α) : Prop := ∀ m, r ≠ .error (.misuse m)

/-! ### Steps -/

@[simp] theorem refusesOnly_ok {α : Type} (a : α) : RefusesOnly (.ok a) := by
  intro m h
  cases h

@[simp] theorem refusesOnly_refuse {α : Type} (v : Violation) :
    RefusesOnly (refuse v : Except BuildError α) := by
  intro m h
  cases h

theorem RefusesOnly.bind {α β : Type} {r : Except BuildError α} {f : α → Except BuildError β}
    (hr : RefusesOnly r) (hf : ∀ a, RefusesOnly (f a)) : RefusesOnly (r >>= f) := by
  cases r with
  | ok a => exact hf a
  | error e =>
    intro m h
    obtain rfl : e = .misuse m := Except.error.inj h
    exact hr m rfl

theorem RefusesOnly.map {α β : Type} {r : Except BuildError α} (f : α → β) (hr : RefusesOnly r) :
    RefusesOnly (f <$> r) := by
  intro m h
  cases r with
  | ok a => cases h
  | error e =>
    obtain rfl : e = .misuse m := Except.error.inj h
    exact hr m rfl

theorem RefusesOnly.unless {α β : Type} {c : Prop} [Decidable c] {e : Violation}
    {f : α → Except BuildError β} {r : Except BuildError β} (h : RefusesOnly r) :
    RefusesOnly (if c then refuse e >>= f else r) := by
  split
  · exact refusesOnly_refuse e
  · exact h

theorem refusesOnly_built {α : Type} {c : Prop} [Decidable c] {e : Violation} {f : c → α} :
    RefusesOnly (if h : c then pure (f h) else refuse e : Except BuildError α) := by
  split
  · exact refusesOnly_ok _
  · exact refusesOnly_refuse e

/-- What is no misuse has been built or refused. -/
theorem RefusesOnly.cases {α : Type} {r : Except BuildError α} (hr : RefusesOnly r) :
    (∃ a, r = .ok a) ∨ ∃ v, r = .error (.violation v) := by
  match r, hr with
  | .ok a, _ => exact Or.inl ⟨a, rfl⟩
  | .error (.violation v), _ => exact Or.inr ⟨v, rfl⟩
  | .error (.misuse m), hr => exact absurd rfl (hr m)

theorem refusesOnly_buildAll {α β : Type} {build : α → Except BuildError β} {l : List α}
    (h : ∀ a ∈ l, RefusesOnly (build a)) : RefusesOnly (buildAll build l) := by
  induction l with
  | nil => exact refusesOnly_ok []
  | cons a l ih =>
    have hl := ih fun b hb => h b (List.mem_cons_of_mem a hb)
    exact (h a List.mem_cons_self).bind fun b => hl.bind fun bs => refusesOnly_ok (b :: bs)

/-! ### Parts -/

theorem Name.ofPart?_refusesOnly (role : String) (given : Part) :
    RefusesOnly (Name.ofPart? role given) := by
  unfold Name.ofPart?
  split
  · split <;> simp
  · simp

theorem Term.ofPart?_refusesOnly (context : String) (given : Part) :
    RefusesOnly (Term.ofPart? context given) := by
  unfold Term.ofPart?
  split <;> simp

theorem Operator.ofPart?_refusesOnly (given : Part) : RefusesOnly (Operator.ofPart? given) := by
  unfold Operator.ofPart?
  split
  · split <;> simp
  · simp

theorem Clause.ofPart?_refusesOnly (rule : Name) (given : Part) :
    RefusesOnly (Clause.ofPart? rule given) := by
  unfold Clause.ofPart?
  split <;> simp

theorem Head.ofPart?_refusesOnly (rule : Name) (given : Part) :
    RefusesOnly (Head.ofPart? rule given) := by
  unfold Head.ofPart?
  split <;> simp

theorem Atom.ofPart?_refusesOnly (query : Name) (given : Part) :
    RefusesOnly (Atom.ofPart? query given) := by
  unfold Atom.ofPart?
  split <;> simp

theorem Rule.ofPart?_refusesOnly (given : Part) : RefusesOnly (Rule.ofPart? given) := by
  unfold Rule.ofPart?
  split <;> simp

namespace Part

theorem itemsOr_refusesOnly (given : Part) (v : Violation) : RefusesOnly (given.itemsOr v) := by
  unfold itemsOr
  split <;> simp

theorem textOr_refusesOnly (given : Part) (v : Violation) : RefusesOnly (given.textOr v) := by
  unfold textOr
  split <;> simp

theorem nonemptyTextOr_refusesOnly (given : Part) (v : Violation) :
    RefusesOnly (given.nonemptyTextOr v) := by
  unfold nonemptyTextOr
  split
  · split <;> simp
  · simp

theorem boolOr_refusesOnly (given : Part) (v : Violation) : RefusesOnly (given.boolOr v) := by
  unfold boolOr
  split <;> simp

end Part

/-! ### Drafts -/

theorem AtomDraft.build_refusesOnly (d : AtomDraft) : RefusesOnly d.build :=
  (Name.ofPart?_refusesOnly _ _).bind fun _ =>
  (Part.itemsOr_refusesOnly _ _).bind fun _ =>
  (refusesOnly_buildAll fun _ _ => Term.ofPart?_refusesOnly _ _).bind fun _ =>
  (Part.boolOr_refusesOnly _ _).bind fun _ => refusesOnly_ok _

theorem ComparisonDraft.build_refusesOnly (d : ComparisonDraft) : RefusesOnly d.build :=
  (Part.nonemptyTextOr_refusesOnly _ _).bind fun _ =>
  (Operator.ofPart?_refusesOnly _).bind fun _ =>
  (Term.ofPart?_refusesOnly _ _).bind fun _ => refusesOnly_ok _

theorem HeadDraft.build_refusesOnly (d : HeadDraft) : RefusesOnly d.build :=
  (Name.ofPart?_refusesOnly _ _).bind fun _ =>
  (Part.itemsOr_refusesOnly _ _).bind fun _ =>
  (refusesOnly_buildAll fun _ _ => Part.textOr_refusesOnly _ _).bind fun _ => refusesOnly_ok _

/-- A rule whose body can be walked over. -/
theorem RuleDraft.build_refusesOnly {d : RuleDraft} (h : RefusesOnly d.body.walk) :
    RefusesOnly d.build :=
  (Name.ofPart?_refusesOnly _ _).bind fun _ => (Part.textOr_refusesOnly _ _).bind fun _ =>
  (Head.ofPart?_refusesOnly _ _).bind fun _ => RefusesOnly.unless <| h.bind fun _ =>
  (refusesOnly_buildAll fun _ _ => Clause.ofPart?_refusesOnly _ _).bind fun _ => refusesOnly_built

theorem QueryDraft.build_refusesOnly {d : QueryDraft} (h : RefusesOnly d.atoms.walk) :
    RefusesOnly d.build :=
  (Name.ofPart?_refusesOnly _ _).bind fun _ => (Part.textOr_refusesOnly _ _).bind fun _ =>
  RefusesOnly.unless <| h.bind fun _ =>
  (refusesOnly_buildAll fun _ _ => Atom.ofPart?_refusesOnly _ _).bind fun _ =>
  (Part.itemsOr_refusesOnly _ _).bind fun _ =>
  (refusesOnly_buildAll fun _ _ => Part.nonemptyTextOr_refusesOnly _ _).bind fun _ =>
  refusesOnly_built

theorem Program.addParts_refusesOnly (p : Program) (parts : List Part) :
    RefusesOnly (p.addParts parts) := by
  induction parts generalizing p with
  | nil => exact refusesOnly_ok p
  | cons part rest ih =>
    cases part with
    | query q =>
      rw [addParts]
      split
      · exact ih _
      · exact refusesOnly_refuse _
    | _ => exact refusesOnly_refuse .entryNotQuery

theorem ProgramDraft.build_refusesOnly {d : ProgramDraft} (hr : RefusesOnly d.rules.walk)
    (hq : RefusesOnly d.queries.walk) : RefusesOnly d.build :=
  hr.bind fun _ => (refusesOnly_buildAll fun _ _ => Rule.ofPart?_refusesOnly _).bind fun _ =>
  hq.bind fun _ => Program.addParts_refusesOnly _ _

/-! ### Answers -/

theorem walk_list_refusesOnly (parts : List Part) : RefusesOnly (Part.list parts).walk :=
  refusesOnly_ok parts

theorem atomOfAnswer?_refusesOnly (a : atomFields.Carrier) : RefusesOnly (atomOfAnswer? a) :=
  AtomDraft.build_refusesOnly _

theorem clauseOfAnswer?_refusesOnly (c : clauseShape.Carrier) :
    RefusesOnly (clauseOfAnswer? c) := by
  match c with
  | .inl a => exact (atomOfAnswer?_refusesOnly a).map _
  | .inr (.inl _) => exact (ComparisonDraft.build_refusesOnly _).map _

theorem ruleOfAnswer?_refusesOnly (r : ruleShape.Carrier) : RefusesOnly (ruleOfAnswer? r) :=
  (HeadDraft.build_refusesOnly _).bind fun _ =>
  (refusesOnly_buildAll fun c _ => clauseOfAnswer?_refusesOnly c).bind fun _ =>
  RuleDraft.build_refusesOnly (walk_list_refusesOnly _)

theorem queryOfAnswer?_refusesOnly (q : queryShape.Carrier) : RefusesOnly (queryOfAnswer? q) :=
  (refusesOnly_buildAll fun a _ => atomOfAnswer?_refusesOnly a).bind fun _ =>
  QueryDraft.build_refusesOnly (walk_list_refusesOnly _)

/-- **An answer that conforms makes a program or breaks a rule of the program model.** -/
theorem programOfAnswer?_refusesOnly (p : programShape.Carrier) :
    RefusesOnly (programOfAnswer? p) :=
  (refusesOnly_buildAll fun r _ => ruleOfAnswer?_refusesOnly r).bind fun _ =>
  (refusesOnly_buildAll fun q _ => queryOfAnswer?_refusesOnly q).bind fun _ =>
  ProgramDraft.build_refusesOnly (walk_list_refusesOnly _) (walk_list_refusesOnly _)

/-! ### Documents -/

theorem Json.fieldsOr_refusesOnly (v : Json) (e : Violation) : RefusesOnly (v.fieldsOr e) := by
  unfold fieldsOr
  split <;> simp

theorem Json.itemsOr_refusesOnly (v : Json) (e : Violation) : RefusesOnly (v.itemsOr e) := by
  unfold itemsOr
  split <;> simp

theorem Atom.ofJson?_refusesOnly (v : Json) : RefusesOnly (Atom.ofJson? v) :=
  (Json.fieldsOr_refusesOnly _ _).bind fun _ => (AtomDraft.build_refusesOnly _).unless

theorem Comparison.ofJson?_refusesOnly (fields : List (String × Json)) :
    RefusesOnly (Comparison.ofJson? (.obj fields)) := by
  have hkey : RefusesOnly ((Json.obj fields).hasKey "value") := refusesOnly_ok _
  exact hkey.bind fun _ => (ComparisonDraft.build_refusesOnly _).unless

/-- Only an object gets as far as the type of a clause. -/
theorem Clause.ofJson?_refusesOnly (v : Json) : RefusesOnly (Clause.ofJson? v) := by
  cases v with
  | obj fields =>
    rw [Clause.ofJson?_obj]
    split
    · exact (Atom.ofJson?_refusesOnly _).map _
    · split
      · exact (Comparison.ofJson?_refusesOnly fields).map _
      · exact refusesOnly_refuse _
  | _ => exact refusesOnly_refuse .clauseNotObject

theorem Head.ofJson?_refusesOnly (v : Json) : RefusesOnly (Head.ofJson? v) :=
  (Json.fieldsOr_refusesOnly _ _).bind fun _ => HeadDraft.build_refusesOnly _

theorem Rule.ofJson?_refusesOnly (v : Json) : RefusesOnly (Rule.ofJson? v) :=
  (Json.fieldsOr_refusesOnly _ _).bind fun _ => (Json.itemsOr_refusesOnly _ _).bind fun _ =>
  (Head.ofJson?_refusesOnly _).bind fun _ =>
  (refusesOnly_buildAll fun c _ => Clause.ofJson?_refusesOnly c).bind fun _ =>
  RuleDraft.build_refusesOnly (walk_list_refusesOnly _)

theorem Query.ofJson?_refusesOnly (v : Json) : RefusesOnly (Query.ofJson? v) :=
  (Json.fieldsOr_refusesOnly _ _).bind fun _ => (Json.itemsOr_refusesOnly _ _).bind fun _ =>
  (refusesOnly_buildAll fun a _ => Atom.ofJson?_refusesOnly a).bind fun _ =>
  QueryDraft.build_refusesOnly (walk_list_refusesOnly _)

/-- **A value is read as a program or breaks a rule of the program model.** -/
theorem Program.ofJson?_refusesOnly (v : Json) : RefusesOnly (Program.ofJson? v) :=
  (Json.fieldsOr_refusesOnly _ _).bind fun _ => (Json.itemsOr_refusesOnly _ _).bind fun _ =>
  (Json.itemsOr_refusesOnly _ _).bind fun _ =>
  (refusesOnly_buildAll fun r _ => Rule.ofJson?_refusesOnly r).bind fun _ =>
  (refusesOnly_buildAll fun q _ => Query.ofJson?_refusesOnly q).bind fun _ =>
  ProgramDraft.build_refusesOnly (walk_list_refusesOnly _) (walk_list_refusesOnly _)

end DatalogIntake

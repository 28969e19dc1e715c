import DatalogIntake.Proofs.Document.Grammar
import DatalogIntake.Proofs.Shape.Fitting
import DatalogIntake.Service.Program

/-!
# The grammar of answers

Which values have the shape of a program, member by member. All members are required but whether an
atom is negated and the type of an atom in a query; members that are not named are passed over.
Nothing is asked here of names, and a number need not be finite. The shape of a program lets through
what keeps to the grammar (`fits_programShape`). -/

namespace DatalogIntake

open Json

/-! ### The grammar -/

namespace Answer

/-- The members of an atom beside its type. -/
@[mk_iff]
structure AtomMembers (members : List (String × Json)) : Prop where
  predicate : Has "predicate" IsText members
  args : Has "args" (IsListOf IsScalar) members
  isNegated : MayHave "isNegated" IsFlag members

/-- The members of a comparison beside its type. -/
@[mk_iff]
structure ComparisonMembers (members : List (String × Json)) : Prop where
  left : Has "variable" IsText members
  operator : Has "operator" IsOperator members
  right : Has "value" IsScalar members

/-- An atom, whose type may be left out. -/
def IsAtom : Json → Prop :=
  IsObjectWith fun members => MayHave "type" (· = .str "atom") members ∧ AtomMembers members

/-- A clause: an atom or a comparison, as its type says. -/
def IsClause : Json → Prop :=
  IsObjectWith fun members =>
    (Has "type" (· = .str "atom") members ∧ AtomMembers members) ∨
      (Has "type" (· = .str "comparison") members ∧ ComparisonMembers members)

/-- The members of a head. -/
@[mk_iff]
structure HeadMembers (members : List (String × Json)) : Prop where
  predicate : Has "predicate" IsText members
  args : Has "headArguments" (IsListOf IsText) members

/-- A head. -/
def IsHead : Json → Prop := IsObjectWith HeadMembers

/-- The members of a rule. -/
@[mk_iff]
structure RuleMembers (members : List (String × Json)) : Prop where
  name : Has "name" IsText members
  goal : Has "naturalLanguageGoal" IsText members
  head : Has "ruleHead" IsHead members
  body : Has "ruleBody" (IsListOf IsClause) members

/-- A rule. -/
def IsRule : Json → Prop := IsObjectWith RuleMembers

/-- The members of a query. -/
@[mk_iff]
structure QueryMembers (members : List (String × Json)) : Prop where
  name : Has "name" IsText members
  description : Has "description" IsText members
  find : Has "find" (IsListOf IsText) members
  atoms : Has "where" (IsListOf IsAtom) members

/-- A query. -/
def IsQuery : Json → Prop := IsObjectWith QueryMembers

/-- The members of a program. -/
@[mk_iff]
structure ProgramMembers (members : List (String × Json)) : Prop where
  rules : Has "rules" (IsListOf IsRule) members
  queries : Has "queries" (IsListOf IsQuery) members

/-- A program. -/
def IsProgram : Json → Prop := IsObjectWith ProgramMembers

end Answer

/-! ### What fits -/

open Shape

theorem fits_operator :
    (Shape.choice (Operator.all.map Operator.symbol)).Fits = IsOperator := by
  rw [fits_choice]
  ext v
  rw [isOperator_iff]
  constructor
  · rintro ⟨w, hw, rfl⟩
    obtain ⟨o, -, rfl⟩ := List.mem_map.mp hw
    exact ⟨o, rfl⟩
  · rintro ⟨o, rfl⟩
    exact ⟨_, List.mem_map_of_mem (by cases o <;> decide), rfl⟩

theorem fit_atomFields {members : List (String × Json)} :
    atomFields.Fit members ↔
      MayHave "type" (· = .str "atom") members ∧ Answer.AtomMembers members := by
  have htag : (Shape.tag "atom").default?.isSome = true := rfl
  have hflag : Shape.flag.default?.isSome = true := rfl
  simp only [atomFields, Fields.fit_required, Fields.fit_default htag, Fields.fit_default hflag,
    fits_tag, fits_text, fits_list, fits_scalar, fits_flag, Fields.fit_none, and_true,
    Answer.atomMembers_iff]

theorem fit_comparisonFields {members : List (String × Json)} :
    comparisonFields.Fit members ↔
      Has "type" (· = .str "comparison") members ∧ Answer.ComparisonMembers members := by
  simp only [comparisonFields, Fields.fit_required, fits_tag, fits_text, fits_operator, fits_scalar,
    Fields.fit_none, and_true, Answer.comparisonMembers_iff]

theorem fits_atomShape : atomShape.Fits = Answer.IsAtom := by
  rw [atomShape, fits_record, Answer.IsAtom]
  congr 1
  ext members
  exact fit_atomFields

theorem fits_clauseShape : clauseShape.Fits = Answer.IsClause := by
  rw [clauseShape, fits_tagged, Answer.IsClause]
  congr 1
  ext members
  simp only [Branches.fit_branch, fit_atomFields, fit_comparisonFields, Branches.not_fit_none]
  constructor
  · rintro ⟨word, htype, hword⟩
    split_ifs at hword with hatom hcomparison
    · exact Or.inl ⟨hatom ▸ htype, hword.2⟩
    · exact Or.inr hword
  · rintro (⟨htype, hatom⟩ | ⟨htype, hcomparison⟩)
    · exact ⟨"atom", htype, by simp [hatom, htype.mayHave]⟩
    · exact ⟨"comparison", htype, by simp [hcomparison, htype]⟩

theorem fits_headShape : headShape.Fits = Answer.IsHead := by
  rw [headShape, fits_record, Answer.IsHead]
  congr 1
  ext members
  simp only [Fields.fit_required, fits_text, fits_list, Fields.fit_none, and_true,
    Answer.headMembers_iff]

theorem fits_ruleShape : ruleShape.Fits = Answer.IsRule := by
  rw [ruleShape, fits_record, Answer.IsRule]
  congr 1
  ext members
  simp only [Fields.fit_required, fits_text, fits_list, fits_headShape, fits_clauseShape,
    Fields.fit_none, and_true, Answer.ruleMembers_iff]

theorem fits_queryShape : queryShape.Fits = Answer.IsQuery := by
  rw [queryShape, fits_record, Answer.IsQuery]
  congr 1
  ext members
  simp only [Fields.fit_required, fits_text, fits_list, fits_atomShape, Fields.fit_none, and_true,
    Answer.queryMembers_iff]

/-- **The shape of a program lets through what keeps to the grammar.** -/
theorem fits_programShape : programShape.Fits = Answer.IsProgram := by
  rw [programShape, fits_record, Answer.IsProgram]
  congr 1
  ext members
  simp only [Fields.fit_required, fits_list, fits_ruleShape, fits_queryShape, Fields.fit_none,
    and_true, Answer.programMembers_iff]

end DatalogIntake

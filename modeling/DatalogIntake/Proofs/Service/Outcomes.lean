import DatalogIntake.Proofs.Service.Grammar
import DatalogIntake.Proofs.Service.Readings
import DatalogIntake.Proofs.Service.Refusals

/-!
# Outcomes of responses

A response is refused by the first of three layers that it does not pass: the reader of JSON, the
shape of a program, and the rules of the program model. What the last layer asks of an answer with
the right shape is a list of demands on its parts (`Answer.demands`), and that no two queries have
one name. An answer of the right shape says a program just when these are met
(`Answer.isSound_iff`).

* `programOfResponse?_outcomes`: which texts are refused by which layer, and what the others are
  read as. -/

namespace DatalogIntake

open Json

/-! ### What the program model asks of an answer -/

namespace Answer

/-- What the program model asks of a part of an answer. -/
inductive Demand where
  /-- A string that passes the test for names. -/
  | name (v : Json)
  /-- A term, whose number is finite if it is a double. -/
  | term (v : Json)
  /-- A string that is not empty. -/
  | nonemptyText (v : Json)
  /-- A list that is not empty. -/
  | nonemptyList (items : List Json)

/-- The part is as the program model asks. -/
def Demand.IsMet : Demand → Prop
  | .name v => v.IsName
  | .term v => v.IsTerm
  | .nonemptyText v => v.IsNonemptyText
  | .nonemptyList items => items ≠ []

/-- The demands on an atom: its predicate is a name, its arguments are terms. -/
def atomDemands (v : Json) : List Demand :=
  .name (v.member "predicate") :: (v.itemsAt "args").map .term

/-- The demands on a comparison: it has a variable, and its value is a term. -/
def comparisonDemands (v : Json) : List Demand :=
  [.nonemptyText (v.member "variable"), .term (v.member "value")]

/-- The demands on a clause, by its type. -/
def clauseDemands (v : Json) : List Demand :=
  if v.member "type" = .str "atom" then atomDemands v else comparisonDemands v

/-- The demands on a rule: it has a name, its head has one, and its body has clauses. -/
def ruleDemands (v : Json) : List Demand :=
  [.name (v.member "name"), .name ((v.member "ruleHead").member "predicate"),
    .nonemptyList (v.itemsAt "ruleBody")] ++ (v.itemsAt "ruleBody").flatMap clauseDemands

/-- The demands on a query: it has a name, asks for variables, and has atoms. -/
def queryDemands (v : Json) : List Demand :=
  [.name (v.member "name"), .nonemptyList (v.itemsAt "where")] ++
    ((v.itemsAt "find").map .nonemptyText ++ (v.itemsAt "where").flatMap atomDemands)

/-- The demands on a program are those on its rules and queries. -/
def demands (v : Json) : List Demand :=
  (v.itemsAt "rules").flatMap ruleDemands ++ (v.itemsAt "queries").flatMap queryDemands

/-- The names of the queries of an answer. -/
def queryNames (v : Json) : List Json :=
  (v.itemsAt "queries").map (Json.member "name")

/-- What the program model asks of an answer. -/
@[mk_iff isSound_def]
structure IsSound (v : Json) : Prop where
  demands : ∀ d ∈ demands v, d.IsMet
  distinct : (queryNames v).Nodup

theorem not_isSound_iff {v : Json} :
    ¬IsSound v ↔ (∃ d ∈ demands v, ¬d.IsMet) ∨ ¬(queryNames v).Nodup := by
  rw [isSound_def, not_and_or]
  simp only [not_forall, exists_prop]

/-! ### Members of answers -/

section Members

variable {members : List (String × Json)} {key : String} {v : Json}

theorem itemsAt_of_lookup {items : List Json} (h : lookup key members = some (.arr items)) :
    (Json.obj members).itemsAt key = items := by
  simp only [itemsAt, h]

theorem exists_items_of_has {P : Json → Prop} (h : Has key (IsListOf P) members) :
    ∃ items, lookup key members = some (.arr items) ∧ ∀ i ∈ items, P i := by
  obtain ⟨v, hv, hlist⟩ := h
  cases v with
  | arr items => exact ⟨items, hv, hlist⟩
  | _ => exact hlist.elim

theorem has_of_lookup {P : Json → Prop} (h : lookup key members = some v) :
    Has key P members ↔ P v := by
  simp [Has, h]

/-- Items of which each says something say a list. -/
theorem exists_forall₂_iff {α : Type} {R : α → Json → Prop} {items : List Json} :
    (∃ as, List.Forall₂ (fun v a => R a v) items as) ↔ ∀ i ∈ items, ∃ a, R a i := by
  induction items with
  | nil => simp
  | cons i rest ih =>
    simp only [List.forall₂_cons_left_iff, List.forall_mem_cons, ← ih]
    constructor
    · rintro ⟨_, a, as, ha, has, -⟩
      exact ⟨⟨a, ha⟩, as, has⟩
    · rintro ⟨⟨a, ha⟩, as, has⟩
      exact ⟨a :: as, a, as, ha, has, rfl⟩

end Members

/-! ### Atoms and comparisons -/

theorem atomMembers_met_iff {members : List (String × Json)} (h : AtomMembers members) :
    (∀ d ∈ atomDemands (.obj members), d.IsMet) ↔ ∃ a, AtomMembersSay a members := by
  obtain ⟨⟨predicate, hpredicate, -⟩, hargs, hnegated⟩ := h
  obtain ⟨items, hargs, -⟩ := exists_items_of_has hargs
  obtain ⟨b, hb⟩ : (fieldOr "isNegated" (.bool false) members).IsFlag :=
    (mayHave_iff ⟨false, rfl⟩).mp hnegated
  have hterms : (∀ i ∈ items, i.IsTerm) ↔ ∃ ts : List Term, items = ts.map Term.toJson :=
    forall_encoded_iff fun _ => isTerm_iff
  simp only [atomDemands, member_of_lookup hpredicate, itemsAt_of_lookup hargs,
    List.forall_mem_cons, List.forall_mem_map, Demand.IsMet, hterms, isName_iff,
    atomMembersSay_iff, has_of_lookup hpredicate, has_of_lookup hargs, Json.arr.injEq]
  constructor
  · rintro ⟨⟨name, hname⟩, ts, hts⟩
    exact ⟨⟨name, ts, b⟩, hname, hts, hb⟩
  · rintro ⟨a, hname, hts, -⟩
    exact ⟨⟨_, hname⟩, _, hts⟩

theorem comparisonMembers_met_iff {members : List (String × Json)} (h : ComparisonMembers members) :
    (∀ d ∈ comparisonDemands (.obj members), d.IsMet) ↔ ∃ c, ComparisonMembersSay c members := by
  obtain ⟨⟨left, hleft, -⟩, ⟨operator, hoperator, ho⟩, ⟨right, hright, -⟩⟩ := h
  obtain ⟨o, rfl⟩ := isOperator_iff.mp ho
  simp only [comparisonDemands, member_of_lookup hleft, member_of_lookup hright,
    List.forall_mem_cons, List.not_mem_nil, false_implies, implies_true, and_true, Demand.IsMet,
    isNonemptyText_iff, isTerm_iff, comparisonMembersSay_iff, has_of_lookup hleft,
    has_of_lookup hoperator, has_of_lookup hright]
  constructor
  · rintro ⟨⟨s, hne, hs⟩, t, ht⟩
    exact ⟨⟨s, o, t, hne⟩, hs, rfl, ht⟩
  · rintro ⟨c, hs, -, ht⟩
    exact ⟨⟨_, c.left_ne, hs⟩, _, ht⟩

theorem atom_met_iff {v : Json} (h : IsAtom v) :
    (∀ d ∈ atomDemands v, d.IsMet) ↔ ∃ a, SaysAtom a v := by
  cases v with
  | obj members =>
    rw [atomMembers_met_iff h.2]
    exact exists_congr fun a => (and_iff_right h.1).symm
  | _ => exact h.elim

theorem clause_met_iff {v : Json} (h : IsClause v) :
    (∀ d ∈ clauseDemands v, d.IsMet) ↔ ∃ c, SaysClause c v := by
  cases v with
  | obj members =>
    rcases h with ⟨htype, hatom⟩ | ⟨htype, hcomparison⟩
    · have htag : (Json.obj members).member "type" = .str "atom" := (has_iff (by simp)).mp htype
      rw [clauseDemands, if_pos htag, atomMembers_met_iff hatom]
      constructor
      · rintro ⟨a, ha⟩
        exact ⟨.atom a, htype, ha⟩
      · rintro ⟨c, hc⟩
        cases c with
        | atom a => exact ⟨a, hc.2⟩
        | comparison c =>
          have hword : field "type" members = .str "comparison" := (has_iff (by simp)).mp hc.1
          exact absurd (htag.symm.trans hword) (by simp)
    · have htag : (Json.obj members).member "type" = .str "comparison" :=
        (has_iff (by simp)).mp htype
      rw [clauseDemands, htag, if_neg (by simp), comparisonMembers_met_iff hcomparison]
      constructor
      · rintro ⟨c, hc⟩
        exact ⟨.comparison c, htype, hc⟩
      · rintro ⟨c, hc⟩
        cases c with
        | atom a =>
          have hword : field "type" members = .str "atom" := (has_iff (by simp)).mp hc.1
          exact absurd (htag.symm.trans hword) (by simp)
        | comparison c => exact ⟨c, hc.2⟩
  | _ => exact h.elim

/-! ### Rules and queries -/

theorem items_met_iff {α : Type} {R : α → Json → Prop} {demandsOf : Json → List Demand}
    {items : List Json} (h : ∀ i ∈ items, ((∀ d ∈ demandsOf i, d.IsMet) ↔ ∃ a, R a i)) :
    (∀ d ∈ items.flatMap demandsOf, d.IsMet) ↔
      ∃ as, List.Forall₂ (fun v a => R a v) items as := by
  rw [List.forall_mem_flatMap, exists_forall₂_iff]
  exact forall₂_congr h

theorem isListOf_text_iff {v : Json} :
    IsListOf IsText v ↔ ∃ l : List String, v = .arr (l.map .str) :=
  isListOf_encoded_iff fun _ => isText_iff

theorem head_met_iff {v : Json} (h : IsHead v) :
    (v.member "predicate").IsName ↔ ∃ head, SaysHead head v := by
  cases v with
  | obj members =>
    obtain ⟨⟨predicate, hpredicate, -⟩, ⟨args, hargs, ha⟩⟩ := h
    obtain ⟨texts, rfl⟩ := isListOf_text_iff.mp ha
    simp only [member_of_lookup hpredicate, isName_iff, SaysHead, IsObjectWith,
      headMembersSay_iff, has_of_lookup hpredicate, has_of_lookup hargs]
    constructor
    · rintro ⟨name, hname⟩
      exact ⟨⟨name, texts⟩, hname, rfl⟩
    · rintro ⟨head, hname, -⟩
      exact ⟨_, hname⟩
  | _ => exact h.elim

theorem rule_met_iff {v : Json} (h : IsRule v) :
    (∀ d ∈ ruleDemands v, d.IsMet) ↔ ∃ r, SaysRule r v := by
  cases v with
  | obj members =>
    obtain ⟨⟨name, hname, -⟩, ⟨goal, hgoal, hg⟩, ⟨head, hhead, hh⟩, hbody⟩ := h
    obtain ⟨goal, rfl⟩ := isText_iff.mp hg
    obtain ⟨items, hbody, hclauses⟩ := exists_items_of_has hbody
    have hitems := items_met_iff fun i hi => clause_met_iff (hclauses i hi)
    simp only [ruleDemands, member_of_lookup hname, member_of_lookup hhead, itemsAt_of_lookup hbody,
      List.cons_append, List.nil_append, List.forall_mem_cons, hitems]
    simp only [Demand.IsMet, head_met_iff hh, isName_iff, SaysRule, IsObjectWith,
      ruleMembersSay_iff, has_of_lookup hname, has_of_lookup hgoal, has_of_lookup hhead,
      has_of_lookup hbody, SaysList]
    constructor
    · rintro ⟨⟨name, hname⟩, ⟨head, hhead⟩, hne, body, hbody⟩
      refine ⟨⟨name, goal, head, body, ?_⟩, hname, rfl, hhead, hbody⟩
      rintro rfl
      exact hne (List.forall₂_nil_right_iff.mp hbody)
    · rintro ⟨r, hname, -, hhead, hbody⟩
      refine ⟨⟨_, hname⟩, ⟨_, hhead⟩, ?_, _, hbody⟩
      rintro rfl
      exact r.body_ne (List.forall₂_nil_left_iff.mp hbody)
  | _ => exact h.elim

theorem query_met_iff {v : Json} (h : IsQuery v) :
    (∀ d ∈ queryDemands v, d.IsMet) ↔ ∃ q, SaysQuery q v := by
  cases v with
  | obj members =>
    obtain ⟨⟨name, hname, -⟩, ⟨description, hdescription, hd⟩, hfind, hatoms⟩ := h
    obtain ⟨description, rfl⟩ := isText_iff.mp hd
    obtain ⟨asked, hfind, -⟩ := exists_items_of_has hfind
    obtain ⟨items, hatoms, hwhere⟩ := exists_items_of_has hatoms
    have hitems := items_met_iff fun i hi => atom_met_iff (hwhere i hi)
    have hasked : (∀ d ∈ asked.map Demand.nonemptyText, d.IsMet) ↔
        ∃ l : List String, (∀ s ∈ l, s ≠ "") ∧ asked = l.map .str :=
      List.forall_mem_map.trans areNonemptyTexts_iff
    simp only [queryDemands, member_of_lookup hname, itemsAt_of_lookup hfind,
      itemsAt_of_lookup hatoms, List.cons_append, List.nil_append, List.forall_mem_cons,
      List.forall_mem_append, hitems, hasked]
    simp only [Demand.IsMet, isName_iff, SaysQuery, IsObjectWith, queryMembersSay_iff,
      has_of_lookup hname, has_of_lookup hdescription, has_of_lookup hfind, has_of_lookup hatoms,
      SaysList, Json.arr.injEq]
    constructor
    · rintro ⟨⟨name, hname⟩, hne, ⟨find, hfind_ne, hfind⟩, atoms, hatoms⟩
      refine ⟨⟨name, description, find, atoms, ?_, hfind_ne⟩, hname, rfl, hfind, hatoms⟩
      rintro rfl
      exact hne (List.forall₂_nil_right_iff.mp hatoms)
    · rintro ⟨q, hname, -, hfind, hatoms⟩
      refine ⟨⟨_, hname⟩, ?_, ⟨_, q.find_ne, hfind⟩, _, hatoms⟩
      rintro rfl
      exact q.atoms_ne (List.forall₂_nil_left_iff.mp hatoms)
  | _ => exact h.elim

/-! ### Programs -/

theorem SaysQuery.member_name {q : Query} {v : Json} (h : SaysQuery q v) :
    v.member "name" = .str q.name.text := by
  cases v with
  | obj members =>
    obtain ⟨_, hname, rfl⟩ := h.name
    exact field_of_lookup hname
  | _ => exact h.elim

/-- **An answer of the right shape that is as the program model asks says a program.** -/
theorem isSound_iff {v : Json} (h : IsProgram v) : IsSound v ↔ ∃ p, SaysProgram p v := by
  cases v with
  | obj members =>
    obtain ⟨hrules, hqueries⟩ := h
    obtain ⟨ruleItems, hrules, hr⟩ := exists_items_of_has hrules
    obtain ⟨queryItems, hqueries, hq⟩ := exists_items_of_has hqueries
    have hruleItems := items_met_iff fun i hi => rule_met_iff (hr i hi)
    have hqueryItems := items_met_iff fun i hi => query_met_iff (hq i hi)
    simp only [isSound_def, demands, queryNames, itemsAt_of_lookup hrules,
      itemsAt_of_lookup hqueries, List.forall_mem_append, hruleItems, hqueryItems, SaysProgram,
      IsObjectWith, programMembersSay_iff, has_of_lookup hrules, has_of_lookup hqueries, SaysList]
    constructor
    · rintro ⟨⟨⟨rules, hrules⟩, queries, hqueries⟩, hdistinct⟩
      have hnodup := (Document.names_nodup_iff (fun _ _ => SaysQuery.member_name) hqueries).mp hdistinct
      exact ⟨⟨rules, queries, hnodup⟩, hrules, hqueries⟩
    · rintro ⟨p, hrules, hqueries⟩
      have hdistinct :=
        (Document.names_nodup_iff (fun _ _ => SaysQuery.member_name) hqueries).mpr p.names_nodup
      exact ⟨⟨⟨_, hrules⟩, _, hqueries⟩, hdistinct⟩
  | _ => exact h.elim

theorem exists_check_iff {v : Json} : (∃ a, programShape.check v = .ok a) ↔ IsProgram v :=
  iff_of_eq (congrFun fits_programShape v)

theorem SaysProgram.isProgram {p : Program} {v : Json} (h : SaysProgram p v) : IsProgram v :=
  exists_check_iff.mp ⟨p.toAnswer, (check_programShape p v).mpr h⟩

end Answer

/-! ### Responses -/

section Responses

variable {room : Nat} {text : String} {answer : Json}

theorem programOfResponse?_of_faults {faults : Faults} (htext : Json.ofText? room text = .ok answer)
    (hcheck : programShape.check answer = .error faults) :
    programOfResponse? room text = .error (.misshapen .program faults) := by
  simp [programOfResponse?, readResponse, htext, hcheck, bind, Except.bind]

theorem programOfResponse?_of_check {a : programShape.Carrier}
    (htext : Json.ofText? room text = .ok answer) (hcheck : programShape.check answer = .ok a) :
    programOfResponse? room text = (programOfAnswer? a).mapError .invalid := by
  simp [programOfResponse?, readResponse, htext, hcheck, bind, Except.bind]

/-- The text of a value is refused for its shape just when the value fails the check. -/
theorem programOfResponse?_misshapen_iff (htext : Json.ofText? room text = .ok answer) :
    (∃ faults, programOfResponse? room text = .error (.misshapen .program faults)) ↔
      ¬∃ a, programShape.check answer = .ok a := by
  cases hcheck : programShape.check answer with
  | ok a =>
    rw [programOfResponse?_of_check htext hcheck]
    refine iff_of_false ?_ (by simp)
    rintro ⟨faults, herror⟩
    cases hbuild : programOfAnswer? a <;> simp [hbuild, Except.mapError] at herror
  | error faults => exact iff_of_true ⟨faults, programOfResponse?_of_faults htext hcheck⟩ (by simp)

/-- The text of a value is read as the program that the value says. -/
theorem programOfResponse?_eq_ok {p : Program} (htext : Json.ofText? room text = .ok answer) :
    programOfResponse? room text = .ok p ↔ Answer.SaysProgram p answer := by
  rw [← check_programShape]
  cases hcheck : programShape.check answer with
  | error faults => simp [programOfResponse?_of_faults htext hcheck]
  | ok a =>
    rw [programOfResponse?_of_check htext hcheck, Except.ok.injEq, ← programOfAnswer?_eq_ok]
    cases programOfAnswer? a <;> simp [Except.mapError]

/-- A text is refused by the reader just when it is not JSON, unless it goes beyond a limit. -/
theorem programOfResponse?_unreadable_iff (h : ¬Overruns room text.toList) :
    (∃ cause place, programOfResponse? room text = .error (.unreadable cause place)) ↔
      ¬∃ v, Json.ofText? room text = .ok v := by
  cases htext : Json.ofText? room text with
  | ok answer =>
    refine iff_of_false ?_ (by simp)
    rintro ⟨cause, place, herror⟩
    cases hcheck : programShape.check answer with
    | error faults =>
      rw [programOfResponse?_of_faults htext hcheck] at herror
      cases herror
    | ok a =>
      rw [programOfResponse?_of_check htext hcheck] at herror
      cases hbuild : programOfAnswer? a <;> simp [hbuild, Except.mapError] at herror
  | error e =>
    cases e with
    | malformed cause place =>
      refine iff_of_true ⟨cause, place, ?_⟩ (by simp)
      simp [programOfResponse?, readResponse, htext, bind, Except.bind]
    | overrun e => exact absurd ⟨e, htext⟩ h

theorem programOfResponse?_of_isProgram (htext : Json.ofText? room text = .ok answer)
    (h : Answer.IsProgram answer) :
    (∃ p, programOfResponse? room text = .ok p) ∨
      ∃ e, programOfResponse? room text = .error (.invalid (.violation e)) := by
  obtain ⟨a, hcheck⟩ := Answer.exists_check_iff.mpr h
  rw [programOfResponse?_of_check htext hcheck]
  rcases (programOfAnswer?_refusesOnly a).cases with ⟨p, hp⟩ | ⟨e, he⟩
  · exact Or.inl ⟨p, by simp [hp, Except.mapError]⟩
  · exact Or.inr ⟨e, by simp [he, Except.mapError]⟩

/-- The text of a value is read just when the value has the right shape and is as the program model
asks. -/
theorem programOfResponse?_read_iff (htext : Json.ofText? room text = .ok answer) :
    (∃ p, programOfResponse? room text = .ok p) ↔
      Answer.IsProgram answer ∧ Answer.IsSound answer := by
  simp only [programOfResponse?_eq_ok htext]
  constructor
  · rintro ⟨p, hp⟩
    exact ⟨hp.isProgram, (Answer.isSound_iff hp.isProgram).mpr ⟨p, hp⟩⟩
  · rintro ⟨hprogram, hsound⟩
    exact (Answer.isSound_iff hprogram).mp hsound

/-- The text of a value is refused for a broken rule just when the value has the right shape, but is
not as the program model asks. -/
theorem programOfResponse?_invalid_iff (htext : Json.ofText? room text = .ok answer) :
    (∃ e, programOfResponse? room text = .error (.invalid (.violation e))) ↔
      Answer.IsProgram answer ∧ ¬Answer.IsSound answer := by
  constructor
  · rintro ⟨e, he⟩
    have hprogram : Answer.IsProgram answer := by
      by_contra hnot
      rw [← Answer.exists_check_iff, ← programOfResponse?_misshapen_iff htext] at hnot
      obtain ⟨faults, hfaults⟩ := hnot
      cases he.symm.trans hfaults
    refine ⟨hprogram, fun hsound => ?_⟩
    obtain ⟨p, hp⟩ := (programOfResponse?_read_iff htext).mpr ⟨hprogram, hsound⟩
    cases he.symm.trans hp
  · rintro ⟨hprogram, hnot⟩
    exact (programOfResponse?_of_isProgram htext hprogram).resolve_left
      fun hok => hnot ((programOfResponse?_read_iff htext).mp hok).2

end Responses

/-- **Which responses are refused by which layer, and what the others are read as.** A text that
goes beyond no limit of the reader, such as one without long integer literals that nests no deeper
than there is room for (`not_overruns`), is refused by it just when it is not JSON. The text of a
value is refused for its shape, with at least one fault, just when the value does not keep to the
grammar of answers; for a broken rule just when it keeps to the grammar, but a demand on one of its
parts is not met or two queries have one name; and in all other cases it is read as the program that
the value says. -/
theorem programOfResponse?_outcomes {room : Nat} {text : String}
    (h : ¬Overruns room text.toList) :
    ((∃ cause place, programOfResponse? room text = .error (.unreadable cause place)) ↔
      ¬∃ v, Json.ofText? room text = .ok v) ∧
    ∀ v, Json.ofText? room text = .ok v →
      ((∃ faults, 0 < faults.count ∧
          programOfResponse? room text = .error (.misshapen .program faults)) ↔
        ¬Answer.IsProgram v) ∧
      ((∃ e, programOfResponse? room text = .error (.invalid (.violation e))) ↔
        Answer.IsProgram v ∧
          ((∃ d ∈ Answer.demands v, ¬d.IsMet) ∨ ¬(Answer.queryNames v).Nodup)) ∧
      ((∃ p, programOfResponse? room text = .ok p) ↔ Answer.IsProgram v ∧ Answer.IsSound v) ∧
      ∀ p, programOfResponse? room text = .ok p ↔ Answer.SaysProgram p v := by
  refine ⟨programOfResponse?_unreadable_iff h, fun v htext => ⟨?_, ?_,
    programOfResponse?_read_iff htext, fun p => programOfResponse?_eq_ok htext⟩⟩
  · simp only [Faults.count_pos, true_and, programOfResponse?_misshapen_iff htext,
      Answer.exists_check_iff]
  · rw [← Answer.not_isSound_iff]
    exact programOfResponse?_invalid_iff htext

/-- An answer that makes use of what the shape leaves open: the words for a negation, the type of an
atom in a query, members that are not named. -/
def laxAnswer : Json :=
  .obj [
    ("rules", .arr [.obj [
      ("name", .str "cheap_hotels"), ("naturalLanguageGoal", .str ""),
      ("ruleHead", .obj [("predicate", .str "cheap"), ("headArguments", .arr [.str "hotel"])]),
      ("ruleBody", .arr [
        .obj [("type", .str "atom"), ("predicate", .str "hotel_price"),
          ("args", .arr [.str "?hotel", .str "?price", .bool true]), ("isNegated", .str "Off")],
        .obj [("type", .str "comparison"), ("variable", .str "price"), ("operator", .str "<"),
          ("value", .int 2)]])]]),
    ("queries", .arr [.obj [
      ("name", .str "find_others"), ("description", .str ""), ("find", .arr [.str "hotel"]),
      ("note", .null),
      ("where", .arr [.obj [("predicate", .str "cheap"), ("args", .arr [.str "?hotel"]),
        ("isNegated", .int 1)]])]])]

/-- The program that the answer says. -/
def laxProgram : Program where
  rules := [{
    name := ⟨"cheap_hotels", by decide⟩
    goal := ""
    head := ⟨⟨"cheap", by decide⟩, ["hotel"]⟩
    body := [
      .atom ⟨⟨"hotel_price", by decide⟩, [.text "?hotel", .text "?price", .bool true], false⟩,
      .comparison ⟨"price", .less, .int 2, by decide⟩]
    body_ne := List.cons_ne_nil _ _
  }]
  queries := [⟨⟨"find_others", by decide⟩, "", ["hotel"],
    [⟨⟨"cheap", by decide⟩, [.text "?hotel"], true⟩], List.cons_ne_nil _ _,
    List.forall_mem_singleton.mpr (by decide)⟩]
  names_nodup := List.nodup_singleton _

set_option maxRecDepth 10000 in
theorem programOfResponse?_outcomes_lax :
    let text := laxAnswer.toText .line
    ¬Overruns 20 text.toList ∧ Json.ofText? 20 text = .ok laxAnswer ∧
      Answer.IsProgram laxAnswer ∧ Answer.IsSound laxAnswer ∧
      programOfResponse? 20 text = .ok laxProgram := by
  intro text
  have hread : Json.ofText? 20 text = .ok laxAnswer := by
    refine Json.ofText?_toText ?_ .line
    simp [laxAnswer, IsReadable, AreReadable, HaveReadable]
    decide
  have hlimits : ¬Overruns 20 text.toList := by
    rw [show text.toList = Json.write .line 0 laxAnswer from String.toList_ofList]
    exact not_overruns_of_length_le (by decide +kernel) (by decide +kernel)
  obtain ⟨-, hvalue⟩ := programOfResponse?_outcomes hlimits
  obtain ⟨-, -, hok, hspoken⟩ := hvalue laxAnswer hread
  have hprogram := (hspoken laxProgram).mpr ((check_programShape _ _).mp rfl)
  obtain ⟨hfits, hsound⟩ := hok.mp ⟨_, hprogram⟩
  exact ⟨hlimits, hread, hfits, hsound, hprogram⟩

/-- An array in an array, and so on. -/
def nestedArrays : Nat → Json
  | 0 => .arr []
  | n + 1 => .arr [nestedArrays n]

theorem isReadable_nestedArrays {n room : Nat} : (nestedArrays n).IsReadable room ↔ n < room := by
  induction n generalizing room with
  | zero => cases room <;> simp [nestedArrays, IsReadable, AreReadable]
  | succ n ih => cases room <;> simp [nestedArrays, IsReadable, AreReadable, ih]

/-- A program without rules and queries, with nested arrays in a member that the shape does not
declare. -/
def deepAnswer (n : Nat) : Json :=
  .obj [("rules", .arr []), ("queries", .arr []), ("seed", nestedArrays n)]

theorem isReadable_deepAnswer {n room : Nat} :
    (deepAnswer n).IsReadable room ↔ n + 1 < room := by
  cases room with
  | zero => simp [deepAnswer, IsReadable]
  | succ room =>
    cases room with
    | zero => simp [deepAnswer, IsReadable, HaveReadable]
    | succ room =>
      simp [deepAnswer, IsReadable, HaveReadable, AreReadable, isReadable_nestedArrays]

/-- **Nesting can escape from a reading.** A program without rules and queries that has 20000 nested
arrays in a member that the shape does not declare is read where there is room for them. Where there
is room for 990 containers the reading ends with an error that is no refusal. -/
theorem programOfResponse?_deep :
    let text := (deepAnswer 19999).toText .line
    Json.ofText? 20001 text = .ok (deepAnswer 19999) ∧
      Answer.IsProgram (deepAnswer 19999) ∧ Answer.IsSound (deepAnswer 19999) ∧
      (∃ p, programOfResponse? 20001 text = .ok p) ∧
      (∃ container, programOfResponse? 990 text = .error (.overrun (.deepNesting container))) ∧
      ¬IsKnown (programOfResponse? 990 text) := by
  intro text
  have hroom : (deepAnswer 19999).IsReadable 20001 := isReadable_deepAnswer.mpr (by decide)
  have hdeep : ¬(deepAnswer 19999).IsReadable 990 := fun h =>
    absurd (isReadable_deepAnswer.mp h) (by decide)
  have hread : Json.ofText? 20001 text = .ok (deepAnswer 19999) := Json.ofText?_toText hroom .line
  have hsays : Answer.SaysProgram ⟨[], [], List.nodup_nil⟩ (deepAnswer 19999) :=
    ⟨⟨_, rfl, .nil⟩, ⟨_, rfl, .nil⟩⟩
  have hprogram := (programOfResponse?_eq_ok hread).mpr hsays
  obtain ⟨container, hstop⟩ := Json.ofText?_toText_deep hroom hdeep .line
  have hescape := programOfResponse?_eq_overrun_iff.mpr hstop
  obtain ⟨hfits, hsound⟩ := (programOfResponse?_read_iff hread).mp ⟨_, hprogram⟩
  exact ⟨hread, hfits, hsound, ⟨_, hprogram⟩, ⟨container, hescape⟩,
    fun h => h.ne_overrun _ hescape⟩

end DatalogIntake

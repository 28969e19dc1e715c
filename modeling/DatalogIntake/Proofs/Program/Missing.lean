import DatalogIntake.Proofs.Program.Safety
import Mathlib.Data.List.Induction

/-!
# Missing variables

A rule misses the variables of its head that its body does not bind, and a query those that it asks
for and its atoms do not have. Both lists come from a pass over entries that are written with the
marker or without it: the name of an entry goes to the end of the list unless it is bound or in the
list already. With one entry more the list is still that of the missing names
(`ListsMissing.concat`), so the pass gives that list (`listsMissing_collect`), and there is only
one. A name is bound by an argument that is the marker and the name (`Atom.mem_variableNames_iff`),
and an entry asks for the same name with the marker as without it (`Variable.Marks.bare_eq`).

* `missingVariables_exact`: the lists of every rule and every query. -/

namespace DatalogIntake

/-! ### Entries one after the other -/

/-- What an entry adds to the names that are missing. -/
def collectMissing (bound missing : List String) (entry : String) : List String :=
  if Variable.bare entry ∈ bound ∨ Variable.bare entry ∈ missing then missing
  else missing ++ [Variable.bare entry]

/-- **One name more keeps the list of missing names exact.** -/
theorem ListsMissing.concat {bound names missing : List String}
    (h : ListsMissing (· ∈ bound) names missing) (x : String) :
    ListsMissing (· ∈ bound) (names ++ [x])
      (if x ∈ bound ∨ x ∈ missing then missing else missing ++ [x]) := by
  have hnames : ∀ y ∈ missing, y ∈ names := fun y hy => ((h.mem_iff y).mp hy).1
  have hordered : missing.Pairwise fun y z =>
      (names ++ [x]).idxOf y < (names ++ [x]).idxOf z := by
    refine h.ordered.imp_of_mem fun hy hz hlt => ?_
    rwa [List.idxOf_append_of_mem (hnames _ hy), List.idxOf_append_of_mem (hnames _ hz)]
  by_cases hx : x ∈ bound ∨ x ∈ missing
  · rw [if_pos hx]
    refine ⟨fun y => ?_, hordered⟩
    rw [h.mem_iff, List.mem_append, List.mem_singleton]
    refine ⟨fun hy => ⟨Or.inl hy.1, hy.2⟩, fun hy => ⟨?_, hy.2⟩⟩
    rcases hy.1 with hmem | rfl
    · exact hmem
    · exact hnames y (hx.resolve_left hy.2)
  · obtain ⟨hbound, hmissing⟩ := not_or.mp hx
    have hnew : x ∉ names := fun hmem => hmissing ((h.mem_iff x).mpr ⟨hmem, hbound⟩)
    rw [if_neg hx]
    refine ⟨fun y => ?_, ?_⟩
    · rw [List.mem_append, List.mem_append, List.mem_singleton, h.mem_iff]
      constructor
      · rintro (⟨hmem, hy⟩ | rfl)
        · exact ⟨Or.inl hmem, hy⟩
        · exact ⟨Or.inr rfl, hbound⟩
      · rintro ⟨hmem | rfl, hy⟩
        · exact Or.inl ⟨hmem, hy⟩
        · exact Or.inr rfl
    · refine List.pairwise_append.mpr ⟨hordered, List.pairwise_singleton _ _, fun y hy z hz => ?_⟩
      -- The new name comes up behind all others.
      obtain rfl := List.mem_singleton.mp hz
      rw [List.idxOf_append_of_mem (hnames y hy), List.idxOf_append_of_notMem hnew]
      exact Nat.lt_add_right _ (List.idxOf_lt_length_of_mem (hnames y hy))

/-- **A pass over entries lists the names that are missing.** -/
theorem listsMissing_collect (bound entries : List String) :
    ListsMissing (· ∈ bound) (entries.map Variable.bare)
      (entries.foldl (collectMissing bound) []) := by
  induction entries using List.reverseRecOn with
  | nil => exact ⟨by simp, List.Pairwise.nil⟩
  | append_singleton entries entry ih =>
    rw [List.map_append, List.foldl_append]
    exact ih.concat (Variable.bare entry)

theorem missingNames_eq_foldl (bound entries : List String) :
    missingNames bound (entries.map Variable.bare) = entries.foldl (collectMissing bound) [] :=
  (listsMissing_missingNames bound _).unique (listsMissing_collect bound entries)

/-! ### Names and markers -/

/-- Two ways to write an entry: as it is, or with the marker where it has none. -/
def Variable.Marks (v w : String) : Prop := w = v ∨ Variable.isMarked v = false ∧ w = "?" ++ v

instance (v w : String) : Decidable (Variable.Marks v w) :=
  inferInstanceAs (Decidable (w = v ∨ Variable.isMarked v = false ∧ w = "?" ++ v))

theorem Term.variableName?_eq_some_iff {t : Term} {x : String} :
    t.variableName? = some x ↔ t = .text ("?" ++ x) := by
  have hmark : ∀ s, s = "?" ++ x ↔ s.toList = '?' :: x.toList := fun s => by
    rw [← String.toList_inj, String.toList_append]
    rfl
  cases t with
  | text s =>
    rw [variableName?, Term.text.injEq, hmark]
    by_cases hs : Variable.isMarked s = true
    · rw [if_pos hs, Variable.toList_of_isMarked hs]
      simp [String.toList_inj]
    · have hne : s.toList ≠ '?' :: x.toList := fun e => hs (by
        rw [Variable.isMarked, e]
        rfl)
      rw [if_neg hs]
      exact iff_of_false (by simp) hne
  | int n => simp [variableName?]
  | double x => simp [variableName?]
  | bool b => simp [variableName?]

/-- The variable of a name, marker and all, is an argument of an atom. -/
def Atom.Mentions (a : Atom) (x : String) : Prop := Term.text ("?" ++ x) ∈ a.args

theorem Atom.mem_variableNames_iff {a : Atom} {x : String} :
    x ∈ a.variableNames ↔ a.Mentions x := by
  simp [Mentions, variableNames, List.mem_filterMap, Term.variableName?_eq_some_iff]

theorem Variable.Marks.bare_eq {v w : String} (h : Variable.Marks v w) :
    Variable.bare w = Variable.bare v := by
  rcases h with rfl | ⟨hv, rfl⟩
  · rfl
  · have hmark : "?" ++ v = String.ofList (marker :: v.toList) := by
      rw [← String.toList_inj]
      simp [marker]
    rw [hmark, bare_mark, bare_of_not_isMarked hv]

theorem map_bare_of_marks {l m : List String} (h : List.Forall₂ Variable.Marks l m) :
    m.map Variable.bare = l.map Variable.bare := by
  induction h with
  | nil => rfl
  | cons hv _ ih => rw [List.map_cons, List.map_cons, hv.bare_eq, ih]

/-! ### Rules and queries -/

/-- A rule provides the variables of its atoms that are not negated. -/
def Rule.Provides (r : Rule) (x : String) : Prop :=
  ∃ a, Clause.atom a ∈ r.body ∧ a.isNegated = false ∧ a.Mentions x

/-- A query provides the variables of its atoms, negated or not. -/
def Query.Provides (q : Query) (x : String) : Prop := ∃ a ∈ q.atoms, a.Mentions x

theorem Rule.provides_eq (r : Rule) : (· ∈ r.boundVariables) = r.Provides := by
  funext x
  rw [mem_boundVariables]
  simp only [Binds, Provides, ← Atom.mem_variableNames, Atom.mem_variableNames_iff]

theorem Query.provides_eq (q : Query) :
    (· ∈ q.atoms.flatMap Atom.variableNames) = q.Provides := by
  funext x
  simp only [List.mem_flatMap, Provides, Atom.mem_variableNames_iff]

/-- **The lists of missing variables are exact**, for every rule and every query. A pass over the
entries collects the list. No name comes twice in it, and its names are those of the entries, with
the marker off, that the rule or the query does not provide, in the order in which they come up
first. Where entries without the marker are given one, the list stays the same. -/
theorem missingVariables_exact :
    (∀ r : Rule,
      r.unboundHeadVariables = r.head.args.foldl (collectMissing r.boundVariables) [] ∧
      r.unboundHeadVariables.Nodup ∧
      ListsMissing r.Provides (r.head.args.map Variable.bare) r.unboundHeadVariables ∧
      ∀ r' : Rule, r'.body = r.body → List.Forall₂ Variable.Marks r.head.args r'.head.args →
        r'.unboundHeadVariables = r.unboundHeadVariables) ∧
    ∀ q : Query,
      q.unboundVariables =
        q.find.foldl (collectMissing (q.atoms.flatMap Atom.variableNames)) [] ∧
      q.unboundVariables.Nodup ∧
      ListsMissing q.Provides (q.find.map Variable.bare) q.unboundVariables ∧
      ∀ q' : Query, q'.atoms = q.atoms → List.Forall₂ Variable.Marks q.find q'.find →
        q'.unboundVariables = q.unboundVariables := by
  refine ⟨fun r => ⟨missingNames_eq_foldl _ _, missingNames_nodup _ _, ?_, ?_⟩,
    fun q => ⟨missingNames_eq_foldl _ _, missingNames_nodup _ _, ?_, ?_⟩⟩
  · rw [← r.provides_eq]
    exact listsMissing_missingNames _ _
  · intro r' hbody hmarks
    rw [Rule.unboundHeadVariables, Rule.boundVariables, hbody, map_bare_of_marks hmarks]
    rfl
  · rw [← q.provides_eq]
    exact listsMissing_missingNames _ _
  · intro q' hatoms hmarks
    rw [Query.unboundVariables, hatoms, map_bare_of_marks hmarks]
    rfl

/-- A rule with a literal that is spelled as a variable, and a variable that only a negated atom
has. -/
def spellingRule (args : List String) : Rule where
  name := ⟨"vacant", by decide⟩
  goal := ""
  head := ⟨⟨"free", by decide⟩, args⟩
  body := [.atom ⟨⟨"room", by decide⟩, [.text "?H", .text "P", .int 1], false⟩,
    .atom ⟨⟨"fare", by decide⟩, [.text "?P"], true⟩]
  body_ne := List.cons_ne_nil _ _

/-- A query whose only atom is negated. -/
def spellingQuery (find : List String) (h : ∀ v ∈ find, v ≠ "") : Query where
  name := ⟨"fares", by decide⟩
  description := ""
  find := find
  atoms := [⟨⟨"fare", by decide⟩, [.text "?P"], true⟩]
  atoms_ne := List.cons_ne_nil _ _
  find_ne := h

/-- A marker in front of another, and names that come up again with the marker or without it. -/
theorem missingVariables_exact_spellings :
    let rule := spellingRule ["Q", "H", "?P", "?H", "??P", "P"]
    let marked := spellingRule ["?Q", "H", "?P", "?H", "??P", "?P"]
    let query := spellingQuery ["H", "P", "?H"] (by decide)
    let marked' := spellingQuery ["?H", "P", "?H"] (by decide)
    rule.unboundHeadVariables = ["Q", "P", "?P"] ∧ marked.unboundHeadVariables = ["Q", "P", "?P"] ∧
      query.unboundVariables = ["H"] ∧ marked'.unboundVariables = ["H"] := by
  intro rule marked query marked'
  obtain ⟨hrules, hqueries⟩ := missingVariables_exact
  obtain ⟨hrule, -, -, hmarked⟩ := hrules rule
  obtain ⟨hquery, -, -, hmarked'⟩ := hqueries query
  have hhead : rule.unboundHeadVariables = ["Q", "P", "?P"] := hrule.trans (by decide)
  have hfind : query.unboundVariables = ["H"] := hquery.trans (by decide)
  have hmarks : List.Forall₂ Variable.Marks rule.head.args marked.head.args := by decide
  have hmarks' : List.Forall₂ Variable.Marks query.find marked'.find := by decide
  exact ⟨hhead, (hmarked marked rfl hmarks).trans hhead, hfind,
    (hmarked' marked' rfl hmarks').trans hfind⟩

end DatalogIntake

import DatalogIntake.Document.Writer
import DatalogIntake.Program.Draft
import Mathlib.Data.List.Forall2

/-!
# What builders accept

A builder takes a part for a field just when the part is that field, written as a value: a name its
text, a term its value, a list its items. So a draft is built as an atom, a rule or a program just
when its parts are those of the atom, the rule or the program (`AtomDraft.build_eq_ok` to
`ProgramDraft.build_eq_ok`). -/

namespace DatalogIntake

/-! ### Steps -/

theorem bind_eq_ok {α β : Type} {r : Except BuildError α} {f : α → Except BuildError β} {b : β} :
    (r >>= f) = .ok b ↔ ∃ a, r = .ok a ∧ f a = .ok b := by
  cases r <;> simp [bind, Except.bind]

@[simp] theorem pure_eq_ok {α : Type} {a b : α} :
    (pure a : Except BuildError α) = .ok b ↔ a = b := by
  simp [pure, Except.pure]

@[simp] theorem refuse_ne_ok {α : Type} {v : Violation} {a : α} :
    (refuse v : Except BuildError α) ≠ .ok a := by
  simp [refuse]

theorem map_build_eq_ok {α β : Type} {f : α → β} {r : Except BuildError α} {b : β} :
    f <$> r = .ok b ↔ ∃ a, r = .ok a ∧ f a = b := by
  cases r <;> simp [Functor.map, Except.map]

theorem unless_refused_eq_ok {α β : Type} {c : Prop} [Decidable c] {v : Violation}
    {f : α → Except BuildError β} {r : Except BuildError β} {b : β} :
    (if c then refuse v >>= f else r) = .ok b ↔ ¬c ∧ r = .ok b := by
  split_ifs with h <;> simp [h, bind_eq_ok]

/-- What is built with the proof of a condition, or else refused. -/
theorem built_eq_ok {α : Type} {c : Prop} [Decidable c] {v : Violation} {f : c → α} {a : α} :
    (if h : c then pure (f h) else refuse v : Except BuildError α) = .ok a ↔ ∃ h, f h = a := by
  split_ifs with h <;> simp [h]

theorem buildAll_eq_ok {α β : Type} {build : α → Except BuildError β} {l : List α} {bs : List β} :
    buildAll build l = .ok bs ↔ List.Forall₂ (fun a b => build a = .ok b) l bs := by
  induction l generalizing bs with
  | nil => simp [buildAll, eq_comm]
  | cons a l ih =>
    rw [buildAll, List.forall₂_cons_left_iff]
    simp only [bind_eq_ok, ih, pure_eq_ok]
    constructor
    · rintro ⟨b, hb, bs', hbs', rfl⟩
      exact ⟨b, bs', hb, hbs', rfl⟩
    · rintro ⟨b, bs', hb, hbs', rfl⟩
      exact ⟨b, hb, bs', hbs', rfl⟩

/-- Items that are built just when they come out alike are built as a list when the lists do. -/
theorem buildAll_eq_ok_iff_map {α β γ : Type} {build : α → Except BuildError β} {normal : α → γ}
    {encode : β → γ} (h : ∀ a b, build a = .ok b ↔ normal a = encode b) {l : List α}
    {bs : List β} : buildAll build l = .ok bs ↔ l.map normal = bs.map encode := by
  rw [buildAll_eq_ok, ← List.forall₂_eq_eq_eq, List.forall₂_map_left_iff,
    List.forall₂_map_right_iff]
  simp only [h]

theorem buildAll_eq_ok_of_encode {α β : Type} {build : α → Except BuildError β} {encode : β → α}
    (h : ∀ a b, build a = .ok b ↔ a = encode b) {l : List α} {bs : List β} :
    buildAll build l = .ok bs ↔ l = bs.map encode := by
  have hid : ∀ a b, build a = .ok b ↔ id a = encode b := h
  rw [buildAll_eq_ok_iff_map hid, List.map_id]

/-! ### Names, terms and texts -/

theorem Name.ofText?_eq_some {s : String} {name : Name} :
    Name.ofText? s = some name ↔ s = name.text := by
  constructor
  · exact fun h => (Name.text_of_ofText? h).symm
  · rintro rfl
    exact Name.ofText?_text name

theorem Name.ofPart?_eq_ok {role : String} {given : Part} {name : Name} :
    Name.ofPart? role given = .ok name ↔ given = .json (.str name.text) := by
  unfold Name.ofPart?
  split
  · next s =>
    simp only [Part.json.injEq, Json.str.injEq, ← Name.ofText?_eq_some]
    split <;> simp_all
  · next h => simpa using fun e => h _ e

theorem Term.ofPart?_eq_ok {context : String} {given : Part} {t : Term} :
    Term.ofPart? context given = .ok t ↔ given = .json t.toJson := by
  constructor
  · intro h
    unfold Term.ofPart? at h
    split at h <;> cases h <;> rfl
  · rintro rfl
    cases t <;> rfl

theorem Operator.ofSymbol?_eq_some {s : String} {o : Operator} :
    Operator.ofSymbol? s = some o ↔ s = o.symbol := by
  constructor
  · exact fun h => (Operator.symbol_of_ofSymbol? h).symm
  · rintro rfl
    exact Operator.ofSymbol?_symbol o

theorem Operator.ofPart?_eq_ok {given : Part} {o : Operator} :
    Operator.ofPart? given = .ok o ↔ given = .json (.str o.symbol) := by
  unfold Operator.ofPart?
  split
  · next s =>
    simp only [Part.json.injEq, Json.str.injEq, ← Operator.ofSymbol?_eq_some]
    split <;> simp_all
  · next h => simpa using fun e => h _ e

namespace Part

theorem textOr_eq_ok {given : Part} {v : Violation} {s : String} :
    given.textOr v = .ok s ↔ given = .json (.str s) := by
  unfold textOr
  split
  · simp
  · next h => simpa using fun e => h _ e

theorem nonemptyTextOr_eq_ok {given : Part} {v : Violation} {s : { s : String // s ≠ "" }} :
    given.nonemptyTextOr v = .ok s ↔ given = .json (.str s.val) := by
  obtain ⟨s, hs⟩ := s
  unfold nonemptyTextOr
  split
  · next t =>
    simp only [Part.json.injEq, Json.str.injEq]
    split
    · simp
    · next ht => simpa using fun e : t = s => ht (e ▸ hs)
  · next h => simpa using fun e => h _ e

theorem boolOr_eq_ok {given : Part} {v : Violation} {b : Bool} :
    given.boolOr v = .ok b ↔ given = .json (.bool b) := by
  unfold boolOr
  split
  · simp
  · next h => simpa using fun e => h _ e

theorem itemsOr_eq_ok {given : Part} {v : Violation} {items : List Part} :
    given.itemsOr v = .ok items ↔ given.items? = some items := by
  unfold itemsOr
  split <;> simp_all

theorem walk_eq_ok {given : Part} {elements : List Part} :
    given.walk = .ok elements ↔ given.elements? = some elements := by
  unfold walk
  split <;> simp_all

theorem elements?_of_isEmpty {given : Part} {elements : List Part} (h : given.isEmpty = true)
    (he : given.elements? = some elements) : elements = [] := by
  unfold isEmpty at h
  split at h <;> simp_all [elements?, items?]

end Part

/-! ### Drafts -/

theorem AtomDraft.build_eq_ok {d : AtomDraft} {a : Atom} :
    d.build = .ok a ↔ d.predicate = .json (.str a.predicate.text) ∧
      d.args.items? = some (a.args.map fun t => .json t.toJson) ∧
      d.isNegated = .json (.bool a.isNegated) := by
  obtain ⟨predicate, args, isNegated⟩ := a
  simp only [build, bind_eq_ok, pure_eq_ok, Name.ofPart?_eq_ok, Part.itemsOr_eq_ok,
    buildAll_eq_ok_of_encode fun _ _ => Term.ofPart?_eq_ok, Part.boolOr_eq_ok, Atom.mk.injEq]
  constructor
  · rintro ⟨_, hp, _, hitems, _, rfl, _, hn, rfl, rfl, rfl⟩
    exact ⟨hp, hitems, hn⟩
  · rintro ⟨hp, hitems, hn⟩
    exact ⟨_, hp, _, hitems, _, rfl, _, hn, rfl, rfl, rfl⟩

theorem ComparisonDraft.build_eq_ok {d : ComparisonDraft} {c : Comparison} :
    d.build = .ok c ↔ d.left = .json (.str c.left) ∧
      d.operator = .json (.str c.operator.symbol) ∧ d.right = .json c.right.toJson := by
  obtain ⟨left, operator, right, hleft⟩ := c
  simp only [build, bind_eq_ok, pure_eq_ok, Part.nonemptyTextOr_eq_ok, Operator.ofPart?_eq_ok,
    Term.ofPart?_eq_ok, Comparison.mk.injEq]
  constructor
  · rintro ⟨_, hl, _, ho, _, hr, rfl, rfl, rfl⟩
    exact ⟨hl, ho, hr⟩
  · rintro ⟨hl, ho, hr⟩
    exact ⟨⟨left, hleft⟩, hl, _, ho, _, hr, rfl, rfl, rfl⟩

theorem HeadDraft.build_eq_ok {d : HeadDraft} {h : Head} :
    d.build = .ok h ↔ d.predicate = .json (.str h.predicate.text) ∧
      d.args.items? = some (h.args.map fun s => .json (.str s)) := by
  obtain ⟨predicate, args⟩ := h
  simp only [build, bind_eq_ok, pure_eq_ok, Name.ofPart?_eq_ok, Part.itemsOr_eq_ok,
    buildAll_eq_ok_of_encode fun _ _ => Part.textOr_eq_ok, Head.mk.injEq]
  constructor
  · rintro ⟨_, hp, _, hitems, _, rfl, rfl, rfl⟩
    exact ⟨hp, hitems⟩
  · rintro ⟨hp, hitems⟩
    exact ⟨_, hp, _, hitems, _, rfl, rfl, rfl⟩

theorem Clause.ofPart?_eq_ok {rule : Name} {given : Part} {c : Clause} :
    Clause.ofPart? rule given = .ok c ↔ given = c.toPart := by
  unfold Clause.ofPart?
  cases c <;> split <;> simp_all [Clause.toPart]

theorem Head.ofPart?_eq_ok {rule : Name} {given : Part} {h : Head} :
    Head.ofPart? rule given = .ok h ↔ given = .head h := by
  unfold Head.ofPart?
  split <;> simp_all

theorem RuleDraft.build_eq_ok {d : RuleDraft} {r : Rule} :
    d.build = .ok r ↔ d.name = .json (.str r.name.text) ∧ d.goal = .json (.str r.goal) ∧
      d.head = .head r.head ∧ d.body.elements? = some (r.body.map Clause.toPart) := by
  obtain ⟨name, goal, head, body, hbody⟩ := r
  have hempty : d.body.elements? = some (body.map Clause.toPart) → ¬d.body.isEmpty = true :=
    fun he h => hbody (List.map_eq_nil_iff.mp (Part.elements?_of_isEmpty h he))
  simp only [build, bind_eq_ok, unless_refused_eq_ok, built_eq_ok, Name.ofPart?_eq_ok,
    Part.textOr_eq_ok, Head.ofPart?_eq_ok, Part.walk_eq_ok,
    buildAll_eq_ok_of_encode fun _ _ => Clause.ofPart?_eq_ok, Rule.mk.injEq]
  constructor
  · rintro ⟨_, hn, _, hg, _, hh, -, _, he, _, rfl, -, rfl, rfl, rfl, rfl⟩
    exact ⟨hn, hg, hh, he⟩
  · rintro ⟨hn, hg, hh, he⟩
    exact ⟨_, hn, _, hg, _, hh, hempty he, _, he, _, rfl, hbody, rfl, rfl, rfl, rfl⟩

theorem Atom.ofPart?_eq_ok {query : Name} {given : Part} {a : Atom} :
    Atom.ofPart? query given = .ok a ↔ given = .atom a := by
  unfold Atom.ofPart?
  split <;> simp_all

theorem buildAll_nonempty_eq_ok {v : Violation} {l : List Part}
    {bs : List { s : String // s ≠ "" }} :
    buildAll (Part.nonemptyTextOr · v) l = .ok bs ↔ l = bs.map fun s => .json (.str s.val) :=
  buildAll_eq_ok_of_encode fun _ _ => Part.nonemptyTextOr_eq_ok

theorem QueryDraft.build_eq_ok {d : QueryDraft} {q : Query} :
    d.build = .ok q ↔ d.name = .json (.str q.name.text) ∧
      d.description = .json (.str q.description) ∧
      d.atoms.elements? = some (q.atoms.map .atom) ∧
      d.find.items? = some (q.find.map fun s => .json (.str s)) := by
  obtain ⟨name, description, find, atoms, hatoms, hfind⟩ := q
  have hempty : d.atoms.elements? = some (atoms.map .atom) → ¬d.atoms.isEmpty = true :=
    fun he h => hatoms (List.map_eq_nil_iff.mp (Part.elements?_of_isEmpty h he))
  simp only [build, bind_eq_ok, unless_refused_eq_ok, built_eq_ok, Name.ofPart?_eq_ok,
    Part.textOr_eq_ok, Part.walk_eq_ok, buildAll_eq_ok_of_encode fun _ _ => Atom.ofPart?_eq_ok,
    Part.itemsOr_eq_ok, buildAll_nonempty_eq_ok, Query.mk.injEq]
  constructor
  · rintro ⟨_, hn, _, hd, -, _, he, _, rfl, _, hi, asked, rfl, -, rfl, rfl, rfl, rfl⟩
    exact ⟨hn, hd, he, by simpa using hi⟩
  · rintro ⟨hn, hd, he, hi⟩
    refine ⟨_, hn, _, hd, hempty he, _, he, _, rfl, _, hi,
      find.attach.map fun s => ⟨s.val, hfind s.val s.property⟩, ?_, hatoms, rfl, rfl, ?_, rfl⟩
    · simp
    · simp

theorem Rule.ofPart?_eq_ok {given : Part} {r : Rule} :
    Rule.ofPart? given = .ok r ↔ given = .rule r := by
  unfold Rule.ofPart?
  split <;> simp_all

theorem Program.addQuery?_eq_some {p p' : Program} {q : Query} :
    p.addQuery? q = some p' ↔ p'.rules = p.rules ∧ p'.queries = p.queries ++ [q] := by
  obtain ⟨rules, queries, hnodup⟩ := p'
  unfold addQuery?
  split
  · next hold =>
    refine iff_of_false (by simp) ?_
    rintro ⟨-, rfl : queries = _⟩
    rw [List.map_append, List.nodup_append] at hnodup
    exact hnodup.2.2 _ hold _ (by simp) rfl
  · simp [eq_comm]

theorem Program.addParts_cons_eq_ok {p p' : Program} {part : Part} {parts : List Part} :
    p.addParts (part :: parts) = .ok p' ↔
      ∃ q next, part = .query q ∧ p.addQuery? q = some next ∧ next.addParts parts = .ok p' := by
  cases part with
  | query q => rw [addParts]; split <;> simp_all
  | _ => simp [addParts]

theorem Program.addParts_eq_ok {p p' : Program} {parts : List Part} :
    p.addParts parts = .ok p' ↔ p'.rules = p.rules ∧
      ∃ queries, parts = queries.map .query ∧ p'.queries = p.queries ++ queries := by
  induction parts generalizing p with
  | nil =>
    obtain ⟨rules, queries, hnodup⟩ := p
    obtain ⟨rules', queries', hnodup'⟩ := p'
    simp [addParts, eq_comm]
  | cons part parts ih =>
    simp only [addParts_cons_eq_ok, addQuery?_eq_some, ih]
    constructor
    · rintro ⟨q, next, rfl, ⟨hrules, hqueries⟩, hrules', queries, rfl, hqueries'⟩
      refine ⟨hrules'.trans hrules, q :: queries, rfl, ?_⟩
      rw [hqueries', hqueries, List.append_assoc, List.singleton_append]
    · rintro ⟨hrules, _ | ⟨q, queries⟩, hparts, hqueries⟩
      · cases hparts
      · obtain ⟨rfl, rfl⟩ := List.cons.inj hparts
        rw [List.append_cons] at hqueries
        have hnodup := p'.names_nodup
        rw [hqueries, List.map_append] at hnodup
        exact ⟨q, ⟨p.rules, p.queries ++ [q], (List.nodup_append.mp hnodup).1⟩, rfl, ⟨rfl, rfl⟩,
          hrules, queries, rfl, hqueries⟩

theorem ProgramDraft.build_eq_ok {d : ProgramDraft} {p : Program} :
    d.build = .ok p ↔ d.rules.elements? = some (p.rules.map .rule) ∧
      d.queries.elements? = some (p.queries.map .query) := by
  simp only [build, bind_eq_ok, Part.walk_eq_ok,
    buildAll_eq_ok_of_encode fun _ _ => Rule.ofPart?_eq_ok, Program.addParts_eq_ok]
  constructor
  · rintro ⟨_, hr, rules, rfl, _, hq, hrules, queries, rfl, hqueries⟩
    rw [hrules, hqueries]
    exact ⟨hr, hq⟩
  · rintro ⟨hr, hq⟩
    exact ⟨_, hr, _, rfl, _, hq, rfl, _, rfl, rfl⟩

end DatalogIntake

import DatalogIntake.Proofs.Program.Rendering
import DatalogIntake.Proofs.Program.TermReading

/-!
# Compiled text is unambiguous

The texts of terms, atoms, clauses and rules can each be split off the front of a longer text, and so
can lists of them up to their closing character (`SplitsOff`, `listed_inj`). The head of a rule is
written as an atom over variables, so a rule and a query part ways behind their first atom, and the
whole text gives back the core (`ProgramCore.chars_inj`). The compiled text of a query therefore
depends on the core alone and determines it (`Program.compile_core`). -/

namespace DatalogIntake

open Json (NoDigit noDigit_nil)

/-! ### Splitting texts -/

/-- The text of an item can be told from what follows it. -/
def SplitsOff {α : Type} (text : α → List Char) (IsClear : α → Prop) (Ends : List Char → Prop) :
    Prop :=
  ∀ ⦃a b : α⦄ ⦃r s : List Char⦄, IsClear a → IsClear b → Ends r → Ends s →
    text a ++ r = text b ++ s → a = b ∧ r = s

/-- A run of characters ends at the first separator. -/
theorem append_cons_inj {a b r s : List Char} {c d : Char} (ha : d ∉ a) (hb : c ∉ b)
    (h : a ++ c :: r = b ++ d :: s) : a = b ∧ c = d ∧ r = s := by
  induction a generalizing b with
  | nil =>
    cases b with
    | nil => exact ⟨rfl, List.cons.inj h⟩
    | cons y b => exact absurd (List.cons.inj h).1 fun e => hb (e ▸ List.mem_cons_self)
  | cons x a ih =>
    cases b with
    | nil => exact absurd (List.cons.inj h).1 fun e => ha (e ▸ List.mem_cons_self)
    | cons y b =>
      obtain ⟨rfl, htail⟩ := List.cons.inj h
      obtain ⟨rfl, hrest⟩ := ih (fun hd => ha (List.mem_cons_of_mem x hd))
        (fun hc => hb (List.mem_cons_of_mem x hc)) htail
      exact ⟨rfl, hrest⟩

section Listed

variable {α : Type} {text : α → List Char} {IsClear : α → Prop} {close : Char}

/-- Items that follow another, each behind a comma and a blank. -/
def listedTail (items : List (List Char)) : List Char :=
  items.flatMap ([',', ' '] ++ ·)

theorem listed_cons (a : List Char) (rest : List (List Char)) :
    listed (a :: rest) = a ++ listedTail rest :=
  intercalate_cons _ a rest

theorem endsTerm_listedTail {items : List (List Char)} {r : List Char} (hr : EndsTerm r) :
    EndsTerm (listedTail items ++ r) := by
  cases items with
  | nil => exact hr
  | cons a rest => exact endsTerm_comma _

theorem listedTail_inj (hsplit : SplitsOff text IsClear EndsTerm) (hcomma : close ≠ ',')
    {l m : List α} {r s : List Char} (hl : ∀ a ∈ l, IsClear a) (hm : ∀ a ∈ m, IsClear a)
    (hr : EndsTerm (close :: r)) (hs : EndsTerm (close :: s))
    (h : listedTail (l.map text) ++ close :: r = listedTail (m.map text) ++ close :: s) :
    l = m ∧ r = s := by
  induction l generalizing m with
  | nil =>
    cases m with
    | nil => exact ⟨rfl, (List.cons.inj h).2⟩
    | cons b m => exact absurd (List.cons.inj h).1 hcomma
  | cons a l ih =>
    cases m with
    | nil => exact absurd (List.cons.inj h).1.symm hcomma
    | cons b m =>
      have hitems : text a ++ (listedTail (l.map text) ++ close :: r) =
          text b ++ (listedTail (m.map text) ++ close :: s) := by
        simpa [listedTail] using h
      obtain ⟨rfl, htail⟩ := hsplit (hl a List.mem_cons_self) (hm b List.mem_cons_self)
        (endsTerm_listedTail hr) (endsTerm_listedTail hs) hitems
      obtain ⟨rfl, hrest⟩ := ih (fun c hc => hl c (List.mem_cons_of_mem a hc))
        (fun c hc => hm c (List.mem_cons_of_mem a hc)) htail
      exact ⟨rfl, hrest⟩

/-- A listing up to its closing character, with which no item starts. -/
theorem listed_inj (hsplit : SplitsOff text IsClear EndsTerm) (hcomma : close ≠ ',')
    (hstart : ∀ a r s, IsClear a → EndsTerm r → text a ++ r ≠ close :: s)
    {l m : List α} {r s : List Char} (hl : ∀ a ∈ l, IsClear a) (hm : ∀ a ∈ m, IsClear a)
    (hr : EndsTerm (close :: r)) (hs : EndsTerm (close :: s))
    (h : listed (l.map text) ++ close :: r = listed (m.map text) ++ close :: s) :
    l = m ∧ r = s := by
  cases l with
  | nil =>
    cases m with
    | nil => exact ⟨rfl, (List.cons.inj h).2⟩
    | cons b m =>
      rw [List.map_cons, listed_cons, List.append_assoc] at h
      exact absurd h.symm (hstart b _ _ (hm b List.mem_cons_self) (endsTerm_listedTail hs))
  | cons a l =>
    cases m with
    | nil =>
      rw [List.map_cons, listed_cons, List.append_assoc] at h
      exact absurd h (hstart a _ _ (hl a List.mem_cons_self) (endsTerm_listedTail hr))
    | cons b m =>
      rw [List.map_cons, listed_cons, List.map_cons, listed_cons, List.append_assoc,
        List.append_assoc] at h
      obtain ⟨rfl, htail⟩ := hsplit (hl a List.mem_cons_self) (hm b List.mem_cons_self)
        (endsTerm_listedTail hr) (endsTerm_listedTail hs) h
      obtain ⟨rfl, hrest⟩ := listedTail_inj hsplit hcomma
        (fun c hc => hl c (List.mem_cons_of_mem a hc))
        (fun c hc => hm c (List.mem_cons_of_mem a hc)) hr hs htail
      exact ⟨rfl, hrest⟩

end Listed

/-! ### Terms and atoms -/

theorem Term.splitsOff : SplitsOff Term.chars Term.IsClear EndsTerm := by
  intro a b r s ha hb hr hs h
  have hread := Term.read?_chars ha hr
  rw [h, Term.read?_chars hb hs] at hread
  obtain ⟨rfl, rfl⟩ := Prod.mk.inj (Option.some.inj hread)
  exact ⟨rfl, rfl⟩

theorem Term.chars_ne {t : Term} {r : List Char} (s : List Char) (ht : t.IsClear)
    (hr : EndsTerm r) : t.chars ++ r ≠ ')' :: s := by
  intro h
  have hread := Term.read?_chars ht hr
  rw [h] at hread
  cases hread

theorem Name.isFollow_of_isStart {c : Char} (h : Name.isStart c = true) :
    Name.isFollow c = true := by
  unfold Name.isStart at h
  unfold Name.isFollow Char.isAlphanum
  rw [Bool.or_eq_true] at h ⊢
  rw [Bool.or_eq_true]
  tauto

theorem Name.mem_text {name : Name} {c : Char} (h : c ∈ name.text.toList) :
    Name.isFollow c = true ∨ c = '\n' := by
  have htail : ∀ {s : List Char}, Name.isTail s = true → ∀ d ∈ s,
      Name.isFollow d = true ∨ d = '\n' := by
    intro s
    fun_induction Name.isTail s with
    | case1 => exact fun _ d hd => absurd hd List.not_mem_nil
    | case2 => exact fun _ d hd => Or.inr (List.mem_singleton.mp hd)
    | case3 e rest _ ih =>
      intro hs d hd
      rw [Bool.and_eq_true] at hs
      rcases List.mem_cons.mp hd with rfl | hd
      · exact Or.inl hs.1
      · exact ih hs.2 d hd
  have hname := name.isName_text
  cases hs : name.text.toList with
  | nil => rw [hs] at h; exact absurd h List.not_mem_nil
  | cons d rest =>
    rw [hs, Name.isName, Bool.and_eq_true] at hname
    rw [hs] at h
    rcases List.mem_cons.mp h with rfl | h
    · exact Or.inl (Name.isFollow_of_isStart hname.1)
    · exact htail hname.2 c h

theorem Name.not_mem_text (name : Name) {c : Char} (h : Name.isFollow c = false ∧ c ≠ '\n') :
    c ∉ name.text.toList := by
  intro hc
  rcases Name.mem_text hc with hf | rfl
  · rw [h.1] at hf; cases hf
  · exact h.2 rfl

/-- An atom whose terms are clear. -/
def Atom.IsClear (a : Atom) : Prop := ∀ t ∈ a.args, t.IsClear

instance (a : Atom) : Decidable a.IsClear :=
  inferInstanceAs (Decidable (∀ t ∈ a.args, t.IsClear))

/-- What an atom has before its parenthesis. -/
def Atom.lead (a : Atom) : List Char :=
  (if a.isNegated then ['!'] else []) ++ a.predicate.text.toList

theorem Atom.chars_eq (a : Atom) :
    a.chars = a.lead ++ '(' :: (listed (a.args.map Term.chars) ++ [')']) := by
  simp [Atom.chars, Atom.lead]

theorem Atom.not_mem_lead (a : Atom) {c : Char}
    (h : Name.isFollow c = false ∧ c ≠ '\n' ∧ c ≠ '!') : c ∉ a.lead := by
  intro hc
  rcases List.mem_append.mp hc with hc | hc
  · split at hc
    · exact h.2.2 (List.mem_singleton.mp hc)
    · exact absurd hc List.not_mem_nil
  · exact a.predicate.not_mem_text ⟨h.1, h.2.1⟩ hc

theorem Atom.lead_inj {a b : Atom} (h : a.lead = b.lead) :
    a.predicate = b.predicate ∧ a.isNegated = b.isNegated := by
  have hmark : ∀ m n : Name, m.text.toList ≠ '!' :: n.text.toList := by
    intro m n heq
    have hm : '!' ∉ m.text.toList := m.not_mem_text (by decide)
    rw [heq] at hm
    exact hm List.mem_cons_self
  unfold Atom.lead at h
  cases ha : a.isNegated <;> cases hb : b.isNegated <;> rw [ha, hb] at h
  · exact ⟨Name.ext_text (String.toList_injective h), rfl⟩
  · exact absurd h (hmark a.predicate b.predicate)
  · exact absurd h.symm (hmark b.predicate a.predicate)
  · exact ⟨Name.ext_text (String.toList_injective (List.cons.inj h).2), rfl⟩

theorem Atom.splitsOff : SplitsOff Atom.chars Atom.IsClear fun _ => True := by
  intro a b r s ha hb _ _ h
  simp only [Atom.chars_eq, List.append_assoc, List.cons_append, List.nil_append] at h
  obtain ⟨hlead, -, hargs⟩ := append_cons_inj (a.not_mem_lead (by decide))
    (b.not_mem_lead (by decide)) h
  obtain ⟨hlist, hrest⟩ := listed_inj Term.splitsOff (by decide) (fun t r s => Term.chars_ne s) ha hb
    (endsTerm_parenthesis r) (endsTerm_parenthesis s) hargs
  obtain ⟨hname, hneg⟩ := Atom.lead_inj hlead
  obtain ⟨predicate, args, neg⟩ := a
  cases hname
  cases hlist
  cases hneg
  exact ⟨rfl, hrest⟩

theorem Atom.exists_cons (a : Atom) :
    ∃ c t, a.chars = c :: t ∧ (c = '!' ∨ Name.isFollow c = true) := by
  have hname := a.predicate.isName_text
  cases hs : a.predicate.text.toList with
  | nil => rw [hs] at hname; cases hname
  | cons c rest =>
    rw [hs, Name.isName, Bool.and_eq_true] at hname
    rw [Atom.chars, hs]
    cases a.isNegated with
    | true => exact ⟨_, _, rfl, Or.inl rfl⟩
    | false => exact ⟨_, _, rfl, Or.inr (Name.isFollow_of_isStart hname.1)⟩

theorem Atom.chars_ne (a : Atom) (r s : List Char) : a.chars ++ r ≠ '.' :: s := by
  obtain ⟨c, t, ht, hc⟩ := a.exists_cons
  rw [ht]
  rintro ⟨⟩
  revert hc
  decide

/-! ### Clauses -/

/-- A clause whose variables and terms are clear. -/
def ClauseCore.IsClear : ClauseCore → Prop
  | .atom a => a.IsClear
  | .comparison left _ right => Variable.isName left = true ∧ right.IsClear

instance : (c : ClauseCore) → Decidable c.IsClear
  | .atom a => inferInstanceAs (Decidable a.IsClear)
  | .comparison left _ right =>
    inferInstanceAs (Decidable (Variable.isName left = true ∧ right.IsClear))

theorem Operator.symbol_inj {o o' : Operator} (h : o.symbol = o'.symbol) : o = o' := by
  have ho := Operator.ofSymbol?_symbol o
  rw [h, Operator.ofSymbol?_symbol] at ho
  exact (Option.some.inj ho).symm

theorem Variable.not_mem_of_isName {name : String} (h : Variable.isName name = true) {c : Char}
    (hc : Name.isFollow c = false) (hu : c.isUpper = false) : c ∉ name.toList := by
  obtain ⟨d, rest, hname, hd, hrest⟩ := Variable.exists_of_isName h
  rw [hname]
  intro hmem
  rcases List.mem_cons.mp hmem with rfl | hmem
  · rw [hd] at hu; cases hu
  · rw [hrest c hmem] at hc; cases hc

theorem ClauseCore.splitsOff : SplitsOff ClauseCore.chars ClauseCore.IsClear EndsTerm := by
  intro a b r s ha hb hr hs h
  have hmixed : ∀ (c : Atom) (left : String) (t u : List Char), Variable.isName left = true →
      c.chars ++ t ≠ left.toList ++ ' ' :: u := by
    intro c left t u hleft hc
    rw [Atom.chars_eq, List.append_assoc] at hc
    have := append_cons_inj (c.not_mem_lead (by decide))
      (Variable.not_mem_of_isName hleft (by decide) (by decide)) hc
    exact absurd this.2.1 (by decide)
  cases a with
  | atom a =>
    cases b with
    | atom b =>
      obtain ⟨rfl, hrest⟩ := Atom.splitsOff ha hb trivial trivial h
      exact ⟨rfl, hrest⟩
    | comparison left o right =>
      unfold ClauseCore.chars at h
      rw [List.append_assoc] at h
      exact absurd h (hmixed a left _ _ hb.1)
  | comparison left o right =>
    cases b with
    | atom b =>
      unfold ClauseCore.chars at h
      rw [List.append_assoc] at h
      exact absurd h.symm (hmixed b left _ _ ha.1)
    | comparison left' o' right' =>
      simp only [ClauseCore.chars, List.append_assoc, List.cons_append] at h
      have hblank : ∀ o : Operator, ' ' ∉ o.symbol.toList := by
        intro o
        cases o <;> decide
      obtain ⟨hleft, -, hop⟩ := append_cons_inj
        (Variable.not_mem_of_isName ha.1 (by decide) (by decide))
        (Variable.not_mem_of_isName hb.1 (by decide) (by decide)) h
      obtain ⟨hsymbol, -, hright⟩ := append_cons_inj (hblank o) (hblank o') hop
      obtain ⟨rfl, hrest⟩ := Term.splitsOff ha.2 hb.2 hr hs hright
      obtain rfl := String.toList_injective hleft
      obtain rfl := Operator.symbol_inj (String.toList_injective hsymbol)
      exact ⟨rfl, hrest⟩

theorem ClauseCore.chars_ne {c : ClauseCore} (hc : c.IsClear) (r s : List Char) :
    c.chars ++ r ≠ '.' :: s := by
  cases c with
  | atom a => exact a.chars_ne r s
  | comparison left o right =>
    obtain ⟨d, rest, hname, hd, -⟩ := Variable.exists_of_isName hc.1
    rw [ClauseCore.chars, hname]
    rintro ⟨⟩
    revert hd
    decide

/-! ### Rules -/

/-- A reference to a variable. -/
def Variable.term (name : String) : Term :=
  .text (String.ofList (marker :: name.toList))

theorem Variable.chars_term (name : String) : (Variable.term name).chars = name.toList := by
  have hmarked : isMarked (String.ofList (marker :: name.toList)) = true := by
    simp [isMarked]
  rw [term, Term.chars, Term.source, textSource, if_pos hmarked, bare_mark]

theorem Variable.isClear_term {name : String} (h : Variable.isName name = true) :
    (Variable.term name).IsClear := by
  have hmarked : isMarked (String.ofList (marker :: name.toList)) = true := by
    simp [isMarked]
  rw [term, Term.IsClear, if_pos hmarked, bare_mark]
  exact h

theorem Variable.term_inj {a b : String} (h : Variable.term a = Variable.term b) : a = b := by
  rw [← bare_mark a, ← bare_mark b]
  exact congrArg bare (Term.text.inj h)

/-- A rule whose variables and terms are clear. -/
structure RuleCore.IsClear (r : RuleCore) : Prop where
  args : ∀ name ∈ r.args, Variable.isName name = true
  body : ∀ c ∈ r.body, c.IsClear

instance (r : RuleCore) : Decidable r.IsClear :=
  decidable_of_iff ((∀ name ∈ r.args, Variable.isName name = true) ∧ ∀ c ∈ r.body, c.IsClear)
    ⟨fun h => ⟨h.1, h.2⟩, fun h => ⟨h.args, h.body⟩⟩

/-- The head of a rule as an atom over variables. -/
def RuleCore.head (r : RuleCore) : Atom :=
  ⟨r.predicate, r.args.map Variable.term, false⟩

theorem RuleCore.isClear_head {r : RuleCore} (h : r.IsClear) : r.head.IsClear := by
  intro t ht
  obtain ⟨name, hname, rfl⟩ := List.mem_map.mp ht
  exact Variable.isClear_term (h.args name hname)

theorem RuleCore.chars_eq (r : RuleCore) :
    r.chars = r.head.chars ++ ' ' :: ':' :: '-' :: ' ' ::
      (listed (r.body.map ClauseCore.chars) ++ ['.']) := by
  have hargs : r.head.args.map Term.chars = r.args.map String.toList := by
    rw [head, List.map_map]
    exact List.map_congr_left fun name _ => Variable.chars_term name
  unfold chars Atom.chars
  rw [hargs]
  simp [head]

theorem RuleCore.splitsOff : SplitsOff RuleCore.chars RuleCore.IsClear NoDigit := by
  intro a b r s ha hb hr hs h
  simp only [RuleCore.chars_eq, List.append_assoc, List.cons_append, List.nil_append] at h
  obtain ⟨hhead, hbody⟩ := Atom.splitsOff (isClear_head ha) (isClear_head hb) trivial trivial h
  obtain ⟨hclauses, hrest⟩ := listed_inj ClauseCore.splitsOff (by decide)
    (fun c r s hc _ => ClauseCore.chars_ne hc r s) ha.body hb.body (endsTerm_point hr)
    (endsTerm_point hs) ((List.append_right_inj [' ', ':', '-', ' ']).mp hbody)
  obtain ⟨predicate, args, body⟩ := a
  obtain ⟨predicate', args', body'⟩ := b
  injection hhead with hpredicate hargs
  cases hpredicate
  cases hclauses
  obtain rfl := (List.map_inj_right fun _ _ e => Variable.term_inj e).mp hargs
  exact ⟨rfl, hrest⟩

/-! ### Programs -/

/-- A core whose variables and terms are clear. -/
structure ProgramCore.IsClear (c : ProgramCore) : Prop where
  rules : ∀ r ∈ c.rules, r.IsClear
  atoms : ∀ a ∈ c.atoms, a.IsClear

instance (c : ProgramCore) : Decidable c.IsClear :=
  decidable_of_iff ((∀ r ∈ c.rules, r.IsClear) ∧ ∀ a ∈ c.atoms, a.IsClear)
    ⟨fun h => ⟨h.1, h.2⟩, fun h => ⟨h.rules, h.atoms⟩⟩

/-- A query cannot be taken for a rule: behind its first atom there is no blank. -/
theorem listed_atoms_ne {atoms : List Atom} (hatoms : ∀ a ∈ atoms, a.IsClear) {r : RuleCore}
    (hr : r.IsClear) (s : List Char) :
    listed (atoms.map Atom.chars) ++ ['.'] ≠ r.chars ++ s := by
  intro h
  rw [RuleCore.chars_eq, List.append_assoc] at h
  cases atoms with
  | nil => exact r.head.chars_ne _ _ h.symm
  | cons a rest =>
    rw [List.map_cons, listed_cons, List.append_assoc] at h
    obtain ⟨-, htail⟩ := Atom.splitsOff (hatoms a List.mem_cons_self) (RuleCore.isClear_head hr)
      trivial trivial h
    cases rest with
    | nil => cases htail
    | cons b rest => cases htail

/-- **The text of a core determines it.** -/
theorem ProgramCore.chars_inj {c d : ProgramCore} (hc : c.IsClear) (hd : d.IsClear)
    (h : c.chars = d.chars) : c = d := by
  obtain ⟨rules, atoms⟩ := c
  obtain ⟨rules', atoms'⟩ := d
  obtain ⟨hrules, hatoms⟩ := hc
  obtain ⟨hrules', hatoms'⟩ := hd
  unfold ProgramCore.chars at h
  dsimp only at hrules hatoms hrules' hatoms' h
  have hblank : ∀ s, NoDigit ('\n' :: s) := by
    rintro s _ ⟨⟩
    rfl
  induction rules generalizing rules' with
  | nil =>
    cases rules' with
    | nil =>
      have hatom : SplitsOff Atom.chars Atom.IsClear EndsTerm :=
        fun a b r s ha hb _ _ => Atom.splitsOff ha hb trivial trivial
      obtain ⟨rfl, -⟩ := listed_inj hatom (by decide) (fun a r s _ _ => a.chars_ne r s) hatoms
        hatoms' (endsTerm_point noDigit_nil) (endsTerm_point noDigit_nil) h
      rfl
    | cons r rules' =>
      rw [List.flatMap_cons, List.append_assoc, List.append_assoc] at h
      exact absurd h (listed_atoms_ne hatoms (hrules' r List.mem_cons_self) _)
  | cons r rules ih =>
    cases rules' with
    | nil =>
      rw [List.flatMap_cons, List.append_assoc, List.append_assoc] at h
      exact absurd h.symm (listed_atoms_ne hatoms' (hrules r List.mem_cons_self) _)
    | cons r' rules' =>
      rw [List.flatMap_cons, List.flatMap_cons] at h
      simp only [List.append_assoc] at h
      obtain ⟨rfl, hrest⟩ := RuleCore.splitsOff (hrules r List.mem_cons_self)
        (hrules' r' List.mem_cons_self) (hblank _) (hblank _) h
      have hcore := ih rules' ((List.append_right_inj ['\n', '\n']).mp hrest)
        (fun s hs => hrules s (List.mem_cons_of_mem r hs))
        (fun s hs => hrules' s (List.mem_cons_of_mem r hs))
      injection hcore with hrules hatoms
      rw [hrules, hatoms]

/-- **Compiled text depends on the core alone and determines it.** A declared query of a program
with short integers is rendered, as the compiled text; programs and queries with one core have one
text, and if two cores are clear then one text means one core. -/
theorem Program.compile_core {p p' : Program} {name name' : String} {q q' : Query}
    (h : p.query? name = some q) (h' : p'.query? name' = some q') :
    ((∀ t ∈ p.terms, t.IsShort) →
        ∃ text, p.render? name {} = .ok text ∧ p.compile name {} = .ok text) ∧
      (p.core q = p'.core q' → p.compile name {} = p'.compile name' {}) ∧
      ((p.core q).IsClear → (p'.core q').IsClear → p.compile name {} = p'.compile name' {} →
        p.core q = p'.core q') := by
  have htext := compile_of_query? h
  rw [htext, compile_of_query? h']
  refine ⟨fun hshort => ⟨_, ?_, rfl⟩, fun hcore => by rw [hcore], fun hclear hclear' hsame => ?_⟩
  · rw [render?_eq_compile hshort, htext]
    rfl
  · refine ProgramCore.chars_inj hclear hclear' ?_
    rw [← String.toList_ofList (l := (p.core q).chars), Except.ok.inj hsame, String.toList_ofList]

/-- A query over a name and a description that may vary. -/
def Query.named (name : Name) (description : String) : Query :=
  ⟨name, description, [], [⟨⟨"edge", by decide⟩, [.text "?X", .text "true"], false⟩],
    List.cons_ne_nil _ _, by simp⟩

/-- A program over a name and markers that may vary, with a literal that looks like source text. -/
def Program.marked (rule : Name) (q : Query) (x y z : String) (z_ne : z ≠ "") : Program where
  rules := [{
    name := rule
    goal := q.description
    head := ⟨⟨"edge", by decide⟩, [x, y]⟩
    body := [
      .atom ⟨⟨"path", by decide⟩, [.text "?X", .text "a), r(X) :- s(3.", .bool true, .int 3,
        .double ⟨false, 3 * 2 ^ 51, 1023, by decide, by decide, by decide⟩], true⟩,
      .comparison ⟨z, .lessOrEqual, .int (-5), z_ne⟩]
    body_ne := List.cons_ne_nil _ _
  }]
  queries := [q]
  names_nodup := by simp

theorem Program.compile_core_marked :
    let q := Query.named ⟨"left", by decide⟩ ""
    let q' := Query.named ⟨"right", by decide⟩ "goal"
    let p := marked ⟨"first", by decide⟩ q "?X" "?Y" "?X" (by decide)
    let p' := marked ⟨"second", by decide⟩ q' "X" "Y" "X" (by decide)
    (p.query? "left" = some q ∧ p'.query? "right" = some q' ∧
        (p.core q).IsClear ∧ (p'.core q').IsClear) ∧
      (∃ text, p.render? "left" {} = .ok text ∧ p.compile "left" {} = .ok text) ∧
      p.compile "left" {} = p'.compile "right" {} ∧ p.core q = p'.core q' := by
  intro q q' p p'
  have hq : p.query? "left" = some q := by decide +kernel
  have hq' : p'.query? "right" = some q' := by decide +kernel
  have hclear : (p.core q).IsClear ∧ (p'.core q').IsClear := by decide +kernel
  have hshort : ∀ t ∈ p.terms, t.IsShort := by decide +kernel
  obtain ⟨hrendered, hsame, hback⟩ := Program.compile_core hq hq'
  have htext := hsame (by decide +kernel)
  exact ⟨⟨hq, hq', hclear⟩, hrendered hshort, htext, hback hclear.1 hclear.2 htext⟩

end DatalogIntake

import DatalogIntake.Proofs.Document.RoundTrip
import DatalogIntake.Proofs.Service.Outcomes

/-!
# Loaded programs

A program is loaded from the text of its document or from a response of the service. Its integers
stand in the text that was read, so none has more digits than the reader takes
(`Program.IsLoaded.isShort_terms`). In a program that was built from parts an integer can have any
number of digits. -/

namespace DatalogIntake

open Json

/-- A program that comes out of the text of a document or out of a response. -/
def Program.IsLoaded (p : Program) : Prop :=
  ∃ room text, Program.ofText? room text = .ok p ∨ programOfResponse? room text = .ok p

theorem Program.forall_mem_terms {p : Program} {P : Term → Prop} :
    (∀ t ∈ p.terms, P t) ↔ (∀ r ∈ p.rules, ∀ c ∈ r.body, ∀ t ∈ c.terms, P t) ∧
      ∀ q ∈ p.queries, ∀ a ∈ q.atoms, ∀ t ∈ a.args, P t := by
  simp only [terms, List.forall_mem_append, List.forall_mem_flatMap]

/-! ### Parts of readable values -/

variable {room : Nat}

theorem Json.isReadable_fieldOr {key : String} {default : Json} {fields : List (String × Json)}
    (h : HaveReadable fields room) (hdefault : default.IsReadable room) :
    (fieldOr key default fields).IsReadable room := by
  cases hv : lookup key fields with
  | none => rwa [fieldOr, hv]
  | some v => exact fieldOr_of_lookup hv ▸ isReadable_of_lookup h hv

theorem Json.isReadable_field {key : String} {fields : List (String × Json)}
    (h : HaveReadable fields room) : (field key fields).IsReadable room :=
  isReadable_fieldOr h trivial

/-! ### Documents

Each part is given the room that a whole document leaves for it, so that there is room for the lists
that are filled in. -/

namespace Document

theorem isReadable_changeItems {change : Json → Json} {v : Json}
    (hchange : ∀ i, i.IsReadable room → (change i).IsReadable room) (h : v.IsReadable (room + 1)) :
    (changeItems change v).IsReadable (room + 1) := by
  cases v with
  | arr items => exact areReadable_map.mpr fun i hi => hchange i (areReadable_iff.mp h i hi)
  | _ => exact h

theorem isReadable_normalAtom {v : Json} (h : v.IsReadable (room + 2)) :
    (normalAtom v).IsReadable (room + 2) := by
  cases v with
  | obj fields =>
    exact ⟨by simp, isReadable_fieldOr h.2 trivial, isReadable_field h.2,
      isReadable_fieldOr h.2 trivial, isReadable_fieldOr h.2 trivial, trivial⟩
  | _ => exact h

theorem isReadable_normalComparison {v : Json} (h : v.IsReadable (room + 2)) :
    (normalComparison v).IsReadable (room + 2) := by
  cases v with
  | obj fields =>
    exact ⟨by simp, isReadable_field h.2, isReadable_field h.2, isReadable_field h.2,
      isReadable_field h.2, trivial⟩
  | _ => exact h

theorem isReadable_normalClause {v : Json} (h : v.IsReadable (room + 2)) :
    (normalClause v).IsReadable (room + 2) := by
  unfold normalClause
  split_ifs
  · exact isReadable_normalAtom h
  · exact isReadable_normalComparison h
  · exact h

theorem isReadable_normalHead {v : Json} (h : v.IsReadable (room + 2)) :
    (normalHead v).IsReadable (room + 2) := by
  cases v with
  | obj fields => exact ⟨by simp, isReadable_field h.2, isReadable_fieldOr h.2 trivial, trivial⟩
  | _ => exact h

theorem isReadable_items {normal : Json → Json} {key : String} {fields : List (String × Json)}
    (hnormal : ∀ i, i.IsReadable room → (normal i).IsReadable room)
    (h : HaveReadable fields (room + 1)) :
    (changeItems normal (fieldOr key (.arr []) fields)).IsReadable (room + 1) :=
  isReadable_changeItems hnormal (isReadable_fieldOr h trivial)

theorem isReadable_normalRule {v : Json} (h : v.IsReadable (room + 4)) :
    (normalRule v).IsReadable (room + 4) := by
  cases v with
  | obj fields =>
    exact ⟨by simp, isReadable_field h.2, isReadable_fieldOr h.2 trivial,
      isReadable_normalHead (isReadable_field h.2),
      isReadable_items (fun _ => isReadable_normalClause) h.2, trivial⟩
  | _ => exact h

theorem isReadable_normalQuery {v : Json} (h : v.IsReadable (room + 4)) :
    (normalQuery v).IsReadable (room + 4) := by
  cases v with
  | obj fields =>
    exact ⟨by simp, isReadable_field h.2, isReadable_fieldOr h.2 trivial,
      isReadable_fieldOr h.2 trivial, isReadable_items (fun _ => isReadable_normalAtom) h.2, trivial⟩
  | _ => exact h

theorem isReadable_normalProgram {v : Json} (h : v.IsReadable (room + 6)) :
    (normalProgram v).IsReadable (room + 6) := by
  cases v with
  | obj fields =>
    exact ⟨by simp, isReadable_items (fun _ => isReadable_normalRule) h.2,
      isReadable_items (fun _ => isReadable_normalQuery) h.2, trivial⟩
  | _ => exact h

end Document

/-- The integers of a program that is read from its document are short. -/
theorem Program.isShort_of_ofText? {text : String} {p : Program}
    (h : Program.ofText? room text = .ok p) : ∀ t ∈ p.terms, t.IsShort := by
  unfold Program.ofText? at h
  cases htext : Json.ofText? room text with
  | error e => rw [htext] at h; cases h
  | ok v =>
    have hread : Program.ofJson? v = .ok p := by
      rw [htext] at h
      cases hv : Program.ofJson? v <;> simp_all [Except.mapError]
    have hnormal := Document.isReadable_normalProgram
      ((isReadable_of_ofText? htext).mono (Nat.le_add_right room 6))
    rw [Program.ofJson?_eq_ok.mp hread] at hnormal
    exact Program.isReadable_toJson_iff.mp hnormal

/-! ### Responses -/

namespace Answer

theorem exists_of_saysList {α : Type} {R : α → Json → Prop} {as : List α} {v : Json}
    (h : SaysList R as v) (hv : v.IsReadable (room + 1)) :
    ∀ a ∈ as, ∃ i, i.IsReadable room ∧ R a i := by
  cases v with
  | arr items =>
    have hitems : AreReadable items room := hv
    induction h with
    | nil => exact fun _ ha => absurd ha List.not_mem_nil
    | cons hi _ ih =>
      refine List.forall_mem_cons.mpr ⟨⟨_, hitems.1, hi⟩, ih hitems.2 hitems.2⟩
  | _ => exact h.elim

theorem AtomMembersSay.isShort {a : Atom} {members : List (String × Json)}
    (h : AtomMembersSay a members) (hv : HaveReadable members (room + 1)) :
    ∀ t ∈ a.args, t.IsShort := by
  obtain ⟨_, hargs, rfl⟩ := h.args
  have hread : AreReadable (a.args.map Term.toJson) room := isReadable_of_lookup hv hargs
  simpa only [areReadable_map, Term.isReadable_toJson] using hread

theorem SaysAtom.isShort {a : Atom} {v : Json} (h : SaysAtom a v) (hv : v.IsReadable (room + 2)) :
    ∀ t ∈ a.args, t.IsShort := by
  cases v with
  | obj members => exact h.2.isShort hv.2
  | _ => exact h.elim

theorem SaysClause.isShort {c : Clause} {v : Json} (h : SaysClause c v)
    (hv : v.IsReadable (room + 2)) : ∀ t ∈ c.terms, t.IsShort := by
  cases v with
  | obj members =>
    cases c with
    | atom a => exact h.2.isShort hv.2
    | comparison c =>
      obtain ⟨_, hright, rfl⟩ := h.2.right
      have hread := Term.isReadable_toJson.mp (isReadable_of_lookup hv.2 hright)
      simpa [Clause.terms] using hread
  | _ => cases c <;> exact h.elim

theorem SaysRule.isShort {r : Rule} {v : Json} (h : SaysRule r v) (hv : v.IsReadable (room + 4)) :
    ∀ c ∈ r.body, ∀ t ∈ c.terms, t.IsShort := by
  cases v with
  | obj members =>
    obtain ⟨_, hbody, hsaid⟩ := h.body
    intro c hc
    obtain ⟨i, hi, hsay⟩ := exists_of_saysList hsaid (isReadable_of_lookup hv.2 hbody) c hc
    exact hsay.isShort hi
  | _ => exact h.elim

theorem SaysQuery.isShort {q : Query} {v : Json} (h : SaysQuery q v)
    (hv : v.IsReadable (room + 4)) : ∀ a ∈ q.atoms, ∀ t ∈ a.args, t.IsShort := by
  cases v with
  | obj members =>
    obtain ⟨_, hatoms, hsaid⟩ := h.atoms
    intro a ha
    obtain ⟨i, hi, hsay⟩ := exists_of_saysList hsaid (isReadable_of_lookup hv.2 hatoms) a ha
    exact hsay.isShort hi
  | _ => exact h.elim

theorem SaysProgram.isShort {p : Program} {v : Json} (h : SaysProgram p v)
    (hv : v.IsReadable (room + 6)) : ∀ t ∈ p.terms, t.IsShort := by
  cases v with
  | obj members =>
    obtain ⟨⟨_, hrules, hr⟩, ⟨_, hqueries, hq⟩⟩ := h
    rw [Program.forall_mem_terms]
    constructor
    · intro r hmem
      obtain ⟨i, hi, hsay⟩ := exists_of_saysList hr (isReadable_of_lookup hv.2 hrules) r hmem
      exact SaysRule.isShort hsay hi
    · intro q hmem
      obtain ⟨i, hi, hsay⟩ := exists_of_saysList hq (isReadable_of_lookup hv.2 hqueries) q hmem
      exact SaysQuery.isShort hsay hi
  | _ => exact h.elim

end Answer

/-- **The integers of a loaded program are short.** -/
theorem Program.IsLoaded.isShort_terms {p : Program} (h : p.IsLoaded) :
    ∀ t ∈ p.terms, t.IsShort := by
  obtain ⟨room, text, hdocument | hresponse⟩ := h
  · exact Program.isShort_of_ofText? hdocument
  · cases htext : Json.ofText? room text with
    | error e =>
      cases e <;> simp [programOfResponse?, readResponse, htext, bind, Except.bind] at hresponse
    | ok v =>
      exact ((programOfResponse?_eq_ok htext).mp hresponse).isShort
        ((isReadable_of_ofText? htext).mono (Nat.le_add_right room 6))

theorem Program.exists_text {p : Program} (h : ∀ t ∈ p.terms, t.IsShort) :
    ∃ text, Program.ofText? documentDepth text = .ok p := by
  refine ⟨p.toText none, ?_⟩
  unfold Program.ofText? Program.toText
  simp only [Json.ofText?_toText (isReadable_toJson le_rfl h), ofJson?_toJson, Except.mapError]

/-- **A program can be loaded just when its integers are short.** -/
theorem Program.isLoaded_iff {p : Program} : p.IsLoaded ↔ ∀ t ∈ p.terms, t.IsShort := by
  refine ⟨IsLoaded.isShort_terms, fun h => ?_⟩
  obtain ⟨text, htext⟩ := exists_text h
  exact ⟨documentDepth, text, Or.inl htext⟩

end DatalogIntake

import DatalogIntake.Shape.Check
import Mathlib.Data.List.Forall2

/-!
# Values that conform to a shape

What a value looks like that a check has let through: one lemma for each kind of shape, in both
directions. An object conforms to its fields one by one (`Fields.check_eq_ok`), and a field that is
required is there (`Shape.checkField_required`). -/

namespace DatalogIntake

/-! ### Checks of several places -/

namespace Checked

theorem both_eq_ok {α β : Type} {a : Checked α} {b : Checked β} {p : α × β} :
    both a b = .ok p ↔ a = .ok p.1 ∧ b = .ok p.2 := by
  obtain ⟨x, y⟩ := p
  cases a <;> cases b <;> simp [both]

theorem map_eq_ok {α β : Type} {f : α → β} {c : Checked α} {b : β} :
    c.map f = .ok b ↔ ∃ a, c = .ok a ∧ f a = b := by
  cases c <;> simp [Except.map]

theorem all_eq_ok {α β : Type} {check : α → Checked β} {l : List α} {bs : List β} :
    all check l = .ok bs ↔ List.Forall₂ (fun a b => check a = .ok b) l bs := by
  induction l generalizing bs with
  | nil => simp [all, eq_comm]
  | cons a l ih =>
    rw [all, map_eq_ok, List.forall₂_cons_left_iff]
    constructor
    · rintro ⟨⟨b, rest⟩, hboth, rfl⟩
      obtain ⟨hb, hrest⟩ := both_eq_ok.mp hboth
      exact ⟨b, rest, hb, ih.mp hrest, rfl⟩
    · rintro ⟨b, rest, hb, hrest, rfl⟩
      exact ⟨(b, rest), both_eq_ok.mpr ⟨hb, ih.mpr hrest⟩, rfl⟩

/-- Items that conform just when they are written in one way are written in that way. -/
theorem all_eq_ok_of_encode {α β : Type} {check : α → Checked β} {encode : β → α}
    (h : ∀ a b, check a = .ok b ↔ a = encode b) {l : List α} {bs : List β} :
    all check l = .ok bs ↔ l = bs.map encode := by
  rw [all_eq_ok, ← List.forall₂_eq_eq_eq, List.forall₂_map_right_iff]
  simp only [h]

end Checked

namespace Shape

/-! ### Values without parts -/

@[simp] theorem checkText_eq_ok {v : Json} {s : String} : checkText v = .ok s ↔ v = .str s := by
  cases v <;> simp [checkText, Checked.fault]

@[simp] theorem checkScalar_eq_ok {v : Json} {x : Scalar} :
    checkScalar v = .ok x ↔ v = x.toJson := by
  cases v <;> cases x <;> simp [checkScalar, Scalar.toJson]

@[simp] theorem checkFlag_eq_ok {v : Json} {b : Bool} :
    checkFlag v = .ok b ↔ flag? v = some b := by
  unfold checkFlag
  split <;> simp_all [Checked.fault]

@[simp] theorem checkTag_eq_ok {word : String} {v : Json} {u : Unit} :
    checkTag word v = .ok u ↔ v = .str word := by
  unfold checkTag
  split <;> simp_all [Checked.fault]

@[simp] theorem checkChoice_eq_ok {words : List String} {v : Json}
    {w : { w : String // w ∈ words }} : checkChoice words v = .ok w ↔ v = .str w.val := by
  obtain ⟨w, hw⟩ := w
  cases v with
  | str s =>
    by_cases hs : s ∈ words
    · simp [checkChoice, hs]
    · have hne : s ≠ w := fun e => hs (e ▸ hw)
      simp [checkChoice, hs, hne, Checked.fault]
  | _ => simp [checkChoice, Checked.fault]

/-! ### Containers -/

theorem checkList_eq_ok {α : Type} {item : Json → Checked α} {v : Json} {as : List α} :
    checkList item v = .ok as ↔ ∃ items, v = .arr items ∧ Checked.all item items = .ok as := by
  cases v <;> simp [checkList, Checked.fault]

theorem checkObject_eq_ok {α : Type} {fields : List (String × Json) → Checked α} {v : Json}
    {a : α} :
    checkObject fields v = .ok a ↔ ∃ members, v = .obj members ∧ fields members = .ok a := by
  cases v <;> simp [checkObject, Checked.fault]

theorem checkField_required {α : Type} {value : Json → Checked α} {given : Option Json} {a : α} :
    checkField value none given = .ok a ↔ ∃ v, given = some v ∧ value v = .ok a := by
  cases given <;> simp [checkField, Checked.fault]

theorem checkField_default {α : Type} {value : Json → Checked α} {default : α} {given : Option Json}
    {a : α} : checkField value (some default) given = .ok a ↔
      (given = none ∧ a = default) ∨ ∃ v, given = some v ∧ value v = .ok a := by
  cases given <;> simp [checkField, eq_comm]

end Shape

/-! ### Shapes -/

theorem Shape.check_texts {v : Json} {ss : List String} :
    (Shape.list .text).check v = .ok ss ↔ v = .arr (ss.map .str) := by
  show checkList checkText v = .ok ss ↔ _
  simp [checkList_eq_ok, Checked.all_eq_ok_of_encode fun _ _ => checkText_eq_ok]

theorem Shape.check_scalars {v : Json} {xs : List Scalar} :
    (Shape.list .scalar).check v = .ok xs ↔ v = .arr (xs.map Scalar.toJson) := by
  show checkList checkScalar v = .ok xs ↔ _
  simp [checkList_eq_ok, Checked.all_eq_ok_of_encode fun _ _ => checkScalar_eq_ok]

theorem Shape.check_list {item : Shape} {v : Json} {as : List item.Carrier} :
    (Shape.list item).check v = .ok as ↔
      ∃ items, v = .arr items ∧ List.Forall₂ (fun v a => item.check v = .ok a) items as := by
  show checkList item.check v = .ok as ↔ _
  simp only [checkList_eq_ok, Checked.all_eq_ok]

/-- A record is an object whose members conform to the fields. -/
theorem Shape.check_record {title : String} {fields : Fields} {v : Json} {a : fields.Carrier} :
    (Shape.record title fields).check v = .ok a ↔
      ∃ members, v = .obj members ∧ fields.check members = .ok a :=
  checkObject_eq_ok

theorem Fields.check_eq_ok {name description : String} {shape : Shape} {isRequired : Bool}
    {rest : Fields} {members : List (String × Json)} {a : shape.Carrier} {as : rest.Carrier} :
    (Fields.field name shape isRequired description rest).check members = .ok (a, as) ↔
      Shape.checkField shape.check (if isRequired then Option.none else shape.default?)
          (Json.lookup name members) = .ok a ∧
        rest.check members = .ok as :=
  Checked.both_eq_ok

theorem Fields.check_required {name : String} {shape : Shape} {description : String}
    {rest : Fields} {members : List (String × Json)} {a : shape.Carrier} {as : rest.Carrier} :
    (Fields.field name shape true description rest).check members = .ok (a, as) ↔
      (∃ v, Json.lookup name members = some v ∧ shape.check v = .ok a) ∧
        rest.check members = .ok as := by
  rw [check_eq_ok, if_pos rfl, Shape.checkField_required]

theorem Shape.tagOf?_eq_some {key word : String} {members : List (String × Json)} :
    Shape.tagOf? key members = some word ↔ Json.lookup key members = some (.str word) := by
  unfold Shape.tagOf?
  split <;> simp_all

/-- An object of one of several records conforms to the one that its tag chooses. -/
theorem Shape.check_tagged {key : String} {branches : Branches} {v : Json} {a : branches.Carrier} :
    (Shape.tagged key branches).check v = .ok a ↔
      ∃ members word, v = .obj members ∧ Json.lookup key members = some (.str word) ∧
        branches.check word members = .ok a := by
  refine checkObject_eq_ok.trans (exists_congr fun members => ?_)
  simp only [← Shape.tagOf?_eq_some]
  cases Shape.tagOf? key members with
  | none => simp [Checked.fault]
  | some word =>
    simp only [Option.some.injEq, exists_and_left, exists_eq_left']
    exact Iff.rfl

theorem Branches.check_branch {word title tag : String} {fields : Fields} {rest : Branches}
    {members : List (String × Json)} {a : fields.Carrier ⊕ rest.Carrier} :
    (Branches.branch word title fields rest).check tag members = .ok a ↔
      (tag = word ∧ ∃ x, fields.check members = .ok x ∧ Sum.inl x = a) ∨
        (tag ≠ word ∧ ∃ x, rest.check tag members = .ok x ∧ Sum.inr x = a) := by
  by_cases h : tag = word
  · simp only [Branches.check, h, if_true, ne_eq, not_true_eq_false, true_and, false_and, or_false]
    exact Checked.map_eq_ok
  · simp only [Branches.check, h, if_false, ne_eq, not_false_eq_true, true_and, false_and, false_or]
    exact Checked.map_eq_ok

end DatalogIntake

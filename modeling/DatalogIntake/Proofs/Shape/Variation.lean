import DatalogIntake.Shape.Check
import Mathlib.Data.List.Nodup
import Mathlib.Logic.Relation

/-!
# What a shape does not look at

A shape looks at the members of an object by name, and only at those that it declares. So the order
of the members does not matter, and neither do members that it does not declare, at any depth of a
value. A single change of this kind is an `Edit`. It is described at a place in a value, with the
shape that stands there; there may be none, as below a member that is not declared, and nothing is
declared there.

* `Edit.check_eq`: an edit does not change the outcome of a check, be it what the value carries or
  the number of its faults. -/

namespace DatalogIntake

/-! ### What is declared -/

/-- The shape of the field with a name. -/
def Fields.shapeOf? (key : String) : Fields → Option Shape
  | .none => Option.none
  | .field name shape _ _ rest => if name = key then some shape else rest.shapeOf? key

/-- The fields of the record with a tag. -/
def Branches.fieldsOf? (tag : String) : Branches → Option Fields
  | .none => Option.none
  | .branch word _ fields rest => if tag = word then some fields else rest.fieldsOf? tag

namespace Shape

/-- The name of the member that chooses between records. -/
def tagKey? : Shape → Option String
  | .tagged key _ => some key
  | _ => none

/-- The fields that a shape declares for an object with these members: those of the record, or of
the record that the tag chooses. -/
def fieldsFor? (members : List (String × Json)) : Shape → Option Fields
  | .record _ fields => some fields
  | .tagged key branches => (tagOf? key members).bind branches.fieldsOf?
  | _ => none

/-- The shape of a member of an object. -/
def memberShape? (members : List (String × Json)) (key : String) (s : Shape) : Option Shape :=
  (s.fieldsFor? members).bind (Fields.shapeOf? key)

/-- The shape of the items of a list. -/
def itemShape? : Shape → Option Shape
  | .list item => some item
  | _ => none

/-- A shape declares a member of an object: as a field, or as the tag. -/
def Declares (s : Shape) (members : List (String × Json)) (key : String) : Prop :=
  (s.memberShape? members key).isSome ∨ s.tagKey? = some key

instance (s : Shape) (members : List (String × Json)) (key : String) :
    Decidable (s.Declares members key) :=
  inferInstanceAs (Decidable (_ ∨ _))

end Shape

mutual

/-- No record within a shape declares two fields with one name. -/
def Shape.hasDistinctNames : Shape → Bool
  | .text => true
  | .scalar => true
  | .flag => true
  | .tag _ => true
  | .choice _ => true
  | .list item => item.hasDistinctNames
  | .record _ fields => fields.haveDistinctNames
  | .tagged _ branches => branches.haveDistinctNames
termination_by structural s => s

/-- No two of the fields have one name, and no record within their shapes has such fields. -/
def Fields.haveDistinctNames : Fields → Bool
  | .none => true
  | .field name shape _ _ rest =>
    (rest.shapeOf? name).isNone && (shape.hasDistinctNames && rest.haveDistinctNames)
termination_by structural f => f

/-- No record of a choice has two fields with one name. -/
def Branches.haveDistinctNames : Branches → Bool
  | .none => true
  | .branch _ _ fields rest => fields.haveDistinctNames && rest.haveDistinctNames
termination_by structural b => b

end

/-! ### Edits -/

/-- A change of a value at a place with a shape or without one: the members of an object come in
another order, an object gets a member that is not declared, or a member or an item is changed in
this way. Objects whose members change their order have no two members with one name. -/
inductive Edit : Option Shape → Json → Json → Prop
  | permute {place : Option Shape} {members others : List (String × Json)}
      (hkeys : (members.map Prod.fst).Nodup) (h : members.Perm others) :
      Edit place (.obj members) (.obj others)
  | add {place : Option Shape} (members : List (String × Json)) (key : String) (value : Json)
      (hkey : key ∉ members.map Prod.fst) (h : ∀ s ∈ place, ¬s.Declares members key) :
      Edit place (.obj members) (.obj (members ++ [(key, value)]))
  | member {place : Option Shape} (before after : List (String × Json)) {key : String} {v w : Json}
      (h : Edit (place.bind (Shape.memberShape? (before ++ (key, v) :: after) key)) v w) :
      Edit place (.obj (before ++ (key, v) :: after)) (.obj (before ++ (key, w) :: after))
  | item {place : Option Shape} (before after : List Json) {v w : Json}
      (h : Edit (place.bind Shape.itemShape?) v w) :
      Edit place (.arr (before ++ v :: after)) (.arr (before ++ w :: after))

/-- A value that comes from another by edits, done and undone: the members of its objects in other
orders, and members that are not declared added and taken out. -/
def Shape.Varies (s : Shape) : Json → Json → Prop := Relation.EqvGen (Edit (some s))

/-- An edit takes objects to objects and arrays to arrays. -/
theorem Edit.kinds {place : Option Shape} {v w : Json} (h : Edit place v w) :
    (∃ a b, v = .obj a ∧ w = .obj b) ∨ ∃ a b, v = .arr a ∧ w = .arr b := by
  cases h with
  | permute => exact Or.inl ⟨_, _, rfl, rfl⟩
  | add => exact Or.inl ⟨_, _, rfl, rfl⟩
  | member => exact Or.inl ⟨_, _, rfl, rfl⟩
  | item => exact Or.inr ⟨_, _, rfl, rfl⟩

/-! ### Looking up members -/

namespace Json

theorem lookup_append (key : String) (a b : List (String × Json)) :
    lookup key (a ++ b) = (lookup key a).or (lookup key b) := by
  induction a with
  | nil => rfl
  | cons m rest ih =>
    rw [List.cons_append, lookup, lookup]
    by_cases h : m.1 = key
    · rw [if_pos h, if_pos h, Option.some_or]
    · rw [if_neg h, if_neg h, ih]

theorem lookup_eq_some_iff {key : String} {v : Json} {members : List (String × Json)}
    (h : (members.map Prod.fst).Nodup) :
    lookup key members = some v ↔ (key, v) ∈ members := by
  induction members with
  | nil => simp [lookup]
  | cons m rest ih =>
    obtain ⟨k, u⟩ := m
    obtain ⟨hk, hrest⟩ := List.nodup_cons.mp h
    rw [lookup, List.mem_cons, Prod.mk.injEq]
    by_cases hkey : k = key
    · subst hkey
      have hnot : (k, v) ∉ rest := fun hmem => hk (List.mem_map.mpr ⟨(k, v), hmem, rfl⟩)
      simp [hnot, eq_comm]
    · rw [if_neg hkey, ih hrest]
      simp [Ne.symm hkey]

/-- **The order of members with distinct names does not matter.** -/
theorem lookup_perm {members others : List (String × Json)} (hkeys : (members.map Prod.fst).Nodup)
    (h : members.Perm others) (key : String) : lookup key members = lookup key others := by
  have hkeys' : (others.map Prod.fst).Nodup := (h.map Prod.fst).nodup_iff.mp hkeys
  refine Option.ext fun v => ?_
  rw [lookup_eq_some_iff hkeys, lookup_eq_some_iff hkeys']
  exact h.mem_iff

theorem lookup_append_of_ne {key other : String} (h : other ≠ key) (value : Json)
    (members : List (String × Json)) :
    lookup key (members ++ [(other, value)]) = lookup key members := by
  rw [lookup_append, lookup, if_neg h, lookup, Option.or_none]

/-- A member that is changed is the only one that is found to be changed. -/
theorem lookup_changed (key : String) (before after : List (String × Json)) (other : String)
    (v w : Json) :
    lookup key (before ++ (other, v) :: after) = lookup key (before ++ (other, w) :: after) ∨
      other = key ∧ lookup key (before ++ (other, v) :: after) = some v ∧
        lookup key (before ++ (other, w) :: after) = some w := by
  rw [lookup_append, lookup_append, lookup, lookup]
  cases hbefore : lookup key before with
  | some u => exact Or.inl rfl
  | none =>
    by_cases h : other = key
    · exact Or.inr ⟨h, by rw [if_pos h, Option.none_or], by rw [if_pos h, Option.none_or]⟩
    · exact Or.inl (by rw [if_neg h, if_neg h])

end Json

/-! ### Checks of members -/

theorem Checked.all_changed {α : Type} {check : Json → Checked α} {v w : Json}
    (h : check v = check w) (before after : List Json) :
    Checked.all check (before ++ v :: after) = Checked.all check (before ++ w :: after) := by
  induction before with
  | nil => simp only [List.nil_append, Checked.all, h]
  | cons b before ih => simp only [List.cons_append, Checked.all, ih]

theorem Shape.checkField_congr {α : Type} {check : Json → Checked α} {default : Option α}
    {given other : Option Json} (h : given.map check = other.map check) :
    checkField check default given = checkField check default other := by
  cases given with
  | none =>
    cases other with
    | none => rfl
    | some w => cases h
  | some v =>
    cases other with
    | none => cases h
    | some w => exact Option.some.inj h

/-- Members that agree on the declared fields have the same check. -/
theorem Fields.check_congr {members others : List (String × Json)} :
    (f : Fields) → f.haveDistinctNames = true →
    (∀ key s, f.shapeOf? key = some s →
      (Json.lookup key members).map s.check = (Json.lookup key others).map s.check) →
    f.check members = f.check others
  | .none, _, _ => rfl
  | .field name shape isRequired description rest, hf, h => by
    simp only [haveDistinctNames, Bool.and_eq_true, Option.isNone_iff_eq_none] at hf
    obtain ⟨hname, -, hrest⟩ := hf
    have hfirst := h name shape (if_pos rfl)
    have hothers : ∀ key s, rest.shapeOf? key = some s →
        (Json.lookup key members).map s.check = (Json.lookup key others).map s.check := by
      intro key s hs
      have hne : name ≠ key := by
        rintro rfl
        cases hname.symm.trans hs
      exact h key s ((if_neg hne).trans hs)
    simp only [check]
    rw [Shape.checkField_congr hfirst, check_congr rest hrest hothers]

theorem Branches.check_congr {tag : String} {members others : List (String × Json)} :
    (b : Branches) →
    (∀ f, b.fieldsOf? tag = some f → f.check members = f.check others) →
    b.check tag members = b.check tag others
  | .none, _ => rfl
  | .branch word title fields rest, h => by
    simp only [check]
    by_cases hword : tag = word
    · rw [if_pos hword, if_pos hword, h fields (if_pos hword)]
    · rw [if_neg hword, if_neg hword,
        check_congr rest fun f hf => h f ((if_neg hword).trans hf)]

/-! ### Names within a shape -/

theorem Fields.hasDistinctNames_of_shapeOf? {key : String} {s : Shape} :
    (f : Fields) → f.haveDistinctNames = true → f.shapeOf? key = some s →
    s.hasDistinctNames = true
  | .none, _, h => nomatch h
  | .field name shape _ _ rest, hf, h => by
    simp only [haveDistinctNames, Bool.and_eq_true] at hf
    obtain ⟨-, hshape, hrest⟩ := hf
    rw [shapeOf?] at h
    by_cases hname : name = key
    · rw [if_pos hname] at h
      rw [← Option.some.inj h]
      exact hshape
    · rw [if_neg hname] at h
      exact hasDistinctNames_of_shapeOf? rest hrest h

theorem Branches.haveDistinctNames_of_fieldsOf? {tag : String} {f : Fields} :
    (b : Branches) → b.haveDistinctNames = true → b.fieldsOf? tag = some f →
    f.haveDistinctNames = true
  | .none, _, h => nomatch h
  | .branch word title fields rest, hb, h => by
    simp only [haveDistinctNames, Bool.and_eq_true] at hb
    rw [fieldsOf?] at h
    by_cases hword : tag = word
    · rw [if_pos hword] at h
      rw [← Option.some.inj h]
      exact hb.1
    · rw [if_neg hword] at h
      exact haveDistinctNames_of_fieldsOf? rest hb.2 h

namespace Shape

variable {s : Shape} {members others : List (String × Json)}

theorem haveDistinctNames_of_fieldsFor? (hs : s.hasDistinctNames = true) {f : Fields}
    (h : s.fieldsFor? members = some f) : f.haveDistinctNames = true := by
  cases s with
  | record title fields =>
    obtain rfl : fields = f := Option.some.inj h
    exact hs
  | tagged key branches =>
    obtain ⟨tag, -, htag⟩ := Option.bind_eq_some_iff.mp h
    exact branches.haveDistinctNames_of_fieldsOf? hs htag
  | _ => cases h

theorem hasDistinctNames_of_memberShape? (hs : s.hasDistinctNames = true) {key : String} {t : Shape}
    (h : s.memberShape? members key = some t) : t.hasDistinctNames = true := by
  obtain ⟨f, hf, ht⟩ := Option.bind_eq_some_iff.mp h
  exact f.hasDistinctNames_of_shapeOf? (haveDistinctNames_of_fieldsFor? hs hf) ht

/-- **Objects whose tags agree and whose declared members agree have the same check.** -/
theorem check_obj_congr (hs : s.hasDistinctNames = true)
    (htag : ∀ key, s.tagKey? = some key → tagOf? key members = tagOf? key others)
    (h : ∀ key t, s.memberShape? members key = some t →
      (Json.lookup key members).map t.check = (Json.lookup key others).map t.check) :
    s.check (.obj members) = s.check (.obj others) := by
  have hfields : ∀ f, s.fieldsFor? members = some f → f.check members = f.check others := by
    intro f hf
    refine f.check_congr (haveDistinctNames_of_fieldsFor? hs hf) fun key t ht => h key t ?_
    exact Option.bind_eq_some_iff.mpr ⟨f, hf, ht⟩
  cases s with
  | record title fields => exact hfields fields rfl
  | tagged key branches =>
    have hkey := htag key rfl
    simp only [check, checkObject]
    rw [← hkey]
    cases hword : tagOf? key members with
    | none => rfl
    | some word =>
      refine branches.check_congr fun f hf => hfields f ?_
      exact Option.bind_eq_some_iff.mpr ⟨word, hword, hf⟩
  | _ => rfl

end Shape

/-! ### Edits are not seen -/

/-- A change of one member by an edit does not change a tag. -/
theorem Edit.tagOf?_eq {place : Option Shape} {v w : Json} (h : Edit place v w) (key : String)
    {before after : List (String × Json)} {other : String} :
    Shape.tagOf? key (before ++ (other, v) :: after) =
      Shape.tagOf? key (before ++ (other, w) :: after) := by
  unfold Shape.tagOf?
  rcases Json.lookup_changed key before after other v w with hsame | ⟨-, hv, hw⟩
  · rw [hsame]
  · rw [hv, hw]
    rcases h.kinds with ⟨a, b, rfl, rfl⟩ | ⟨a, b, rfl, rfl⟩ <;> rfl

/-- **An edit does not change the outcome of a check.** -/
theorem Edit.check_eq {place : Option Shape} {v w : Json} (h : Edit place v w) {s : Shape}
    (hplace : place = some s) (hs : s.hasDistinctNames = true) : s.check v = s.check w := by
  -- The edit of a part is one at the shape of the part, so the shape is not fixed.
  induction h generalizing s with
  | permute hkeys h =>
    have hlookup := Json.lookup_perm hkeys h
    refine Shape.check_obj_congr hs (fun key _ => ?_) fun key t _ => ?_
    · rw [Shape.tagOf?, Shape.tagOf?, hlookup]
    · rw [hlookup]
  | add members key value _ h =>
    subst hplace
    have hnot := h s rfl
    refine Shape.check_obj_congr hs (fun tag htag => ?_) fun name t ht => ?_
    · have hne : key ≠ tag := by
        rintro rfl
        exact hnot (Or.inr htag)
      rw [Shape.tagOf?, Shape.tagOf?, Json.lookup_append_of_ne hne]
    · have hne : key ≠ name := by
        rintro rfl
        exact hnot (Or.inl (by rw [ht]; rfl))
      rw [Json.lookup_append_of_ne hne]
  | @member _ before after key v w h ih =>
    subst hplace
    refine Shape.check_obj_congr hs (fun tag _ => h.tagOf?_eq tag) fun name t ht => ?_
    rcases Json.lookup_changed name before after key v w with hsame | ⟨rfl, hv, hw⟩
    · rw [hsame]
    · have hcheck := ih ht (Shape.hasDistinctNames_of_memberShape? hs ht)
      rw [hv, hw, Option.map_some, Option.map_some, hcheck]
  | item before after h ih =>
    subst hplace
    cases s with
    | list item =>
      have hcheck := ih rfl hs
      exact Checked.all_changed hcheck before after
    | _ => rfl

/-- **Values that differ by edits have the same check.** -/
theorem Shape.Varies.check_eq {s : Shape} (hs : s.hasDistinctNames = true) {v w : Json}
    (h : s.Varies v w) : s.check v = s.check w := by
  induction h with
  | rel v w h => exact h.check_eq rfl hs
  | refl v => rfl
  | symm v w _ ih => exact ih.symm
  | trans u v w _ _ first second => exact first.trans second

end DatalogIntake

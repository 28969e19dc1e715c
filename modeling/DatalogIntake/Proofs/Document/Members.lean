import DatalogIntake.Document.Reader

/-!
# Members of objects

What is asked of the members of an object, by name: a member that is required is there and has a
property (`Json.Has`), one that may be left out has the property where it is there
(`Json.MayHave`). A reader that takes null for an absent member asks for the first, as long as null
does not have the property, and one that takes a default asks for the second, as long as the default
has it. -/

namespace DatalogIntake

/-! ### Looking up a member -/

theorem field_of_lookup {key : String} {members : List (String × Json)} {v : Json}
    (h : Json.lookup key members = some v) : Json.field key members = v := by
  rw [Json.field, h, Option.getD_some]

theorem fieldOr_of_lookup {key : String} {default v : Json} {members : List (String × Json)}
    (h : Json.lookup key members = some v) : Json.fieldOr key default members = v := by
  rw [Json.fieldOr, h, Option.getD_some]

/-- A value whose items, if it is an array, are changed. -/
def changeItems (change : Json → Json) : Json → Json
  | .arr items => .arr (items.map change)
  | value => value

/-- A value whose members, if it is an object, are changed. -/
def changeMembers (change : List (String × Json) → List (String × Json)) : Json → Json
  | .obj members => .obj (change members)
  | value => value

namespace Json

/-- The value of the member of a name, or null for a value without one. -/
def member (name : String) : Json → Json
  | .obj members => field name members
  | _ => .null

/-- The items of the list under a name in an object. -/
def itemsAt (name : String) : Json → List Json
  | .obj members =>
    match Json.lookup name members with
    | some (.arr items) => items
    | _ => []
  | _ => []

/-- Whether a value is an object without a member of a name. -/
def lacks (name : String) : Json → Bool
  | .obj members => (Json.lookup name members).isNone
  | _ => false

theorem forall_itemsAt {name : String} {members : List (String × Json)} {p : Json → Prop} :
    (∀ i ∈ (Json.obj members).itemsAt name, p i) ↔
      ∀ value, Json.lookup name members = some value →
        ∀ items, value = .arr items → ∀ i ∈ items, p i := by
  simp only [Json.itemsAt]
  split
  next items h => simp [h]
  next h =>
    refine iff_of_true (by simp) ?_
    rintro _ hvalue items rfl
    exact absurd hvalue (h items)

theorem itemsAt_of_fieldOr {name : String} {members : List (String × Json)} {items : List Json}
    (h : fieldOr name (.arr []) members = .arr items) :
    (Json.obj members).itemsAt name = items := by
  simp only [itemsAt]
  cases hv : lookup name members with
  | none =>
    rw [fieldOr, hv] at h
    exact Json.arr.inj h
  | some v =>
    rw [fieldOr_of_lookup hv] at h
    rw [h]

theorem member_of_lookup {name : String} {members : List (String × Json)} {v : Json}
    (h : lookup name members = some v) : (Json.obj members).member name = v :=
  field_of_lookup h

/-! ### Required and optional members -/

/-- The member of a name is there and has a property. -/
def Has (key : String) (P : Json → Prop) (members : List (String × Json)) : Prop :=
  ∃ v, lookup key members = some v ∧ P v

/-- The member of a name has a property where it is there. -/
def MayHave (key : String) (P : Json → Prop) (members : List (String × Json)) : Prop :=
  ∀ v, lookup key members = some v → P v

theorem Has.mayHave {key : String} {P : Json → Prop} {members : List (String × Json)}
    (h : Has key P members) : MayHave key P members := by
  obtain ⟨v, hv, hP⟩ := h
  intro w hw
  rwa [← Option.some.inj (hv.symm.trans hw)]

theorem has_iff_fieldOr {key : String} {P : Json → Prop} {default : Json}
    {members : List (String × Json)} (h : ¬P default) :
    Has key P members ↔ P (fieldOr key default members) := by
  unfold Has fieldOr
  cases lookup key members with
  | none => simpa using h
  | some v => simp

theorem has_iff {key : String} {P : Json → Prop} {members : List (String × Json)}
    (h : ¬P .null) : Has key P members ↔ P (field key members) :=
  has_iff_fieldOr h

theorem mayHave_iff {key : String} {P : Json → Prop} {default : Json}
    {members : List (String × Json)} (h : P default) :
    MayHave key P members ↔ P (fieldOr key default members) := by
  unfold MayHave fieldOr
  cases lookup key members with
  | none => simpa using h
  | some v => simp

/-! ### Values without parts -/

/-- A string. -/
def IsText : Json → Prop
  | .str _ => True
  | _ => False

/-- A string that is not empty. -/
def IsNonemptyText : Json → Prop
  | .str s => s ≠ ""
  | _ => False

/-- A truth value. -/
def IsBool : Json → Prop
  | .bool _ => True
  | _ => False

theorem isText_iff {v : Json} : v.IsText ↔ ∃ s, v = .str s := by
  cases v <;> simp [IsText]

theorem isNonemptyText_iff {v : Json} : v.IsNonemptyText ↔ ∃ s ≠ "", v = .str s := by
  cases v <;> simp [IsNonemptyText]

theorem isBool_iff {v : Json} : v.IsBool ↔ ∃ b, v = .bool b := by
  cases v <;> simp [IsBool]

/-! ### Lists and objects -/

/-- A list whose items have a property. -/
def IsListOf (P : Json → Prop) : Json → Prop
  | .arr items => ∀ i ∈ items, P i
  | _ => False

/-- A list with at least one item whose items have a property. -/
def IsNonemptyListOf (P : Json → Prop) : Json → Prop
  | .arr items => items ≠ [] ∧ ∀ i ∈ items, P i
  | _ => False

/-- An object whose members have a property. -/
def IsObjectWith (P : List (String × Json) → Prop) : Json → Prop
  | .obj members => P members
  | _ => False

end Json

end DatalogIntake

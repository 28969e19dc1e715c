import DatalogIntake.Binary64.Basic

/-!
# JSON values

Values as read from JSON text. Integers are exact and apart from doubles: a number with a fraction
or an exponent is a double, any other is an integer. The fields of an object keep their order.
-/

namespace DatalogIntake

/-- A JSON value. -/
inductive Json where
  | null
  | bool (value : Bool)
  | int (value : Int)
  | double (value : Binary64)
  | str (value : String)
  | arr (items : List Json)
  | obj (fields : List (String × Json))

namespace Json

/-! ### Equality -/

mutual

/-- Equality of values is decided by walking both. -/
def decEq : (a b : Json) → Decidable (a = b)
  | .null, b => by cases b <;> first | exact isTrue rfl | exact isFalse Json.noConfusion
  | .bool x, b => by
    cases b with
    | bool y => exact decidable_of_iff (x = y) (by rw [bool.injEq])
    | _ => exact isFalse Json.noConfusion
  | .int x, b => by
    cases b with
    | int y => exact decidable_of_iff (x = y) (by rw [int.injEq])
    | _ => exact isFalse Json.noConfusion
  | .double x, b => by
    cases b with
    | double y => exact decidable_of_iff (x = y) (by rw [double.injEq])
    | _ => exact isFalse Json.noConfusion
  | .str x, b => by
    cases b with
    | str y => exact decidable_of_iff (x = y) (by rw [str.injEq])
    | _ => exact isFalse Json.noConfusion
  | .arr x, b =>
    match b with
    | .arr y =>
      match decEqItems x y with
      | isTrue h => isTrue (by rw [h])
      | isFalse h => isFalse fun e => h (arr.inj e)
    | .null | .bool _ | .int _ | .double _ | .str _ | .obj _ => isFalse Json.noConfusion
  | .obj x, b =>
    match b with
    | .obj y =>
      match decEqFields x y with
      | isTrue h => isTrue (by rw [h])
      | isFalse h => isFalse fun e => h (obj.inj e)
    | .null | .bool _ | .int _ | .double _ | .str _ | .arr _ => isFalse Json.noConfusion

/-- Equality of the items of two arrays. -/
def decEqItems : (a b : List Json) → Decidable (a = b)
  | [], [] => isTrue rfl
  | [], _ :: _ => isFalse nofun
  | _ :: _, [] => isFalse nofun
  | x :: a, y :: b =>
    match decEq x y, decEqItems a b with
    | isTrue h, isTrue t => isTrue (by rw [h, t])
    | isFalse h, _ => isFalse fun e => h (List.cons.inj e).1
    | _, isFalse t => isFalse fun e => t (List.cons.inj e).2

/-- Equality of the fields of two objects. -/
def decEqFields : (a b : List (String × Json)) → Decidable (a = b)
  | [], [] => isTrue rfl
  | [], _ :: _ => isFalse nofun
  | _ :: _, [] => isFalse nofun
  | (k, x) :: a, (l, y) :: b =>
    if hk : k = l then
      match decEq x y, decEqFields a b with
      | isTrue h, isTrue t => isTrue (by rw [hk, h, t])
      | isFalse h, _ => isFalse fun e => h (Prod.mk.inj (List.cons.inj e).1).2
      | _, isFalse t => isFalse fun e => t (List.cons.inj e).2
    else isFalse fun e => hk (Prod.mk.inj (List.cons.inj e).1).1

end

instance : DecidableEq Json := decEq

/-! ### Fields -/

/-- The value of the first field with this key. -/
def lookup (key : String) : List (String × Json) → Option Json
  | [] => none
  | (k, v) :: rest => if k = key then some v else lookup key rest

/-- Sets a field: a key that is there keeps its place and takes the new value, another goes to the
end. -/
def setField (key : String) (value : Json) : List (String × Json) → List (String × Json)
  | [] => [(key, value)]
  | (k, v) :: rest => if k = key then (k, value) :: rest else (k, v) :: setField key value rest

/-- The fields that a run of members leaves: of two with one key the later value, at the place of
the earlier. -/
def fieldsOfMembers (members : List (String × Json)) : List (String × Json) :=
  members.foldl (fun fields m => setField m.1 m.2 fields) []

theorem lookup_setField_self (key : String) (value : Json) (fields : List (String × Json)) :
    lookup key (setField key value fields) = some value := by
  induction fields with
  | nil => simp [setField, lookup]
  | cons f rest ih =>
    by_cases h : f.1 = key
    · simp [setField, lookup, h]
    · simp [setField, lookup, h, ih]

theorem lookup_setField_of_ne {key other : String} (h : other ≠ key) (value : Json)
    (fields : List (String × Json)) :
    lookup other (setField key value fields) = lookup other fields := by
  induction fields with
  | nil => simp [setField, lookup, Ne.symm h]
  | cons f rest ih =>
    by_cases hk : f.1 = key
    · simp [setField, lookup, hk, Ne.symm h]
    · rw [setField, if_neg hk, lookup, lookup, ih]

end Json

end DatalogIntake

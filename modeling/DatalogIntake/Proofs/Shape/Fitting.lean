import DatalogIntake.Proofs.Document.Members
import DatalogIntake.Proofs.Shape.Conforming
import Mathlib.Tactic.SplitIfs

/-!
# Values that fit a shape

A value fits a shape if the check of the shape finds no fault in it. What that asks of the value is
said kind by kind: of a text, a scalar and a flag, of the items of a list, of the members of a
record, required ones and ones with a default, and of the member that chooses between records. -/

namespace DatalogIntake

open Json

/-! ### Values without parts -/

namespace Json

/-- A string, a number of either kind, finite or not, or a truth value. -/
def IsScalar : Json → Prop
  | .str _ => True
  | .bool _ => True
  | .int _ => True
  | .double _ => True
  | _ => False

/-- The words for a truth value, in lower case. -/
def wordsFor : Bool → List String
  | false => ["0", "off", "f", "n", "no", "false"]
  | true => ["1", "on", "t", "y", "yes", "true"]

/-- A value that stands for a truth value: the truth value, the integer or the double that is
counted as it, or one of its words, in upper or lower case. -/
def StandsFor (b : Bool) : Json → Prop
  | .bool c => c = b
  | .int n => n = if b then 1 else 0
  | .double (.finite x) => x.isInt (if b then 1 else 0) = true
  | .str s => String.ofList (s.toList.map Char.toLower) ∈ wordsFor b
  | _ => False

/-- A value that stands for a truth value. -/
def IsFlag (v : Json) : Prop := ∃ b, v.StandsFor b

end Json

/-! ### Checks without faults -/

namespace Checked

/-- A check without faults. -/
def Passes {α : Type} (c : Checked α) : Prop := ∃ a, c = .ok a

variable {α β : Type}

@[simp] theorem passes_ok (a : α) : Passes (.ok a) := ⟨a, rfl⟩

@[simp] theorem not_passes_error (e : Faults) : ¬Passes (.error e : Checked α) := nofun

@[simp] theorem not_passes_fault : ¬Passes (fault : Checked α) := nofun

theorem passes_both {a : Checked α} {b : Checked β} :
    (both a b).Passes ↔ a.Passes ∧ b.Passes := by
  cases a <;> cases b <;> simp [both]

theorem passes_map {f : α → β} {c : Checked α} : Passes (c.map f) ↔ c.Passes := by
  cases c <;> simp [Except.map]

theorem passes_all {check : α → Checked β} {l : List α} :
    (all check l).Passes ↔ ∀ a ∈ l, (check a).Passes := by
  induction l with
  | nil => simp [all]
  | cons a l ih => rw [all, passes_map, passes_both, ih, List.forall_mem_cons]

end Checked

/-- A shape lets a value through. -/
def Shape.Fits (s : Shape) (v : Json) : Prop := (s.check v).Passes

/-- Fields let the members of an object through. -/
def Fields.Fit (f : Fields) (members : List (String × Json)) : Prop := (f.check members).Passes

/-- Branches let the members of an object through, by their tag. -/
def Branches.Fit (b : Branches) (tag : String) (members : List (String × Json)) : Prop :=
  (b.check tag members).Passes

namespace Shape

/-! ### Texts, scalars and flags -/

theorem fits_text : Shape.text.Fits = IsText := by
  ext v
  show (checkText v).Passes ↔ v.IsText
  cases v <;> simp [checkText, IsText]

theorem fits_scalar : Shape.scalar.Fits = IsScalar := by
  ext v
  show (checkScalar v).Passes ↔ v.IsScalar
  cases v <;> simp [checkScalar, IsScalar]

/-- The words for a truth value are those that the check of a flag knows. -/
theorem lookup_flagWords {word : String} {b : Bool} :
    flagWords.lookup word = some b ↔ word ∈ wordsFor b := by
  constructor
  · intro h
    obtain ⟨before, after, hwords, -⟩ := List.lookup_eq_some_iff.mp h
    have hmem : (word, b) ∈ flagWords := by rw [hwords]; simp
    revert hmem
    cases b <;> simp [flagWords, wordsFor]
  · cases b <;> intro h <;> simp only [wordsFor, List.mem_cons, List.not_mem_nil, or_false] at h <;>
      rcases h with rfl | rfl | rfl | rfl | rfl | rfl <;> rfl

theorem flag?_eq_some {v : Json} {b : Bool} : flag? v = some b ↔ v.StandsFor b := by
  unfold flag? StandsFor
  split
  · simp
  · next n => cases b <;> split_ifs <;> simp_all
  · next x =>
    have hone : x.isInt 1 = true → ¬x.isInt 0 = true := by
      simp only [FiniteDouble.isInt, beq_iff_eq, Int.zero_mul, Int.one_mul]
      intro h
      rw [h]
      exact Int.ne_of_gt (Int.pow_pos (by decide))
    cases b <;> split_ifs <;> simp_all
  · exact lookup_flagWords
  · simp

theorem fits_flag : Shape.flag.Fits = IsFlag := by
  ext v
  show (checkFlag v).Passes ↔ v.IsFlag
  simp only [Checked.Passes, IsFlag, checkFlag_eq_ok, flag?_eq_some]

theorem fits_tag (word : String) : (Shape.tag word).Fits = (· = .str word) := by
  ext v
  show (checkTag word v).Passes ↔ v = .str word
  simp [Checked.Passes]

theorem fits_choice (words : List String) :
    (Shape.choice words).Fits = fun v => ∃ w ∈ words, v = .str w := by
  ext v
  show (checkChoice words v).Passes ↔ _
  simp [Checked.Passes]

/-! ### Containers -/

theorem fits_list (item : Shape) : (Shape.list item).Fits = IsListOf item.Fits := by
  ext v
  show (checkList item.check v).Passes ↔ IsListOf item.Fits v
  cases v with
  | arr items => exact Checked.passes_all
  | _ => exact iff_of_false Checked.not_passes_fault id

theorem fits_record (title : String) (fields : Fields) :
    (Shape.record title fields).Fits = IsObjectWith fields.Fit := by
  ext v
  show (checkObject fields.check v).Passes ↔ IsObjectWith fields.Fit v
  cases v with
  | obj members => exact Iff.rfl
  | _ => exact iff_of_false Checked.not_passes_fault id

theorem fits_tagged (key : String) (branches : Branches) :
    (Shape.tagged key branches).Fits = IsObjectWith fun members =>
      ∃ word, Has key (· = .str word) members ∧ branches.Fit word members := by
  ext v
  constructor
  · rintro ⟨a, ha⟩
    obtain ⟨members, word, rfl, hword, hcheck⟩ := check_tagged.mp ha
    exact ⟨word, ⟨_, hword, rfl⟩, a, hcheck⟩
  · intro h
    cases v with
    | obj members =>
      obtain ⟨word, ⟨_, hword, rfl⟩, a, hcheck⟩ := h
      exact ⟨a, check_tagged.mpr ⟨members, word, rfl, hword, hcheck⟩⟩
    | _ => exact h.elim

end Shape

/-! ### Fields and branches -/

theorem Fields.fit_none (members : List (String × Json)) : Fields.none.Fit members :=
  ⟨(), rfl⟩

theorem Fields.fit_required {name description : String} {shape : Shape} {rest : Fields}
    {members : List (String × Json)} :
    (Fields.field name shape true description rest).Fit members ↔
      Has name shape.Fits members ∧ rest.Fit members := by
  refine Checked.passes_both.trans (and_congr_left' ?_)
  unfold Has
  cases Json.lookup name members with
  | none => simp [Shape.checkField]
  | some v => simp [Shape.checkField, Shape.Fits]

theorem Fields.fit_default {name description : String} {shape : Shape} {rest : Fields}
    {members : List (String × Json)} (h : shape.default?.isSome) :
    (Fields.field name shape false description rest).Fit members ↔
      MayHave name shape.Fits members ∧ rest.Fit members := by
  refine Checked.passes_both.trans (and_congr_left' ?_)
  obtain ⟨a, ha⟩ := Option.isSome_iff_exists.mp h
  unfold MayHave
  cases Json.lookup name members with
  | none => simp [Shape.checkField, ha]
  | some v => simp [Shape.checkField, Shape.Fits]

theorem Branches.not_fit_none (tag : String) (members : List (String × Json)) :
    ¬Branches.none.Fit tag members := nofun

theorem Branches.fit_branch {word title tag : String} {fields : Fields} {rest : Branches}
    {members : List (String × Json)} :
    (Branches.branch word title fields rest).Fit tag members ↔
      if tag = word then fields.Fit members else rest.Fit tag members := by
  unfold Fit
  by_cases h : tag = word
  · simp only [Branches.check, h, if_true]
    exact Checked.passes_map
  · simp only [Branches.check, h, if_false]
    exact Checked.passes_map

end DatalogIntake

import DatalogIntake.Proofs.Schema.Meaning
import DatalogIntake.Proofs.Shape.Conforming
import DatalogIntake.Shape.Schema
import Mathlib.Tactic.SplitIfs

/-!
# Schemas and checks

The schema of a shape and its check describe the same values, but for one point: an object that is
one of several records can leave its tag out where the schema of one of them has a default for it,
and the check has then nothing to choose by. A value that the schema accepts passes the check just
when none of its objects lacks its tag (`Shape.check_iff_isTagged`, by induction on the shape), and
so does a value that conforms to the schema document of a record (`Shape.check_iff_of_conforms`). -/

namespace DatalogIntake

/-! ### The meaning of the schemas of shapes -/

namespace Schema

variable {refs : String → Json → Bool}

/-- The keywords of the schemas here that ask for nothing. -/
def annotations : List String := ["$defs", "title", "description", "default", "discriminator"]

theorem meets_annotation {keyword : String} (h : keyword ∈ annotations) (argument value : Json) :
    meets refs keyword argument value = true := by
  simp only [annotations, List.mem_cons, List.not_mem_nil, or_false] at h
  rcases h with rfl | rfl | rfl | rfl | rfl <;> cases argument <;> rfl

theorem accepts_obj (keywords : List (String × Json)) (value : Json) :
    accepts refs (.obj keywords) value = meetsAll refs keywords value := rfl

theorem meetsAll_cons (keyword : String) (argument : Json) (rest : List (String × Json))
    (value : Json) :
    meetsAll refs ((keyword, argument) :: rest) value =
      (meets refs keyword argument value && meetsAll refs rest value) := rfl

theorem accepts_refTo (title : String) (value : Json) :
    accepts refs (refTo title) value = refs (path title) value := by
  simp [refTo, path, accepts_obj, meetsAll, meets]

/-- An annotation in front of a schema changes nothing. -/
theorem accepts_withMember {keyword : String} (h : keyword ∈ annotations) (argument : Json)
    (schema value : Json) :
    accepts refs (withMember keyword argument schema) value = accepts refs schema value := by
  cases schema with
  | obj members =>
    rw [withMember, accepts_obj, meetsAll_cons, meets_annotation h, Bool.true_and, accepts_obj]
  | _ => rfl

theorem accepts_fieldSchema (shape : Shape) (name : String) (isRequired : Bool)
    (description : String) (value : Json) :
    accepts refs (shape.fieldSchema name isRequired description) value =
      accepts refs shape.schema value := by
  have htitle : accepts refs (withMember "title" (.str (fieldTitle name)) shape.schema) value =
      accepts refs shape.schema value := accepts_withMember (by decide) _ _ _
  have hdescription : ∀ schema, accepts refs (withDescription description schema) value =
      accepts refs schema value := by
    intro schema
    unfold withDescription
    split_ifs
    · rfl
    · exact accepts_withMember (by decide) _ _ _
  have hdefault : ∀ schema, accepts refs (withDefault isRequired shape schema) value =
      accepts refs schema value := by
    intro schema
    unfold withDefault
    split
    · exact accepts_withMember (by decide) _ _ _
    · rfl
  cases shape with
  | record title fields => rfl
  | _ => exact (hdefault _).trans ((hdescription _).trans htitle)

/-- A record accepts objects whose members fit its properties and that have the members it
requires. -/
theorem accepts_ofRecord {title : String} {properties : List (String × Json)}
    {required : List String} {value : Json} :
    accepts refs (ofRecord title properties required) value = true ↔
      ∃ members, value = .obj members ∧ fits refs properties members = true ∧
        ∀ name ∈ required, (Json.lookup name members).isSome := by
  cases value with
  | obj members =>
    simp [ofRecord, accepts_obj, meetsAll, meets, isOfType, hasMembers, isConstant]
  | _ => simp [ofRecord, accepts_obj, meetsAll, meets, isOfType]

theorem true_mem_outcomes {schemas : List Json} {value : Json} :
    true ∈ outcomes refs schemas value ↔ ∃ s ∈ schemas, accepts refs s value = true := by
  induction schemas with
  | nil => simp [outcomes]
  | cons s schemas ih => rw [outcomes, List.mem_cons, ih, List.exists_mem_cons_iff, eq_comm]

/-- One of several schemas accepts a value that is to be accepted by exactly one. -/
theorem exists_of_oneOf {schemas : List Json} {discriminator value : Json}
    (h : accepts refs (.obj [("discriminator", discriminator), ("oneOf", .arr schemas)]) value =
      true) : ∃ s ∈ schemas, accepts refs s value = true := by
  rw [accepts_obj, meetsAll_cons, meets_annotation (by decide), Bool.true_and] at h
  simp only [meetsAll, meets, Bool.and_true] at h
  have hcount : (outcomes refs schemas value).count true = 1 := by simpa using h
  exact true_mem_outcomes.mp (List.count_pos_iff.mp (by omega))

/-- What a path refers to accepts a value that is accepted by the path. -/
theorem accepts_of_within {definitions : List (String × Json)} {links : Nat} {path : String}
    {schema value : Json} (hschema : Json.lookup path definitions = some schema)
    (h : within definitions links path value = true) :
    ∃ fewer, accepts (within definitions fewer) schema value = true := by
  cases links with
  | zero => cases h
  | succ fewer =>
    simp only [within, hschema] at h
    exact ⟨fewer, h⟩

end Schema

/-! ### Shapes with their definitions -/

/-- The word of the tag that a shape is. -/
def Shape.tag? : Shape → Option String
  | .tag word => some word
  | _ => none

/-- The word of the tag that is declared under a name. -/
def Fields.tagAt? (key : String) : Fields → Option String
  | .none => Option.none
  | .field name shape _ _ rest => if name = key then shape.tag? else rest.tagAt? key

/-- The words that a choice of records goes by. -/
def Branches.words : Branches → List String
  | .none => []
  | .branch word _ _ rest => word :: rest.words

/-- Whether a record is found under its title. -/
def Schema.isDefined (definitions : List (String × Json)) (title : String) (fields : Fields) :
    Bool :=
  Json.lookup (Schema.path title) definitions ==
    some (Schema.ofRecord title fields.properties fields.requiredNames)

mutual

/-- Whether a shape is described by definitions: its records are found under their titles, fields
that may be left out have a default, and the records of a choice declare the words that they go
by. -/
def Shape.isDescribed (definitions : List (String × Json)) : Shape → Bool
  | .text => true
  | .scalar => true
  | .flag => true
  | .tag _ => true
  | .choice _ => true
  | .list item => item.isDescribed definitions
  | .record title fields =>
    Schema.isDefined definitions title fields && fields.isDescribed definitions
  | .tagged key branches => branches.isDescribed definitions key
termination_by structural s => s

/-- Whether declared fields are described by definitions. -/
def Fields.isDescribed (definitions : List (String × Json)) : Fields → Bool
  | .none => true
  | .field _ shape isRequired _ rest =>
    (isRequired || shape.default?.isSome) && shape.isDescribed definitions &&
      rest.isDescribed definitions
termination_by structural f => f

/-- Whether the records of a choice are described by definitions. -/
def Branches.isDescribed (definitions : List (String × Json)) (key : String) : Branches → Bool
  | .none => true
  | .branch word title fields rest =>
    Schema.isDefined definitions title fields && fields.tagAt? key == some word &&
      !rest.words.contains word && fields.isDescribed definitions &&
      rest.isDescribed definitions key
termination_by structural b => b

end

mutual

/-- No object in a value lacks the tag that its shape chooses by. -/
def Shape.IsTagged : Shape → Json → Prop
  | .text => fun _ => True
  | .scalar => fun _ => True
  | .flag => fun _ => True
  | .tag _ => fun _ => True
  | .choice _ => fun _ => True
  | .list item => fun value => ∀ items, value = .arr items → ∀ i ∈ items, item.IsTagged i
  | .record _ fields => fun value => ∀ members, value = .obj members → fields.IsTagged members
  | .tagged key branches => fun value => ∀ members, value = .obj members →
    (Json.lookup key members).isSome ∧
      ∀ word, Json.lookup key members = some (.str word) → branches.IsTagged word members
termination_by structural s => s

/-- No object in the members of an object lacks its tag. -/
def Fields.IsTagged : Fields → List (String × Json) → Prop
  | .none => fun _ => True
  | .field name shape _ _ rest => fun members =>
    (∀ value, Json.lookup name members = some value → shape.IsTagged value) ∧ rest.IsTagged members
termination_by structural f => f

/-- No object in the members of an object lacks its tag, in the record that a word chooses. -/
def Branches.IsTagged : Branches → String → List (String × Json) → Prop
  | .none => fun _ _ => True
  | .branch word _ fields rest => fun tag members =>
    if tag = word then fields.IsTagged members else rest.IsTagged tag members
termination_by structural b => b

end

/-! ### Checks of several places -/

namespace Checked

theorem exists_both {α β : Type} {a : Checked α} {b : Checked β} :
    (∃ p, both a b = .ok p) ↔ (∃ x, a = .ok x) ∧ ∃ y, b = .ok y := by
  simp [both_eq_ok]

theorem exists_map {α β : Type} {f : α → β} {c : Checked α} :
    (∃ b, c.map f = .ok b) ↔ ∃ a, c = .ok a := by
  cases c <;> simp [Except.map]

theorem exists_all {α β : Type} {check : α → Checked β} {l : List α} :
    (∃ bs, all check l = .ok bs) ↔ ∀ a ∈ l, ∃ b, check a = .ok b := by
  induction l with
  | nil => simp [all]
  | cons a l ih => rw [all, exists_map, exists_both, ih, List.forall_mem_cons]

end Checked

theorem Branches.isTagged_branch {word title tag : String} {fields : Fields} {rest : Branches}
    {members : List (String × Json)} :
    (Branches.branch word title fields rest).IsTagged tag members ↔
      if tag = word then fields.IsTagged members else rest.IsTagged tag members :=
  Iff.rfl

/-! ### Values without parts -/

namespace Shape

variable {refs : String → Json → Bool} {value : Json}

theorem check_text_of_accepts (h : Schema.accepts refs text.schema value = true) :
    ∃ a, text.check value = .ok a := by
  cases value <;> first | exact ⟨_, rfl⟩ | cases h

theorem check_scalar_of_accepts (h : Schema.accepts refs scalar.schema value = true) :
    ∃ a, scalar.check value = .ok a := by
  cases value <;> first | exact ⟨_, rfl⟩ | cases h

theorem check_flag_of_accepts (h : Schema.accepts refs flag.schema value = true) :
    ∃ a, flag.check value = .ok a := by
  cases value <;> first | exact ⟨_, rfl⟩ | cases h

theorem eq_of_accepts_tag {word : String}
    (h : Schema.accepts refs (tag word).schema value = true) : value = .str word := by
  simp only [schema, Schema.accepts_obj, Schema.meetsAll_cons, Bool.and_eq_true] at h
  have hconstant : Schema.isConstant "const" (.str word) value = true := h.1
  simpa [Schema.isConstant] using hconstant

theorem check_choice_of_accepts {words : List String}
    (h : Schema.accepts refs (choice words).schema value = true) :
    ∃ a, (choice words).check value = .ok a := by
  simp only [schema, Schema.accepts_obj, Schema.meetsAll_cons, Bool.and_eq_true] at h
  have hmem : (words.map Json.str).contains value = true := h.1
  obtain ⟨word, hword, rfl⟩ := List.mem_map.mp (List.contains_iff_mem.mp hmem)
  exact ⟨⟨word, hword⟩, checkChoice_eq_ok.mpr rfl⟩

theorem exists_keywords (s : Shape) : ∃ keywords, s.schema = .obj keywords := by
  cases s <;> exact ⟨_, rfl⟩

theorem exists_of_accepts_list {item : Shape}
    (h : Schema.accepts refs (list item).schema value = true) :
    ∃ items, value = .arr items ∧ ∀ i ∈ items, Schema.accepts refs item.schema i = true := by
  obtain ⟨keywords, hkeywords⟩ := item.exists_keywords
  rw [schema, hkeywords] at h
  rw [hkeywords]
  cases value with
  | arr items =>
    simp only [Schema.accepts_obj, Schema.meetsAll_cons, Bool.and_eq_true] at h
    exact ⟨items, rfl, List.all_eq_true.mp h.1⟩
  | _ => simp [Schema.accepts_obj, Schema.meetsAll, Schema.meets, Schema.isOfType] at h

theorem exists_of_accepts_refTo {definitions : List (String × Json)} {links : Nat} {title : String}
    {fields : Fields} (hdefined : Schema.isDefined definitions title fields = true)
    (h : Schema.accepts (Schema.within definitions links) (Schema.refTo title) value = true) :
    ∃ fewer members, value = .obj members ∧
      Schema.fits (Schema.within definitions fewer) fields.properties members = true ∧
      ∀ name ∈ fields.requiredNames, (Json.lookup name members).isSome := by
  rw [Schema.accepts_refTo] at h
  have hlookup : Json.lookup (Schema.path title) definitions =
      some (Schema.ofRecord title fields.properties fields.requiredNames) := by
    simpa [Schema.isDefined] using hdefined
  obtain ⟨fewer, haccepts⟩ := Schema.accepts_of_within hlookup h
  obtain ⟨members, hmembers⟩ := Schema.accepts_ofRecord.mp haccepts
  exact ⟨fewer, members, hmembers⟩

end Shape

/-! ### Fields -/

theorem Schema.fits_cons {refs : String → Json → Bool} {name : String} {schema : Json}
    {rest members : List (String × Json)} :
    fits refs ((name, schema) :: rest) members = true ↔
      (∀ value, Json.lookup name members = some value → accepts refs schema value = true) ∧
        fits refs rest members = true := by
  rw [fits, Bool.and_eq_true]
  cases Json.lookup name members with
  | none => simp
  | some value => simp

theorem Fields.lookup_of_tagAt? {refs : String → Json → Bool} {f : Fields} {key word : String}
    (htag : f.tagAt? key = some word) {members : List (String × Json)}
    (hfits : Schema.fits refs f.properties members = true) {value : Json}
    (h : Json.lookup key members = some value) : value = .str word := by
  match f, htag, hfits with
  | .field name shape isRequired description rest, htag, hfits =>
    obtain ⟨hfield, hrest⟩ := Schema.fits_cons.mp hfits
    unfold tagAt? at htag
    split_ifs at htag with hname
    · subst hname
      obtain rfl : shape = .tag word := by
        cases shape <;> cases htag
        rfl
      have hschema := hfield value h
      rw [Schema.accepts_fieldSchema] at hschema
      exact Shape.eq_of_accepts_tag hschema
    · exact lookup_of_tagAt? htag hrest h

theorem Fields.check_field_iff {name description : String} {shape : Shape} {isRequired : Bool}
    {rest : Fields} {members : List (String × Json)}
    (hdefault : (isRequired || shape.default?.isSome) = true)
    (hrequired : isRequired = true → (Json.lookup name members).isSome) :
    (∃ a, (Fields.field name shape isRequired description rest).check members = .ok a) ↔
      (∀ value, Json.lookup name members = some value → ∃ a, shape.check value = .ok a) ∧
        ∃ as, rest.check members = .ok as := by
  have hfield : (∃ a, Shape.checkField shape.check (if isRequired then Option.none else
      shape.default?) (Json.lookup name members) = .ok a) ↔
      ∀ value, Json.lookup name members = some value → ∃ a, shape.check value = .ok a := by
    cases hlookup : Json.lookup name members with
    | some value => simp [Shape.checkField]
    | none =>
      have hoptional : isRequired = false := by simpa [hlookup] using hrequired
      rw [hoptional, Bool.false_or] at hdefault
      obtain ⟨default, hdefault⟩ := Option.isSome_iff_exists.mp hdefault
      simp [hoptional, hdefault, Shape.checkField]
  exact Checked.exists_both.trans (and_congr_left' hfield)

/-! ### Shapes -/

/-- An object of several records passes the check when it does as the one that its tag chooses. -/
theorem Shape.check_tagged_iff {key : String} {branches : Branches}
    {members : List (String × Json)} :
    (∃ a, (Shape.tagged key branches).check (.obj members) = .ok a) ↔
      ∃ word, Json.lookup key members = some (.str word) ∧
        ∃ a, branches.check word members = .ok a := by
  constructor
  · rintro ⟨a, ha⟩
    obtain ⟨_, word, ⟨⟩, hword, hcheck⟩ := Shape.check_tagged.mp ha
    exact ⟨word, hword, a, hcheck⟩
  · rintro ⟨word, hword, a, hcheck⟩
    exact ⟨a, Shape.check_tagged.mpr ⟨members, word, rfl, hword, hcheck⟩⟩

theorem Branches.check_branch_iff {word title tag : String} {fields : Fields} {rest : Branches}
    {members : List (String × Json)} :
    (∃ a, (Branches.branch word title fields rest).check tag members = .ok a) ↔
      if tag = word then ∃ a, fields.check members = .ok a
      else ∃ a, rest.check tag members = .ok a := by
  by_cases h : tag = word
  · simp only [Branches.check, h, if_true]
    exact Checked.exists_map
  · simp only [Branches.check, h, if_false]
    exact Checked.exists_map

-- The induction is on the shape alone: each reference to a record leaves fewer links, so their
-- number is free in every statement, and the definitions are the same throughout.
mutual

/-- **A value that the schema of a shape accepts passes the check just when no object lacks its
tag.** -/
theorem Shape.check_iff_isTagged {definitions : List (String × Json)} {links : Nat} :
    (s : Shape) → s.isDescribed definitions = true → (value : Json) →
    Schema.accepts (Schema.within definitions links) s.schema value = true →
    ((∃ a, s.check value = .ok a) ↔ s.IsTagged value)
  | .text, _, _, h => iff_of_true (Shape.check_text_of_accepts h) trivial
  | .scalar, _, _, h => iff_of_true (Shape.check_scalar_of_accepts h) trivial
  | .flag, _, _, h => iff_of_true (Shape.check_flag_of_accepts h) trivial
  | .tag _, _, _, h =>
    iff_of_true ⟨(), Shape.checkTag_eq_ok.mpr (Shape.eq_of_accepts_tag h)⟩ trivial
  | .choice _, _, _, h => iff_of_true (Shape.check_choice_of_accepts h) trivial
  | .list item, hs, value, h => by
    obtain ⟨items, rfl, hitems⟩ := Shape.exists_of_accepts_list h
    have hitem := fun i hi => Shape.check_iff_isTagged item hs i (hitems i hi)
    refine Checked.exists_all.trans ((forall₂_congr hitem).trans ?_)
    simp [Shape.IsTagged]
  | .record title fields, hs, value, h => by
    obtain ⟨hdefined, hfields⟩ := Bool.and_eq_true_iff.mp hs
    obtain ⟨fewer, members, rfl, hfits, hrequired⟩ := Shape.exists_of_accepts_refTo hdefined h
    refine (Fields.check_iff_isTagged fields hfields members hfits hrequired).trans ?_
    simp [Shape.IsTagged]
  | .tagged key branches, hs, value, h => by
    obtain ⟨members, rfl, hmembers⟩ :=
      Branches.check_iff_isTagged branches hs value (Schema.exists_of_oneOf h)
    refine Shape.check_tagged_iff.trans ⟨?_, fun htagged => ?_⟩
    · rintro ⟨word, hword, hcheck⟩ _ ⟨⟩
      refine ⟨by simp [hword], fun tag htag => ?_⟩
      obtain ⟨_, -, ⟨⟩, hiff⟩ := hmembers _ htag
      rw [hword] at htag
      cases htag
      exact hiff.mp hcheck
    · obtain ⟨hsome, hbranch⟩ := htagged members rfl
      obtain ⟨v, hv⟩ := Option.isSome_iff_exists.mp hsome
      obtain ⟨tag, -, rfl, hiff⟩ := hmembers v hv
      exact ⟨tag, hv, hiff.mpr (hbranch tag hv)⟩
termination_by structural s => s

/-- Members that the schemas of declared fields accept pass the check just when no object in them
lacks its tag. -/
theorem Fields.check_iff_isTagged {definitions : List (String × Json)} {links : Nat} :
    (f : Fields) → f.isDescribed definitions = true → (members : List (String × Json)) →
    Schema.fits (Schema.within definitions links) f.properties members = true →
    (∀ name ∈ f.requiredNames, (Json.lookup name members).isSome) →
    ((∃ a, f.check members = .ok a) ↔ f.IsTagged members)
  | .none, _, _, _, _ => iff_of_true ⟨(), rfl⟩ trivial
  | .field name shape isRequired description rest, hs, members, hfits, hrequired => by
    obtain ⟨hfield, hrest⟩ := Schema.fits_cons.mp hfits
    simp only [Fields.isDescribed, Bool.and_eq_true] at hs
    obtain ⟨⟨hdefault, hshape⟩, hfields⟩ := hs
    have hrequiredHere : isRequired = true → (Json.lookup name members).isSome := by
      rintro rfl
      exact hrequired name List.mem_cons_self
    have hrequiredRest : ∀ name ∈ rest.requiredNames, (Json.lookup name members).isSome := by
      intro other hother
      cases isRequired with
      | true => exact hrequired other (List.mem_cons_of_mem _ hother)
      | false => exact hrequired other hother
    refine (Fields.check_field_iff hdefault hrequiredHere).trans (and_congr ?_ ?_)
    · refine forall₂_congr fun value hvalue => ?_
      have hschema := hfield value hvalue
      rw [Schema.accepts_fieldSchema] at hschema
      exact Shape.check_iff_isTagged shape hshape value hschema
    · exact Fields.check_iff_isTagged rest hfields members hrest hrequiredRest
termination_by structural f => f

/-- A value that one of several records accepts is an object. If it has a tag, that is the word of
one of them, and the check that it chooses passes just when no object inside lacks its tag. -/
theorem Branches.check_iff_isTagged {definitions : List (String × Json)} {links : Nat}
    {key : String} :
    (b : Branches) → b.isDescribed definitions key = true → (value : Json) →
    (∃ s ∈ b.references, Schema.accepts (Schema.within definitions links) s value = true) →
    ∃ members, value = .obj members ∧
      ∀ v, Json.lookup key members = some v → ∃ tag ∈ b.words, v = .str tag ∧
        ((∃ a, b.check tag members = .ok a) ↔ b.IsTagged tag members)
  | .none, _, _, h => by simp [Branches.references] at h
  | .branch word title fields rest, hs, value, h => by
    simp only [Branches.isDescribed, Bool.and_eq_true] at hs
    obtain ⟨⟨⟨⟨hdefined, htag⟩, hword⟩, hfields⟩, hrest⟩ := hs
    obtain ⟨s, hs, haccepts⟩ := h
    rcases List.mem_cons.mp hs with rfl | hs
    · obtain ⟨fewer, members, rfl, hfits, hrequired⟩ :=
        Shape.exists_of_accepts_refTo hdefined haccepts
      refine ⟨members, rfl, fun v hv => ⟨word, List.mem_cons_self,
        Fields.lookup_of_tagAt? (by simpa using htag) hfits hv, ?_⟩⟩
      rw [Branches.check_branch_iff, Branches.isTagged_branch, if_pos rfl, if_pos rfl]
      exact Fields.check_iff_isTagged fields hfields members hfits hrequired
    · obtain ⟨members, rfl, hmembers⟩ :=
        Branches.check_iff_isTagged rest hrest value ⟨s, hs, haccepts⟩
      refine ⟨members, rfl, fun v hv => ?_⟩
      obtain ⟨other, hother, hvalue, hiff⟩ := hmembers v hv
      refine ⟨other, List.mem_cons_of_mem _ hother, hvalue, ?_⟩
      have hne : other ≠ word := by
        rintro rfl
        simp [hother] at hword
      rwa [Branches.check_branch_iff, Branches.isTagged_branch, if_neg hne, if_neg hne]
termination_by structural b => b

end

/-! ### Documents -/

/-- A record and its schema document describe the same values, tags apart. -/
theorem Shape.check_iff_of_conforms {title : String} {fields : Fields}
    (hfields : fields.isDescribed
      (Schema.definitionsOf (Shape.record title fields).schemaDocument) = true)
    {value : Json} (h : Schema.Conforms (Shape.record title fields).schemaDocument value) :
    (∃ a, (Shape.record title fields).check value = .ok a) ↔
      (Shape.record title fields).IsTagged value := by
  obtain ⟨links, haccepts⟩ := h
  have hrecord := haccepts links (Nat.le_refl _)
  rw [Shape.schemaDocument, Schema.accepts_withMember (by decide)] at hrecord
  obtain ⟨members, rfl, hfits, hrequired⟩ := Schema.accepts_ofRecord.mp hrecord
  refine (Fields.check_iff_isTagged fields hfields members hfits hrequired).trans ?_
  simp [Shape.IsTagged]

end DatalogIntake

import DatalogIntake.Proofs.Json.Written
import DatalogIntake.Proofs.Schema.Agreement
import DatalogIntake.Proofs.Shape.Variation

/-!
# Dumps

The dump of what a shape carries is a value that the shape lets through again, and it carries the
same: flags are then truth values, fields with a default are there, and members that are not
declared are gone. This asks of a shape that the fields of its records have distinct names and that
the records of a choice declare the words that they go by.

* `Shape.check_dump`: the check undoes the dump.
* `Shape.isReadable_dump`: the dump of what a readable value carries is readable.
* `Shape.names_dump`: the members of a dump have the names that the shape declares. -/

namespace DatalogIntake

open Json

/-! ### Tags -/

mutual

/-- The records of a choice, wherever there is one in a shape, declare the words that they go by,
and these differ. -/
def Shape.declaresTags : Shape → Bool
  | .text => true
  | .scalar => true
  | .flag => true
  | .tag _ => true
  | .choice _ => true
  | .list item => item.declaresTags
  | .record _ fields => fields.declareTags
  | .tagged key branches => branches.declareTags key
termination_by structural s => s

/-- The choices within declared fields declare their tags. -/
def Fields.declareTags : Fields → Bool
  | .none => true
  | .field _ shape _ _ rest => shape.declaresTags && rest.declareTags
termination_by structural f => f

/-- The records of a choice declare their tags under a key, and so do the choices within them. -/
def Branches.declareTags (key : String) : Branches → Bool
  | .none => true
  | .branch word _ fields rest =>
    fields.tagAt? key == some word && !rest.words.contains word && fields.declareTags &&
      rest.declareTags key
termination_by structural b => b

end

theorem Fields.lookup_dump_of_tagAt? {key word : String} : (f : Fields) →
    f.tagAt? key = some word → (x : f.Carrier) → lookup key (f.dump x) = some (.str word)
  | .none, h, _ => nomatch h
  | .field name shape _ _ rest, h, x => by
    rw [tagAt?] at h
    rw [dump, lookup]
    split_ifs at h ⊢ with hname
    · cases shape <;> cases h
      rfl
    · exact lookup_dump_of_tagAt? rest h x.2

/-! ### Names -/

theorem Fields.mem_dump_iff {key : String} : (f : Fields) → (x : f.Carrier) →
    (key ∈ (f.dump x).map Prod.fst ↔ (f.shapeOf? key).isSome)
  | .none, _ => by simp [dump, shapeOf?]
  | .field name shape _ _ rest, x => by
    rw [dump, List.map_cons, List.mem_cons, mem_dump_iff rest x.2, shapeOf?]
    by_cases hname : name = key
    · simp [hname]
    · simp [hname, Ne.symm hname]

theorem Fields.nodup_dump : (f : Fields) → f.haveDistinctNames = true → (x : f.Carrier) →
    ((f.dump x).map Prod.fst).Nodup
  | .none, _, _ => List.nodup_nil
  | .field name shape _ _ rest, h, x => by
    simp only [haveDistinctNames, Bool.and_eq_true, Option.isNone_iff_eq_none] at h
    obtain ⟨hname, -, hrest⟩ := h
    refine List.nodup_cons.mpr ⟨?_, nodup_dump rest hrest x.2⟩
    rw [mem_dump_iff, hname]
    exact Bool.false_ne_true

/-- A member of a dump is found in it. -/
theorem Fields.lookup_dump {f : Fields} (h : f.haveDistinctNames = true) (x : f.Carrier) :
    ∀ p ∈ f.dump x, lookup p.1 (f.dump x) = some p.2 :=
  fun _ hp => (lookup_eq_some_iff (f.nodup_dump h x)).mpr hp

theorem Branches.nodup_dump : (b : Branches) → b.haveDistinctNames = true → (x : b.Carrier) →
    ((b.dump x).map Prod.fst).Nodup
  | .none, _, x => x.elim
  | .branch _ _ fields rest, h, x => by
    obtain ⟨hfields, hrest⟩ := Bool.and_eq_true_iff.mp h
    cases x with
    | inl x => exact fields.nodup_dump hfields x
    | inr x => exact nodup_dump rest hrest x

/-! ### Checks of dumps -/

mutual

/-- **The check of a dump finds what was dumped.** -/
theorem Shape.check_dump : (s : Shape) → s.hasDistinctNames = true → s.declaresTags = true →
    (x : s.Carrier) → s.check (s.dump x) = .ok x
  | .text, _, _, _ => rfl
  | .scalar, _, _, x => Shape.checkScalar_eq_ok.mpr rfl
  | .flag, _, _, _ => rfl
  | .tag _, _, _, _ => Shape.checkTag_eq_ok.mpr rfl
  | .choice _, _, _, _ => Shape.checkChoice_eq_ok.mpr rfl
  | .list item, hnames, htags, items => by
    have hitems : List.Forall₂ (fun v x => item.check v = .ok x) (List.map item.dump items) items :=
      List.forall₂_map_left_iff.mpr
        (List.forall₂_same.mpr fun x _ => Shape.check_dump item hnames htags x)
    exact Shape.check_list.mpr ⟨_, rfl, hitems⟩
  | .record title fields, hnames, htags, x => by
    refine Shape.check_record.mpr ⟨_, rfl, ?_⟩
    exact Fields.check_dump fields hnames htags x _ (Fields.lookup_dump hnames x)
  | .tagged key branches, hnames, htags, x => by
    obtain ⟨word, -, hword, hcheck⟩ := Branches.check_dump branches hnames htags x
    exact Shape.check_tagged.mpr ⟨_, word, rfl, hword, hcheck⟩
termination_by structural s => s

/-- Members among which those of a dump are found carry what was dumped. -/
theorem Fields.check_dump : (f : Fields) → f.haveDistinctNames = true → f.declareTags = true →
    (x : f.Carrier) → (members : List (String × Json)) →
    (∀ p ∈ f.dump x, lookup p.1 members = some p.2) → f.check members = .ok x
  | .none, _, _, _, _, _ => rfl
  | .field name shape isRequired _ rest, hnames, htags, (x, xs), members, h => by
    simp only [Fields.haveDistinctNames, Bool.and_eq_true] at hnames
    obtain ⟨hshape, hrest⟩ := Bool.and_eq_true_iff.mp htags
    obtain ⟨hfirst, hothers⟩ := List.forall_mem_cons.mp h
    refine Fields.check_eq_ok.mpr
      ⟨?_, Fields.check_dump rest hnames.2.2 hrest xs members hothers⟩
    rw [hfirst]
    exact Shape.check_dump shape hnames.2.1 hshape x
termination_by structural f => f

/-- The dump of one of several records has the word of that record for its tag. -/
theorem Branches.check_dump {key : String} : (b : Branches) → b.haveDistinctNames = true →
    b.declareTags key = true → (x : b.Carrier) →
    ∃ word ∈ b.words, lookup key (b.dump x) = some (.str word) ∧
      b.check word (b.dump x) = .ok x
  | .none, _, _, x => x.elim
  | .branch word title fields rest, hnames, htags, x => by
    simp only [Branches.declareTags, Bool.and_eq_true] at htags
    obtain ⟨⟨⟨htag, hword⟩, hfields⟩, hrest⟩ := htags
    obtain ⟨hnamesHere, hnamesRest⟩ := Bool.and_eq_true_iff.mp hnames
    cases x with
    | inl x =>
      refine ⟨word, List.mem_cons_self, fields.lookup_dump_of_tagAt? (by simpa using htag) x, ?_⟩
      refine Branches.check_branch.mpr (Or.inl ⟨rfl, x, ?_, rfl⟩)
      exact Fields.check_dump fields hnamesHere hfields x _ (Fields.lookup_dump hnamesHere x)
    | inr x =>
      obtain ⟨other, hother, hlookup, hcheck⟩ := Branches.check_dump rest hnamesRest hrest x
      have hne : other ≠ word := by
        rintro rfl
        simp [hother] at hword
      exact ⟨other, List.mem_cons_of_mem _ hother, hlookup,
        Branches.check_branch.mpr (Or.inr ⟨hne, x, hcheck, rfl⟩)⟩
termination_by structural b => b

end

/-! ### Readable dumps -/

theorem Shape.isReadable_default {s : Shape} {x : s.Carrier} (room : Nat)
    (h : s.default? = some x) : (s.dump x).IsReadable room := by
  cases s with
  | flag => trivial
  | tag => trivial
  | _ => cases h

theorem Shape.default_of_checkField {s : Shape} {isRequired : Bool} {x : s.Carrier}
    (h : Shape.checkField s.check (if isRequired then none else s.default?) none = .ok x) :
    s.default? = some x := by
  cases isRequired with
  | true => cases h
  | false =>
    cases hdefault : s.default? with
    | none => rw [hdefault] at h; cases h
    | some a => rw [hdefault] at h; cases h; rfl

theorem Shape.areReadable_dump {item : Shape} {items : List Json} {xs : List item.Carrier}
    {room : Nat}
    (hitem : ∀ v, v.IsReadable room → ∀ x, item.check v = .ok x → (item.dump x).IsReadable room)
    (h : List.Forall₂ (fun v x => item.check v = .ok x) items xs) (hv : AreReadable items room) :
    AreReadable (xs.map item.dump) room := by
  induction h with
  | nil => trivial
  | cons hcheck _ ih => exact ⟨hitem _ hv.1 _ hcheck, ih hv.2⟩

mutual

/-- **The dump of what a readable value carries is readable**, and nested no deeper. -/
theorem Shape.isReadable_dump : (s : Shape) → s.hasDistinctNames = true → (room : Nat) →
    (v : Json) → v.IsReadable room → (x : s.Carrier) → s.check v = .ok x →
    (s.dump x).IsReadable room
  | .text, _, _, _, _, _, _ => trivial
  | .scalar, _, room, v, hv, x, h => by
    obtain rfl : v = x.toJson := Shape.checkScalar_eq_ok.mp h
    exact hv
  | .flag, _, _, _, _, _, _ => trivial
  | .tag _, _, _, _, _, _, _ => trivial
  | .choice _, _, _, _, _, _, _ => trivial
  | .list item, hnames, room, v, hv, xs, h => by
    obtain ⟨items, rfl, hitems⟩ := Shape.check_list.mp h
    cases room with
    | zero => exact hv.elim
    | succ left => exact Shape.areReadable_dump (Shape.isReadable_dump item hnames left) hitems hv
  | .record title fields, hnames, room, v, hv, x, h => by
    obtain ⟨members, rfl, hcheck⟩ := Shape.check_record.mp h
    cases room with
    | zero => exact hv.elim
    | succ left =>
      exact ⟨fields.nodup_dump hnames x,
        Fields.haveReadable_dump fields hnames left members hv.2 x hcheck⟩
  | .tagged key branches, hnames, room, v, hv, x, h => by
    obtain ⟨members, word, rfl, -, hcheck⟩ := Shape.check_tagged.mp h
    cases room with
    | zero => exact hv.elim
    | succ left =>
      exact ⟨branches.nodup_dump hnames x,
        Branches.haveReadable_dump branches hnames word left members hv.2 x hcheck⟩
termination_by structural s => s

theorem Fields.haveReadable_dump : (f : Fields) → f.haveDistinctNames = true → (room : Nat) →
    (members : List (String × Json)) → HaveReadable members room → (x : f.Carrier) →
    f.check members = .ok x → HaveReadable (f.dump x) room
  | .none, _, _, _, _, _, _ => trivial
  | .field name shape isRequired _ rest, hnames, room, members, hv, (x, xs), h => by
    simp only [Fields.haveDistinctNames, Bool.and_eq_true] at hnames
    obtain ⟨hfirst, hrest⟩ := Fields.check_eq_ok.mp h
    refine ⟨?_, Fields.haveReadable_dump rest hnames.2.2 room members hv xs hrest⟩
    cases hlookup : lookup name members with
    | some v =>
      rw [hlookup] at hfirst
      exact Shape.isReadable_dump shape hnames.2.1 room v (isReadable_of_lookup hv hlookup) x hfirst
    | none =>
      rw [hlookup] at hfirst
      exact Shape.isReadable_default room (Shape.default_of_checkField hfirst)
termination_by structural f => f

theorem Branches.haveReadable_dump : (b : Branches) → b.haveDistinctNames = true →
    (word : String) → (room : Nat) → (members : List (String × Json)) →
    HaveReadable members room → (x : b.Carrier) → b.check word members = .ok x →
    HaveReadable (b.dump x) room
  | .none, _, _, _, _, _, x, _ => x.elim
  | .branch _ _ fields rest, hnames, word, room, members, hv, x, h => by
    obtain ⟨hnamesHere, hnamesRest⟩ := Bool.and_eq_true_iff.mp hnames
    rcases Branches.check_branch.mp h with ⟨-, x, hcheck, rfl⟩ | ⟨-, x, hcheck, rfl⟩
    · exact Fields.haveReadable_dump fields hnamesHere room members hv x hcheck
    · exact Branches.haveReadable_dump rest hnamesRest word room members hv x hcheck
termination_by structural b => b

end

/-! ### Names in dumps -/

mutual

/-- The names of the fields of a shape, at any depth. -/
def Shape.names : Shape → List String
  | .text => []
  | .scalar => []
  | .flag => []
  | .tag _ => []
  | .choice _ => []
  | .list item => item.names
  | .record _ fields => fields.names
  | .tagged _ branches => branches.names
termination_by structural s => s

/-- The names of fields, and those in their shapes. -/
def Fields.names : Fields → List String
  | .none => []
  | .field name shape _ _ rest => name :: (shape.names ++ rest.names)
termination_by structural f => f

/-- The names of the fields of several records. -/
def Branches.names : Branches → List String
  | .none => []
  | .branch _ _ fields rest => fields.names ++ rest.names
termination_by structural b => b

end

theorem Json.namesOfItems_subset {α : Type} {encode : α → Json} {allowed : List String}
    (h : ∀ a, (encode a).names ⊆ allowed) (l : List α) :
    namesOfItems (l.map encode) ⊆ allowed := by
  induction l with
  | nil => exact List.nil_subset _
  | cons a l ih => exact List.append_subset.mpr ⟨h a, ih⟩

mutual

/-- **The names in a dump are those of the shape.** -/
theorem Shape.names_dump : (s : Shape) → (x : s.Carrier) → (s.dump x).names ⊆ s.names
  | .text, _ => List.nil_subset _
  | .scalar, x => by cases x <;> exact List.nil_subset _
  | .flag, _ => List.nil_subset _
  | .tag _, _ => List.nil_subset _
  | .choice _, _ => List.nil_subset _
  | .list item, items => Json.namesOfItems_subset (Shape.names_dump item) items
  | .record _ fields, x => Fields.names_dump fields x
  | .tagged _ branches, x => Branches.names_dump branches x
termination_by structural s => s

/-- The names in the dump of fields are those of the fields. -/
theorem Fields.names_dump : (f : Fields) → (x : f.Carrier) → namesOfFields (f.dump x) ⊆ f.names
  | .none, _ => List.nil_subset _
  | .field _ shape _ _ rest, (x, xs) =>
    List.cons_subset_cons _ (List.append_subset.mpr
      ⟨List.subset_append_of_subset_left _ (Shape.names_dump shape x),
        List.subset_append_of_subset_right _ (Fields.names_dump rest xs)⟩)
termination_by structural f => f

theorem Branches.names_dump : (b : Branches) → (x : b.Carrier) →
    namesOfFields (b.dump x) ⊆ b.names
  | .none, x => x.elim
  | .branch _ _ fields _, .inl x =>
    List.subset_append_of_subset_left _ (Fields.names_dump fields x)
  | .branch _ _ _ rest, .inr x =>
    List.subset_append_of_subset_right _ (Branches.names_dump rest x)
termination_by structural b => b

end

end DatalogIntake

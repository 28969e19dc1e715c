import DatalogIntake.Proofs.Json.Numerals
import DatalogIntake.Proofs.Json.Strings

/-!
# Reading what was written

A written value is read back in every layout, whatever follows it, as long as that cannot go on with
a number (`readValue_write`). What a value has to satisfy is that no integer is too long for the
reader, that no object has a key twice and that there is room for its containers (`IsReadable`). A
whole text has nothing before and nothing behind its value, so it is read as that value
(`ofText?_toText`). -/

namespace DatalogIntake.Json

/-! ### Readable values -/

mutual

/-- A value that the reader can return where there is room for so many containers: its integers are
short enough, the keys of its objects are distinct, and its containers fit into the room. -/
def IsReadable : Json → Nat → Prop
  | .null, _ => True
  | .bool _, _ => True
  | .int n, _ => (Decimal.ofNat n.natAbs).length ≤ maxIntegerDigits
  | .double _, _ => True
  | .str _, _ => True
  | .arr _, 0 => False
  | .arr items, room + 1 => AreReadable items room
  | .obj _, 0 => False
  | .obj fields, room + 1 => (fields.map Prod.fst).Nodup ∧ HaveReadable fields room

/-- Items that the reader can return. -/
def AreReadable : List Json → Nat → Prop
  | [], _ => True
  | item :: rest, room => IsReadable item room ∧ AreReadable rest room

/-- Fields whose values the reader can return. -/
def HaveReadable : List (String × Json) → Nat → Prop
  | [], _ => True
  | (_, value) :: rest, room => IsReadable value room ∧ HaveReadable rest room

end

theorem areReadable_iff {items : List Json} {room : Nat} :
    AreReadable items room ↔ ∀ item ∈ items, IsReadable item room := by
  induction items with
  | nil => simp [AreReadable]
  | cons item rest ih => simp [AreReadable, ih]

theorem isReadable_of_lookup {key : String} {fields : List (String × Json)} {v : Json} {room : Nat}
    (h : HaveReadable fields room) (hv : lookup key fields = some v) : v.IsReadable room := by
  induction fields with
  | nil => cases hv
  | cons f rest ih =>
    rw [lookup] at hv
    split_ifs at hv with hkey
    · exact Option.some.inj hv ▸ h.1
    · exact ih h.2 hv

mutual

/-- What the reader can return, it can return where there is more room. -/
theorem IsReadable.mono : ∀ {v : Json} {room more : Nat}, v.IsReadable room → room ≤ more →
    v.IsReadable more
  | .null, _, _, _, _ => trivial
  | .bool _, _, _, _, _ => trivial
  | .int _, _, _, h, _ => h
  | .double _, _, _, _, _ => trivial
  | .str _, _, _, _, _ => trivial
  | .arr _, 0, _, h, _ => h.elim
  | .arr _, _ + 1, 0, _, hle => absurd hle (Nat.not_succ_le_zero _)
  | .arr _, _ + 1, _ + 1, h, hle => AreReadable.mono h (Nat.le_of_succ_le_succ hle)
  | .obj _, 0, _, h, _ => h.elim
  | .obj _, _ + 1, 0, _, hle => absurd hle (Nat.not_succ_le_zero _)
  | .obj _, _ + 1, _ + 1, h, hle => ⟨h.1, HaveReadable.mono h.2 (Nat.le_of_succ_le_succ hle)⟩

theorem AreReadable.mono : ∀ {items : List Json} {room more : Nat}, AreReadable items room →
    room ≤ more → AreReadable items more
  | [], _, _, _, _ => trivial
  | _ :: _, _, _, h, hle => ⟨IsReadable.mono h.1 hle, AreReadable.mono h.2 hle⟩

theorem HaveReadable.mono : ∀ {fields : List (String × Json)} {room more : Nat},
    HaveReadable fields room → room ≤ more → HaveReadable fields more
  | [], _, _, _, _ => trivial
  | (_, _) :: _, _, _, h, hle => ⟨IsReadable.mono h.1 hle, HaveReadable.mono h.2 hle⟩

end

/-! ### Fields -/

theorem setField_of_not_mem {key : String} {value : Json} {fields : List (String × Json)}
    (h : key ∉ fields.map Prod.fst) : setField key value fields = fields ++ [(key, value)] := by
  induction fields with
  | nil => rfl
  | cons f rest ih =>
    rw [List.map_cons, List.mem_cons, not_or] at h
    rw [setField, if_neg (Ne.symm h.1), ih h.2]
    rfl

theorem foldl_setField (members fields : List (String × Json))
    (h : ((fields ++ members).map Prod.fst).Nodup) :
    members.foldl (fun fields m => setField m.1 m.2 fields) fields = fields ++ members := by
  induction members generalizing fields with
  | nil => rw [List.foldl_nil, List.append_nil]
  | cons m members ih =>
    have hnew : m.1 ∉ fields.map Prod.fst := by
      rw [List.map_append, List.map_cons, List.nodup_append] at h
      exact fun hm => h.2.2 m.1 hm m.1 List.mem_cons_self rfl
    have hcons : fields ++ m :: members = fields ++ [m] ++ members := by
      rw [List.append_assoc, List.singleton_append]
    rw [hcons] at h ⊢
    rw [List.foldl_cons, setField_of_not_mem hnew]
    exact ih _ h

/-- Members with distinct keys are fields as they stand. -/
theorem fieldsOfMembers_of_nodup {members : List (String × Json)}
    (h : (members.map Prod.fst).Nodup) : fieldsOfMembers members = members :=
  foldl_setField members [] h

/-! ### Blanks -/

theorem skipGap_append {g : List Char} (hg : ∀ c ∈ g, isGap c = true) (s : List Char) :
    skipGap (g ++ s) = skipGap s :=
  List.dropWhile_append_of_pos hg

theorem skipGap_cons {c : Char} (h : isGap c = false) (s : List Char) :
    skipGap (c :: s) = c :: s := by
  rw [skipGap, List.dropWhile_cons, h, if_neg Bool.false_ne_true]

theorem isGap_of_mem_newline {layout : Layout} {level : Nat} :
    ∀ c ∈ layout.newline level, isGap c = true := by
  intro c hc
  cases layout with
  | line => exact absurd hc List.not_mem_nil
  | indented width =>
    rcases List.mem_cons.mp hc with rfl | hc
    · rfl
    · rw [List.eq_of_mem_replicate hc]; rfl

theorem separator_eq (layout : Layout) (level : Nat) :
    ∃ g, layout.separator level = ',' :: g ∧ ∀ c ∈ g, isGap c = true := by
  cases layout with
  | line => exact ⟨[' '], rfl, by simp [isGap]⟩
  | indented width => exact ⟨_, rfl, isGap_of_mem_newline⟩

/-! ### Scalars -/

theorem readScalar_of_numeral {s r : List Char} {n : Numeral} {v : Json}
    (h : readNumeral s = some (n, r)) (hv : n.value = .ok v) : readScalar s = .ok (v, r) := by
  unfold readScalar
  split
  iterate 6 cases h
  rw [h]
  dsimp only
  rw [hv]
  rfl

/-- What is read as a scalar starts none of the other values. -/
theorem readValue_of_scalar {s r : List Char} {v : Json} (room bound : Nat)
    (h : readScalar s = .ok (v, r)) : readValue room (bound + 1) s = .ok (v, r) := by
  unfold readValue
  split
  iterate 3 cases h
  exact h

theorem readValue_of_numeral {s r : List Char} {n : Numeral} {v : Json} (room bound : Nat)
    (h : readNumeral s = some (n, r)) (hv : n.value = .ok v) :
    readValue room (bound + 1) s = .ok (v, r) :=
  readValue_of_scalar room bound (readScalar_of_numeral h hv)

theorem readValue_text {n : Numeral} {v : Json} (room bound : Nat) (hn : n.IsProper)
    (hv : n.value = .ok v) {r : List Char} (hr : EndsNumeral r) :
    readValue room (bound + 1) (n.text ++ r) = .ok (v, r) :=
  readValue_of_numeral room bound (readNumeral_text hn hr) hv

/-- What is read as a value starts with neither a blank nor a closing bracket. -/
theorem starts_of_readValue {room bound : Nat} {s r : List Char} {v : Json}
    (h : readValue room bound s = .ok (v, r)) : skipGap s = s ∧ s.head? ≠ some ']' := by
  cases bound with
  | zero => cases h
  | succ bound =>
    cases s with
    | nil => cases h
    | cons c s =>
      have hgap : isGap c = false := by
        by_contra hc
        simp only [isGap, Bool.not_eq_false, Bool.or_eq_true, beq_iff_eq, or_assoc] at hc
        rcases hc with rfl | rfl | rfl | rfl <;> cases h
      refine ⟨skipGap_cons hgap s, fun hc => ?_⟩
      obtain rfl := Option.some.inj hc
      cases h

theorem starts_of_readItems {room bound : Nat} {s r : List Char} {items : List Json}
    (h : readItems room bound s = .ok (items, r)) : skipGap s = s ∧ s.head? ≠ some ']' := by
  cases bound with
  | zero => cases h
  | succ bound =>
    rw [readItems] at h
    cases hv : readValue room bound s with
    | error e => rw [hv] at h; cases h
    | ok x => exact starts_of_readValue hv

theorem starts_of_readMembers {room bound : Nat} {s r : List Char}
    {members : List (String × Json)} (h : readMembers room bound s = .ok (members, r)) :
    ∃ t, s = '"' :: t := by
  cases bound with
  | zero => cases h
  | succ bound =>
    unfold readMembers at h
    split at h
    · exact ⟨_, rfl⟩
    · cases h

/-! ### Containers -/

variable {room bound : Nat} {g s r : List Char}

theorem readValue_bracket {items : List Json} (hg : ∀ c ∈ g, isGap c = true)
    (h : readItems room bound s = .ok (items, r)) :
    readValue (room + 1) (bound + 1) ('[' :: (g ++ s)) = .ok (.arr items, r) := by
  obtain ⟨hs, hhead⟩ := starts_of_readItems h
  rw [readValue, enter_succ, skipGap_append hg, hs]
  split
  · exact absurd rfl hhead
  · rw [h, andThen_ok]

theorem readItems_last {v : Json} (hg : ∀ c ∈ g, isGap c = true)
    (h : readValue room bound s = .ok (v, g ++ ']' :: r)) :
    readItems room (bound + 1) s = .ok ([v], r) := by
  rw [readItems, h, andThen_ok, skipGap_append hg, skipGap_cons rfl]
  rfl

theorem readItems_next {v : Json} {t : List Char} {items : List Json}
    (hg : ∀ c ∈ g, isGap c = true) (h : readValue room bound s = .ok (v, ',' :: (g ++ t)))
    (ht : readItems room bound t = .ok (items, r)) :
    readItems room (bound + 1) s = .ok (v :: items, r) := by
  obtain ⟨hstart, -⟩ := starts_of_readItems ht
  have hskip : skipGap (g ++ t) = t := (skipGap_append hg t).trans hstart
  rw [readItems, h, andThen_ok, skipGap_cons rfl]
  show andThen (readItems room bound (skipGap (g ++ t))) _ = _
  rw [hskip, ht, andThen_ok]

theorem readValue_brace {members : List (String × Json)} (hg : ∀ c ∈ g, isGap c = true)
    (h : readMembers room bound s = .ok (members, r)) :
    readValue (room + 1) (bound + 1) ('{' :: (g ++ s)) =
      .ok (.obj (fieldsOfMembers members), r) := by
  obtain ⟨t, rfl⟩ := starts_of_readMembers h
  rw [readValue, enter_succ, skipGap_append hg, skipGap_cons rfl]
  show andThen (readMembers room bound ('"' :: t)) _ = _
  rw [h, andThen_ok]

theorem readMembers_cons {key : String} {v : Json} {t u : List Char}
    (hkey : readString t = .ok (key, ':' :: ' ' :: u)) (h : readValue room bound u = .ok (v, s)) :
    readMembers room (bound + 1) ('"' :: t) =
      match skipGap s with
      | '}' :: rest => .ok ([(key, v)], rest)
      | ',' :: rest => andThen (readMembers room bound (skipGap rest)) fun members rest =>
        .ok ((key, v) :: members, rest)
      | rest => .error (.malformed .comma rest.length) := by
  obtain ⟨hstart, -⟩ := starts_of_readValue h
  have hskip : skipGap (' ' :: u) = u := (skipGap_append (g := [' ']) (by simp [isGap]) u).trans hstart
  rw [readMembers, hkey, andThen_ok, skipGap_cons rfl]
  show andThen (readValue room bound (skipGap (' ' :: u))) _ = _
  rw [hskip, h]
  rfl

theorem readMembers_last {key : String} {v : Json} {t u : List Char}
    (hg : ∀ c ∈ g, isGap c = true) (hkey : readString t = .ok (key, ':' :: ' ' :: u))
    (h : readValue room bound u = .ok (v, g ++ '}' :: r)) :
    readMembers room (bound + 1) ('"' :: t) = .ok ([(key, v)], r) := by
  rw [readMembers_cons hkey h, skipGap_append hg, skipGap_cons rfl]
  rfl

theorem readMembers_next {key : String} {v : Json} {t u w : List Char}
    {members : List (String × Json)} (hg : ∀ c ∈ g, isGap c = true)
    (hkey : readString t = .ok (key, ':' :: ' ' :: u))
    (h : readValue room bound u = .ok (v, ',' :: (g ++ w)))
    (hw : readMembers room bound w = .ok (members, r)) :
    readMembers room (bound + 1) ('"' :: t) = .ok ((key, v) :: members, r) := by
  obtain ⟨w, rfl⟩ := starts_of_readMembers hw
  rw [readMembers_cons hkey h, skipGap_cons rfl]
  show andThen (readMembers room bound (skipGap (g ++ '"' :: w))) _ = _
  rw [skipGap_append hg, skipGap_cons rfl, hw, andThen_ok]

/-- What comes after an item: a separator, a blank or the closing bracket. -/
theorem endsNumeral_tail {s g r : List Char} {c : Char} (hg : ∀ d ∈ g, isGap d = true)
    (hs : s = [] ∨ s.head? = some ',') (hc : c = ']' ∨ c = '}') :
    EndsNumeral (s ++ (g ++ c :: r)) := by
  rcases hs with rfl | hs
  · cases g with
    | nil => rcases hc with rfl | rfl <;> exact .cons (by decide) _
    | cons d g =>
      have hd := hg d List.mem_cons_self
      simp only [isGap, Bool.or_eq_true, beq_iff_eq, or_assoc] at hd
      rcases hd with rfl | rfl | rfl | rfl <;> exact .cons (by decide) _
  · obtain ⟨d, t, rfl⟩ := List.exists_cons_of_ne_nil (l := s) (by rintro rfl; cases hs)
    obtain rfl := Option.some.inj hs
    exact .cons (by decide) _

theorem separator_append_head (layout : Layout) (level : Nat) (s : List Char) :
    (layout.separator level ++ s).head? = some ',' := by
  obtain ⟨g, hg, -⟩ := separator_eq layout level
  rw [hg]
  rfl

theorem writeItems_head (layout : Layout) (level : Nat) (items : List Json) :
    writeItems layout level items = [] ∨ (writeItems layout level items).head? = some ',' := by
  cases items with
  | nil => exact Or.inl rfl
  | cons item rest =>
    rw [writeItems, List.append_assoc]
    exact Or.inr (separator_append_head layout level _)

theorem writeFields_head (layout : Layout) (level : Nat) (fields : List (String × Json)) :
    writeFields layout level fields = [] ∨
      (writeFields layout level fields).head? = some ',' := by
  cases fields with
  | nil => exact Or.inl rfl
  | cons f rest =>
    rw [writeFields, List.append_assoc, List.append_assoc]
    exact Or.inr (separator_append_head layout level _)

mutual

/-- **A written value is read back**, in any room that it can be read in and within any bound beyond
its length. -/
theorem readValue_write (layout : Layout) : ∀ (v : Json) (level room bound : Nat) (r : List Char),
    v.IsReadable room → (write layout level v).length < bound → EndsNumeral r →
    readValue room bound (write layout level v ++ r) = .ok (v, r)
  | _, _, _, 0, _, _, hb, _ => absurd hb (Nat.not_lt_zero _)
  | .null, _, _, _ + 1, _, _, _, _ => rfl
  | .bool true, _, _, _ + 1, _, _, _, _ => rfl
  | .bool false, _, _, _ + 1, _, _, _, _ => rfl
  | .int n, _, room, bound + 1, r, hv, _, hr => by
    rw [write, ← Numeral.text_ofInt]
    exact readValue_text room bound (Numeral.isProper_ofInt n) (Numeral.value_ofInt hv) hr
  | .double .nan, _, _, _ + 1, _, _, _, _ => rfl
  | .double (.infinite false), _, _, _ + 1, _, _, _, _ => rfl
  | .double (.infinite true), _, _, _ + 1, _, _, _, _ => rfl
  | .double (.finite x), _, room, bound + 1, r, _, _, hr => by
    obtain ⟨n, hn, htext, hvalue⟩ := Numeral.exists_shortText x
    rw [write, Binary64.jsonText, ← htext]
    exact readValue_text room bound hn hvalue hr
  | .str s, _, _, bound + 1, r, _, _, _ => by
    obtain ⟨t, htext, hread⟩ := readString_writeString s r
    rw [write, htext, List.cons_append, readValue, hread]
    rfl
  | .arr _, _, 0, _ + 1, _, hv, _, _ => hv.elim
  | .obj _, _, 0, _ + 1, _, hv, _, _ => hv.elim
  | .arr [], _, _ + 1, _ + 1, _, _, _, _ => rfl
  | .obj [], _, _ + 1, _ + 1, _, _, _, _ => rfl
  | .arr (item :: rest), level, room + 1, bound + 1, r, hv, hb, _ => by
    simp only [write, List.length_append, List.length_cons] at hb
    have hitems := readItems_write layout item rest (level + 1) room bound (layout.newline level) r
      hv isGap_of_mem_newline (by omega)
    have hread := readValue_bracket (g := layout.newline (level + 1)) isGap_of_mem_newline hitems
    simpa [write] using hread
  | .obj ((key, value) :: rest), level, room + 1, bound + 1, r, hv, hb, _ => by
    simp only [write, List.length_append, List.length_cons] at hb
    have hmembers := readMembers_write layout key value rest (level + 1) room bound
      (layout.newline level) r hv.2 isGap_of_mem_newline (by omega)
    have hread := readValue_brace (g := layout.newline (level + 1)) isGap_of_mem_newline hmembers
    rw [fieldsOfMembers_of_nodup hv.1] at hread
    simpa [write] using hread
termination_by structural _ _ _ bound => bound

theorem readItems_write (layout : Layout) : ∀ (item : Json) (rest : List Json)
    (level room bound : Nat) (g r : List Char), AreReadable (item :: rest) room →
    (∀ c ∈ g, isGap c = true) →
    (write layout level item).length + (writeItems layout level rest).length + 1 < bound →
    readItems room bound (write layout level item ++
      (writeItems layout level rest ++ (g ++ ']' :: r))) = .ok (item :: rest, r)
  | _, _, _, _, 0, _, _, _, _, hb => absurd hb (Nat.not_lt_zero _)
  | item, [], level, room, bound + 1, g, r, hv, hg, hb => by
    exact readItems_last hg (readValue_write layout item level room bound (g ++ ']' :: r) hv.1
      (by omega) (endsNumeral_tail hg (Or.inl rfl) (Or.inl rfl)))
  | item, next :: rest, level, room, bound + 1, g, r, hv, hg, hb => by
    obtain ⟨gap, hsep, hgap⟩ := separator_eq layout level
    have hitem := readValue_write layout item level room bound
      (writeItems layout level (next :: rest) ++ (g ++ ']' :: r)) hv.1 (by omega)
      (endsNumeral_tail hg (writeItems_head layout level _) (Or.inl rfl))
    simp only [writeItems, hsep, List.length_append, List.length_cons] at hb
    have hrest := readItems_write layout next rest level room bound g r hv.2 hg (by omega)
    refine readItems_next (g := gap) hgap ?_ hrest
    simpa [writeItems, hsep] using hitem
termination_by structural _ _ _ _ bound => bound

theorem readMembers_write (layout : Layout) : ∀ (key : String) (value : Json)
    (rest : List (String × Json)) (level room bound : Nat)
    (g r : List Char), HaveReadable ((key, value) :: rest) room → (∀ c ∈ g, isGap c = true) →
    (write layout level value).length + (writeFields layout level rest).length + 1 < bound →
    readMembers room bound (writeString key ++ ':' :: ' ' :: (write layout level value ++
      (writeFields layout level rest ++ (g ++ '}' :: r)))) = .ok ((key, value) :: rest, r)
  | _, _, _, _, _, 0, _, _, _, _, hb => absurd hb (Nat.not_lt_zero _)
  | key, value, [], level, room, bound + 1, g, r, hv, hg, hb => by
    have hvalue := readValue_write layout value level room bound (g ++ '}' :: r) hv.1 (by omega)
      (endsNumeral_tail hg (Or.inl rfl) (Or.inr rfl))
    obtain ⟨t, htext, hkey⟩ := readString_writeString key
      (':' :: ' ' :: (write layout level value ++ (g ++ '}' :: r)))
    rw [htext]
    exact readMembers_last hg hkey hvalue
  | key, value, (next, v) :: rest, level, room, bound + 1, g, r, hv, hg, hb => by
    obtain ⟨gap, hsep, hgap⟩ := separator_eq layout level
    have hvalue := readValue_write layout value level room bound
      (writeFields layout level ((next, v) :: rest) ++ (g ++ '}' :: r)) hv.1 (by omega)
      (endsNumeral_tail hg (writeFields_head layout level _) (Or.inr rfl))
    obtain ⟨t, htext, hkey⟩ := readString_writeString key (':' :: ' ' ::
      (write layout level value ++ (writeFields layout level ((next, v) :: rest) ++ (g ++ '}' :: r))))
    simp only [writeFields, hsep, List.length_append, List.length_cons] at hb
    have hrest := readMembers_write layout next v rest level room bound g r hv.2 hg (by omega)
    rw [htext]
    refine readMembers_next (g := gap) hgap hkey ?_ hrest
    simpa [writeFields, hsep] using hvalue
termination_by structural _ _ _ _ _ bound => bound

end

/-- **A written text is read as the value that was written**, in every layout. -/
theorem ofText?_toText {v : Json} {room : Nat} (hv : v.IsReadable room) (layout : Layout) :
    ofText? room (v.toText layout) = .ok v := by
  have hread := readValue_write layout v 0 room (2 * (write layout 0 v).length + 1) [] hv
    (by omega) endsNumeral_nil
  rw [List.append_nil] at hread
  obtain ⟨hstart, -⟩ := starts_of_readValue hread
  unfold ofText? toText ofChars? readWholeText
  rw [String.toList_ofList]
  split
  · next rest heq =>
    rw [heq] at hread
    cases hread
  · rw [hstart, hread]
    rfl

end DatalogIntake.Json

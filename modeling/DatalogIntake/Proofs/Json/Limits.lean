import DatalogIntake.Proofs.Json.Nesting
import DatalogIntake.Proofs.Json.RoundTrip

/-!
# Limits of the reader

What the reader returns is a value that it could read again in the same room: its integers have
few enough digits, the keys of its objects are distinct and its containers fit
(`isReadable_of_ofText?`).
A text that goes beyond a limit of the reader shows it: it has a run of so many digits, or its
containers nest deeper than there is room for (`shows_of_overrun`), so a short text that nests no
deeper never does (`not_overruns_of_length_le`). Apart from that the room makes no difference: with
more of it, a text is read as the same value or refused for the same reason (`ofChars?_of_le`). So a
text of JSON goes beyond a limit just when it nests too deep (`overruns_iff`). -/

namespace DatalogIntake

open Decimal

/-! ### Digits -/

theorem Decimal.toNat_digit_le {c : Char} (h : c.isDigit = true) : toNat [c] ≤ 9 := by
  have hle : c.toNat ≤ '9'.toNat := (Char.isDigit_iff_toNat.mp h).2
  have hnine : '9'.toNat = 57 := rfl
  have hzero : '0'.toNat = 48 := rfl
  have : toNat [c] = c.toNat - '0'.toNat := by simp [toNat, Nat.ofDigitChars]
  omega

theorem Decimal.toNat_lt {s : List Char} (h : AreDigits s) : toNat s < 10 ^ s.length := by
  induction s with
  | nil => decide
  | cons c s ih =>
    have hc := toNat_digit_le (h c List.mem_cons_self)
    have hs := ih fun d hd => h d (List.mem_cons_of_mem c hd)
    have hcons : toNat (c :: s) = toNat [c] * 10 ^ s.length + toNat s := toNat_append [c] s
    have hmul := Nat.mul_le_mul_right (10 ^ s.length) hc
    rw [hcons, List.length_cons, Nat.pow_succ]
    omega

namespace Json

/-! ### Numbers -/

theorem readWhole_eq_some {s digits rest : List Char} (h : readWhole s = some (digits, rest)) :
    s = digits ++ rest ∧ IsWhole digits := by
  unfold readWhole at h
  split at h
  · cases h
  · next c s =>
    split_ifs at h with hzero hdigit
    · cases h
      exact ⟨hzero ▸ rfl, Or.inl rfl⟩
    · cases h
      have hdigits : AreDigits (s.takeWhile Char.isDigit) := fun _ hd => List.mem_takeWhile_imp hd
      refine ⟨by rw [List.cons_append, List.takeWhile_append_dropWhile], Or.inr ⟨?_, by simp, ?_⟩⟩
      · exact AreDigits.append (a := [c]) (by simpa [AreDigits] using hdigit) hdigits
      · simpa using hzero

/-- The whole part of a number is a run of digits of the text. -/
theorem readNumeral_whole {s rest : List Char} {n : Numeral}
    (h : readNumeral s = some (n, rest)) : n.whole <:+: s ∧ IsWhole n.whole := by
  unfold readNumeral at h
  dsimp only at h
  split at h
  · cases h
  · next digits r hwhole =>
    cases h
    obtain ⟨hs, hdigits⟩ := readWhole_eq_some hwhole
    refine ⟨?_, hdigits⟩
    split at hs
    · exact ⟨['-'], r, by rw [List.append_assoc, ← hs]; rfl⟩
    · exact ⟨[], r, hs.symm⟩

theorem Numeral.isReadable_of_value {n : Numeral} {v : Json} (room : Nat) (hn : IsWhole n.whole)
    (h : n.value = .ok v) : v.IsReadable room := by
  have hpos : 0 < maxIntegerDigits := by decide
  unfold value at h
  split_ifs at h with _ hlength
  · cases h
    have hnat : (toInt n.isNegative n.whole).natAbs = toNat n.whole := by
      unfold toInt
      split_ifs <;> simp
    show (ofNat (toInt n.isNegative n.whole).natAbs).length ≤ maxIntegerDigits
    rw [hnat, length_ofNat_le_iff hpos]
    exact (toNat_lt hn.areDigits).trans_le (Nat.pow_le_pow_right (by decide) hlength)
  · cases h
    trivial

/-- A scalar is a word for a value that can be read again, or a number, or neither. -/
theorem readScalar_cases (s : List Char) :
    (∃ v rest, (∀ room, v.IsReadable room) ∧ readScalar s = .ok (v, rest)) ∨
      (∃ n rest, readNumeral s = some (n, rest) ∧ readScalar s = n.value.map (·, rest)) ∨
        readScalar s = .error (.malformed .value s.length) := by
  unfold readScalar
  split
  iterate 6 exact Or.inl ⟨_, _, by intro; trivial, rfl⟩
  cases hn : readNumeral s with
  | none => exact Or.inr (Or.inr rfl)
  | some m => exact Or.inr (Or.inl ⟨m.1, m.2, rfl, rfl⟩)

theorem readScalar_isReadable {s rest : List Char} {v : Json} (room : Nat)
    (h : readScalar s = .ok (v, rest)) : v.IsReadable room := by
  rcases readScalar_cases s with ⟨w, r, hw, hs⟩ | ⟨n, r, hn, hs⟩ | hs
  · cases h.symm.trans hs
    exact hw room
  · rw [hs] at h
    cases hv : n.value with
    | error e => rw [hv] at h; cases h
    | ok x =>
      rw [hv] at h
      cases h
      exact n.isReadable_of_value room (readNumeral_whole hn).2 hv
  · cases h.symm.trans hs

/-! ### Fields -/

theorem map_fst_setField (key : String) (value : Json) (fields : List (String × Json)) :
    (setField key value fields).map Prod.fst =
      if key ∈ fields.map Prod.fst then fields.map Prod.fst else fields.map Prod.fst ++ [key] := by
  induction fields with
  | nil => simp [setField]
  | cons f rest ih =>
    by_cases hkey : f.1 = key
    · simp [setField, hkey]
    · rw [setField, if_neg hkey, List.map_cons, ih]
      simp only [List.map_cons, List.mem_cons, Ne.symm hkey, false_or]
      split_ifs <;> rfl

/-- Fields whose keys are distinct and whose values can be read. -/
def AreFields (fields : List (String × Json)) (room : Nat) : Prop :=
  (fields.map Prod.fst).Nodup ∧ HaveReadable fields room

variable {room : Nat}

theorem haveReadable_setField {key : String} {value : Json} {fields : List (String × Json)}
    (hvalue : value.IsReadable room) (h : HaveReadable fields room) :
    HaveReadable (setField key value fields) room := by
  induction fields with
  | nil => exact ⟨hvalue, trivial⟩
  | cons f rest ih =>
    obtain ⟨hf, hrest⟩ := h
    by_cases hkey : f.1 = key
    · rw [setField, if_pos hkey]
      exact ⟨hvalue, hrest⟩
    · rw [setField, if_neg hkey]
      exact ⟨hf, ih hrest⟩

theorem AreFields.setField {key : String} {value : Json} {fields : List (String × Json)}
    (h : AreFields fields room) (hvalue : value.IsReadable room) :
    AreFields (setField key value fields) room := by
  refine ⟨?_, haveReadable_setField hvalue h.2⟩
  rw [map_fst_setField]
  split_ifs with hmem
  · exact h.1
  · rw [List.nodup_append]
    refine ⟨h.1, by simp, fun a ha b hb => ?_⟩
    rw [List.mem_singleton.mp hb]
    exact fun e => hmem (e ▸ ha)

theorem areFields_fieldsOfMembers {members : List (String × Json)}
    (h : HaveReadable members room) : AreFields (fieldsOfMembers members) room := by
  have hfold : ∀ fields, AreFields fields room →
      AreFields (members.foldl (fun fields m => Json.setField m.1 m.2 fields) fields) room := by
    induction members with
    | nil => exact fun _ hfields => hfields
    | cons m rest ih => exact fun fields hfields => ih h.2 _ (hfields.setField h.1)
  exact hfold [] ⟨List.nodup_nil, trivial⟩

/-! ### Values -/

/-- What is read within a bound can be read again. -/
structure ReadsReadable (bound : Nat) : Prop where
  value : ∀ {room s rest v}, readValue room bound s = .ok (v, rest) → v.IsReadable room
  items : ∀ {room s rest items}, readItems room bound s = .ok (items, rest) →
    AreReadable items room
  members : ∀ {room s rest members}, readMembers room bound s = .ok (members, rest) →
    HaveReadable members room

theorem readValue_isReadable {bound : Nat} (ih : ReadsReadable bound) {s rest : List Char}
    {v : Json} (h : readValue room (bound + 1) s = .ok (v, rest)) : v.IsReadable room := by
  unfold readValue at h
  split at h
  · obtain ⟨text, r, -, h⟩ := andThen_eq_ok h
    cases h
    trivial
  · obtain ⟨left, rfl, h⟩ := enter_eq_ok h
    split at h
    · cases h
      exact ⟨List.nodup_nil, trivial⟩
    · obtain ⟨members, r, hm, h⟩ := andThen_eq_ok h
      cases h
      exact areFields_fieldsOfMembers (ih.members hm)
  · obtain ⟨left, rfl, h⟩ := enter_eq_ok h
    split at h
    · cases h
      trivial
    · obtain ⟨items, r, hi, h⟩ := andThen_eq_ok h
      cases h
      exact ih.items hi
  · exact readScalar_isReadable room h

theorem readItems_areReadable {bound : Nat} (ih : ReadsReadable bound) {s rest : List Char}
    {items : List Json} (h : readItems room (bound + 1) s = .ok (items, rest)) :
    AreReadable items room := by
  unfold readItems at h
  obtain ⟨item, r, hv, h⟩ := andThen_eq_ok h
  split at h
  · cases h
    exact ⟨ih.value hv, trivial⟩
  · obtain ⟨items', t, hi, h⟩ := andThen_eq_ok h
    cases h
    exact ⟨ih.value hv, ih.items hi⟩
  · cases h

theorem readMembers_haveReadable {bound : Nat} (ih : ReadsReadable bound) {s rest : List Char}
    {members : List (String × Json)} (h : readMembers room (bound + 1) s = .ok (members, rest)) :
    HaveReadable members room := by
  unfold readMembers at h
  split at h
  · obtain ⟨key, r, -, h⟩ := andThen_eq_ok h
    split at h
    · obtain ⟨value, t, hv, h⟩ := andThen_eq_ok h
      split at h
      · cases h
        exact ⟨ih.value hv, trivial⟩
      · obtain ⟨members', t', hm, h⟩ := andThen_eq_ok h
        cases h
        exact ⟨ih.value hv, ih.members hm⟩
      · cases h
    · cases h
  · cases h

theorem readsReadable (bound : Nat) : ReadsReadable bound := by
  induction bound with
  | zero => refine ⟨fun h => ?_, fun h => ?_, fun h => ?_⟩ <;> cases h
  | succ bound ih =>
    exact ⟨readValue_isReadable ih, readItems_areReadable ih, readMembers_haveReadable ih⟩

/-- **What a text is read as can be read again**, in the same room. -/
theorem isReadable_of_ofText? {text : String} {v : Json} (h : ofText? room text = .ok v) :
    v.IsReadable room := by
  obtain ⟨rest, hvalue, -⟩ := readValue_of_ofChars? h
  exact (readsReadable _).value hvalue

/-! ### Beyond a limit -/

/-- What a text shows that goes beyond a limit: a run of as many digits as were too many, or
containers that nest deeper than there is room for. -/
def Overrun.Shows (room : Nat) (s : List Char) : Overrun → Prop
  | .longInteger n =>
    maxIntegerDigits < n ∧ ∃ digits, digits <:+: s ∧ AreDigits digits ∧ digits.length = n
  | .deepNesting _ => room < nesting s

/-- A text shows what the remainder after a regular part of it does. -/
theorem Overrun.Shows.before {d : Nat} {s rest : List Char} {e : Overrun} (h : e.Shows room rest)
    (hs : TakesRegular d s rest) : e.Shows room s := by
  obtain ⟨u, rfl, hu⟩ := hs
  cases e with
  | longInteger n =>
    obtain ⟨hlong, digits, hwithin, hdigits⟩ := h
    exact ⟨hlong, digits, hwithin.trans (List.suffix_append u rest).isInfix, hdigits⟩
  | deepNesting container => exact Nat.lt_of_lt_of_le h (hu.nesting_le rest).1

/-- Around a container there is more room, and one more container is open. -/
theorem Overrun.Shows.opened {rest : List Char} {e : Overrun} {c : Char} (h : e.Shows room rest)
    (hc : isOpening c = true) : e.Shows (room + 1) (c :: rest) := by
  cases e with
  | longInteger n =>
    obtain ⟨hlong, digits, hwithin, hdigits⟩ := h
    exact ⟨hlong, digits, hwithin.trans (List.suffix_cons c rest).isInfix, hdigits⟩
  | deepNesting container =>
    show room + 1 < nesting (c :: rest)
    rw [nesting_opening hc]
    exact Nat.succ_lt_succ h

theorem andThen_eq_error {α β : Type} {r : Reading α} {next : α → List Char → Reading β} {e : Stop}
    (h : andThen r next = .error e) :
    r = .error e ∨ ∃ a rest, r = .ok (a, rest) ∧ next a rest = .error e := by
  cases r with
  | error e' => cases h; exact Or.inl rfl
  | ok x => exact Or.inr ⟨x.1, x.2, rfl, h⟩

theorem readUnits_ne_overrun (opening : Nat) (s : List Char) (e : Overrun) :
    readUnits opening s ≠ .error (.overrun e) := by
  have hcons : ∀ {u : Nat} {r : Reading (List Nat)}, consUnit u r = .error (.overrun e) →
      r = .error (.overrun e) := by
    intro u r h
    rcases andThen_eq_error h with h | ⟨_, _, _, h⟩
    · exact h
    · cases h
  intro h
  fun_induction readUnits opening s with
  | case4 _ _ _ _ _ _ _ _ ih => exact ih (hcons h)
  | case7 _ _ _ _ _ _ ih => exact ih (hcons h)
  | case10 _ _ _ _ _ _ _ _ ih => exact ih (hcons h)
  | _ => cases h

theorem readString_ne_overrun (s : List Char) (e : Overrun) :
    readString s ≠ .error (.overrun e) := by
  intro h
  rcases andThen_eq_error h with h | ⟨_, _, _, h⟩
  · exact readUnits_ne_overrun _ _ _ h
  · cases h

theorem readScalar_overrun {s : List Char} {e : Overrun} (room : Nat)
    (h : readScalar s = .error (.overrun e)) : e.Shows room s := by
  rcases readScalar_cases s with ⟨v, r, -, hs⟩ | ⟨m, r, hm, hs⟩ | hs
  · cases h.symm.trans hs
  · rw [hs] at h
    obtain ⟨hwithin, hwhole⟩ := readNumeral_whole hm
    unfold Numeral.value at h
    split_ifs at h with _ hlength
    · cases h
    · cases h
      exact ⟨Nat.lt_of_not_le hlength, m.whole, hwithin, hwhole.areDigits, rfl⟩
    · cases h
  · cases h.symm.trans hs

/-- Within a bound the reader goes beyond a limit only where the text shows it. -/
structure StopsWithSign (bound : Nat) : Prop where
  value : ∀ {room s e}, readValue room bound s = .error (.overrun e) → e.Shows room s
  items : ∀ {room s e}, readItems room bound s = .error (.overrun e) → e.Shows room s
  members : ∀ {room s e}, readMembers room bound s = .error (.overrun e) → e.Shows room s

/-- A container goes beyond a limit where it opens, or inside. -/
theorem enter_overrun {α : Type} {container : Container} {inside : Nat → Reading α} {e : Overrun}
    {c : Char} {rest : List Char} (hc : isOpening c = true)
    (hinside : ∀ left, inside left = .error (.overrun e) → e.Shows left rest)
    (h : enter container room inside = .error (.overrun e)) : e.Shows room (c :: rest) := by
  cases room with
  | zero =>
    cases h
    show 0 < nesting (c :: rest)
    rw [nesting_opening hc]
    exact Nat.succ_pos _
  | succ left => exact (hinside left h).opened hc

theorem readValue_overrun {bound : Nat} (ih : StopsWithSign bound) {s : List Char} {e : Overrun}
    (h : readValue room (bound + 1) s = .error (.overrun e)) : e.Shows room s := by
  unfold readValue at h
  split at h
  · rcases andThen_eq_error h with h | ⟨_, _, _, h⟩
    · exact absurd h (readString_ne_overrun _ _)
    · cases h
  · refine enter_overrun rfl (fun left h => ?_) h
    split at h
    · cases h
    · rcases andThen_eq_error h with h | ⟨_, _, _, h⟩
      · exact (ih.members h).before (skipGap_takes (d := 0) _)
      · cases h
  · refine enter_overrun rfl (fun left h => ?_) h
    split at h
    · cases h
    · rcases andThen_eq_error h with h | ⟨_, _, _, h⟩
      · exact (ih.items h).before (skipGap_takes (d := 0) _)
      · cases h
  · exact readScalar_overrun room h

theorem readItems_overrun {bound : Nat} (ih : StopsWithSign bound) {s : List Char} {e : Overrun}
    (h : readItems room (bound + 1) s = .error (.overrun e)) : e.Shows room s := by
  unfold readItems at h
  rcases andThen_eq_error h with h | ⟨item, r, hv, h⟩
  · exact ih.value h
  have hr := (readsRegular bound).value hv
  split at h
  · cases h
  · next r' hs =>
    rcases andThen_eq_error h with h | ⟨_, _, _, h⟩
    · exact (ih.items h).before
        (hr.trans ((takesRegular_token hs (by decide)).trans (skipGap_takes r')))
    · cases h
  · cases h

theorem readMembers_overrun {bound : Nat} (ih : StopsWithSign bound) {s : List Char} {e : Overrun}
    (h : readMembers room (bound + 1) s = .error (.overrun e)) : e.Shows room s := by
  unfold readMembers at h
  split at h
  · rcases andThen_eq_error h with h | ⟨key, r, hk, h⟩
    · exact absurd h (readString_ne_overrun _ _)
    have hr := readString_takes (d := room) hk
    split at h
    · next r' hcolon =>
      have hr' := hr.trans ((takesRegular_token hcolon (by decide)).trans (skipGap_takes r'))
      rcases andThen_eq_error h with h | ⟨value, t, hv, h⟩
      · exact (ih.value h).before hr'
      have ht := hr'.trans ((readsRegular bound).value hv)
      split at h
      · cases h
      · next t' hs =>
        rcases andThen_eq_error h with h | ⟨_, _, _, h⟩
        · exact (ih.members h).before
            (ht.trans ((takesRegular_token hs (by decide)).trans (skipGap_takes t')))
        · cases h
      · cases h
    · cases h
  · cases h

theorem stopsWithSign (bound : Nat) : StopsWithSign bound := by
  induction bound with
  | zero => refine ⟨fun h => ?_, fun h => ?_, fun h => ?_⟩ <;> cases h
  | succ bound ih =>
    exact ⟨readValue_overrun ih, readItems_overrun ih, readMembers_overrun ih⟩

theorem ofChars?_eq_overrun {s : List Char} {e : Overrun} :
    ofChars? room s = .error (.overrun e) ↔ readWholeText room s = .error (.overrun e) := by
  unfold ofChars?
  cases readWholeText room s with
  | ok v => simp [Except.mapError]
  | error stop => cases stop <;> simp [Except.mapError, Stop.toError]

/-- **A text that goes beyond a limit shows it.** -/
theorem shows_of_overrun {s : List Char} {e : Overrun}
    (h : ofChars? room s = .error (.overrun e)) : e.Shows room s := by
  rw [ofChars?_eq_overrun] at h
  unfold readWholeText at h
  split at h
  · cases h
  · split at h
    · next stop hvalue =>
      obtain rfl := Except.error.inj h
      exact ((stopsWithSign _).value hvalue).before (skipGap_takes (d := 0) s)
    · split at h <;> cases h

/-! ### More room -/

/-- The reader stops where a container has no room. -/
def IsDeep {α : Type} (r : Except Stop α) : Prop :=
  ∃ container, r = .error (.overrun (.deepNesting container))

/-- Both readings are the same, unless the first one stops for want of room. -/
def Agree {α : Type} (r r' : Except Stop α) : Prop := r = r' ∨ IsDeep r

theorem Agree.andThen {α β : Type} {r r' : Reading α} {next next' : α → List Char → Reading β}
    (h : Agree r r') (hnext : ∀ a rest, Agree (next a rest) (next' a rest)) :
    Agree (andThen r next) (andThen r' next') := by
  rcases h with rfl | ⟨container, rfl⟩
  · cases r with
    | error e => exact Or.inl rfl
    | ok x => exact hnext x.1 x.2
  · exact Or.inr ⟨container, rfl⟩

theorem agree_enter {α : Type} {container : Container} {more : Nat} {inside : Nat → Reading α}
    (hle : room ≤ more)
    (h : ∀ left left', left ≤ left' → Agree (inside left) (inside left')) :
    Agree (enter container room inside) (enter container more inside) := by
  cases room with
  | zero => exact Or.inr ⟨container, rfl⟩
  | succ left =>
    obtain ⟨left', rfl⟩ : ∃ left', more = left' + 1 := ⟨more - 1, by omega⟩
    exact h left left' (Nat.le_of_succ_le_succ hle)

/-- Within a bound more room makes no other difference. -/
structure AgreesWithMore (bound : Nat) : Prop where
  value : ∀ {room more} s, room ≤ more → Agree (readValue room bound s) (readValue more bound s)
  items : ∀ {room more} s, room ≤ more → Agree (readItems room bound s) (readItems more bound s)
  members : ∀ {room more} s, room ≤ more →
    Agree (readMembers room bound s) (readMembers more bound s)

theorem readValue_agree {bound : Nat} (ih : AgreesWithMore bound) {more : Nat} (s : List Char)
    (hle : room ≤ more) : Agree (readValue room (bound + 1) s) (readValue more (bound + 1) s) := by
  by_cases hobject : ∃ rest, s = '{' :: rest
  · obtain ⟨rest, rfl⟩ := hobject
    refine agree_enter hle fun left left' hleft => ?_
    split
    · exact Or.inl rfl
    · exact (ih.members _ hleft).andThen fun _ _ => Or.inl rfl
  by_cases harray : ∃ rest, s = '[' :: rest
  · obtain ⟨rest, rfl⟩ := harray
    refine agree_enter hle fun left left' hleft => ?_
    split
    · exact Or.inl rfl
    · exact (ih.items _ hleft).andThen fun _ _ => Or.inl rfl
  refine Or.inl ?_
  unfold readValue
  split
  · rfl
  · exact absurd ⟨_, rfl⟩ hobject
  · exact absurd ⟨_, rfl⟩ harray
  · rfl

theorem readItems_agree {bound : Nat} (ih : AgreesWithMore bound) {more : Nat} (s : List Char)
    (hle : room ≤ more) : Agree (readItems room (bound + 1) s) (readItems more (bound + 1) s) := by
  refine (ih.value s hle).andThen fun item rest => ?_
  split
  · exact Or.inl rfl
  · exact (ih.items _ hle).andThen fun _ _ => Or.inl rfl
  · exact Or.inl rfl

theorem readMembers_agree {bound : Nat} (ih : AgreesWithMore bound) {more : Nat} (s : List Char)
    (hle : room ≤ more) :
    Agree (readMembers room (bound + 1) s) (readMembers more (bound + 1) s) := by
  unfold readMembers
  split
  · refine Agree.andThen (Or.inl rfl) fun key rest => ?_
    split
    · refine (ih.value _ hle).andThen fun value rest => ?_
      split
      · exact Or.inl rfl
      · exact (ih.members _ hle).andThen fun _ _ => Or.inl rfl
      · exact Or.inl rfl
    · exact Or.inl rfl
  · exact Or.inl rfl

theorem agreesWithMore (bound : Nat) : AgreesWithMore bound := by
  induction bound with
  | zero => exact ⟨fun _ _ => Or.inl rfl, fun _ _ => Or.inl rfl, fun _ _ => Or.inl rfl⟩
  | succ bound ih => exact ⟨readValue_agree ih, readItems_agree ih, readMembers_agree ih⟩

/-- **More room makes no other difference.** A text is read as the same value or refused for the
same reason, unless it is nested too deep for the smaller room. -/
theorem ofChars?_of_le {more : Nat} (hle : room ≤ more) (s : List Char) :
    ofChars? room s = ofChars? more s ∨
      ∃ container, ofChars? room s = .error (.overrun (.deepNesting container)) := by
  have hwhole : Agree (readWholeText room s) (readWholeText more s) := by
    unfold readWholeText
    split
    · exact Or.inl rfl
    · rcases (agreesWithMore (2 * s.length + 1)).value (skipGap s) hle with h | ⟨container, h⟩
      · rw [h]
        exact Or.inl rfl
      · rw [h]
        exact Or.inr ⟨container, rfl⟩
  rcases hwhole with h | ⟨container, h⟩
  · exact Or.inl (by rw [ofChars?, ofChars?, h])
  · exact Or.inr ⟨container, ofChars?_eq_overrun.mpr h⟩

/-- A text that is read in one room is read in another as the same value, or is nested too deep. -/
theorem ofChars?_of_eq_ok (room : Nat) {more : Nat} {s : List Char} {v : Json}
    (h : ofChars? more s = .ok v) :
    ofChars? room s = .ok v ∨
      ∃ container, ofChars? room s = .error (.overrun (.deepNesting container)) := by
  rcases Nat.le_total room more with hle | hle
  · exact (ofChars?_of_le hle s).imp_left (·.trans h)
  · rcases ofChars?_of_le hle s with hsame | ⟨container, hdeep⟩
    · exact Or.inl (hsame.symm.trans h)
    · cases h.symm.trans hdeep

/-- A value whose text can be read in more room, but not in this one, is nested too deep. -/
theorem ofText?_toText_deep {v : Json} {more : Nat} (hv : v.IsReadable more)
    (hdeep : ¬v.IsReadable room) (layout : Layout) :
    ∃ container,
      ofText? room (v.toText layout) = .error (.overrun (.deepNesting container)) :=
  (ofChars?_of_eq_ok room (ofText?_toText hv layout)).resolve_left fun h =>
    hdeep (isReadable_of_ofText? h)

end Json

/-- Reading a text goes beyond a limit of the reader. -/
def Overruns (room : Nat) (s : List Char) : Prop :=
  ∃ e, Json.ofChars? room s = .error (.overrun e)

/-- **A text without long runs of digits that nests no deeper than there is room for goes beyond no
limit.** -/
theorem not_overruns {room : Nat} {s : List Char}
    (hdigits : ∀ digits, digits <:+: s → AreDigits digits →
      digits.length ≤ Json.maxIntegerDigits)
    (hnesting : Json.nesting s ≤ room) : ¬Overruns room s := by
  rintro ⟨e, he⟩
  have hshows := Json.shows_of_overrun he
  cases e with
  | longInteger n =>
    obtain ⟨hlong, digits, hwithin, hrun, rfl⟩ := hshows
    exact absurd (hdigits digits hwithin hrun) (Nat.not_le.mpr hlong)
  | deepNesting container => exact absurd hnesting (Nat.not_le.mpr hshows)

/-- So does a text that is itself no longer than an integer literal may be. -/
theorem not_overruns_of_length_le {room : Nat} {s : List Char}
    (hlength : s.length ≤ Json.maxIntegerDigits) (hnesting : Json.nesting s ≤ room) :
    ¬Overruns room s :=
  not_overruns (fun _ hwithin _ => hwithin.length_le.trans hlength) hnesting

/-- **A text of JSON goes beyond a limit just when it nests deeper than there is room for.** -/
theorem overruns_iff {room more : Nat} {s : List Char} {v : Json}
    (h : Json.ofChars? more s = .ok v) : Overruns room s ↔ room < Json.nesting s := by
  constructor
  · rintro ⟨e, he⟩
    rcases Json.ofChars?_of_eq_ok room h with hok | ⟨container, hdeep⟩
    · cases he.symm.trans hok
    · exact Json.shows_of_overrun hdeep
  · intro hdeep
    rcases Json.ofChars?_of_eq_ok room h with hok | ⟨container, hover⟩
    · exact absurd (Json.nesting_le_of_ofChars? hok) (Nat.not_le.mpr hdeep)
    · exact ⟨_, hover⟩

end DatalogIntake

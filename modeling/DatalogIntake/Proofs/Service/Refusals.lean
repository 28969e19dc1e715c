import DatalogIntake.Proofs.Json.Limits
import DatalogIntake.Proofs.Program.Violations
import DatalogIntake.Service.Response

/-!
# Refusals of responses

A response that is not read is to be refused in one of two ways that callers know of: it cannot be
decoded, or its value is not what was asked for (`ResponseError.refusal?`). Checking the shape and
building the program refuse in the second way only (`isKnown_programOfValue`,
`isKnown_catalogueOfValue`), so what escapes the two ways comes from the reader of JSON.

* `responses_refused_iff`: the outcome of a text is known to callers just when the text goes beyond
  no limit of the reader; one that does ends both readings with an error of its own.
* `responses_longInteger`: an otherwise perfect response with such a literal in a member that no
  shape looks at. -/

namespace DatalogIntake

/-! ### Ways to refuse -/

/-- The ways in which a response is refused that callers know of. -/
inductive Refusal where
  /-- The text is not JSON. -/
  | undecodable
  /-- The value does not have the shape, or breaks a rule of the program model. -/
  | unsuitable
deriving DecidableEq

/-- The way in which an error refuses a response, where callers know of it. -/
def ResponseError.refusal? : ResponseError → Option Refusal
  | .unreadable _ _ => some .undecodable
  | .overrun _ => none
  | .misshapen _ _ => some .unsuitable
  | .invalid (.violation _) => some .unsuitable
  | .invalid (.misuse _) => none

/-- An outcome that callers know of: something read, or a refusal. -/
def IsKnown {α : Type} (r : Except ResponseError α) : Prop :=
  (∃ a, r = .ok a) ∨ ∃ e way, r = .error e ∧ e.refusal? = some way

theorem isKnown_ok {α : Type} (a : α) : IsKnown (.ok a) := Or.inl ⟨a, rfl⟩

theorem isKnown_error_iff {α : Type} {e : ResponseError} :
    IsKnown (.error e : Except ResponseError α) ↔ ∃ way, e.refusal? = some way := by
  constructor
  · rintro (⟨a, ha⟩ | ⟨e', way, he, hway⟩)
    · cases ha
    · obtain rfl := Except.error.inj he
      exact ⟨way, hway⟩
  · rintro ⟨way, hway⟩
    exact Or.inr ⟨e, way, rfl, hway⟩

theorem IsKnown.ne_overrun {α : Type} {r : Except ResponseError α} (h : IsKnown r)
    (e : Json.Overrun) : r ≠ .error (.overrun e) := by
  rintro rfl
  obtain ⟨way, hway⟩ := isKnown_error_iff.mp h
  cases hway

/-! ### Steps -/

section Steps

variable {α β : Type} {r : Except ResponseError α} {f : α → Except ResponseError β}

/-- With steps behind it whose outcomes are known, a step has a known outcome or not by itself. -/
theorem isKnown_bind_iff (hf : ∀ a, IsKnown (f a)) : IsKnown (r >>= f) ↔ IsKnown r := by
  cases r with
  | ok a => exact iff_of_true (hf a) (isKnown_ok a)
  | error e => exact isKnown_error_iff.trans isKnown_error_iff.symm

/-- What goes beyond a limit is the step in front of such steps. -/
theorem bind_eq_overrun_iff (hf : ∀ a, IsKnown (f a)) {e : Json.Overrun} :
    (r >>= f) = .error (.overrun e) ↔ r = .error (.overrun e) := by
  cases r with
  | ok a =>
    have hne := (hf a).ne_overrun e
    exact iff_of_false hne nofun
  | error e => simp [bind, Except.bind]

end Steps

/-! ### Reading, checking, building -/

variable {room : Nat} {text : String}

theorem readResponse_of_ofText? {v : Json} (h : Json.ofText? room text = .ok v) :
    readResponse room text = .ok v := by
  rw [readResponse, h]

theorem readResponse_eq_overrun_iff {e : Json.Overrun} :
    readResponse room text = .error (.overrun e) ↔
      Json.ofText? room text = .error (.overrun e) := by
  unfold readResponse
  split
  · next h => rw [h]; exact iff_of_false nofun nofun
  · next h => rw [h]; exact iff_of_false nofun nofun
  · next e' h => rw [h]; simp

theorem isKnown_readResponse_iff :
    IsKnown (readResponse room text) ↔ ¬Overruns room text.toList := by
  constructor
  · rintro h ⟨e, he⟩
    exact h.ne_overrun e (readResponse_eq_overrun_iff.mpr he)
  · intro h
    unfold readResponse
    split
    · exact isKnown_ok _
    · exact isKnown_error_iff.mpr ⟨.undecodable, rfl⟩
    · next e he => exact absurd ⟨e, he⟩ h

/-- The program that a value stands for. -/
def programOfValue? (value : Json) : Except ResponseError Program :=
  match programShape.check value with
  | .error faults => .error (.misshapen .program faults)
  | .ok answer => (programOfAnswer? answer).mapError .invalid

/-- The base facts that a value stands for. -/
def catalogueOfValue? (value : Json) : Except ResponseError (List BaseFact) :=
  match catalogueShape.check value with
  | .error faults => .error (.misshapen .catalogue faults)
  | .ok answer => .ok (catalogueOfAnswer answer)

theorem programOfResponse?_eq_bind (room : Nat) (text : String) :
    programOfResponse? room text = readResponse room text >>= programOfValue? := rfl

theorem catalogueOfResponse?_eq_bind (room : Nat) (text : String) :
    catalogueOfResponse? room text = readResponse room text >>= catalogueOfValue? := rfl

theorem isKnown_programOfValue (value : Json) : IsKnown (programOfValue? value) := by
  unfold programOfValue?
  split
  · exact isKnown_error_iff.mpr ⟨.unsuitable, rfl⟩
  · next answer _ =>
    rcases (programOfAnswer?_refusesOnly answer).cases with ⟨p, hp⟩ | ⟨v, hv⟩
    · rw [hp]
      exact isKnown_ok p
    · rw [hv]
      exact isKnown_error_iff.mpr ⟨.unsuitable, rfl⟩

theorem isKnown_catalogueOfValue (value : Json) : IsKnown (catalogueOfValue? value) := by
  unfold catalogueOfValue?
  split
  · exact isKnown_error_iff.mpr ⟨.unsuitable, rfl⟩
  · exact isKnown_ok _

/-! ### Responses -/

theorem programOfResponse?_eq_overrun_iff {e : Json.Overrun} :
    programOfResponse? room text = .error (.overrun e) ↔
      Json.ofText? room text = .error (.overrun e) := by
  rw [programOfResponse?_eq_bind]
  exact (bind_eq_overrun_iff isKnown_programOfValue).trans readResponse_eq_overrun_iff

theorem catalogueOfResponse?_eq_overrun_iff {e : Json.Overrun} :
    catalogueOfResponse? room text = .error (.overrun e) ↔
      Json.ofText? room text = .error (.overrun e) := by
  rw [catalogueOfResponse?_eq_bind]
  exact (bind_eq_overrun_iff isKnown_catalogueOfValue).trans readResponse_eq_overrun_iff

/-- **Which responses have an outcome that callers know of.** A text is read as a program, or
refused because it cannot be decoded or is unsuitable, just when it goes beyond no limit of the
reader: no integer literal is too long, and there is room for its containers. The same goes for a
catalogue. In all other cases both readings end with the error of that limit, which is neither of
the two refusals, and the text shows that it goes beyond the limit. -/
theorem responses_refused_iff (room : Nat) (text : String) :
    (IsKnown (programOfResponse? room text) ↔ ¬Overruns room text.toList) ∧
    (IsKnown (catalogueOfResponse? room text) ↔ ¬Overruns room text.toList) ∧
    ∀ e,
      (programOfResponse? room text = .error (.overrun e) ↔
        Json.ofText? room text = .error (.overrun e)) ∧
      (catalogueOfResponse? room text = .error (.overrun e) ↔
        Json.ofText? room text = .error (.overrun e)) ∧
      (Json.ofText? room text = .error (.overrun e) → e.Shows room text.toList) := by
  refine ⟨?_, ?_, fun e => ⟨programOfResponse?_eq_overrun_iff,
    catalogueOfResponse?_eq_overrun_iff, Json.shows_of_overrun⟩⟩
  · rw [programOfResponse?_eq_bind]
    exact (isKnown_bind_iff isKnown_programOfValue).trans isKnown_readResponse_iff
  · rw [catalogueOfResponse?_eq_bind]
    exact (isKnown_bind_iff isKnown_catalogueOfValue).trans isKnown_readResponse_iff

/-- **One literal can escape from a reading.** A program without rules and queries, and a catalogue
without facts, are read; with an integer literal of 4301 digits in a member that neither shape
declares, both readings end with an error that is no refusal. -/
theorem responses_longInteger :
    let start := "\x7b\"rules\":[],\"queries\":[],\"baseFactSchema\":[]".toList
    let text := String.ofList (start ++ ['\x7d'])
    let long := String.ofList
      (start ++ ",\"seed\":".toList ++ List.replicate 4301 '7' ++ ['\x7d'])
    (∃ p, programOfResponse? 990 text = .ok p) ∧ catalogueOfResponse? 990 text = .ok [] ∧
      programOfResponse? 990 long = .error (.overrun (.longInteger 4301)) ∧
      catalogueOfResponse? 990 long = .error (.overrun (.longInteger 4301)) ∧
      ¬IsKnown (programOfResponse? 990 long) ∧ ¬IsKnown (catalogueOfResponse? 990 long) := by
  intro start text long
  have hread : readResponse 990 text =
      .ok (.obj [("rules", .arr []), ("queries", .arr []), ("baseFactSchema", .arr [])]) := by
    refine readResponse_of_ofText? ?_
    rw [Json.ofText?, String.toList_ofList]
    decide +kernel
  have hstop : Json.ofText? 990 long = .error (.overrun (.longInteger 4301)) := by
    rw [Json.ofText?, String.toList_ofList]
    decide +kernel
  have hprogram := programOfResponse?_eq_overrun_iff.mpr hstop
  have hcatalogue := catalogueOfResponse?_eq_overrun_iff.mpr hstop
  refine ⟨⟨⟨[], [], List.nodup_nil⟩, ?_⟩, ?_, hprogram, hcatalogue, ?_, ?_⟩
  · rw [programOfResponse?_eq_bind, hread]
    rfl
  · rw [catalogueOfResponse?_eq_bind, hread]
    rfl
  · exact fun h => h.ne_overrun _ hprogram
  · exact fun h => h.ne_overrun _ hcatalogue

end DatalogIntake

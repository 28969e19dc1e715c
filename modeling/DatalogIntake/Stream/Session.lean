import DatalogIntake.Stream.Extraction

/-!
# Sessions

The same extraction, one request at a time. A session stands still between the requests of its
consumer: `next` resumes it until it has an object to hand over or comes to its end, `close` ends it
where it stands. Nothing happens before the first request, and a session that is closed before it
was resumed never touches its source. This description stands for `aextract_objects`, whose source
and consumer are asynchronous; `Extraction.run` stands for `extract_objects`.
-/

namespace DatalogIntake

variable {α : Type}

/-- Where a session stands. -/
inductive Phase where
  | unstarted
  | suspended
  | over
deriving DecidableEq

/-- A session: what is left of the source, the scanner, the objects of the last chunk that have not
been handed over, and what has happened so far. -/
structure Session (α : Type) where
  phase : Phase
  rest : List Json
  scanner : Scanner
  pending : List α
  pulled : Nat
  events : List (Event α)

/-- What a session answers to a request: an object, or its end. -/
inductive Answer (α : Type) where
  | object (a : α)
  | ended (ending : Ending)
deriving DecidableEq

/-- Hands an object over, with others pending after it. -/
def Session.deliver (s : Session α) (a : α) (pending : List α) : Session α :=
  { s with pending := pending, events := s.events ++ [.delivered a] }

namespace Extraction

/-- The session of an extraction before the first request. -/
def start (x : Extraction α) : Session α :=
  ⟨.unstarted, x.source.chunks, {}, [], 0, []⟩

/-- Ends a session: the source is closed, and the session is over. -/
def release (x : Extraction α) (ending : Ending) (s : Session α) : Session α × Answer α :=
  ({ s with phase := .over, pending := [], events := s.events ++ x.source.closing.events },
    .ended (x.source.closing.ending ending))

/-- Finishes the scanner of a session whose source has no more chunks, and ends the session. -/
def complete (x : Extraction α) (s : Session α) : Session α × Answer α :=
  let f := s.scanner.finish x.policy
  let s := { s with scanner := f.scanner, events := s.events ++ f.events }
  match f.outcome with
  | .ok _ => x.release .exhausted s
  | .error e => x.release (.failed (.trailing e)) s

/-- Takes chunks until one of them completes an object, or the session ends. -/
def pull (x : Extraction α) (s : Session α) : List Json → Session α × Answer α
  | [] =>
    let s := { s with rest := [] }
    match x.source.failureAt? s.pulled with
    | some e => x.release (.failed (.source e)) { s with events := s.events ++ [.broke e] }
    | none => x.complete s
  | chunk :: rest =>
    match x.source.failureAt? s.pulled with
    | some e =>
      let s := { s with rest := chunk :: rest, events := s.events ++ [.broke e] }
      x.release (.failed (.source e)) s
    | none =>
      let fed := s.scanner.feed x.decode chunk
      let s := { s with
        rest := rest
        scanner := fed.scanner
        pulled := s.pulled + 1
        events := s.events ++ fed.events }
      match fed.outcome with
      | .error e => x.release (.failed (.feed e)) s
      | .ok [] => x.pull s rest
      | .ok (a :: pending) => (s.deliver a pending, .object a)

/-- Resumes a session. -/
def next (x : Extraction α) (s : Session α) : Session α × Answer α :=
  match s.phase, s.pending with
  | .over, _ => (s, .ended .exhausted)
  | _, a :: pending => ({ s with phase := .suspended }.deliver a pending, .object a)
  | _, [] => x.pull { s with phase := .suspended } s.rest

/-- Closes a session. -/
def close (x : Extraction α) (s : Session α) : Session α × Ending :=
  match s.phase with
  | .suspended =>
    let r := x.release .abandoned s
    (r.1, x.source.closing.ending .abandoned)
  | _ => ({ s with phase := .over }, .abandoned)

/-! ### Progress -/

/-- An object that comes with the resumption was pending, or a chunk was taken for it. -/
theorem pull_object {x : Extraction α} {s t : Session α} {chunks : List Json} {a : α}
    (h : x.pull s chunks = (t, .object a)) : t.rest.length < chunks.length := by
  induction chunks generalizing s with
  | nil =>
    unfold pull at h
    dsimp only at h
    split at h
    · simp [release] at h
    · unfold complete at h
      dsimp only at h
      split at h <;> simp [release] at h
  | cons chunk rest ih =>
    unfold pull at h
    split at h
    · simp [release] at h
    · dsimp only at h
      split at h
      · simp [release] at h
      · exact Nat.lt_succ_of_lt (ih h)
      · obtain ⟨rfl, -⟩ := Prod.mk.inj h
        exact Nat.lt_succ_self _

theorem next_object {x : Extraction α} {s t : Session α} {a : α}
    (h : x.next s = (t, .object a)) :
    t.rest.length < s.rest.length ∨
      t.rest.length = s.rest.length ∧ t.pending.length < s.pending.length := by
  unfold next at h
  split at h
  · simp at h
  · next heq _ =>
    obtain ⟨rfl, -⟩ := Prod.mk.inj h
    exact Or.inr ⟨rfl, by simp [heq, Session.deliver]⟩
  · exact Or.inl (pull_object h)

/-! ### Consumers -/

/-- A consumer that asks for objects until the session ends, or until it has as many as it wants
and closes the session. -/
def consume (x : Extraction α) (limit : Option Nat) (s : Session α) : Run α :=
  if limit = some 0 then
    let r := x.close s
    ⟨r.1.events, r.2⟩
  else
    match h : x.next s with
    | (t, .object _) => x.consume (limit.map (· - 1)) t
    | (t, .ended ending) => ⟨t.events, ending⟩
termination_by (s.rest.length, s.pending.length)
decreasing_by
  rcases next_object h with h | ⟨h, h'⟩
  · exact Prod.Lex.left _ _ h
  · rw [h]
    exact Prod.Lex.right _ h'

theorem consume_of_object {x : Extraction α} {limit : Option Nat} {s t : Session α} {a : α}
    (hlimit : limit ≠ some 0) (h : x.next s = (t, .object a)) :
    x.consume limit s = x.consume (limit.map (· - 1)) t := by
  rw [consume, if_neg hlimit]
  split
  · next u b heq =>
    obtain ⟨rfl, -⟩ := Prod.mk.inj (h.symm.trans heq)
    rfl
  · next u ending heq => cases (Prod.mk.inj (h.symm.trans heq)).2

theorem consume_of_ended {x : Extraction α} {limit : Option Nat} {s t : Session α} {ending : Ending}
    (hlimit : limit ≠ some 0) (h : x.next s = (t, .ended ending)) :
    x.consume limit s = ⟨t.events, ending⟩ := by
  rw [consume, if_neg hlimit]
  split
  · next u b heq => cases (Prod.mk.inj (h.symm.trans heq)).2
  · next u ending' heq =>
    obtain ⟨rfl, hending⟩ := Prod.mk.inj (h.symm.trans heq)
    rw [Answer.ended.inj hending]

/-- A run of the extraction, request by request. -/
def runSession (x : Extraction α) (limit : Option Nat) : Run α :=
  x.consume limit x.start

end Extraction

end DatalogIntake

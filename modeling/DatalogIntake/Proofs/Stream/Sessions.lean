import DatalogIntake.Stream.Session

/-!
# Sessions and runs

An extraction is described twice: as a whole, by recursion over the chunks, and as a session that
stands still between the requests of its consumer. What is left of a session at any point is a run
of its own (`Extraction.remaining`), and a request does the first part of it
(`Extraction.next_follows`).

* `Extraction.runSession_eq_run`: what happens in a session, and how it ends, is the run. -/

namespace DatalogIntake

variable {α : Type}

namespace Run

theorem after_nil (r : Run α) : r.after [] = r := rfl

theorem after_after (a b : List (Event α)) (r : Run α) :
    (r.after a).after b = r.after (b ++ a) := by
  simp [after]

end Run

namespace Extraction

variable {x : Extraction α}

/-! ### What is left of a run -/

/-- A run that starts with objects to be handed over, before the source is closed. -/
def handOver (x : Extraction α) (s : Scanner) (pulled : Nat) (objects : List α)
    (limit : Option Nat) (rest : List Json) : Run α :=
  match limit with
  | none => (x.runChunks s pulled none rest).after (objects.map .delivered)
  | some n =>
    if n ≤ objects.length then ⟨(objects.take n).map .delivered, .abandoned⟩
    else (x.runChunks s pulled (some (n - objects.length)) rest).after (objects.map .delivered)

/-- What is left of a run for a session whose consumer wants `limit` more objects. -/
def remaining (x : Extraction α) (limit : Option Nat) (s : Session α) : Run α :=
  x.handOver s.scanner s.pulled s.pending limit s.rest

/-- A run with the source closed at its end. -/
def closeRun (x : Extraction α) (r : Run α) : Run α :=
  ⟨r.events ++ x.source.closing.events, x.source.closing.ending r.ending⟩

theorem handOver_zero (s : Scanner) (pulled : Nat) (objects : List α) (rest : List Json) :
    x.handOver s pulled objects (some 0) rest = ⟨[], .abandoned⟩ := by
  simp [handOver]

theorem handOver_nil (s : Scanner) (pulled : Nat) {limit : Option Nat} (h : limit ≠ some 0)
    (rest : List Json) : x.handOver s pulled [] limit rest = x.runChunks s pulled limit rest := by
  cases limit with
  | none => rfl
  | some n =>
    have hn : ¬n ≤ 0 := fun hn => h (congrArg some (Nat.le_zero.mp hn))
    simp [handOver, hn, Run.after]

theorem handOver_cons (s : Scanner) (pulled : Nat) (a : α) (objects : List α) {limit : Option Nat}
    (h : limit ≠ some 0) (rest : List Json) :
    x.handOver s pulled (a :: objects) limit rest =
      (x.handOver s pulled objects (limit.map (· - 1)) rest).after [.delivered a] := by
  cases limit with
  | none => simp [handOver, Run.after]
  | some n =>
    obtain ⟨n, rfl⟩ : ∃ m, n = m + 1 :=
      Nat.exists_eq_succ_of_ne_zero fun hn => h (congrArg some hn)
    by_cases hn : n ≤ objects.length <;> simp [handOver, hn, Run.after]

/-- The run over the chunks that are left hands over what the first of them completes. -/
theorem runChunks_cons (s : Scanner) (pulled : Nat) (limit : Option Nat) (chunk : Json)
    (rest : List Json) :
    x.runChunks s pulled limit (chunk :: rest) =
      match x.source.failureAt? pulled with
      | some e => ⟨[.broke e], .failed (.source e)⟩
      | none =>
        let fed := s.feed x.decode chunk
        Run.after fed.events <|
          match fed.outcome with
          | .error e => ⟨[], .failed (.feed e)⟩
          | .ok objects => x.handOver fed.scanner (pulled + 1) objects limit rest := by
  rw [runChunks]
  cases x.source.failureAt? pulled with
  | some e => rfl
  | none =>
    dsimp only
    cases (s.feed x.decode chunk).outcome with
    | error e => cases limit <;> rfl
    | ok objects => cases limit <;> rfl

/-! ### Requests -/

/-- A request has done the first part of a run: the object is handed over and the rest of the run is
what is left of the session, or the run is over and its source closed. -/
def Follows (x : Extraction α) (limit : Option Nat) (r : Run α) : Session α × Answer α → Prop
  | (t, .object _) =>
    t.phase = .suspended ∧ (x.remaining (limit.map (· - 1)) t).after t.events = r
  | (t, .ended ending) => x.closeRun r = ⟨t.events, ending⟩

theorem release_follows {limit : Option Nat} {r : Run α} {t : Session α} {ending : Ending}
    (h : r = ⟨t.events, ending⟩) : x.Follows limit r (x.release ending t) := by
  rw [h]
  rfl

theorem deliver_follows {s : Session α} (hs : s.phase = .suspended) {a : α} {pending : List α}
    {limit : Option Nat} (hlimit : limit ≠ some 0) :
    x.Follows limit ((x.handOver s.scanner s.pulled (a :: pending) limit s.rest).after s.events)
      (s.deliver a pending, .object a) := by
  refine ⟨hs, ?_⟩
  rw [handOver_cons _ _ _ _ hlimit, Run.after_after]
  rfl

/-- **Taking chunks until there is an object does the first part of the run over them.** -/
theorem pull_follows {s : Session α} (hs : s.phase = .suspended) {limit : Option Nat}
    (hlimit : limit ≠ some 0) (chunks : List Json) :
    x.Follows limit ((x.runChunks s.scanner s.pulled limit chunks).after s.events)
      (x.pull s chunks) := by
  induction chunks generalizing s with
  | nil =>
    unfold pull runChunks
    dsimp only
    cases x.source.failureAt? s.pulled with
    | some e => exact release_follows rfl
    | none =>
      dsimp only [complete, finishRun]
      cases (s.scanner.finish x.policy).outcome with
      | ok left => exact release_follows rfl
      | error e => exact release_follows rfl
  | cons chunk rest ih =>
    rw [runChunks_cons]
    unfold pull
    cases x.source.failureAt? s.pulled with
    | some e => exact release_follows rfl
    | none =>
      dsimp only
      rw [Run.after_after]
      let fed := s.scanner.feed x.decode chunk
      let t : Session α :=
        ⟨s.phase, rest, fed.scanner, s.pending, s.pulled + 1, s.events ++ fed.events⟩
      cases (s.scanner.feed x.decode chunk).outcome with
      | error e => exact release_follows (by simp [Run.after])
      | ok objects =>
        cases objects with
        | nil =>
          dsimp only
          rw [handOver_nil _ _ hlimit]
          exact ih (s := t) hs
        | cons a pending =>
          exact deliver_follows (s := t) hs hlimit

/-- **A request does the first part of what is left of a session.** -/
theorem next_follows {s : Session α} (hs : s.phase ≠ .over) {limit : Option Nat}
    (hlimit : limit ≠ some 0) :
    x.Follows limit ((x.remaining limit s).after s.events) (x.next s) := by
  unfold next remaining
  split
  · next hphase => exact absurd hphase hs
  · next a pending hpending _ =>
    rw [hpending]
    exact deliver_follows (s := { s with phase := .suspended }) rfl hlimit
  · next hpending _ =>
    rw [hpending, handOver_nil _ _ hlimit]
    exact pull_follows (s := { s with phase := .suspended, pending := [] }) rfl hlimit s.rest

/-! ### Consumers -/

/-- **A consumer that stops has had what was left of its session.** -/
theorem consume_eq_closeRun {s : Session α} (hphase : s.phase ≠ .over) {limit : Option Nat}
    (hs : limit = some 0 → s.phase = .suspended) :
    x.consume limit s = x.closeRun ((x.remaining limit s).after s.events) := by
  induction limit, s using consume.induct x with
  | case1 s =>
    have hclose : x.close s = ((x.release .abandoned s).1, x.source.closing.ending .abandoned) := by
      simp [close, hs rfl]
    rw [consume, if_pos rfl, hclose, remaining, handOver_zero]
    simp [closeRun, release, Run.after]
  | case2 limit s hlimit t a hnext ih =>
    have hfollows := x.next_follows hphase hlimit
    rw [hnext] at hfollows
    obtain ⟨hsuspended, hrest⟩ := hfollows
    rw [consume_of_object hlimit hnext, ← hrest]
    exact ih (by simp [hsuspended]) fun _ => hsuspended
  | case3 limit s hlimit t ending hnext =>
    have hfollows := x.next_follows hphase hlimit
    rw [hnext] at hfollows
    rw [consume_of_ended hlimit hnext]
    exact hfollows.symm

/-- **A session does what the run does.** Request by request, the same chunks are taken, the same
objects handed over after each, the same reported and warned about and the source closed in the same
place, and the end is the same, for every source, policy, decoder and number of objects wanted. -/
theorem runSession_eq_run (x : Extraction α) (limit : Option Nat) :
    x.runSession limit = x.run limit := by
  by_cases hlimit : limit = some 0
  · subst hlimit
    rw [runSession, consume, if_pos rfl, run, if_pos rfl]
    rfl
  · rw [runSession, consume_eq_closeRun (by simp [start]) (fun h => absurd h hlimit), run,
      if_neg hlimit, remaining, start, handOver_nil _ _ hlimit, Run.after_nil]
    rfl

end Extraction

end DatalogIntake

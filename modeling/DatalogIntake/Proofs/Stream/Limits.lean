import DatalogIntake.Proofs.Stream.History
import DatalogIntake.Proofs.Stream.Sessions
import Mathlib.Tactic.SplitIfs

/-!
# Runs with a limit

A consumer that wants some objects only sees the beginning of what a consumer of all of them sees:
its run is the run without a limit, up to the last object that it wants
(`Extraction.runChunks_some`). So it is handed the same objects at the same times, and no chunk is
taken after the one that completes the last of them (`Event.deliveries_upTo`, `Event.took_upTo`). -/

namespace DatalogIntake

variable {α : Type}

namespace Event

/-! ### Deliveries -/

theorem deliveries_append (pulled : Nat) (a b : List (Event α)) :
    deliveries pulled (a ++ b) =
      deliveries pulled a ++ deliveries (pulled + a.countP isTook) b := by
  induction a generalizing pulled with
  | nil => rfl
  | cons e a ih =>
    cases e with
    | took =>
      have hcount : pulled + (.took :: a).countP isTook = pulled + 1 + a.countP isTook := by
        rw [List.countP_cons_of_pos rfl]
        omega
      rw [hcount]
      exact ih (pulled + 1)
    | delivered object => exact congrArg (⟨object, pulled⟩ :: ·) (ih pulled)
    | _ => exact ih pulled

theorem length_deliveries (pulled : Nat) (events : List (Event α)) :
    (deliveries pulled events).length = (objects events).length := by
  induction events generalizing pulled with
  | nil => rfl
  | cons e events ih =>
    cases e with
    | delivered object => exact congrArg (· + 1) (ih pulled)
    | took => exact ih (pulled + 1)
    | _ => exact ih pulled

theorem deliveries_of_objects {events : List (Event α)} (h : objects events = []) (pulled : Nat) :
    deliveries pulled events = [] := by
  rw [← List.length_eq_zero_iff, length_deliveries, h, List.length_nil]

theorem deliveries_delivered (pulled : Nat) (l : List α) :
    deliveries pulled (l.map .delivered) = l.map (⟨·, pulled⟩) := by
  induction l with
  | nil => rfl
  | cons a l ih => exact congrArg (⟨a, pulled⟩ :: ·) ih

theorem took_delivered (l : List α) : (l.map .delivered).countP (isTook (α := α)) = 0 := by
  rw [List.countP_map]
  exact List.countP_eq_zero.mpr fun _ _ => Bool.false_ne_true

/-! ### The beginning of a list of events -/

theorem eq_delivered {e : Event α} {a : α} (h : e.object? = some a) : e = .delivered a := by
  cases e <;> cases h
  rfl

theorem objects_cons_of_none {e : Event α} (h : e.object? = none) (events : List (Event α)) :
    objects (e :: events) = objects events :=
  List.filterMap_cons_none h

/-- The events up to the one that hands over the last of so many objects. -/
def upTo : Nat → List (Event α) → List (Event α)
  | 0, _ => []
  | _ + 1, [] => []
  | n + 1, .delivered a :: events => .delivered a :: upTo n events
  | n + 1, e :: events => e :: upTo (n + 1) events

theorem upTo_cons_of_none {e : Event α} (h : e.object? = none) (n : Nat)
    (events : List (Event α)) : upTo (n + 1) (e :: events) = e :: upTo (n + 1) events := by
  cases e with
  | delivered a => cases h
  | _ => rfl

theorem upTo_of_lt {n : Nat} {events : List (Event α)} (h : (objects events).length < n) :
    upTo n events = events := by
  induction events generalizing n with
  | nil => cases n <;> rfl
  | cons e events ih =>
    obtain ⟨n, rfl⟩ : ∃ m, n = m + 1 := Nat.exists_eq_add_one_of_ne_zero (by omega)
    cases he : e.object? with
    | none =>
      rw [objects_cons_of_none he] at h
      rw [upTo_cons_of_none he, ih h]
    | some a =>
      obtain rfl := eq_delivered he
      exact congrArg (.delivered a :: ·) (ih (Nat.lt_of_succ_lt_succ h))

theorem upTo_append {n : Nat} (hn : 0 < n) (a b : List (Event α)) :
    upTo n (a ++ b) =
      if n ≤ (objects a).length then upTo n a else a ++ upTo (n - (objects a).length) b := by
  induction a generalizing n with
  | nil => simp [objects, Nat.not_le_of_lt hn]
  | cons e a ih =>
    obtain ⟨n, rfl⟩ : ∃ m, n = m + 1 := Nat.exists_eq_add_one_of_ne_zero (by omega)
    cases he : e.object? with
    | none =>
      rw [List.cons_append, upTo_cons_of_none he, upTo_cons_of_none he, objects_cons_of_none he,
        ih hn]
      split_ifs <;> rfl
    | some object =>
      obtain rfl := eq_delivered he
      have hlength : (objects (.delivered object :: a)).length = (objects a).length + 1 := rfl
      simp only [List.cons_append, upTo, hlength, Nat.add_le_add_iff_right, Nat.add_sub_add_right]
      cases n with
      | zero => rw [if_pos (Nat.zero_le _), upTo, upTo]
      | succ n =>
        rw [ih (Nat.succ_pos n)]
        split_ifs <;> rfl

theorem upTo_delivered (n : Nat) (l : List α) :
    upTo n (l.map .delivered) = (l.take n).map .delivered := by
  induction l generalizing n with
  | nil => cases n <;> rfl
  | cons a l ih =>
    cases n with
    | zero => rfl
    | succ n => exact congrArg (.delivered a :: ·) (ih n)

/-- **The beginning has the first deliveries.** -/
theorem deliveries_upTo (n pulled : Nat) (events : List (Event α)) :
    deliveries pulled (upTo n events) = (deliveries pulled events).take n := by
  induction events generalizing n pulled with
  | nil => cases n <;> rfl
  | cons e events ih =>
    cases n with
    | zero => rfl
    | succ n =>
      cases e with
      | delivered a => exact congrArg (⟨a, pulled⟩ :: ·) (ih n pulled)
      | took => exact ih (n + 1) (pulled + 1)
      | _ => exact ih (n + 1) pulled

/-- **The last chunk of the beginning is the last that was taken before its last delivery.** -/
theorem took_upTo {n pulled : Nat} {events : List (Event α)} {d : Delivery α}
    (h : (deliveries pulled events)[n]? = some d) :
    pulled + (upTo (n + 1) events).countP isTook = d.pulled := by
  induction events generalizing n pulled with
  | nil => simp [deliveries] at h
  | cons e events ih =>
    cases e with
    | delivered a =>
      cases n with
      | zero =>
        obtain rfl := Option.some.inj h
        simp [upTo, isTook]
      | succ n => exact ih h
    | took =>
      have hcount : pulled + 1 + (upTo (n + 1) events).countP isTook = d.pulled := ih h
      have htook : (upTo (n + 1) (.took :: events)).countP isTook =
          (upTo (n + 1) events).countP isTook + 1 := List.countP_cons_of_pos rfl
      omega
    | _ => exact @ih n pulled h

end Event

/-- The beginning of a run, with the last of so many objects. -/
def Run.upTo (n : Nat) (r : Run α) : Run α :=
  ⟨Event.upTo n r.events,
    if n ≤ (Event.objects r.events).length then .abandoned else r.ending⟩

theorem Run.upTo_of_lt {n : Nat} {r : Run α} (h : (Event.objects r.events).length < n) :
    r.upTo n = r := by
  rw [upTo, Event.upTo_of_lt h, if_neg (Nat.not_le_of_lt h)]

/-- The beginning of a run ends among the events put before it, or in the run. -/
theorem Run.upTo_after {n : Nat} (hn : 0 < n) (events : List (Event α)) (r : Run α) :
    (r.after events).upTo n =
      if n ≤ (Event.objects events).length then ⟨Event.upTo n events, .abandoned⟩
      else (r.upTo (n - (Event.objects events).length)).after events := by
  unfold upTo after
  rw [Event.upTo_append hn, Event.objects_append, List.length_append]
  by_cases hevents : n ≤ (Event.objects events).length
  · rw [if_pos hevents, if_pos hevents, if_pos (Nat.le_add_right_of_le hevents)]
  · rw [if_neg hevents, if_neg hevents]
    simp only [Nat.sub_le_iff_le_add']

namespace Extraction

variable {x : Extraction α}

/-! ### Runs -/

theorem objects_finish (f : Finished) : Event.objects (f.events : List (Event α)) = [] := by
  obtain ⟨scanner, report, warning, outcome⟩ := f
  cases report <;> cases warning <;> rfl

theorem objects_runChunks_nil (s : Scanner) (pulled : Nat) (limit : Option Nat) :
    Event.objects (x.runChunks s pulled limit []).events = [] := by
  unfold runChunks
  split
  · rfl
  · unfold finishRun
    dsimp only
    split <;> exact objects_finish _

/-- **A run with a limit is the beginning of the run without.** -/
theorem runChunks_some (s : Scanner) (pulled : Nat) {n : Nat} (hn : 0 < n) (rest : List Json) :
    x.runChunks s pulled (some n) rest = (x.runChunks s pulled none rest).upTo n := by
  induction rest generalizing s pulled n with
  | nil =>
    rw [Run.upTo_of_lt]
    · unfold runChunks
      rfl
    · rw [objects_runChunks_nil]
      exact hn
  | cons chunk rest ih =>
    rw [runChunks_cons, runChunks_cons]
    cases x.source.failureAt? pulled with
    | some e => exact (Run.upTo_of_lt hn).symm
    | none =>
      dsimp only
      rw [Run.upTo_after hn, Fed.objects_events, List.length_nil, if_neg (Nat.not_le_of_lt hn),
        Nat.sub_zero]
      cases (s.feed x.decode chunk).outcome with
      | error e => exact congrArg (Run.after _) (Run.upTo_of_lt hn).symm
      | ok objects =>
        dsimp only [handOver]
        rw [Run.upTo_after hn, Event.objects_delivered, Event.upTo_delivered]
        split_ifs with hlen
        · rfl
        · rw [ih _ _ (Nat.sub_pos_of_lt (Nat.lt_of_not_le hlen))]

/-! ### Closed runs -/

theorem run_none (x : Extraction α) :
    x.run none = x.closeRun (x.runChunks {} 0 none x.source.chunks) :=
  if_neg (by simp)

theorem run_some (x : Extraction α) {n : Nat} (hn : 0 < n) :
    x.run (some n) = x.closeRun ((x.runChunks {} 0 none x.source.chunks).upTo n) := by
  rw [run, if_neg (fun h => Nat.ne_of_gt hn (Option.some.inj h)), runChunks_some _ _ hn]
  rfl

theorem deliveries_closeRun (r : Run α) : (x.closeRun r).deliveries = r.deliveries := by
  have hclosing : Event.objects (x.source.closing.events : List (Event α)) = [] := by
    cases x.source.closing <;> rfl
  rw [Run.deliveries, closeRun, Event.deliveries_append, Event.deliveries_of_objects hclosing,
    List.append_nil]
  rfl

theorem pulled_closeRun (r : Run α) : (x.closeRun r).pulled = r.pulled := by
  have hclosing : (x.source.closing.events : List (Event α)).countP Event.isTook = 0 := by
    cases x.source.closing <;> rfl
  rw [Run.pulled, closeRun, List.countP_append, hclosing, Nat.add_zero]
  rfl

/-- **A limit cuts the deliveries of a run.** -/
theorem deliveries_run_some (x : Extraction α) (n : Nat) :
    (x.run (some n)).deliveries = (x.run none).deliveries.take n := by
  cases n with
  | zero => rfl
  | succ n =>
    rw [run_some x (Nat.succ_pos n), run_none, deliveries_closeRun, deliveries_closeRun]
    exact Event.deliveries_upTo (n + 1) 0 _

/-- **With the last object that is wanted the last chunk has been taken.** -/
theorem pulled_run_some {n : Nat} {d : Delivery α}
    (h : (x.run none).deliveries[n]? = some d) : (x.run (some (n + 1))).pulled = d.pulled := by
  rw [run_none, deliveries_closeRun] at h
  rw [run_some x (Nat.succ_pos n), pulled_closeRun, ← Event.took_upTo h, Nat.zero_add]
  rfl

/-- A consumer that wants more objects than there are has them all. -/
theorem run_some_of_lt {n : Nat} (h : (x.run none).deliveries.length < n) :
    x.run (some n) = x.run none := by
  rw [run_none, deliveries_closeRun, Run.deliveries, Event.length_deliveries] at h
  rw [run_some x (Nat.zero_lt_of_lt h), run_none, Run.upTo_of_lt h]

end Extraction

end DatalogIntake

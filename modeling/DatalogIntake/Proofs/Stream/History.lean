import DatalogIntake.Stream.Session

/-!
# Histories of an extraction

What an extraction can have done so far, whoever asks for its objects: it takes a chunk once all
objects of the last one are handed over, it hands objects over one by one, and does nothing else
(`Extraction.History`). A history ends in one of five ways (`Extraction.Ends`), and in two of them
only the scanner is finished and text that is left over looked at. -/

namespace DatalogIntake

variable {α : Type}

/-! ### Events -/

namespace Event

/-- The objects among events. -/
def objects (events : List (Event α)) : List α := events.filterMap object?

/-- A report or a warning about text that is left over. -/
def IsTrailing : Event α → Prop
  | .reported (.trailing _) => True
  | .warned _ => True
  | _ => False

@[simp]
theorem objects_append (a b : List (Event α)) : objects (a ++ b) = objects a ++ objects b :=
  List.filterMap_append

@[simp]
theorem objects_delivered (l : List α) : objects (l.map .delivered) = l := by
  induction l with
  | nil => rfl
  | cons a l ih => exact congrArg (a :: ·) ih

end Event

@[simp]
theorem Fed.objects_events (f : Fed α) : Event.objects f.events = [] := by
  simp [Event.objects, Fed.events, Event.object?]

/-! ### Reports of a feed -/

/-- A walk reports rejected candidates only. -/
theorem Cursor.exists_rejected_of_mem_walk {decode : List Char → Decoded α} {k : Cursor}
    {text : List Char} {d : Diagnostic} (h : d ∈ (k.walk decode text).reports) :
    ∃ c e, d = .rejected c e := by
  induction text generalizing k with
  | nil => simp [walk] at h
  | cons c ahead ih =>
    unfold walk at h
    split at h
    · exact ih h
    · split at h
      · exact ih h
      · rcases List.mem_cons.mp h with rfl | h
        · exact ⟨_, _, rfl⟩
        · exact ih h
      · simp at h

theorem Scanner.exists_rejected_of_mem_feed {decode : List Char → Decoded α} {s : Scanner}
    {chunk : Json} {d : Diagnostic} (h : d ∈ (s.feed decode chunk).reports) :
    ∃ c e, d = .rejected c e := by
  unfold feed at h
  split at h
  · simp at h
  · split at h
    · unfold feedText at h
      dsimp only at h
      split at h <;> exact Cursor.exists_rejected_of_mem_walk h
    · simp at h

namespace Extraction

variable {x : Extraction α}

/-! ### Histories -/

/-- What an extraction has done while it goes on: the number of chunks taken, its scanner, the
objects that are still to be handed over, and the events. -/
inductive History (x : Extraction α) : Nat → Scanner → List α → List (Event α) → Prop
  | start : History x 0 {} [] []
  | take {k : Nat} {s : Scanner} {events : List (Event α)} {chunk : Json} {objects : List α}
      (h : History x k s [] events) (hfailure : x.source.failureAt? k = none)
      (hchunk : x.source.chunks[k]? = some chunk)
      (hfed : (s.feed x.decode chunk).outcome = .ok objects) :
      History x (k + 1) (s.feed x.decode chunk).scanner objects
        (events ++ (s.feed x.decode chunk).events)
  | deliver {k : Nat} {s : Scanner} {a : α} {pending : List α} {events : List (Event α)}
      (h : History x k s (a :: pending) events) :
      History x k s pending (events ++ [.delivered a])

/-- The ways in which a history ends, before the source is closed. The consumer has all it wants;
the source fails, or the feed of a chunk; or the source has no more chunks, and the scanner is
finished. -/
inductive Ends (x : Extraction α) (limit : Option Nat) : List (Event α) → Ending → Prop
  | abandoned {k : Nat} {s : Scanner} {pending : List α} {events : List (Event α)}
      (h : x.History k s pending events) (hlimit : limit = some (Event.objects events).length) :
      Ends x limit events .abandoned
  | broke {k : Nat} {s : Scanner} {events : List (Event α)} {e : SourceFailure}
      (h : x.History k s [] events) (hfailure : x.source.failureAt? k = some e) :
      Ends x limit (events ++ [.broke e]) (.failed (.source e))
  | refused {k : Nat} {s : Scanner} {events : List (Event α)} {chunk : Json} {e : FeedError}
      (h : x.History k s [] events) (hfailure : x.source.failureAt? k = none)
      (hchunk : x.source.chunks[k]? = some chunk)
      (hfed : (s.feed x.decode chunk).outcome = .error e) :
      Ends x limit (events ++ (s.feed x.decode chunk).events) (.failed (.feed e))
  | exhausted {k : Nat} {s : Scanner} {events : List (Event α)} {left : List Char}
      (h : x.History k s [] events) (hfailure : x.source.failureAt? k = none)
      (hchunk : x.source.chunks[k]? = none) (hfinished : (s.finish x.policy).outcome = .ok left) :
      Ends x limit (events ++ (s.finish x.policy).events) .exhausted
  | leftover {k : Nat} {s : Scanner} {events : List (Event α)} {e : TrailingData}
      (h : x.History k s [] events) (hfailure : x.source.failureAt? k = none)
      (hchunk : x.source.chunks[k]? = none) (hfinished : (s.finish x.policy).outcome = .error e) :
      Ends x limit (events ++ (s.finish x.policy).events) (.failed (.trailing e))

end Extraction

end DatalogIntake

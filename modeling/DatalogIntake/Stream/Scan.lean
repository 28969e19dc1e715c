import DatalogIntake.Stream.Scanner

/-!
# Scans by place

A scan goes through a buffer by a place in it, one character a turn. A turn that completes an object
cuts the buffer behind it and goes on at place zero, so neither the place nor the buffer tells how
much there is still to do; what is unread does, and every turn takes one character of it
(`Scan.turn_on`). So a scan ends (`Scan.run`). A scan of a scanner that a text comes in to starts at
the position of the scanner (`Scanner.scan`) and leaves the scanner at its last place
(`Scan.Run.fed`).
-/

namespace DatalogIntake

/-- A scan in front of its next character: the buffer and the place in it, the depth, the offset of
the object that is open, and what has been completed and reported so far. -/
structure Scan (α : Type) where
  buffer : List Char
  place : Nat
  depth : Int
  start : Option Nat
  objects : List α
  reports : List Diagnostic
deriving DecidableEq

namespace Scan

variable {α : Type} (decode : List Char → Decoded α)

/-- What a turn does: there is no character left, the scan goes on, or a candidate goes beyond a
limit of the reader. -/
inductive Turn (α : Type) where
  | ended
  | on (next : Scan α)
  | escaped (left : Scan α) (e : Json.Overrun)
deriving DecidableEq

/-- The next character. -/
def next? (s : Scan α) : Option Char := s.buffer[s.place]?

/-- The text from the next character on. -/
def unread (s : Scan α) : List Char := s.buffer.drop s.place

/-- The scan behind an object that the next character completes: the buffer is cut and the place is
its start. -/
def cut (s : Scan α) : Scan α :=
  { s with buffer := s.buffer.drop (s.place + 1), place := 0, depth := 0, start := none }

/-- The candidate that starts at an offset and ends with the next character. -/
def candidate (s : Scan α) (start : Nat) : List Char := (s.buffer.take (s.place + 1)).drop start

/-- A turn at the end of an object. -/
def complete (s : Scan α) (start : Nat) : Turn α :=
  match decode (s.candidate start) with
  | .object a => .on { s.cut with objects := s.objects ++ [a] }
  | .rejected e => .on { s.cut with reports := s.reports ++ [.rejected (s.candidate start) e] }
  | .escaped e => .escaped { s with depth := 0 } e

/-- One turn: reads the next character. -/
def turn (s : Scan α) : Turn α :=
  match s.next? with
  | none => .ended
  | some c =>
    if c = '{' then
      .on { s with
        place := s.place + 1
        depth := s.depth + 1
        start := if s.depth = 0 then some s.place else s.start }
    else if c = '}' then
      match s.start with
      | some start =>
        if lowered s.depth = 0 then s.complete decode start
        else .on { s with place := s.place + 1, depth := lowered s.depth }
      | none => .on { s with place := s.place + 1, depth := lowered s.depth }
    else .on { s with place := s.place + 1 }

/-! ### Turns and unread text -/

theorem complete_on {s next : Scan α} {start : Nat} (h : s.complete decode start = .on next) :
    next.buffer = s.buffer.drop (s.place + 1) ∧ next.place = 0 := by
  unfold complete at h
  split at h
  · obtain rfl := Turn.on.inj h
    exact ⟨rfl, rfl⟩
  · obtain rfl := Turn.on.inj h
    exact ⟨rfl, rfl⟩
  · cases h

/-- A turn that goes on either moves the place by one or cuts the buffer behind it. -/
theorem turn_on_cases {s next : Scan α} (h : s.turn decode = .on next) :
    s.place < s.buffer.length ∧
      ((next.buffer = s.buffer ∧ next.place = s.place + 1) ∨
        (next.buffer = s.buffer.drop (s.place + 1) ∧ next.place = 0)) := by
  unfold turn at h
  split at h
  · cases h
  · next c hc =>
    refine ⟨(List.getElem?_eq_some_iff.mp hc).1, ?_⟩
    split at h
    · obtain rfl := Turn.on.inj h
      exact Or.inl ⟨rfl, rfl⟩
    · split at h
      · split at h
        · split at h
          · exact Or.inr (complete_on decode h)
          · obtain rfl := Turn.on.inj h
            exact Or.inl ⟨rfl, rfl⟩
        · obtain rfl := Turn.on.inj h
          exact Or.inl ⟨rfl, rfl⟩
      · obtain rfl := Turn.on.inj h
        exact Or.inl ⟨rfl, rfl⟩

/-- **A turn takes one character of what is unread.** -/
theorem turn_on {s next : Scan α} (h : s.turn decode = .on next) :
    ∃ c, s.next? = some c ∧ s.unread = c :: next.unread := by
  obtain ⟨hlt, hmove⟩ := s.turn_on_cases decode h
  refine ⟨s.buffer[s.place], List.getElem?_eq_getElem hlt, ?_⟩
  rcases hmove with ⟨hbuffer, hplace⟩ | ⟨hbuffer, hplace⟩
  · rw [unread, unread, hbuffer, hplace, List.drop_eq_getElem_cons hlt]
  · rw [unread, unread, hbuffer, hplace, List.drop_eq_getElem_cons hlt, List.drop_zero]

/-! ### Runs -/

/-- What a scan leaves: the scan in front of each character that it has read, where it has ended,
and what ended it before its time. -/
structure Run (α : Type) where
  turns : List (Scan α)
  left : Scan α
  escape : Option Json.Overrun

/-- A run with a turn before its own. -/
def Run.after (r : Run α) (s : Scan α) : Run α := { r with turns := s :: r.turns }

/-- Takes turns as long as there are characters. -/
def run (s : Scan α) : Run α :=
  match _h : s.turn decode with
  | .ended => ⟨[], s, none⟩
  | .on next => next.run.after s
  | .escaped left e => ⟨[s], left, some e⟩
termination_by s.unread.length
decreasing_by
  obtain ⟨c, -, hc⟩ := s.turn_on decode _h
  simp [hc]

/-- What the feed that a scan belongs to leaves. -/
def Run.fed (r : Run α) (s : Scanner) : Fed α :=
  let left : Scanner :=
    { s with buffer := r.left.buffer, depth := r.left.depth, start := r.left.start }
  match r.escape with
  | some e => ⟨left, r.left.reports, .error (.overrun e)⟩
  | none => ⟨{ left with position := r.left.place }, r.left.reports, .ok r.left.objects⟩

end Scan

/-- The scan of a scanner that a text comes in to. -/
def Scanner.scan (α : Type) (s : Scanner) (text : String) : Scan α :=
  ⟨s.buffer ++ text.toList, s.position, s.depth, s.start, [], []⟩

end DatalogIntake

import DatalogIntake.Proofs.Stream.Failures

/-!
# Borders of chunks

Where a text is cut into chunks does not matter, whatever the scanner's state. A walk over two texts
is a walk over the first and, from the cursor at which it ends, one over the second
(`Cursor.walk_append`). A scanner takes up its walk at that cursor, unless its position lies behind
the text it has: then it passes over nothing until the text is long enough.

* `feed_append`: two chunks are fed as their concatenation, as far as the feed of the second. -/

namespace DatalogIntake

variable {α : Type} (decode : List Char → Decoded α)

/-! ### Walks -/

/-- The cursor at which a walk has come to its end. -/
def Walk.cursor (w : Walk α) : Cursor := ⟨w.buffer.reverse, w.depth, w.start⟩

/-- A walk that goes on where another has ended. -/
def Walk.andThen (w next : Walk α) : Walk α :=
  { next with objects := w.objects ++ next.objects, reports := w.reports ++ next.reports }

/-- **A walk over two texts goes on where the walk over the first ends.** -/
theorem Cursor.walk_append {k : Cursor} {a : List Char} (h : (k.walk decode a).escape = none)
    (b : List Char) :
    k.walk decode (a ++ b) =
      (k.walk decode a).andThen ((k.walk decode a).cursor.walk decode b) := by
  induction a generalizing k with
  | nil => simp [walk, Walk.cursor, Walk.andThen]
  | cons c ahead ih =>
    rw [List.cons_append]
    cases hstep : k.step c with
    | on l =>
      rw [walk_on _ hstep] at h ⊢
      rw [walk_on _ hstep, ih h]
    | complete candidate start =>
      rw [walk_complete _ hstep] at h ⊢
      rw [walk_complete _ hstep]
      cases hdec : decode candidate with
      | object a =>
        rw [hdec] at h
        exact congrArg (Walk.withObject a) (ih (k := ⟨[], 0, none⟩) h)
      | rejected e =>
        rw [hdec] at h
        exact congrArg (Walk.withReport (.rejected candidate e)) (ih (k := ⟨[], 0, none⟩) h)
      | escaped e =>
        rw [hdec] at h
        cases h

/-! ### Feeds -/

namespace Scanner

/-- The walk of a scanner that a text comes in to. -/
def walk (s : Scanner) (text : String) : Walk α := (s.cursor text).walk decode (s.ahead text)

theorem feed_walk_ok {s : Scanner} (hs : s.isFinished = false) {text : String}
    (h : (s.walk decode text).escape = none) :
    s.feed decode (.str text) =
      let w := s.walk decode text
      let position := if s.position < (s.buffer ++ text.toList).length then w.buffer.length
        else s.position
      ⟨⟨w.buffer, w.depth, w.start, position, false⟩, w.reports, .ok w.objects⟩ := by
  unfold walk cursor ahead at h
  simp only [feed, hs, feedText, h]
  rfl

theorem feed_walk_escaped {s : Scanner} (hs : s.isFinished = false) {text : String}
    {e : Json.Overrun} (h : (s.walk decode text).escape = some e) :
    s.feed decode (.str text) =
      let w := s.walk decode text
      ⟨⟨w.buffer, w.depth, w.start, s.position, false⟩, w.reports, .error (.overrun e)⟩ := by
  unfold walk cursor ahead at h
  simp only [feed, hs, feedText, h]
  rfl

/-- A feed returns objects just when the scanner has not finished and its walk comes to the end. -/
theorem feed_eq_ok {s : Scanner} {text : String} {objects : List α} :
    (s.feed decode (.str text)).outcome = .ok objects ↔
      s.isFinished = false ∧ (s.walk decode text).escape = none ∧
        (s.walk decode text).objects = objects := by
  cases hs : s.isFinished with
  | true => simp [feed, hs]
  | false =>
    cases h : (s.walk decode text).escape with
    | none => simp [feed_walk_ok decode hs h]
    | some e => simp [feed_walk_escaped decode hs h]

/-- A scanner whose position is not behind the text it has passes over the text that comes later
once it has passed over that. -/
theorem walk_text_append {s : Scanner} {a b : String}
    (hle : s.position ≤ (s.buffer ++ a.toList).length) (h : (s.walk decode a).escape = none) :
    s.walk decode (a ++ b) =
      (s.walk decode a).andThen ((s.walk decode a).cursor.walk decode b.toList) := by
  have htext : s.buffer ++ (a ++ b).toList = (s.buffer ++ a.toList) ++ b.toList := by
    rw [String.toList_append, List.append_assoc]
  have hcursor : s.cursor (a ++ b) = s.cursor a := by
    unfold cursor
    rw [htext, List.take_append_of_le_length hle]
  have hahead : s.ahead (a ++ b) = s.ahead a ++ b.toList := by
    unfold ahead
    rw [htext, List.drop_append_of_le_length hle]
  unfold walk at h ⊢
  rw [hcursor, hahead, Cursor.walk_append decode h]

theorem walk_of_position {s : Scanner} (h : s.position = s.buffer.length) (text : String) :
    s.walk decode text =
      Cursor.walk decode ⟨s.buffer.reverse, s.depth, s.start⟩ text.toList := by
  simp [walk, cursor, ahead, h]

/-- A scanner whose position is not behind the text it has ends a feed at the end of its buffer. -/
theorem feed_caught_up {s : Scanner} (hs : s.isFinished = false) {text : String}
    (hle : s.position ≤ (s.buffer ++ text.toList).length)
    (h : (s.walk decode text).escape = none) :
    s.feed decode (.str text) =
      let w := s.walk decode text
      ⟨⟨w.buffer, w.depth, w.start, w.buffer.length, false⟩, w.reports, .ok w.objects⟩ := by
  rw [feed_walk_ok decode hs h]
  dsimp only
  split_ifs with hlt
  · rfl
  · have hposition : s.position = (s.buffer ++ text.toList).length := by omega
    have hbuffer : (s.walk decode text).buffer = s.buffer ++ text.toList := by
      unfold walk cursor ahead
      rw [hposition, List.drop_length, List.take_length]
      simp [Cursor.walk]
    rw [hbuffer, hposition]

theorem feed_behind {s : Scanner} (hs : s.isFinished = false) {text : String}
    (hlt : (s.buffer ++ text.toList).length < s.position) :
    s.feed decode (.str text) = ⟨{ s with buffer := s.buffer ++ text.toList }, [], .ok []⟩ := by
  have hwalk : s.walk decode text = ⟨s.buffer ++ text.toList, s.depth, s.start, [], [], none⟩ := by
    unfold walk cursor ahead
    rw [List.drop_eq_nil_of_le (Nat.le_of_lt hlt), List.take_of_length_le (Nat.le_of_lt hlt)]
    simp [Cursor.walk]
  rw [feed_walk_ok decode hs (by rw [hwalk])]
  simp only [hwalk, if_neg (Nat.lt_asymm hlt), ← hs]

theorem feed_taken_in {s : Scanner} (hs : s.isFinished = false) (a b : String) :
    { s with buffer := s.buffer ++ a.toList }.feed decode (.str b) =
      s.feed decode (.str (a ++ b)) := by
  simp only [feed, feedText, String.toList_append, List.append_assoc, hs]
  rfl

theorem position_of_feed_error {s : Scanner} {text : String} {e : FeedError}
    (h : (s.feed decode (.str text)).outcome = .error e) :
    (s.feed decode (.str text)).scanner.position = s.position := by
  cases hs : s.isFinished with
  | true => simp [feed, hs]
  | false =>
    cases hescape : (s.walk decode text).escape with
    | none => simp [feed_walk_ok decode hs hescape] at h
    | some e' => rw [feed_walk_escaped decode hs hescape]

end Scanner

/-- **Borders of chunks are invisible.** From every state of a scanner, also one that a failed feed
has left, feed a text that gives objects, and then another. The two texts in one piece give the same
reports. If the second gives objects too, they give the objects of both and leave the same scanner;
if it fails they fail in the same way, and leave the same scanner but for its position, which is
still that of the state. -/
theorem feed_append {s : Scanner} {a b : String} {objects : List α}
    (h : (s.feed decode (.str a)).outcome = .ok objects) :
    let first := s.feed decode (.str a)
    let second := first.scanner.feed decode (.str b)
    let whole := s.feed decode (.str (a ++ b))
    whole.reports = first.reports ++ second.reports ∧
    (∀ more, second.outcome = .ok more →
      whole.outcome = .ok (objects ++ more) ∧ whole.scanner = second.scanner) ∧
    ∀ e, second.outcome = .error e →
      whole.outcome = .error e ∧
        whole.scanner = { second.scanner with position := s.position } := by
  obtain ⟨hs, hescape, hobjects⟩ := (s.feed_eq_ok decode).mp h
  intro first second whole
  by_cases hle : s.position ≤ (s.buffer ++ a.toList).length
  · have hfirst := s.feed_caught_up decode hs hle hescape
    have hle' : s.position ≤ (s.buffer ++ (a ++ b).toList).length := by
      rw [String.toList_append, ← List.append_assoc, List.length_append]
      omega
    have hwhole := s.walk_text_append decode (b := b) hle hescape
    let w : Walk α := s.walk decode a
    let t : Scanner := ⟨w.buffer, w.depth, w.start, w.buffer.length, false⟩
    have ht : t.walk decode b = w.cursor.walk decode b.toList := t.walk_of_position decode rfl b
    rw [← ht] at hwhole
    have hsecond : second = t.feed decode (.str b) :=
      congrArg (fun f : Fed α => f.scanner.feed decode (.str b)) hfirst
    rw [show first = _ from hfirst, hsecond, ← hobjects]
    cases hescape' : (t.walk decode b).escape with
    | none =>
      have hnone : (s.walk decode (a ++ b)).escape = none := by rw [hwhole]; exact hescape'
      have htle : t.position ≤ (t.buffer ++ b.toList).length := by simp [t]
      rw [show whole = _ from s.feed_caught_up decode hs hle' hnone,
        t.feed_caught_up decode rfl htle hescape', hwhole]
      refine ⟨rfl, fun more hmore => ⟨?_, rfl⟩, fun e he => by cases he⟩
      rw [← Except.ok.inj hmore]
      rfl
    | some e =>
      have hsome : (s.walk decode (a ++ b)).escape = some e := by rw [hwhole]; exact hescape'
      rw [show whole = _ from s.feed_walk_escaped decode hs hsome,
        t.feed_walk_escaped decode rfl hescape', hwhole]
      refine ⟨rfl, fun more hmore => ?_, fun e he => ⟨he, rfl⟩⟩
      cases hmore
  · have hfirst : first = ⟨{ s with buffer := s.buffer ++ a.toList }, [], .ok []⟩ :=
      s.feed_behind decode hs (Nat.lt_of_not_le hle)
    have hsecond : second = whole := by
      show first.scanner.feed decode (.str b) = whole
      rw [hfirst]
      exact s.feed_taken_in decode hs a b
    have hnone : objects = [] := by
      have hboth : first.outcome = .ok objects := h
      rw [hfirst] at hboth
      exact (Except.ok.inj hboth).symm
    rw [hsecond, hfirst, hnone]
    refine ⟨rfl, fun more hmore => ⟨hmore, rfl⟩, fun e he => ⟨he, ?_⟩⟩
    rw [← s.position_of_feed_error decode he]

/-- A scanner as a failed feed leaves it, at depth zero with an object still marked as open, in the
middle of a payload. The first text closes that object, which is no payload, and the border is
inside a string of the next. -/
theorem feed_append_resumed :
    let s : Scanner := ⟨"x\x7b7".toList, 0, some 1, 2, false⟩
    let a := "\x7d \x7b\"guiding_questions\":[\"wh"
    let b := "y\"],\"mangle_facts\":[],\"mangle_rules\":[]\x7d\x7b"
    let object : payloadShape.Carrier := (["why"], [], [], ())
    let first := s.feed (payloadShape.decode 990) (.str a)
    let second := first.scanner.feed (payloadShape.decode 990) (.str b)
    let whole := s.feed (payloadShape.decode 990) (.str (a ++ b))
    first.outcome = .ok [] ∧ first.reports.map Diagnostic.candidate = ["\x7b7\x7d".toList] ∧
      second.outcome = .ok [object] ∧ whole.outcome = .ok [object] ∧
      whole.reports = first.reports ++ second.reports ∧
      whole.scanner = ⟨['\x7b'], 1, some 0, 1, false⟩ := by
  intro s a b object first second whole
  have hfirst : first.outcome = .ok [] := by decide +kernel
  have hreports : first.reports.map Diagnostic.candidate = ["\x7b7\x7d".toList] := by
    decide +kernel
  have hsecond : second.outcome = .ok [object] := by decide +kernel
  have hleft : second.scanner = ⟨['\x7b'], 1, some 0, 1, false⟩ := by decide +kernel
  obtain ⟨hwhole, hok, -⟩ := feed_append (payloadShape.decode 990) hfirst
  obtain ⟨houtcome, hscanner⟩ := hok [object] hsecond
  exact ⟨hfirst, hreports, hsecond, houtcome, hwhole, hscanner.trans hleft⟩

end DatalogIntake

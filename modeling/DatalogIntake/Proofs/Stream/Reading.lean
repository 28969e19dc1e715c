import DatalogIntake.Proofs.Stream.Invariant
import DatalogIntake.Stream.Scan

/-!
# Every character is read once

A feed goes through the buffer by a place in it, which returns to the start whenever an object is
complete and the buffer is cut. In terms of the text that is unread, a turn is one step of the
cursor over its first character (`Scan.turn_eq`), so a run gives what the walk over that text gives
(`Scan.toWalk_run`), and a feed is such a run (`Scanner.feed_eq_run`), from every state. A run takes
that text character by character (`Scan.unread_turns`, `Scan.length_turns`). As long as no feed has
failed the position of a scanner is the end of its buffer, so that text is the chunk
(`Scanner.IsInStep.unread_scan`).

* `feed_reads_once`: what a turn takes, that a feed ends, and which characters it reads. -/

namespace DatalogIntake

variable {α : Type} (decode : List Char → Decoded α) (policy : TrailingPolicy)

namespace Scan

/-! ### Turns -/

/-- The cursor at the place of a scan. -/
def cursor (s : Scan α) : Cursor := ⟨(s.buffer.take s.place).reverse, s.depth, s.start⟩

/-- The scan behind the next character, with the depth and the start of a cursor. -/
def moved (s : Scan α) (k : Cursor) : Scan α :=
  { s with place := s.place + 1, depth := k.depth, start := k.start }

theorem next?_eq_head? (s : Scan α) : s.next? = s.unread.head? := List.head?_drop.symm

theorem split_of_unread {s : Scan α} {c : Char} {ahead : List Char} (h : s.unread = c :: ahead) :
    s.place < s.buffer.length ∧ s.buffer.take (s.place + 1) = s.buffer.take s.place ++ [c] ∧
      s.buffer.drop (s.place + 1) = ahead := by
  have hlt : s.place < s.buffer.length := by
    by_contra hle
    rw [unread, List.drop_eq_nil_of_le (Nat.le_of_not_lt hle)] at h
    cases h
  have hdrop : s.buffer[s.place] :: s.buffer.drop (s.place + 1) = c :: ahead :=
    (List.drop_eq_getElem_cons hlt).symm.trans h
  obtain ⟨hc, hahead⟩ := List.cons.inj hdrop
  exact ⟨hlt, by rw [List.take_succ_eq_append_getElem hlt, hc], hahead⟩

/-- **A turn is a step of the cursor** over the next character. -/
theorem turn_eq {s : Scan α} {c : Char} {ahead : List Char} (h : s.unread = c :: ahead) :
    s.turn decode = match s.cursor.step c with
      | .on k => .on (s.moved k)
      | .complete _ start => s.complete decode start := by
  have hnext : s.next? = some c := by rw [next?_eq_head?, h, List.head?_cons]
  obtain ⟨hlt, -, -⟩ := split_of_unread h
  have hplace : (s.buffer.take s.place).reverse.length = s.place := by
    rw [List.length_reverse, List.length_take_of_le (Nat.le_of_lt hlt)]
  have hcursor : s.cursor = ⟨(s.buffer.take s.place).reverse, s.depth, s.start⟩ := rfl
  unfold turn Cursor.step
  rw [hnext, hcursor]
  dsimp only
  rw [hplace]
  by_cases hopen : c = '{'
  · rw [if_pos hopen, if_pos hopen]
    rfl
  · rw [if_neg hopen, if_neg hopen]
    by_cases hclose : c = '}'
    · rw [if_pos hclose, if_pos hclose]
      cases s.start with
      | none => rfl
      | some start =>
        dsimp only
        by_cases hzero : lowered s.depth = 0
        · rw [if_pos hzero, if_pos hzero]
        · rw [if_neg hzero, if_neg hzero]
          rfl
    · rw [if_neg hclose, if_neg hclose]
      rfl

/-- A step that completes an object completes the candidate that the turn has decoded. -/
theorem candidate_eq {s : Scan α} {c : Char} {ahead candidate : List Char} {start : Nat}
    (h : s.unread = c :: ahead) (hstep : s.cursor.step c = .complete candidate start) :
    s.candidate start = candidate := by
  obtain ⟨-, htake, -⟩ := split_of_unread h
  obtain ⟨-, hcandidate⟩ := Cursor.step_complete hstep
  rw [hcandidate, Scan.candidate, htake, cursor, List.reverse_cons, List.reverse_reverse]

/-- A scan ends where no character is left. -/
theorem turn_ended {s : Scan α} : s.turn decode = .ended ↔ s.buffer.length ≤ s.place := by
  constructor
  · intro h
    by_contra hlt
    rw [turn_eq decode (List.drop_eq_getElem_cons (Nat.lt_of_not_le hlt))] at h
    split at h
    · cases h
    · unfold complete at h
      split at h <;> cases h
  · intro hle
    have hnext : s.next? = none := List.getElem?_eq_none hle
    rw [turn, hnext]

theorem unread_ne_nil {s : Scan α} (h : s.turn decode ≠ .ended) : s.unread ≠ [] := by
  rw [Ne, turn_ended] at h
  rw [unread, Ne, List.drop_eq_nil_iff]
  exact h

/-! ### Runs -/

theorem run_ended {s : Scan α} (h : s.turn decode = .ended) : s.run decode = ⟨[], s, none⟩ := by
  rw [run]
  split
  · rfl
  · next hturn => rw [h] at hturn; cases hturn
  · next hturn => rw [h] at hturn; cases hturn

theorem run_on {s next : Scan α} (h : s.turn decode = .on next) :
    s.run decode = (next.run decode).after s := by
  rw [run]
  split
  · next hturn => rw [h] at hturn; cases hturn
  · next hturn =>
    rw [h] at hturn
    rw [Turn.on.inj hturn]
  · next hturn => rw [h] at hturn; cases hturn

theorem run_escaped {s left : Scan α} {e : Json.Overrun} (h : s.turn decode = .escaped left e) :
    s.run decode = ⟨[s], left, some e⟩ := by
  rw [run]
  split
  · next hturn => rw [h] at hturn; cases hturn
  · next hturn => rw [h] at hturn; cases hturn
  · next hturn =>
    rw [h] at hturn
    obtain ⟨rfl, rfl⟩ := Turn.escaped.inj hturn
    rfl

/-- **The unread text goes character by character.** In front of the turn number `k`, all characters
but the first `k` are unread. -/
theorem unread_turns (s : Scan α) (k : Nat) (h : k < (s.run decode).turns.length) :
    (s.run decode).turns[k].unread = s.unread.drop k := by
  induction s using run.induct decode generalizing k with
  | case1 s hturn => simp [run_ended decode hturn] at h
  | case2 s next hturn ih =>
    obtain ⟨c, -, hunread⟩ := s.turn_on decode hturn
    simp only [run_on decode hturn, Run.after] at h ⊢
    cases k with
    | zero => rfl
    | succ k =>
      rw [hunread, List.drop_succ_cons]
      exact ih k (Nat.lt_of_succ_lt_succ h)
  | case3 s left e hturn =>
    simp only [run_escaped decode hturn, List.length_singleton, Nat.lt_one_iff] at h ⊢
    subst h
    rfl

/-- A run has a turn for each character that is unread, unless it ends before its time. -/
theorem length_turns (s : Scan α) :
    (s.run decode).turns.length ≤ s.unread.length ∧
      ((s.run decode).escape = none → (s.run decode).turns.length = s.unread.length) := by
  induction s using run.induct decode with
  | case1 s hturn =>
    have hnil : s.unread = [] := List.drop_eq_nil_of_le ((turn_ended decode).mp hturn)
    rw [run_ended decode hturn, hnil]
    exact ⟨le_rfl, fun _ => rfl⟩
  | case2 s next hturn ih =>
    obtain ⟨c, -, hunread⟩ := s.turn_on decode hturn
    rw [run_on decode hturn, hunread]
    exact ⟨Nat.succ_le_succ ih.1, fun hescape => congrArg Nat.succ (ih.2 hescape)⟩
  | case3 s left e hturn =>
    have hne := s.unread_ne_nil decode (by rw [hturn]; nofun)
    rw [run_escaped decode hturn]
    exact ⟨List.length_pos_iff.mpr hne, nofun⟩

/-- A run that comes to its end ends behind the last character. -/
theorem place_left {s : Scan α} (hle : s.place ≤ s.buffer.length)
    (h : (s.run decode).escape = none) :
    (s.run decode).left.place = (s.run decode).left.buffer.length := by
  induction s using run.induct decode with
  | case1 s hturn =>
    rw [run_ended decode hturn]
    exact Nat.le_antisymm hle ((turn_ended decode).mp hturn)
  | case2 s next hturn ih =>
    obtain ⟨hlt, hmove⟩ := s.turn_on_cases decode hturn
    rw [run_on decode hturn] at h ⊢
    refine ih ?_ h
    rcases hmove with ⟨hbuffer, hplace⟩ | ⟨-, hplace⟩
    · rw [hbuffer, hplace]
      exact hlt
    · rw [hplace]
      exact Nat.zero_le _
  | case3 s left e hturn =>
    rw [run_escaped decode hturn] at h
    cases h

/-! ### Scans and walks -/

/-- What a scan has come to so far, as a walk. -/
def toWalk (s : Scan α) : Walk α := ⟨s.buffer, s.depth, s.start, s.objects, s.reports, none⟩

/-- What a run leaves, as a walk. -/
def Run.toWalk (r : Run α) : Walk α := { r.left.toWalk with escape := r.escape }

theorem cursor_moved {s : Scan α} {c : Char} {ahead : List Char} {k : Cursor}
    (h : s.unread = c :: ahead) (hstep : s.cursor.step c = .on k) :
    (s.moved k).cursor = k ∧ (s.moved k).unread = ahead := by
  obtain ⟨-, htake, hdrop⟩ := split_of_unread h
  obtain ⟨hpassed, -⟩ := Cursor.step_on hstep
  refine ⟨?_, hdrop⟩
  have hcursor : (s.moved k).cursor = ⟨c :: s.cursor.passed, k.depth, k.start⟩ := by
    simp only [cursor, moved, htake, List.reverse_append, List.reverse_singleton,
      List.singleton_append]
  rw [hcursor, ← hpassed]

/-- **A run gives what the walk over the unread text gives**, behind what was there before. -/
theorem toWalk_run (s : Scan α) :
    (s.run decode).toWalk = s.toWalk.andThen (s.cursor.walk decode s.unread) := by
  obtain ⟨text, htext⟩ : ∃ text, s.unread = text := ⟨_, rfl⟩
  induction text generalizing s with
  | nil =>
    have hle : s.buffer.length ≤ s.place := List.drop_eq_nil_iff.mp htext
    rw [run_ended decode ((turn_ended decode).mpr hle), htext]
    simp [Run.toWalk, toWalk, Walk.andThen, Cursor.walk, cursor, List.take_of_length_le hle]
  | cons c ahead ih =>
    have hturn := turn_eq decode htext
    have hgo : ∀ (next : Scan α) (k : Cursor), s.turn decode = .on next → next.unread = ahead →
        next.cursor = k → (s.run decode).toWalk = next.toWalk.andThen (k.walk decode ahead) := by
      rintro next _ hnext hunread rfl
      rw [run_on decode hnext, ← hunread]
      exact ih next hunread
    rw [htext]
    cases hstep : s.cursor.step c with
    | on k =>
      rw [hstep] at hturn
      obtain ⟨hcursor, hunread⟩ := cursor_moved htext hstep
      rw [Cursor.walk_on decode hstep]
      exact hgo (s.moved k) k hturn hunread hcursor
    | complete candidate start =>
      obtain ⟨-, -, hdrop⟩ := split_of_unread htext
      obtain ⟨hstart, -⟩ := Cursor.step_complete hstep
      rw [hstep] at hturn
      dsimp only at hturn
      rw [complete, candidate_eq htext hstep] at hturn
      rw [Cursor.walk_complete decode hstep]
      -- Behind a complete object the cursor is that of a fresh buffer.
      cases hdecode : decode candidate with
      | object a =>
        rw [hdecode] at hturn
        refine (hgo _ ⟨[], 0, none⟩ hturn hdrop rfl).trans ?_
        simp [toWalk, Walk.andThen, Walk.withObject, cut]
      | rejected e =>
        rw [hdecode] at hturn
        refine (hgo _ ⟨[], 0, none⟩ hturn hdrop rfl).trans ?_
        simp [toWalk, Walk.andThen, Walk.withReport, cut]
      | escaped e =>
        have hbuffer : s.buffer = s.cursor.passed.reverse ++ c :: ahead := by
          rw [cursor, List.reverse_reverse, ← htext, unread, List.take_append_drop]
        rw [hdecode] at hturn
        rw [run_escaped decode hturn, ← hbuffer]
        simp [Run.toWalk, toWalk, Walk.andThen, show s.start = some start from hstart]

end Scan

/-! ### Feeds -/

namespace Scanner

theorem scan_cursor (s : Scanner) (text : String) : (s.scan α text).cursor = s.cursor text := rfl

theorem scan_unread (s : Scanner) (text : String) : (s.scan α text).unread = s.ahead text := rfl

theorem toWalk_run_scan (s : Scanner) (text : String) :
    ((s.scan α text).run decode).toWalk = s.walk decode text := by
  rw [Scan.toWalk_run, scan_cursor, scan_unread]
  rfl

/-- **A feed is a scan**, from every state of the scanner. -/
theorem feed_eq_run {s : Scanner} (hs : s.isFinished = false) (text : String) :
    s.feed decode (.str text) = ((s.scan α text).run decode).fed s := by
  have hwalk := s.toWalk_run_scan decode text
  have hescape : ((s.scan α text).run decode).escape = (s.walk decode text).escape :=
    congrArg Walk.escape hwalk
  cases hnone : (s.walk decode text).escape with
  | some e =>
    rw [feed_walk_escaped decode hs hnone, Scan.Run.fed, hescape, hnone, ← hwalk, ← hs]
    rfl
  | none =>
    by_cases hle : s.position ≤ (s.buffer ++ text.toList).length
    · have hplace := Scan.place_left decode (s := s.scan α text) hle (hescape.trans hnone)
      rw [feed_caught_up decode hs hle hnone, Scan.Run.fed, hescape, hnone, ← hwalk, hplace, ← hs]
      rfl
    · rw [feed_behind decode hs (Nat.lt_of_not_le hle)]
      have hturn : (s.scan α text).turn decode = .ended :=
        (Scan.turn_ended decode).mpr (Nat.le_of_not_le hle)
      rw [Scan.run_ended decode hturn]
      rfl

/-- A scanner that is in step has the text that comes in unread, and nothing else. -/
theorem IsInStep.unread_scan {s : Scanner} (h : s.IsInStep) (text : String) :
    (s.scan α text).unread = text.toList := by
  rw [scan_unread, ahead, h.position_eq, List.drop_left]

end Scanner

/-- **Every character is read once.** A turn of a scan, in whatever state, takes one character of
what lies between the place and the end of the buffer, also where it cuts the buffer, and the scan
ends where nothing is left of it. So every feed of a text to a scanner that has not finished ends,
after so many turns at most. After calls of which no feed has failed in the middle of its text, a
feed that returns takes a turn for each character of its text. In front of the turn number `k` all
of the text but its first `k` characters is unread, so the turn reads the character number `k` and
no turn reads a character of an earlier text. The place at the end is the end of the buffer. -/
theorem feed_reads_once :
    (∀ s : Scan α, (s.turn decode = .ended ↔ s.buffer.length ≤ s.place) ∧
      ∀ next, s.turn decode = .on next →
        (s.buffer.length : Int) - s.place = next.buffer.length - next.place + 1) ∧
    (∀ (s : Scanner) (text : String), s.isFinished = false →
      let r := (s.scan α text).run decode
      s.feed decode (.str text) = r.fed s ∧
      r.turns.length ≤ (s.buffer ++ text.toList).length - s.position) ∧
    ∀ (calls : List Call) (text : String),
      let s := Scanner.afterCalls decode policy {} calls
      let fed := s.feed decode (.str text)
      let r := (s.scan α text).run decode
      (∀ reply ∈ Scanner.replies decode policy {} calls, ¬reply.Escapes) →
      (∃ objects, fed.outcome = .ok objects) →
      r.turns.length = text.toList.length ∧
      (∀ k (h : k < r.turns.length), r.turns[k].next? = text.toList[k]? ∧
        r.turns[k].unread = text.toList.drop k) ∧
      r.left.place = r.left.buffer.length ∧
      fed.scanner.position = fed.scanner.buffer.length := by
  refine ⟨fun s => ⟨Scan.turn_ended decode, fun next hturn => ?_⟩, fun s text hs => ?_,
    fun calls text => ?_⟩
  · obtain ⟨hlt, hmove⟩ := s.turn_on_cases decode hturn
    rcases hmove with ⟨hbuffer, hplace⟩ | ⟨hbuffer, hplace⟩
    · rw [hbuffer, hplace]
      omega
    · rw [hbuffer, hplace, List.length_drop]
      omega
  · refine ⟨s.feed_eq_run decode hs text, ?_⟩
    have hlength := ((s.scan α text).length_turns decode).1
    rwa [Scanner.scan_unread, Scanner.ahead, List.length_drop] at hlength
  · intro s fed r hcalls hfed
    obtain ⟨objects, hobjects⟩ := hfed
    obtain ⟨hs, hescape, -⟩ := (s.feed_eq_ok decode).mp hobjects
    have hstep : s.IsInStep := Scanner.isInStep_fresh.afterCalls decode policy hcalls
    have hunread : (s.scan α text).unread = text.toList := hstep.unread_scan text
    have hnone : r.escape = none :=
      (congrArg Walk.escape (s.toWalk_run_scan decode text)).trans hescape
    have hplace : r.left.place = r.left.buffer.length := by
      refine Scan.place_left decode ?_ hnone
      show s.position ≤ (s.buffer ++ text.toList).length
      rw [hstep.position_eq, List.length_append]
      exact Nat.le_add_right _ _
    have hscanner : fed.scanner.position = fed.scanner.buffer.length :=
      (hstep.feed decode fun e he => by rw [hobjects] at he; cases he).position_eq
    have hturns : ∀ k (h : k < r.turns.length), r.turns[k].unread = text.toList.drop k :=
      fun k h => ((s.scan α text).unread_turns decode k h).trans (by rw [hunread])
    refine ⟨?_, fun k h => ⟨?_, hturns k h⟩, hplace, hscanner⟩
    · rw [← hunread]
      exact ((s.scan α text).length_turns decode).2 hnone
    · rw [Scan.next?_eq_head?, hturns k h, List.head?_drop]

/-- A chunk that completes the object that an earlier one has opened, and another one, and opens a
third: the buffer is cut twice, for the first time in the first turn. -/
theorem feed_reads_once_cut :
    let calls : List Call := [.feed (.str "x\x7b\"k\":1\x7dy\x7b"), .decode "[]".toList]
    let text := "\x7d\x7d\x7b\x7d\x7b"
    let s := Scanner.afterCalls (payloadShape.decode 990) .warn {} calls
    let first := s.scan payloadShape.Carrier text
    let second : Scan payloadShape.Carrier := ⟨"\x7d\x7b\x7d\x7b".toList, 0, 0, none, [],
      [.rejected "\x7b\x7d".toList (.misshapen "MangleSchemaPayload" ⟨3, Nat.succ_pos 2⟩)]⟩
    let fed := s.feed (payloadShape.decode 990) (.str text)
    let r := first.run (payloadShape.decode 990)
    s = ⟨"y\x7b".toList, 1, some 1, 2, false⟩ ∧
      first.turn (payloadShape.decode 990) = .on second ∧
      (first.buffer.length : Int) - first.place = second.buffer.length - second.place + 1 ∧
      (∀ reply ∈ Scanner.replies (payloadShape.decode 990) .warn {} calls, ¬reply.Escapes) ∧
      fed.outcome = .ok [] ∧ fed.scanner = ⟨['\x7b'], 1, some 0, 1, false⟩ ∧ fed = r.fed s ∧
      r.turns.length = 5 ∧
      ∀ k (h : k < r.turns.length), r.turns[k].unread = text.toList.drop k := by
  intro calls text s first second fed r
  have hcalls : ∀ reply ∈ Scanner.replies (payloadShape.decode 990) .warn {} calls,
      ¬reply.Escapes := by
    decide +kernel
  have hs : s = ⟨"y\x7b".toList, 1, some 1, 2, false⟩ := by decide +kernel
  have hturn : first.turn (payloadShape.decode 990) = .on second := by decide +kernel
  have hfed : fed.outcome = .ok [] := by decide +kernel
  obtain ⟨hscans, hfeeds, hruns⟩ := feed_reads_once (payloadShape.decode 990) .warn
  obtain ⟨hlength, hturns, -⟩ := hruns calls text hcalls ⟨[], hfed⟩
  exact ⟨hs, hturn, (hscans first).2 second hturn, hcalls, hfed, by decide +kernel,
    (hfeeds s text (by rw [hs])).1, hlength.trans (by decide), fun k h => (hturns k h).2⟩

end DatalogIntake

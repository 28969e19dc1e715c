import DatalogIntake.Proofs.Stream.Borders
import DatalogIntake.Proofs.Stream.Calls

/-!
# What holds of a scanner between calls

Two invariants of the scanner. The weak one holds whatever has been called: an object that is marked
as open starts at a brace of the buffer (`IsAnchored`). One step of the cursor keeps it
(`IsAnchored.step`), also the step at which a candidate escapes and the depth is back at zero with
the start still set, and so a walk does. The strong one (`Scanner.IsInStep`) is lost when a
candidate escapes, and kept otherwise: it says that the state is that of a segmentation
(`Scanner.IsInStep.exists_cuts`, `Scanner.isInStep_of_cuts`), which feeding takes to another.

* `Scanner.calls_invariant`: the weak invariant after any calls, the strong one after calls of which
  none has escaped. -/

namespace DatalogIntake

variable {α : Type} (decode : List Char → Decoded α) (policy : TrailingPolicy)

/-! ### The weak invariant -/

/-- The depth is never negative, an object is open where it is positive, and an object that is open
starts at a brace of the buffer. -/
structure IsAnchored (buffer : List Char) (depth : Int) (start : Option Nat) : Prop where
  depth_nonneg : 0 ≤ depth
  start_ne : 0 < depth → start ≠ none
  brace : ∀ n, start = some n → ∃ h : n < buffer.length, buffer[n] = '{'

theorem isAnchored_none (buffer : List Char) : IsAnchored buffer 0 none :=
  ⟨le_rfl, fun h => absurd h (lt_irrefl 0), nofun⟩

theorem IsAnchored.append {buffer : List Char} {depth : Int} {start : Option Nat}
    (h : IsAnchored buffer depth start) (text : List Char) :
    IsAnchored (buffer ++ text) depth start := by
  refine ⟨h.depth_nonneg, h.start_ne, fun n hn => ?_⟩
  obtain ⟨hlt, hbrace⟩ := h.brace n hn
  have hlt' : n < (buffer ++ text).length := by rw [List.length_append]; omega
  exact ⟨hlt', by rw [List.getElem_append_left hlt, hbrace]⟩

/-- The guard of a closing brace: the depth never drops below zero, and never rises. -/
theorem lowered_bounds {depth : Int} (h : 0 ≤ depth) :
    0 ≤ lowered depth ∧ lowered depth ≤ depth := by
  unfold lowered
  split_ifs <;> omega

/-- What a step that goes on does: an opening brace goes down by one level and marks the start of an
object at depth zero; a closing brace comes up by one level where there is one; any other character
leaves the depth. -/
theorem Cursor.step_on {k l : Cursor} {c : Char} (h : k.step c = .on l) :
    l.passed = c :: k.passed ∧
      ((c = '{' ∧ l.depth = k.depth + 1 ∧
          l.start = if k.depth = 0 then some k.passed.length else k.start) ∨
        (c ≠ '{' ∧ (l.depth = k.depth ∨ l.depth = lowered k.depth) ∧ l.start = k.start)) := by
  unfold step at h
  by_cases hopen : c = '{'
  · rw [if_pos hopen] at h
    obtain rfl := Move.on.inj h
    exact ⟨rfl, Or.inl ⟨hopen, rfl, rfl⟩⟩
  · rw [if_neg hopen] at h
    by_cases hclose : c = '}'
    · rw [if_pos hclose] at h
      split at h
      · split_ifs at h
        obtain rfl := Move.on.inj h
        exact ⟨rfl, Or.inr ⟨hopen, Or.inr rfl, rfl⟩⟩
      · next hstart =>
        obtain rfl := Move.on.inj h
        exact ⟨rfl, Or.inr ⟨hopen, Or.inr rfl, hstart.symm⟩⟩
    · rw [if_neg hclose] at h
      obtain rfl := Move.on.inj h
      exact ⟨rfl, Or.inr ⟨hopen, Or.inl rfl, rfl⟩⟩

/-- A step that completes an object completes the one that is marked as open, from its start on. -/
theorem Cursor.step_complete {k : Cursor} {c : Char} {candidate : List Char} {start : Nat}
    (h : k.step c = .complete candidate start) :
    k.start = some start ∧ candidate = (c :: k.passed).reverse.drop start := by
  unfold step at h
  cases hstart : k.start with
  | none =>
    rw [hstart] at h
    split_ifs at h
  | some offset =>
    rw [hstart] at h
    split_ifs at h
    obtain ⟨rfl, rfl⟩ := Move.complete.inj h
    exact ⟨rfl, rfl⟩

/-- **A step that goes on keeps the weak invariant.** -/
theorem IsAnchored.step {k l : Cursor} {c : Char} {ahead : List Char}
    (h : IsAnchored (k.passed.reverse ++ c :: ahead) k.depth k.start) (hstep : k.step c = .on l) :
    IsAnchored (l.passed.reverse ++ ahead) l.depth l.start := by
  obtain ⟨hpassed, hmove⟩ := Cursor.step_on hstep
  have hbuffer : l.passed.reverse ++ ahead = k.passed.reverse ++ c :: ahead := by
    rw [hpassed, List.reverse_cons, List.append_assoc, List.singleton_append]
  rw [hbuffer]
  have hnonneg := h.depth_nonneg
  rcases hmove with ⟨rfl, hdepth, hstart⟩ | ⟨-, hdepth, hstart⟩
  · by_cases hzero : k.depth = 0
    · rw [if_pos hzero] at hstart
      refine ⟨by omega, fun _ => by simp [hstart], fun n hn => ?_⟩
      obtain rfl : k.passed.length = n := Option.some.inj (hstart.symm.trans hn)
      have hlt : k.passed.length < (k.passed.reverse ++ '{' :: ahead).length := by simp
      exact ⟨hlt, by simp⟩
    · rw [if_neg hzero] at hstart
      rw [hstart]
      exact ⟨by omega, fun _ => h.start_ne (by omega), h.brace⟩
  · obtain ⟨hlow, hle⟩ := lowered_bounds hnonneg
    rw [hstart]
    exact ⟨by omega, fun hpos => h.start_ne (by omega), h.brace⟩

/-- **A walk keeps the weak invariant.** Where it ends at a candidate that escapes, the object of
the candidate is still marked as open. -/
theorem IsAnchored.walk {k : Cursor} {text : List Char}
    (h : IsAnchored (k.passed.reverse ++ text) k.depth k.start) :
    IsAnchored (k.walk decode text).buffer (k.walk decode text).depth
      (k.walk decode text).start := by
  induction text generalizing k with
  | nil => simpa [Cursor.walk] using h
  | cons c ahead ih =>
    have hfresh := ih (k := ⟨[], 0, none⟩) (isAnchored_none _)
    cases hstep : k.step c with
    | on l =>
      rw [Cursor.walk_on decode hstep]
      exact ih (h.step hstep)
    | complete candidate start =>
      rw [Cursor.walk_complete decode hstep]
      cases decode candidate with
      | object a => exact hfresh
      | rejected e => exact hfresh
      | escaped e =>
        -- The depth is zero, and the start is still that of the candidate.
        obtain ⟨hstart, -⟩ := Cursor.step_complete hstep
        exact ⟨le_rfl, fun hpos => absurd hpos (lt_irrefl 0),
          fun n hn => h.brace n (hstart.trans hn)⟩

namespace Scanner

/-- The object that is marked as open in a scanner starts at a brace of its buffer. -/
def IsAnchored (s : Scanner) : Prop := DatalogIntake.IsAnchored s.buffer s.depth s.start

/-- A feed leaves the scanner alone, or what its walk leaves. -/
theorem feed_cases (s : Scanner) (chunk : Json) :
    (s.feed decode chunk).scanner = s ∨
      ∃ (text : String) (w : Walk α), w = s.walk decode text ∧
        (s.feed decode chunk).scanner.buffer = w.buffer ∧
        (s.feed decode chunk).scanner.depth = w.depth ∧
        (s.feed decode chunk).scanner.start = w.start := by
  cases hs : s.isFinished with
  | true => exact Or.inl (by simp [feed, hs])
  | false =>
    cases chunk with
    | str text =>
      refine Or.inr ⟨text, _, rfl, ?_⟩
      cases hescape : (s.walk decode text).escape with
      | none => simp [feed_walk_ok decode hs hescape]
      | some e => simp [feed_walk_escaped decode hs hescape]
    | _ => exact Or.inl (by simp [feed, hs])

theorem IsAnchored.feed {s : Scanner} (h : s.IsAnchored) (chunk : Json) :
    (s.feed decode chunk).scanner.IsAnchored := by
  rcases s.feed_cases decode chunk with hsame | ⟨text, w, rfl, hbuffer, hdepth, hstart⟩
  · rw [hsame]
    exact h
  · have hcursor : (s.cursor text).passed.reverse ++ s.ahead text = s.buffer ++ text.toList := by
      rw [cursor, ahead, List.reverse_reverse, List.take_append_drop]
    have htext := h.append text.toList
    rw [← hcursor] at htext
    have hwalk := DatalogIntake.IsAnchored.walk decode (k := s.cursor text) htext
    unfold IsAnchored
    rw [hbuffer, hdepth, hstart]
    exact hwalk

/-- **Every call keeps the weak invariant.** -/
theorem IsAnchored.call {s : Scanner} (h : s.IsAnchored) (c : Call) :
    (s.call decode policy c).scanner.IsAnchored := by
  cases c with
  | feed chunk => exact h.feed decode chunk
  | finish => rw [scanner_call_finish]; exact h
  | decode text => exact h

theorem isAnchored_fresh : ({} : Scanner).IsAnchored := isAnchored_none []

theorem IsAnchored.afterCalls {s : Scanner} (h : s.IsAnchored) (calls : List Call) :
    (s.afterCalls decode policy calls).IsAnchored := by
  induction calls generalizing s with
  | nil => exact h
  | cons c calls ih => exact ih (h.call decode policy c)

/-- A candidate that escapes leaves the depth at zero and the start set. -/
example : Scanner.afterCalls (fun _ => (.escaped (.longInteger 4301) : Decoded Unit)) .warn {}
    [.feed (.str "\x7b\x7d"), .feed (.int 1)] = ⟨"\x7b\x7d".toList, 0, some 0, 0, false⟩ := by
  decide +kernel

/-! ### The strong invariant -/

/-- The text in front of the open object; all of the buffer where none is open. -/
def gapText (s : Scanner) : List Char := s.buffer.take (s.start.getD s.buffer.length)

/-- The text of the open object, as far as it has come; no text where none is open. -/
def openText (s : Scanner) : List Char := s.buffer.drop (s.start.getD s.buffer.length)

/-- A scanner whose state agrees with its buffer: the position is at the end, an object is marked as
open just when the depth is positive, no brace is opened in front of it, the depth is what is open
in its text, and it has not been closed in between. -/
structure IsInStep (s : Scanner) : Prop where
  start_ne_iff : s.start ≠ none ↔ 0 < s.depth
  position_eq : s.position = s.buffer.length
  isGap : IsGap s.gapText
  depth_eq : s.depth = excess s.openText
  deep : ∀ p, p <+: s.openText → p ≠ [] → 0 < excess p

/-- Text that is deep in all its prefixes starts with an opening brace. -/
theorem head?_of_deep {o : List Char} (hne : o ≠ [])
    (h : ∀ p, p <+: o → p ≠ [] → 0 < excess p) : o.head? = some '{' := by
  obtain ⟨c, r, rfl⟩ := List.exists_cons_of_ne_nil hne
  have hpos := h [c] (List.prefix_append [c] r) (List.cons_ne_nil c [])
  by_contra hc
  have hopen : c ≠ '{' := fun e => hc (by rw [e, List.head?_cons])
  by_cases hclose : c = '}'
  · rw [hclose, excess_close] at hpos
    omega
  · rw [excess_other hopen hclose] at hpos
    omega

theorem IsInStep.openText_eq_nil_iff {s : Scanner} (h : s.IsInStep) :
    s.openText = [] ↔ s.start = none := by
  constructor
  · intro hnil
    have hdepth := h.depth_eq
    rw [hnil, excess_nil] at hdepth
    by_contra hstart
    have hpos := h.start_ne_iff.mp hstart
    omega
  · intro hnone
    rw [openText, hnone, Option.getD_none, List.drop_length]

/-- The state of a scanner that is in step is that of a segmentation of its buffer. -/
theorem IsInStep.exists_cuts {s : Scanner} (h : s.IsInStep) :
    ∃ f, Segmentation.Cuts f s.buffer ∧ s = { f.scanner with isFinished := s.isFinished } := by
  have hbuffer : s.gapText ++ s.openText = s.buffer := List.take_append_drop _ _
  have hopen : s.openText = [] ∨ IsOpen s.openText := by
    by_cases hnil : s.openText = []
    · exact Or.inl hnil
    · exact Or.inr ⟨head?_of_deep hnil h.deep, h.deep⟩
  have hstart : (if s.openText = [] then none else some s.gapText.length) = s.start := by
    by_cases hnil : s.openText = []
    · rw [if_pos hnil, h.openText_eq_nil_iff.mp hnil]
    · obtain ⟨n, hn⟩ := Option.ne_none_iff_exists'.mp fun e => hnil (h.openText_eq_nil_iff.mpr e)
      have hlt : n < s.buffer.length := by
        by_contra hle
        refine hnil ?_
        rw [openText, hn]
        exact List.drop_eq_nil_of_le (Nat.not_lt.mp hle)
      have hlength : s.gapText.length = n := by
        rw [gapText, hn]
        exact List.length_take_of_le (Nat.le_of_lt hlt)
      rw [if_neg hnil, hlength, hn]
  refine ⟨⟨[], s.gapText, s.openText⟩, ⟨hbuffer, by simp, by simp, h.isGap, hopen⟩, ?_⟩
  simp only [Segmentation.scanner, Segmentation.rest, Segmentation.depth, Segmentation.start,
    hbuffer, ← h.depth_eq, hstart, ← h.position_eq]

/-- A scanner with the state of a segmentation is in step. -/
theorem isInStep_of_cuts {f : Segmentation} {t : List Char} (hf : f.Cuts t) (isFinished : Bool) :
    { f.scanner with isFinished := isFinished }.IsInStep := by
  by_cases hnil : f.tail = []
  · have hrest : f.rest = f.gap := by rw [Segmentation.rest, hnil, List.append_nil]
    have hstart : f.start = none := if_pos hnil
    have hdepth : f.depth = 0 := by rw [Segmentation.depth, hnil]; rfl
    refine ⟨?_, rfl, ?_, ?_, ?_⟩
    · simp [Segmentation.scanner, hstart, hdepth]
    · simpa [gapText, Segmentation.scanner, hstart, hrest] using hf.isGap
    · simp [openText, Segmentation.scanner, hstart, hdepth]
    · intro p hp hne
      simp only [openText, Segmentation.scanner, hstart, Option.getD_none, List.drop_length] at hp
      exact absurd (List.prefix_nil.mp hp) hne
  · have hopen := hf.isOpen.resolve_left hnil
    have hpos := hopen.excess_pos
    have hstart : f.start = some f.gap.length := if_neg hnil
    have hgap : f.rest.take f.gap.length = f.gap := List.take_left
    have htail : f.rest.drop f.gap.length = f.tail := List.drop_left
    refine ⟨?_, rfl, ?_, ?_, ?_⟩
    · exact iff_of_true (by simp [Segmentation.scanner, hstart]) hpos
    · simpa [gapText, Segmentation.scanner, hstart, hgap] using hf.isGap
    · simp [openText, Segmentation.scanner, Segmentation.depth, hstart, htail]
    · simpa [openText, Segmentation.scanner, hstart, htail] using hopen.deep

end Scanner

/-! ### Feeding in step -/

/-- The candidates of a feed that returns are decoded or rejected. -/
theorem Segmentation.isSettled_of_feed {f : Segmentation} (hf : f.tail = [] ∨ IsOpen f.tail)
    {text : String} {objects : List α}
    (h : (f.scanner.feed decode (.str text)).outcome = .ok objects) :
    ∀ c ∈ (text.toList.foldl push f.forget).blocks, (decode c).IsSettled := by
  have hkeep := feed_scanner Decoded.object hf (s := text) fun c _ => Decoded.isSettled_object c
  have hcandidates : f.scanner.candidates text = (text.toList.foldl push f.forget).blocks := by
    have hfed := (f.scanner.outcome_keep rfl text).symm.trans (congrArg Fed.outcome hkeep)
    rw [Except.ok.inj hfed, objectsOf]
    simp [Decoded.object?]
  rw [← hcandidates]
  by_contra hsome
  obtain ⟨_, c, before, after, hsplit, -, hbefore, hc⟩ := exists_firstFailing hsome
  obtain ⟨e, he⟩ : ∃ e, decode c = .escaped e := by
    simpa [Decoded.IsSettled] using hc
  have herror := (Scanner.feed_escaped decode rfl hsplit hbefore he).1
  rw [h] at herror
  cases herror

namespace Scanner

/-- **A feed that does not escape keeps a scanner in step.** -/
theorem IsInStep.feed {s : Scanner} (h : s.IsInStep) {chunk : Json}
    (hescape : ∀ e, (s.feed decode chunk).outcome ≠ .error (.overrun e)) :
    (s.feed decode chunk).scanner.IsInStep := by
  cases hs : s.isFinished with
  | true => simpa [Scanner.feed, hs] using h
  | false =>
    cases chunk with
    | str text =>
      obtain ⟨f, hf, hscanner⟩ := h.exists_cuts
      obtain rfl : s = f.scanner := hscanner.trans (by rw [hs]; rfl)
      -- Only a walk to the end of the text leaves the segmentation with the text pushed.
      cases houtcome : (f.scanner.feed decode (.str text)).outcome with
      | ok objects =>
        have hsettled := Segmentation.isSettled_of_feed decode hf.isOpen houtcome
        rw [Segmentation.feed_scanner decode hf.isOpen hsettled]
        exact isInStep_of_cuts (Segmentation.cuts_foldl_push hf text.toList) false
      | error e =>
        cases hwalk : (f.scanner.walk decode text).escape with
        | none => simp [feed_walk_ok decode hs hwalk] at houtcome
        | some e' => exact absurd (by rw [feed_walk_escaped decode hs hwalk]) (hescape e')
    | _ => simpa [Scanner.feed, hs] using h

/-- **A call that does not escape keeps a scanner in step.** -/
theorem IsInStep.call {s : Scanner} (h : s.IsInStep) {c : Call}
    (hescape : ¬(s.call decode policy c).Escapes) :
    (s.call decode policy c).scanner.IsInStep := by
  cases c with
  | feed chunk =>
    rw [escapes_call_feed, not_exists] at hescape
    exact h.feed decode hescape
  | finish =>
    rw [scanner_call_finish]
    exact ⟨h.start_ne_iff, h.position_eq, h.isGap, h.depth_eq, h.deep⟩
  | decode text => exact h

theorem IsInStep.afterCalls {s : Scanner} (h : s.IsInStep) {calls : List Call}
    (hescape : ∀ r ∈ s.replies decode policy calls, ¬r.Escapes) :
    (s.afterCalls decode policy calls).IsInStep := by
  induction calls generalizing s with
  | nil => exact h
  | cons c calls ih =>
    obtain ⟨hfirst, hrest⟩ := List.forall_mem_cons.mp hescape
    exact ih (h.call decode policy hfirst) hrest

theorem isInStep_fresh : ({} : Scanner).IsInStep :=
  isInStep_of_cuts Segmentation.cuts_empty false

/-- **What holds of a scanner after any calls.** However candidates are decoded, and whichever of
the calls have failed, an object is marked as open where the depth is positive, and it starts at a
brace of the buffer. As long as no feed has failed at a candidate, the state also agrees with the
buffer: the position is its end, the object that is marked as open is the only one that the text
opens and does not close, and the depth is what is open in it. -/
theorem calls_invariant (calls : List Call) :
    let s := Scanner.afterCalls decode policy {} calls
    s.IsAnchored ∧
    ((∀ r ∈ Scanner.replies decode policy {} calls, ¬r.Escapes) → s.IsInStep) := by
  intro s
  exact ⟨isAnchored_fresh.afterCalls decode policy calls,
    fun hescape => isInStep_fresh.afterCalls decode policy hescape⟩

/-- An object that opens another one, with calls in between that fail: a text that is no payload, a
chunk that is no text, leftovers that are an error, and a chunk that comes too late. -/
theorem calls_invariant_rejected :
    let calls : List Call := [.feed (.str "x\x7b\"k\":\x7b"), .decode "[]".toList, .feed (.int 1),
      .feed (.str "\x7d"), .finish, .feed (.str "\x7d")]
    let s := Scanner.afterCalls (payloadShape.decode 990) .error {} calls
    (∀ r ∈ Scanner.replies (payloadShape.decode 990) .error {} calls, ¬r.Escapes) ∧
      s = ⟨"x\x7b\"k\":\x7b\x7d".toList, 1, some 1, 8, true⟩ ∧ s.IsAnchored ∧ s.IsInStep := by
  intro calls s
  have houtcomes : (Scanner.replies (payloadShape.decode 990) .error {} calls).map Reply.outcome =
      [.ok (.objects []), .error (.rejected (.misshapen "MangleSchemaPayload" .one)),
        .error (.feed (.notText "int")), .ok (.objects []),
        .error (.trailing ⟨"x\x7b\"k\":\x7b\x7d".toList⟩), .error (.feed .finished)] := by
    decide +kernel
  have hescape : ∀ r ∈ Scanner.replies (payloadShape.decode 990) .error {} calls, ¬r.Escapes := by
    rintro r hr ⟨e, he⟩
    have hmem := List.mem_map_of_mem (f := Reply.outcome) hr
    rw [houtcomes, he] at hmem
    simp at hmem
  obtain ⟨hanchored, hstep⟩ := calls_invariant (payloadShape.decode 990) .error calls
  exact ⟨hescape, by decide +kernel, hanchored, hstep hescape⟩

end Scanner

end DatalogIntake

import DatalogIntake.Proofs.Json.Limits
import DatalogIntake.Proofs.List.First
import DatalogIntake.Proofs.Stream.Feeding

/-!
# Failures of single candidates

What a candidate that fails does to a feed, from any state of the scanner. The candidates of a text
are those that a decoder which keeps its candidates is handed (`Scanner.keep`). As long as each is
decoded or rejected they are all dealt with, and the scanner goes on as if they had been kept
(`Cursor.walk_settled`); at the first that escapes the feed ends, and the objects before it are lost
(`Cursor.walk_escaped`). Only what goes beyond a limit of the reader escapes.

* `feed_ok_iff`: a feed returns just when no candidate of the text goes beyond a limit. -/

namespace DatalogIntake

variable {α : Type} (decode : List Char → Decoded α)

/-! ### Candidates -/

/-- A feed with a decoder that keeps its candidates. -/
def Scanner.keep (s : Scanner) (text : String) : Fed (List Char) :=
  s.feed Decoded.object (.str text)

/-- A walk over candidates that were kept, with their objects and reports. -/
def Walk.settle (w : Walk (List Char)) : Walk α :=
  ⟨w.buffer, w.depth, w.start, objectsOf decode w.objects, reportsOf decode w.objects, none⟩

theorem Walk.settle_withObject_object {c : List Char} {a : α} (h : decode c = .object a)
    (w : Walk (List Char)) : (w.withObject c).settle decode = (w.settle decode).withObject a := by
  simp [settle, withObject, objectsOf, reportsOf, rejectedOf, h, Decoded.object?,
    Decoded.rejection?]

theorem Walk.settle_withObject_rejected {c : List Char} {e : Rejection} (h : decode c = .rejected e)
    (w : Walk (List Char)) :
    (w.withObject c).settle decode = (w.settle decode).withReport (.rejected c e) := by
  simp [settle, withObject, withReport, objectsOf, reportsOf, rejectedOf, h, Decoded.object?,
    Decoded.rejection?]

/-! ### Walks -/

theorem Cursor.walk_on {k l : Cursor} {c : Char} (h : k.step c = .on l) (ahead : List Char) :
    k.walk decode (c :: ahead) = l.walk decode ahead := by
  rw [walk, h]

theorem Cursor.walk_complete {k : Cursor} {c : Char} {candidate : List Char} {start : Nat}
    (h : k.step c = .complete candidate start) (ahead : List Char) :
    k.walk decode (c :: ahead) =
      match decode candidate with
      | .object a => (Cursor.walk decode ⟨[], 0, none⟩ ahead).withObject a
      | .rejected e =>
        (Cursor.walk decode ⟨[], 0, none⟩ ahead).withReport (.rejected candidate e)
      | .escaped e => ⟨k.passed.reverse ++ c :: ahead, 0, some start, [], [], some e⟩ := by
  cases hdecode : decode candidate <;> simp only [walk, h, hdecode]

/-- A decoder that keeps its candidates never ends a walk. -/
theorem Cursor.escape_walk_keep (k : Cursor) (text : List Char) :
    (k.walk Decoded.object text).escape = none := by
  induction text generalizing k with
  | nil => rfl
  | cons c ahead ih =>
    cases hstep : k.step c with
    | on l => rw [walk_on _ hstep, ih]
    | complete candidate start => rw [walk_complete _ hstep]; exact ih _

/-- **Candidates that are decoded or rejected are dealt with one by one.** -/
theorem Cursor.walk_settled {k : Cursor} {text : List Char}
    (h : ∀ c ∈ (k.walk Decoded.object text).objects, (decode c).IsSettled) :
    k.walk decode text = (k.walk Decoded.object text).settle decode := by
  induction text generalizing k with
  | nil => rfl
  | cons c ahead ih =>
    cases hstep : k.step c with
    | on l =>
      rw [walk_on _ hstep] at h ⊢
      rw [walk_on _ hstep, ih h]
    | complete candidate start =>
      rw [walk_complete _ hstep] at h
      obtain ⟨hcandidate, hrest⟩ := List.forall_mem_cons.mp h
      have hwalk := ih (k := ⟨[], 0, none⟩) hrest
      rw [walk_complete _ hstep, walk_complete _ hstep]
      cases hdec : decode candidate with
      | object a => rw [Walk.settle_withObject_object decode hdec, ← hwalk]
      | rejected e => rw [Walk.settle_withObject_rejected decode hdec, ← hwalk]
      | escaped e => exact absurd hdec (hcandidate e)

/-- **At the first candidate that escapes the walk ends.** The candidates before it have been dealt
with. -/
theorem Cursor.walk_escaped {k : Cursor} {text : List Char} {before after : List (List Char)}
    {c : List Char} {e : Json.Overrun}
    (hsplit : (k.walk Decoded.object text).objects = before ++ c :: after)
    (h : ∀ b ∈ before, (decode b).IsSettled) (hc : decode c = .escaped e) :
    (k.walk decode text).escape = some e ∧
      (k.walk decode text).reports = reportsOf decode before := by
  induction text generalizing k before with
  | nil => simp [walk] at hsplit
  | cons d ahead ih =>
    cases hstep : k.step d with
    | on l =>
      rw [walk_on _ hstep] at hsplit ⊢
      exact ih hsplit h
    | complete candidate start =>
      rw [walk_complete _ hstep] at hsplit ⊢
      cases before with
      | nil =>
        obtain ⟨rfl, -⟩ := List.cons.inj hsplit
        rw [hc]
        exact ⟨rfl, rfl⟩
      | cons b before =>
        obtain ⟨rfl, hrest⟩ := List.cons.inj hsplit
        obtain ⟨hb, hbefore⟩ := List.forall_mem_cons.mp h
        obtain ⟨hescape, hreports⟩ := ih (k := ⟨[], 0, none⟩) hrest hbefore
        cases hdec : decode candidate with
        | object a =>
          refine ⟨hescape, hreports.trans ?_⟩
          simp [reportsOf, rejectedOf, hdec, Decoded.rejection?]
        | rejected e' =>
          refine ⟨hescape, (congrArg _ hreports).trans ?_⟩
          simp [reportsOf, rejectedOf, hdec, Decoded.rejection?]
        | escaped e' => exact absurd hdec (hb e')

/-! ### Feeds -/

/-- Where the scanner takes up its walk when a text comes in. -/
def Scanner.cursor (s : Scanner) (text : String) : Cursor :=
  ⟨((s.buffer ++ text.toList).take s.position).reverse, s.depth, s.start⟩

/-- The text ahead of the scanner when a text comes in. -/
def Scanner.ahead (s : Scanner) (text : String) : List Char :=
  (s.buffer ++ text.toList).drop s.position

/-- The candidates that a text completes. -/
def Scanner.candidates (s : Scanner) (text : String) : List (List Char) :=
  ((s.cursor text).walk Decoded.object (s.ahead text)).objects

theorem Scanner.outcome_keep (s : Scanner) (hs : s.isFinished = false) (text : String) :
    (s.keep text).outcome = .ok (s.candidates text) := by
  have hescape := Cursor.escape_walk_keep (s.cursor text) (s.ahead text)
  unfold cursor ahead at hescape
  simp only [keep, feed, hs, feedText, hescape]
  rfl

/-- A feed whose candidates are all decoded or rejected: the state is that of a decoder which keeps
them. -/
theorem Scanner.feed_settled {s : Scanner} (hs : s.isFinished = false) {text : String}
    (h : ∀ c ∈ s.candidates text, (decode c).IsSettled) :
    s.feed decode (.str text) = ⟨(s.keep text).scanner, reportsOf decode (s.candidates text),
      .ok (objectsOf decode (s.candidates text))⟩ := by
  have hescape := Cursor.escape_walk_keep (s.cursor text) (s.ahead text)
  have hwalk := Cursor.walk_settled decode h
  unfold cursor ahead at hescape hwalk
  simp only [keep, feed, hs, feedText, hescape, hwalk, Walk.settle]
  rfl

theorem Scanner.feed_escaped {s : Scanner} (hs : s.isFinished = false) {text : String}
    {before after : List (List Char)} {c : List Char} {e : Json.Overrun}
    (hsplit : s.candidates text = before ++ c :: after)
    (h : ∀ b ∈ before, (decode b).IsSettled) (hc : decode c = .escaped e) :
    (s.feed decode (.str text)).outcome = .error (.overrun e) ∧
      (s.feed decode (.str text)).reports = reportsOf decode before := by
  obtain ⟨hescape, hreports⟩ := Cursor.walk_escaped decode hsplit h hc
  unfold cursor ahead at hescape hreports
  simp only [feed, hs, feedText, hescape]
  exact ⟨rfl, hreports⟩

theorem Scanner.feed_fresh (text : List Char) :
    (Scanner.feed decode {} (.str (String.ofList text))).reports =
        (Cursor.walk decode ⟨[], 0, none⟩ text).reports ∧
      (Scanner.feed decode {} (.str (String.ofList text))).outcome =
        (match (Cursor.walk decode ⟨[], 0, none⟩ text).escape with
        | some e => .error (.overrun e)
        | none => .ok (Cursor.walk decode ⟨[], 0, none⟩ text).objects) := by
  simp only [feed, feedText, String.toList_ofList, List.nil_append, List.take_zero,
    List.reverse_nil, List.drop_zero]
  cases (Cursor.walk decode ⟨[], 0, none⟩ text).escape <;> exact ⟨rfl, rfl⟩

/-! ### Shapes -/

section Shapes

variable {shape : Shape} {room : Nat}

/-- A candidate escapes from a shape just when the reader stops at a limit. -/
theorem Shape.decode_eq_escaped {c : List Char} {e : Json.Overrun} :
    shape.decode room c = .escaped e ↔ Json.ofChars? room c = .error (.overrun e) := by
  unfold Shape.decode
  split
  · next h => simp [h]
  · next h => simp [h]
  · next h => split <;> simp [h]

theorem Shape.isSettled_decode {c : List Char} :
    (shape.decode room c).IsSettled ↔ ¬Overruns room c := by
  simp only [Decoded.IsSettled, Overruns, ne_eq, decode_eq_escaped, not_exists]

end Shapes

/-- **A feed returns just when no candidate goes beyond a limit of the reader.** The candidates are
what a decoder that keeps them returns. If the feed returns, every candidate that the text completes
has been decoded and returned or rejected and reported, in order, and the scanner goes on where it
would with all of them kept. Otherwise the feed ends at the first candidate that goes beyond a
limit, with an integer literal that is too long or containers that nest deeper than there is room
for: the rejected candidates before it have been reported, the objects before it are not returned. -/
theorem feed_ok_iff (shape : Shape) (room : Nat) {s : Scanner} (hs : s.isFinished = false)
    (text : String) :
    (s.keep text).outcome = .ok (s.candidates text) ∧
    ((∃ objects, (s.feed (shape.decode room) (.str text)).outcome = .ok objects) ↔
      ∀ c ∈ s.candidates text, ¬Overruns room c) ∧
    ((∀ c ∈ s.candidates text, ¬Overruns room c) →
      s.feed (shape.decode room) (.str text) = ⟨(s.keep text).scanner,
        reportsOf (shape.decode room) (s.candidates text),
        .ok (objectsOf (shape.decode room) (s.candidates text))⟩) ∧
    ∀ i c e, FirstFailing (fun c => ¬Overruns room c) (s.candidates text) i c →
      Json.ofChars? room c = .error (.overrun e) →
      e.Shows room c ∧
        (s.feed (shape.decode room) (.str text)).outcome = .error (.overrun e) ∧
        (s.feed (shape.decode room) (.str text)).reports =
          reportsOf (shape.decode room) ((s.candidates text).take i) := by
  have hreturns : (∀ c ∈ s.candidates text, ¬Overruns room c) →
      s.feed (shape.decode room) (.str text) = ⟨(s.keep text).scanner,
        reportsOf (shape.decode room) (s.candidates text),
        .ok (objectsOf (shape.decode room) (s.candidates text))⟩ := fun h =>
    s.feed_settled (shape.decode room) hs fun c hc => Shape.isSettled_decode.mpr (h c hc)
  have hends : ∀ i c e, FirstFailing (fun c => ¬Overruns room c) (s.candidates text) i c →
      Json.ofChars? room c = .error (.overrun e) →
      (s.feed (shape.decode room) (.str text)).outcome = .error (.overrun e) ∧
        (s.feed (shape.decode room) (.str text)).reports =
          reportsOf (shape.decode room) ((s.candidates text).take i) := by
    rintro _ c e ⟨before, after, hsplit, rfl, hbefore, -⟩ hc
    rw [show (s.candidates text).take before.length = before by simp [hsplit]]
    exact s.feed_escaped (shape.decode room) hs hsplit
      (fun b hb => Shape.isSettled_decode.mpr (hbefore b hb)) (Shape.decode_eq_escaped.mpr hc)
  refine ⟨s.outcome_keep hs text, ⟨?_, fun h => ⟨_, congrArg Fed.outcome (hreturns h)⟩⟩, hreturns,
    fun i c e hfirst hc => ⟨Json.shows_of_overrun hc, hends i c e hfirst hc⟩⟩
  rintro ⟨objects, hok⟩
  by_contra hsome
  obtain ⟨i, c, hfirst⟩ := exists_firstFailing hsome
  have ⟨_, _, _, _, _, hover⟩ := hfirst
  obtain ⟨e, hc⟩ := not_not.mp hover
  have herror := (hends i c e hfirst hc).1
  rw [hok] at herror
  cases herror

/-- A text for an object that was open when it came in, which does not fit, and for a payload. -/
theorem feed_ok_iff_resumed :
    let payload := "\x7b\"guiding_questions\":[],\"mangle_facts\":[],\"mangle_rules\":[]\x7d"
    let s : Scanner := ⟨"\x7b\"k\":".toList, 1, some 0, 5, false⟩
    let text := "1\x7d " ++ payload
    let candidates := ["\x7b\"k\":1\x7d".toList, payload.toList]
    let decode := payloadShape.decode 990
    s.isFinished = false ∧ s.candidates text = candidates ∧
      s.feed decode (.str text) =
        ⟨(s.keep text).scanner, reportsOf decode candidates, .ok (objectsOf decode candidates)⟩ ∧
      (reportsOf decode candidates).length = 1 ∧ (objectsOf decode candidates).length = 1 := by
  intro payload s text candidates decode
  have hs : s.isFinished = false := rfl
  have hcandidates : s.candidates text = candidates := by decide +kernel
  have hread : ∀ c ∈ candidates, ¬Overruns 990 c := by
    have hshort : ∀ c ∈ candidates, c.length ≤ Json.maxIntegerDigits ∧ Json.nesting c ≤ 990 := by
      decide +kernel
    exact fun c hc => not_overruns_of_length_le (hshort c hc).1 (hshort c hc).2
  have hfeed := (feed_ok_iff payloadShape 990 hs text).2.2.1
  rw [hcandidates] at hfeed
  exact ⟨hs, hcandidates, hfeed hread, by decide +kernel, by decide +kernel⟩

/-- **One candidate can end a feed.** A payload that is returned when it comes alone is followed by
an object with an integer literal of 4301 digits: it is not returned, and nothing is reported. -/
theorem feed_longInteger :
    let payload :=
      "\x7b\"guiding_questions\":[],\"mangle_facts\":[],\"mangle_rules\":[]\x7d".toList
    let other := "\x7b\"k\":".toList ++ List.replicate 4301 '7' ++ ['\x7d']
    let decode := payloadShape.decode 990
    let alone := Scanner.feed decode {} (.str (String.ofList payload))
    let both := Scanner.feed decode {} (.str (String.ofList (payload ++ other)))
    (∃ a, alone.outcome = .ok [a]) ∧
      both.outcome = .error (.overrun (.longInteger 4301)) ∧ both.reports = [] := by
  intro payload other decode
  have hfirst : (Cursor.walk decode ⟨[], 0, none⟩ payload).escape = none ∧
      ∃ a, (Cursor.walk decode ⟨[], 0, none⟩ payload).objects = [a] := by
    rw [← List.length_eq_one_iff]
    decide +kernel
  have hboth : (Cursor.walk decode ⟨[], 0, none⟩ (payload ++ other)).escape =
        some (.longInteger 4301) ∧
      (Cursor.walk decode ⟨[], 0, none⟩ (payload ++ other)).reports = [] := by
    decide +kernel
  obtain ⟨hnone, a, ha⟩ := hfirst
  obtain ⟨hescape, hreports⟩ := hboth
  refine ⟨⟨a, ?_⟩, ?_, ?_⟩
  · rw [(Scanner.feed_fresh _ _).2, hnone, ha]
  · rw [(Scanner.feed_fresh _ _).2, hescape]
  · rw [(Scanner.feed_fresh _ _).1, hreports]

end DatalogIntake

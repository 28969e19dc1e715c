import DatalogIntake.Proofs.Stream.History
import DatalogIntake.Proofs.Stream.Invariant

/-!
# The end of a stream

A scanner is finished once. The first call that finishes it looks at the text that is left over and
says what there is to say about it (`Scanner.call_finish_first`); no other call says anything about
such text (`Scanner.not_isTrailing_call`), and a scanner that has finished stays as it is
(`Scanner.replies_finished`).

* `Scanner.calls_end`: what is said about text left over in any list of calls, and by which of
  them. -/

namespace DatalogIntake

variable {α : Type}

/-! ### Text left over -/

/-- There is a character in the buffer that is not blank. -/
def Scanner.HasText (s : Scanner) : Prop := ∃ c ∈ s.buffer, Text.isBlank c = false

instance (s : Scanner) : Decidable s.HasText :=
  List.decidableBEx (fun c => Text.isBlank c = false) s.buffer

/-- The reports without an error. -/
def trailingReports (replies : List (Reply α)) : List Diagnostic :=
  (replies.flatMap Reply.reports).filter fun d => d.rejection?.isNone

/-- A call that says something about text left over, by a report without an error, by a warning or
by its failure. -/
def Reply.IsTrailing (r : Reply α) : Prop :=
  (∃ d ∈ r.reports, d.rejection? = none) ∨ r.warning ≠ none ∨ ∃ e, r.outcome = .error (.trailing e)

/-- The reply to the call that finishes a scanner: text left over is reported, and the policy says
what else is done about it. -/
structure Reply.Finishes (policy : TrailingPolicy) (s : Scanner) (r : Reply α) : Prop where
  scanner : r.scanner = { s with isFinished := true }
  reports : r.reports = if s.HasText then [.trailing s.buffer] else []
  warning : r.warning = if s.HasText ∧ policy = .warn then some ⟨s.buffer⟩ else none
  outcome : r.outcome =
    if s.HasText ∧ policy = .error then .error (.trailing ⟨s.buffer⟩)
    else .ok (.leftover s.buffer)

/-- A call that leaves the text of a scanner alone: a chunk that is refused, the end, or a text that
is decoded by itself. -/
def Call.IsPassive (s : Scanner) : Call → Prop
  | .feed chunk => s.isFinished = true ∨ ∀ text, chunk ≠ .str text
  | .finish => True
  | .decode _ => True

theorem trailingReports_append (a b : List (Reply α)) :
    trailingReports (a ++ b) = trailingReports a ++ trailingReports b := by
  simp [trailingReports]

theorem trailingReports_eq_nil {replies : List (Reply α)} (h : ∀ r ∈ replies, ¬r.IsTrailing) :
    trailingReports replies = [] := by
  refine List.filter_eq_nil_iff.mpr fun d hd => ?_
  obtain ⟨r, hr, hdr⟩ := List.mem_flatMap.mp hd
  rw [Option.isNone_iff_eq_none]
  exact fun hnone => h r hr (Or.inl ⟨d, hdr, hnone⟩)

theorem Fed.not_isTrailing_toReply {f : Fed α} (h : ∀ d ∈ f.reports, d.rejection? ≠ none) :
    ¬f.toReply.IsTrailing := by
  rintro (⟨d, hd, hnone⟩ | hwarning | ⟨e, he⟩)
  · exact h d hd hnone
  · exact hwarning rfl
  · have hfed : (f.outcome.map Returned.objects).mapError CallError.feed =
      .error (.trailing e) := he
    cases houtcome : f.outcome <;> simp [houtcome, Except.map, Except.mapError] at hfed

theorem Decoded.not_isTrailing_toReply (s : Scanner) (d : Decoded α) :
    ¬(d.toReply s).IsTrailing := by
  rintro (⟨r, hr, -⟩ | hwarning | ⟨e, he⟩)
  · cases hr
  · exact hwarning rfl
  · cases d <;> simp [Decoded.toReply] at he

namespace Scanner

variable (decode : List Char → Decoded α) (policy : TrailingPolicy)

theorem isBlankText_buffer (s : Scanner) :
    Text.isBlankText s.buffer = true ↔ ¬s.HasText := by
  simp [Text.isBlankText, HasText]

/-- A scanner whose buffer is blank has no open object, for that starts with a brace. -/
theorem IsAnchored.closed {s : Scanner} (h : s.IsAnchored) (htext : ¬s.HasText) :
    s.depth = 0 ∧ s.start = none := by
  have hstart : s.start = none := by
    by_contra hne
    obtain ⟨n, hn⟩ := Option.ne_none_iff_exists'.mp hne
    obtain ⟨hlt, hbrace⟩ := h.brace n hn
    have hmem : s.buffer[n] ∈ s.buffer := List.getElem_mem hlt
    exact htext ⟨'{', hbrace ▸ hmem, Text.not_isBlank_brace.1⟩
  refine ⟨?_, hstart⟩
  by_contra hdepth
  exact h.start_ne (lt_of_le_of_ne h.depth_nonneg (Ne.symm hdepth)) hstart

/-! ### Single calls -/

/-- **The first call that finishes a scanner.** -/
theorem call_finish_first {s : Scanner} (hs : s.isFinished = false) :
    (s.call decode policy .finish).Finishes policy s := by
  have hscanner := s.scanner_call_finish decode policy
  by_cases htext : s.HasText
  · have hblank : Text.isBlankText s.buffer = false := by
      rw [← Bool.not_eq_true, isBlankText_buffer]
      exact not_not.mpr htext
    cases policy <;>
      refine ⟨hscanner, ?_, ?_, ?_⟩ <;>
      simp [call, finish, Finished.toReply, hs, hblank, htext, Except.map, Except.mapError]
  · have hblank := s.isBlankText_buffer.mpr htext
    refine ⟨hscanner, ?_, ?_, ?_⟩ <;>
      simp [call, finish, Finished.toReply, hs, hblank, htext, Except.map, Except.mapError]

/-- Finishing a scanner again returns its buffer, whatever the policy. -/
theorem call_finish_again {s : Scanner} (hs : s.isFinished = true) :
    s.call decode policy .finish = ⟨s, [], none, .ok (.leftover s.buffer)⟩ := by
  obtain ⟨buffer, depth, start, position, isFinished⟩ := s
  obtain rfl : isFinished = true := hs
  rfl

/-- **Only the call that finishes a scanner says anything about text left over.** -/
theorem not_isTrailing_call {s : Scanner} {c : Call} (hc : c ≠ .finish) :
    ¬(s.call decode policy c).IsTrailing := by
  cases c with
  | feed chunk =>
    refine Fed.not_isTrailing_toReply fun d hd hnone => ?_
    obtain ⟨candidate, e, rfl⟩ := exists_rejected_of_mem_feed hd
    cases hnone
  | finish => exact absurd rfl hc
  | decode text => exact Decoded.not_isTrailing_toReply s (decode text)

/-- A passive call leaves the text of the scanner and what it knows about it. -/
theorem scanner_call_passive {s : Scanner} {c : Call} (hc : c.IsPassive s) :
    (s.call decode policy c).scanner =
      { s with isFinished := (s.call decode policy c).scanner.isFinished } := by
  cases c with
  | feed chunk =>
    cases hs : s.isFinished with
    | true => rw [call_feed_finished decode policy hs]
    | false =>
      have hchunk := hc.resolve_left (by simp [hs])
      rw [call_feed_notText decode policy hs hchunk]
  | finish => rw [scanner_call_finish]
  | decode text => rfl

/-! ### Before and after the end -/

theorem isFinished_feed (s : Scanner) (chunk : Json) :
    (s.feed decode chunk).scanner.isFinished = s.isFinished := by
  unfold feed
  split_ifs
  · rfl
  · cases chunk with
    | str text =>
      simp only [feedText]
      split <;> rfl
    | _ => rfl

theorem isFinished_afterCalls {s : Scanner} {calls : List Call} (h : .finish ∉ calls) :
    (s.afterCalls decode policy calls).isFinished = s.isFinished := by
  induction calls generalizing s with
  | nil => rfl
  | cons c calls ih =>
    obtain ⟨hc, hcalls⟩ := List.ne_and_not_mem_of_not_mem_cons h
    rw [afterCalls, ih hcalls]
    cases c with
    | feed chunk => exact s.isFinished_feed decode chunk
    | finish => exact absurd rfl hc
    | decode text => rfl

theorem not_isTrailing_replies {s : Scanner} {calls : List Call} (h : .finish ∉ calls) :
    ∀ r ∈ s.replies decode policy calls, ¬r.IsTrailing := by
  induction calls generalizing s with
  | nil => simp [replies]
  | cons c calls ih =>
    obtain ⟨hc, hcalls⟩ := List.ne_and_not_mem_of_not_mem_cons h
    exact List.forall_mem_cons.mpr
      ⟨s.not_isTrailing_call decode policy (Ne.symm hc), ih hcalls⟩

theorem scanner_call_finished {s : Scanner} (hs : s.isFinished = true) (c : Call) :
    (s.call decode policy c).scanner = s := by
  cases c with
  | feed chunk => rw [call_feed_finished decode policy hs]
  | finish => rw [call_finish_again decode policy hs]
  | decode text => rfl

/-- **A scanner that has finished stays as it is.** -/
theorem replies_finished {s : Scanner} (hs : s.isFinished = true) (calls : List Call) :
    s.replies decode policy calls = calls.map (s.call decode policy) := by
  induction calls with
  | nil => rfl
  | cons c calls ih =>
    rw [replies, scanner_call_finished decode policy hs, ih, List.map_cons]

theorem not_isTrailing_finished {s : Scanner} (hs : s.isFinished = true) (c : Call) :
    ¬(s.call decode policy c).IsTrailing := by
  by_cases hc : c = .finish
  · rw [hc, call_finish_again decode policy hs]
    simp [Reply.IsTrailing]
  · exact s.not_isTrailing_call decode policy hc

/-- The replies to calls of which one finishes the scanner: those before it, its own, and those of
the scanner that has finished. -/
theorem replies_split (s : Scanner) (before after : List Call) :
    s.replies decode policy (before ++ .finish :: after) =
      s.replies decode policy before ++
        (s.afterCalls decode policy before).call decode policy .finish ::
          after.map
            (call decode policy { s.afterCalls decode policy before with isFinished := true }) := by
  have hended : { s.afterCalls decode policy before with isFinished := true }.isFinished = true :=
    rfl
  rw [replies_append, replies, scanner_call_finish, replies_finished decode policy hended]

/-- **What is said about text left over, and by which call.** As long as the scanner has not been
finished no call says anything about such text. The first call that finishes it says what there is
to say: if its buffer has a character that is not blank it reports the buffer, warns under the
policy to warn and fails under the policy to fail; if not, it returns the buffer, and no object is
open. From then on the scanner stays as it is, and no call says anything more: to finish it again
returns its buffer, and every chunk is refused. At all times a call that is refused, that finishes
the scanner or that has a text decoded leaves buffer, depth, start and position as they are. -/
theorem calls_end (calls : List Call) :
    (.finish ∉ calls → ∀ r ∈ Scanner.replies decode policy {} calls, ¬r.IsTrailing) ∧
    (∀ before after, calls = before ++ .finish :: after → .finish ∉ before →
      let s := Scanner.afterCalls decode policy {} before
      let ended : Scanner := { s with isFinished := true }
      let first := s.call decode policy .finish
      Scanner.replies decode policy {} calls =
          Scanner.replies decode policy {} before ++
            first :: after.map (ended.call decode policy) ∧
        first.Finishes policy s ∧
        (first.reports = [] → s.depth = 0 ∧ s.start = none) ∧
        trailingReports (Scanner.replies decode policy {} calls) = first.reports ∧
        (∀ r ∈ Scanner.replies decode policy {} before, ¬r.IsTrailing) ∧
        (∀ c, ¬(ended.call decode policy c).IsTrailing) ∧
        ended.call decode policy .finish = ⟨ended, [], none, .ok (.leftover s.buffer)⟩ ∧
        ∀ chunk, ended.call decode policy (.feed chunk) =
          ⟨ended, [], none, .error (.feed .finished)⟩) ∧
    ∀ (s : Scanner) (c : Call), c.IsPassive s →
      (s.call decode policy c).scanner =
        { s with isFinished := (s.call decode policy c).scanner.isFinished } := by
  refine ⟨fun h => not_isTrailing_replies decode policy h, ?_,
    fun s c hc => s.scanner_call_passive decode policy hc⟩
  rintro before after rfl hbefore s ended first
  have hs : s.isFinished = false := isFinished_afterCalls decode policy hbefore
  have hended : ended.isFinished = true := rfl
  have hfirst : first.Finishes policy s := s.call_finish_first decode policy hs
  have hreplies := Scanner.replies_split decode policy {} before after
  have hearlier : ∀ r ∈ Scanner.replies decode policy {} before, ¬r.IsTrailing :=
    not_isTrailing_replies decode policy hbefore
  have hlater : ∀ r ∈ after.map (ended.call decode policy), ¬r.IsTrailing :=
    List.forall_mem_map.mpr fun c _ => ended.not_isTrailing_finished decode policy hended c
  have hanchored : s.IsAnchored := isAnchored_fresh.afterCalls decode policy before
  refine ⟨hreplies, hfirst, fun hnil => ?_, ?_, hearlier,
    fun c => ended.not_isTrailing_finished decode policy hended c,
    ended.call_finish_again decode policy hended,
    fun chunk => ended.call_feed_finished decode policy hended chunk⟩
  · refine hanchored.closed fun htext => ?_
    rw [hfirst.reports, if_pos htext] at hnil
    cases hnil
  · have hsingle : trailingReports [first] = first.reports := by
      rw [trailingReports, List.flatMap_singleton, hfirst.reports]
      split_ifs <;> rfl
    rw [hreplies, trailingReports_append, trailingReports_eq_nil hearlier, List.nil_append,
      ← List.singleton_append, trailingReports_append, trailingReports_eq_nil hlater,
      List.append_nil]
    exact hsingle

/-- An object that is cut off, under the policy to fail. The calls before the end leave it alone,
the one that finishes the scanner fails and reports it, and those after it say no more. -/
theorem calls_end_cutOff :
    let before : List Call := [.feed (.str " \x7b\"k"), .decode "1".toList, .feed .null]
    let after : List Call := [.finish, .feed (.str "\x7d"), .finish]
    let calls := before ++ .finish :: after
    let run := Scanner.replies (payloadShape.decode 990) .error {} calls
    let s : Scanner := ⟨" \x7b\"k".toList, 1, some 1, 4, false⟩
    .finish ∉ before ∧ Scanner.afterCalls (payloadShape.decode 990) .error {} before = s ∧
      (s.call (payloadShape.decode 990) .error .finish).Finishes .error s ∧
      trailingReports run = [.trailing s.buffer] ∧
      run.map Reply.outcome = [.ok (.objects []),
        .error (.rejected (.misshapen "MangleSchemaPayload" .one)),
        .error (.feed (.notText "NoneType")), .error (.trailing ⟨s.buffer⟩),
        .ok (.leftover s.buffer), .error (.feed .finished), .ok (.leftover s.buffer)] := by
  intro before after calls run s
  have hbefore : .finish ∉ before := by decide
  have hs : Scanner.afterCalls (payloadShape.decode 990) .error {} before = s := by decide +kernel
  have hstart : (Scanner.replies (payloadShape.decode 990) .error {} before).map Reply.outcome =
      [.ok (.objects []), .error (.rejected (.misshapen "MangleSchemaPayload" .one)),
        .error (.feed (.notText "NoneType"))] := by decide +kernel
  obtain ⟨-, hfinish, -⟩ := calls_end (payloadShape.decode 990) .error calls
  obtain ⟨hrun, hfirst, -, hreports, -, -, hagain, hlate⟩ := hfinish before after rfl hbefore
  rw [hs] at hrun hfirst hreports hagain hlate
  have htext : s.HasText := by decide +kernel
  refine ⟨hbefore, hs, hfirst, ?_, ?_⟩
  · rw [hreports, hfirst.reports, if_pos htext]
  · have hend := hfirst.outcome
    rw [if_pos ⟨htext, rfl⟩] at hend
    show List.map Reply.outcome (Scanner.replies (payloadShape.decode 990) .error {} calls) = _
    simp only [hrun, List.map_append, hstart, List.map_cons, List.map_nil, hend, hagain, hlate,
      after, List.cons_append, List.nil_append]

end Scanner

end DatalogIntake

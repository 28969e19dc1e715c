import DatalogIntake.Stream.Trailing
import Mathlib.Tactic.SplitIfs

/-!
# Calls to one scanner

A caller can feed a scanner, finish it and have texts decoded in any order, also after a call that
failed. Each call replies with the scanner as it leaves it, its reports and its warning, and with
what it returned or why it failed (`Scanner.call`). The next call finds that scanner, so a list of
calls has a list of replies (`Scanner.replies`) and leaves a scanner (`Scanner.afterCalls`). -/

namespace DatalogIntake

variable {α : Type}

/-! ### Calls and replies -/

/-- A call to a scanner. -/
inductive Call where
  | feed (chunk : Json)
  | finish
  | decode (text : List Char)
deriving DecidableEq

/-- What a call returns: the objects that a chunk has completed, the text that is left over, or the
object that a text was decoded to. -/
inductive Returned (α : Type) where
  | objects (l : List α)
  | leftover (text : List Char)
  | object (a : α)
deriving DecidableEq

/-- Why a call failed. -/
inductive CallError where
  | feed (e : FeedError)
  | trailing (e : TrailingData)
  | rejected (e : Rejection)
  | overrun (e : Json.Overrun)
deriving DecidableEq

/-- What a call leaves: the scanner, the reports, a warning, and what it returned or why it
failed. -/
structure Reply (α : Type) where
  scanner : Scanner
  reports : List Diagnostic
  warning : Option TrailingData
  outcome : Except CallError (Returned α)

/-- The call fed a chunk and failed at one of its candidates, in the middle of the walk. -/
def Reply.Escapes (r : Reply α) : Prop := ∃ e, r.outcome = .error (.feed (.overrun e))

instance (r : Reply α) : Decidable r.Escapes :=
  match h : r.outcome with
  | .error (.feed (.overrun e)) => isTrue ⟨e, h⟩
  | .ok _ | .error (.feed .finished) | .error (.feed (.notText _)) | .error (.trailing _)
  | .error (.rejected _) | .error (.overrun _) => isFalse (by simp [Reply.Escapes, h])

/-- The reply of a call that fed a chunk. -/
def Fed.toReply (f : Fed α) : Reply α :=
  ⟨f.scanner, f.reports, none, (f.outcome.map .objects).mapError .feed⟩

/-- The reply of a call that finished the scanner. -/
def Finished.toReply (f : Finished) : Reply α :=
  ⟨f.scanner, f.report.toList, f.warning, (f.outcome.map .leftover).mapError .trailing⟩

/-- The reply of a call that had a text decoded: whatever comes of it, nothing is reported. -/
def Decoded.toReply (s : Scanner) (d : Decoded α) : Reply α :=
  ⟨s, [], none,
    match d with
    | .object a => .ok (.object a)
    | .rejected e => .error (.rejected e)
    | .escaped e => .error (.overrun e)⟩

namespace Scanner

variable (decode : List Char → Decoded α) (policy : TrailingPolicy)

/-- The reply to a call. -/
def call (s : Scanner) : Call → Reply α
  | .feed chunk => (s.feed decode chunk).toReply
  | .finish => (s.finish policy).toReply
  | .decode text => (decode text).toReply s

/-- The replies to calls one after the other. -/
def replies (s : Scanner) : List Call → List (Reply α)
  | [] => []
  | c :: calls => s.call decode policy c :: (s.call decode policy c).scanner.replies calls

/-- The scanner that calls leave. -/
def afterCalls (s : Scanner) : List Call → Scanner
  | [] => s
  | c :: calls => (s.call decode policy c).scanner.afterCalls calls

theorem replies_append (s : Scanner) (a b : List Call) :
    s.replies decode policy (a ++ b) =
      s.replies decode policy a ++ (s.afterCalls decode policy a).replies decode policy b := by
  induction a generalizing s with
  | nil => rfl
  | cons c a ih => simp only [List.cons_append, replies, afterCalls, ih]

/-! ### Single calls -/

theorem call_feed_finished {s : Scanner} (hs : s.isFinished = true) (chunk : Json) :
    s.call decode policy (.feed chunk) = ⟨s, [], none, .error (.feed .finished)⟩ := by
  have hfeed : s.feed decode chunk = ⟨s, [], .error .finished⟩ := by
    unfold feed
    rw [if_pos hs]
  rw [call, hfeed]
  rfl

theorem call_feed_notText {s : Scanner} (hs : s.isFinished = false) {chunk : Json}
    (hchunk : ∀ text, chunk ≠ .str text) :
    s.call decode policy (.feed chunk) =
      ⟨s, [], none, .error (.feed (.notText chunk.kindName))⟩ := by
  have hfeed : s.feed decode chunk = ⟨s, [], .error (.notText chunk.kindName)⟩ := by
    unfold feed
    rw [if_neg (by simp [hs])]
    cases chunk with
    | str text => exact absurd rfl (hchunk text)
    | _ => rfl
  rw [call, hfeed]
  rfl

theorem scanner_call_finish (s : Scanner) :
    (s.call decode policy .finish).scanner = { s with isFinished := true } := by
  show (s.finish policy).scanner = { s with isFinished := true }
  unfold finish
  dsimp only
  split_ifs
  · rfl
  · cases policy <;> rfl

/-- A feed that escapes is one of a text, to a scanner that has not finished. -/
theorem escapes_call_feed {s : Scanner} {chunk : Json} :
    (s.call decode policy (.feed chunk)).Escapes ↔
      ∃ e, (s.feed decode chunk).outcome = .error (.overrun e) := by
  unfold Reply.Escapes
  refine exists_congr fun e => ?_
  show ((s.feed decode chunk).outcome.map Returned.objects).mapError CallError.feed = _ ↔ _
  cases (s.feed decode chunk).outcome <;> simp [Except.map, Except.mapError]

end Scanner

end DatalogIntake

import DatalogIntake.Stream.Source

/-!
# Extraction

Objects are extracted from a source chunk by chunk: all objects that a chunk completes are handed
over before the next chunk is taken. A run is described here as a whole, by recursion on the chunks.
This description stands for `extract_objects`, whose source and consumer are synchronous; the one
for `aextract_objects` is `Extraction.runSession`, which is put together request by request.
-/

namespace DatalogIntake

variable {α : Type}

/-- What stays the same in a run: how candidates are decoded, the policy for text left over, and
the source. -/
structure Extraction (α : Type) where
  decode : List Char → Decoded α
  policy : TrailingPolicy
  source : Source

/-- What happens when a chunk has been taken and fed, before its objects are handed over. -/
def Fed.events (f : Fed α) : List (Event α) :=
  .took :: f.reports.map .reported

/-- What happens when a source has no more chunks and its scanner has been finished. -/
def Finished.events (f : Finished) : List (Event α) :=
  .drained :: (f.report.toList.map .reported ++ f.warning.toList.map .warned)

/-- A run with events before its own. -/
def Run.after (events : List (Event α)) (r : Run α) : Run α :=
  { r with events := events ++ r.events }

namespace Extraction

/-- The end of a run whose source has no more chunks. -/
def finishRun (x : Extraction α) (s : Scanner) : Run α :=
  let f := s.finish x.policy
  match f.outcome with
  | .ok _ => ⟨f.events, .exhausted⟩
  | .error e => ⟨f.events, .failed (.trailing e)⟩

/-- A run over the chunks that are left, before the source is closed. The consumer wants `limit`
more objects, or all if there is no limit. -/
def runChunks (x : Extraction α) (s : Scanner) (pulled : Nat) (limit : Option Nat) :
    List Json → Run α
  | [] =>
    match x.source.failureAt? pulled with
    | some e => ⟨[.broke e], .failed (.source e)⟩
    | none => x.finishRun s
  | chunk :: rest =>
    match x.source.failureAt? pulled with
    | some e => ⟨[.broke e], .failed (.source e)⟩
    | none =>
      let fed := s.feed x.decode chunk
      Run.after fed.events <|
        match fed.outcome, limit with
        | .error e, _ => ⟨[], .failed (.feed e)⟩
        | .ok objects, none =>
          (x.runChunks fed.scanner (pulled + 1) none rest).after (objects.map .delivered)
        | .ok objects, some n =>
          if n ≤ objects.length then
            ⟨(objects.take n).map .delivered, .abandoned⟩
          else
            (x.runChunks fed.scanner (pulled + 1) (some (n - objects.length)) rest).after
              (objects.map .delivered)

/-- A run of the extraction. Where the consumer wants nothing the run is over before it has started,
and the source is left alone; in any other run the source is closed at the end. -/
def run (x : Extraction α) (limit : Option Nat) : Run α :=
  if limit = some 0 then ⟨[], .abandoned⟩
  else
    let r := x.runChunks {} 0 limit x.source.chunks
    ⟨r.events ++ x.source.closing.events, x.source.closing.ending r.ending⟩

end Extraction

end DatalogIntake

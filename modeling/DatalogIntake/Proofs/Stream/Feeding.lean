import DatalogIntake.Proofs.Stream.Segmentation
import DatalogIntake.Service.Payload
import DatalogIntake.Stream.Scanner

/-!
# Feeding a scanner

The state of a scanner between two chunks is a function of the segmentation of the text fed so far:
the buffer is the text behind the last block, the depth the excess of the open part, the start its
offset (`Segmentation.scanner`). One step of the cursor is one `push` (`step_cursor`), so a walk
hands over the blocks that its text completes (`walk_cursor`), and a list of chunks is fed as its
concatenation (`feedAll_scanner`).

* `feedAll_segmentation`: after any chunks the objects, the reports and the state are those of the
  segmentation of their concatenation. -/

namespace DatalogIntake

variable {α : Type} (decode : List Char → Decoded α)

/-! ### Outcomes of candidates -/

namespace Decoded

/-- The object that a candidate was decoded to. -/
def object? : Decoded α → Option α
  | .object a => some a
  | _ => none

/-- The reason why a candidate was rejected. -/
def rejection? : Decoded α → Option Rejection
  | .rejected e => some e
  | _ => none

/-- A candidate that is either decoded or rejected. -/
def IsSettled (d : Decoded α) : Prop := ∀ e, d ≠ .escaped e

theorem isSettled_object (a : α) : (object a).IsSettled := by
  intro e h
  cases h

theorem isSettled_rejected (e : Rejection) : (rejected e : Decoded α).IsSettled := by
  intro e' h
  cases h

theorem not_isSettled_escaped (e : Json.Overrun) : ¬(escaped e : Decoded α).IsSettled :=
  fun h => h e rfl

instance : (d : Decoded α) → Decidable d.IsSettled
  | .object a => isTrue (isSettled_object a)
  | .rejected e => isTrue (isSettled_rejected e)
  | .escaped e => isFalse (not_isSettled_escaped e)

end Decoded

/-- The objects among candidates. -/
def objectsOf (candidates : List (List Char)) : List α :=
  candidates.filterMap fun c => (decode c).object?

/-- The rejected ones among candidates, each with the reason. -/
def rejectedOf (candidates : List (List Char)) : List (List Char × Rejection) :=
  candidates.filterMap fun c => (decode c).rejection?.map (c, ·)

/-- The reports about candidates. -/
def reportsOf (candidates : List (List Char)) : List Diagnostic :=
  (rejectedOf decode candidates).map fun r => .rejected r.1 r.2

theorem objectsOf_append (a b : List (List Char)) :
    objectsOf decode (a ++ b) = objectsOf decode a ++ objectsOf decode b :=
  List.filterMap_append

theorem reportsOf_append (a b : List (List Char)) :
    reportsOf decode (a ++ b) = reportsOf decode a ++ reportsOf decode b := by
  simp [reportsOf, rejectedOf, List.filterMap_append]

theorem map_reportsOf (candidates : List (List Char)) :
    (reportsOf decode candidates).map (fun d => (d.candidate, d.rejection?, d.message)) =
      (rejectedOf decode candidates).map fun r => (r.1, some r.2, r.2.message) := by
  simp [reportsOf, Diagnostic.candidate, Diagnostic.rejection?, Diagnostic.message]

/-! ### Feeding chunk after chunk -/

/-- What feeding chunks one after the other leaves: the scanner, all reports in order, and what each
chunk gave. -/
structure Feeding (α : Type) where
  scanner : Scanner
  reports : List Diagnostic
  outcomes : List (Except FeedError (List α))

/-- Feeds chunks one after the other. -/
def Scanner.feedAll (s : Scanner) : List Json → Feeding α
  | [] => ⟨s, [], []⟩
  | chunk :: rest =>
    let fed := s.feed decode chunk
    let r := fed.scanner.feedAll rest
    ⟨r.scanner, fed.reports ++ r.reports, fed.outcome :: r.outcomes⟩

/-- Chunks of text. -/
def textChunks (chunks : List String) : List Json := chunks.map .str

/-- The text of chunks in one piece. -/
def joined (chunks : List String) : List Char := chunks.flatMap String.toList

namespace Segmentation

/-! ### States of a segmentation -/

/-- The depth in the open part. -/
def depth (f : Segmentation) : Int := excess f.tail

/-- Where the open part starts, counted from the end of the last block. -/
def start (f : Segmentation) : Option Nat := if f.tail = [] then none else some f.gap.length

/-- The cursor after the text. -/
def cursor (f : Segmentation) : Cursor := ⟨f.rest.reverse, f.depth, f.start⟩

/-- The scanner after the text. -/
def scanner (f : Segmentation) : Scanner := ⟨f.rest, f.depth, f.start, f.rest.length, false⟩

/-- What a walk over the text leaves. -/
def walk (f : Segmentation) : Walk α :=
  ⟨f.rest, f.depth, f.start, objectsOf decode f.blocks, reportsOf decode f.blocks, none⟩

/-- The segmentation of the rest, which is all that a scanner keeps. -/
def forget (f : Segmentation) : Segmentation := ⟨[], f.gap, f.tail⟩

/-- The segmentation with pieces before its own. -/
def prepend (ps : List (List Char × List Char)) (f : Segmentation) : Segmentation :=
  ⟨ps ++ f.pieces, f.gap, f.tail⟩

theorem push_prepend (ps : List (List Char × List Char)) (f : Segmentation) (c : Char) :
    (f.prepend ps).push c = (f.push c).prepend ps := by
  unfold push prepend
  split_ifs <;> simp

theorem foldl_push_prepend (ps : List (List Char × List Char)) (f : Segmentation)
    (u : List Char) : u.foldl push (f.prepend ps) = (u.foldl push f).prepend ps := by
  induction u generalizing f with
  | nil => rfl
  | cons c u ih => rw [List.foldl_cons, push_prepend, ih, List.foldl_cons]

/-- What a text adds does not depend on the blocks before it. -/
theorem foldl_push_eq (f : Segmentation) (u : List Char) :
    u.foldl push f = (u.foldl push f.forget).prepend f.pieces := by
  rw [← foldl_push_prepend]
  simp [prepend, forget]

theorem forget_foldl_push (f : Segmentation) (u : List Char) :
    (u.foldl push f).forget = (u.foldl push f.forget).forget := by
  rw [foldl_push_eq f]; rfl

/-- The blocks of two texts, one after the other. -/
theorem blocks_foldl_push_append (f : Segmentation) (u v : List Char) :
    ((u ++ v).foldl push f).blocks =
      (u.foldl push f).blocks ++ (v.foldl push (u.foldl push f).forget).blocks := by
  rw [List.foldl_append, foldl_push_eq (u.foldl push f)]
  simp [blocks, prepend]

theorem blocks_prepend (ps : List (List Char × List Char)) (f : Segmentation) :
    (f.prepend ps).blocks = ps.map Prod.snd ++ f.blocks := by
  simp [blocks, prepend]

/-! ### One step -/

/-- Whether a character closes the open part. -/
def Closes (f : Segmentation) (c : Char) : Prop := f.tail ≠ [] ∧ excess (f.tail ++ [c]) = 0

instance (f : Segmentation) (c : Char) : Decidable (f.Closes c) :=
  inferInstanceAs (Decidable (f.tail ≠ [] ∧ excess (f.tail ++ [c]) = 0))

theorem push_of_closes {f : Segmentation} {c : Char} (h : f.Closes c) :
    f.push c = ⟨f.pieces ++ [(f.gap, f.tail ++ [c])], [], []⟩ := by
  unfold push
  rw [if_neg fun h' => h.1 h'.1, if_pos h.2]

theorem pieces_push {f : Segmentation} {c : Char} (h : ¬ f.Closes c) :
    (f.push c).pieces = f.pieces := by
  unfold push
  split_ifs with h1 h2
  · rfl
  · refine absurd ⟨fun ht => ?_, h2⟩ h
    rw [ht, not_and_not_right.mp h1 ht] at h2
    exact absurd h2 (by decide)
  · rfl

theorem cursor_gap {f : Segmentation} (h : f.tail = []) :
    f.cursor = ⟨f.gap.reverse, 0, none⟩ := by
  simp [cursor, rest, depth, start, h]

/-- In an object the depth is positive. -/
theorem cursor_open {f : Segmentation} (h : IsOpen f.tail) :
    ∃ d : Nat, excess f.tail = (d : Int) + 1 ∧
      f.cursor = ⟨f.rest.reverse, d + 1, some f.gap.length⟩ := by
  have hpos := h.excess_pos
  refine ⟨(excess f.tail).toNat - 1, by omega, ?_⟩
  simp only [cursor, depth, start, h.ne_nil, if_false, Cursor.mk.injEq, true_and, and_true]
  omega

theorem cursor_push_open {f : Segmentation} {c : Char} {d : Nat} (h : f.tail ≠ [])
    (hd : excess (f.tail ++ [c]) = (d : Int) + 1) :
    (f.push c).cursor = ⟨c :: f.rest.reverse, d + 1, some f.gap.length⟩ := by
  have hpush : f.push c = { f with tail := f.tail ++ [c] } := by
    unfold push
    rw [if_neg fun h' => h h'.1, if_neg (by omega)]
  rw [hpush]
  simp [cursor, rest, depth, start, hd]

/-- **One step of the cursor is one character more of the segmentation.** -/
theorem step_cursor {f : Segmentation} (h : f.tail = [] ∨ IsOpen f.tail) (c : Char) :
    f.cursor.step c = if f.Closes c then .complete (f.tail ++ [c]) f.gap.length
      else .on (f.push c).cursor := by
  rcases h with h | h
  · rw [if_neg fun h' => h'.1 h, cursor_gap h]
    by_cases hc : c = '{'
    · subst hc
      simp [Cursor.step, push, cursor, rest, depth, start, h]
    · have hpush : (f.push c).cursor = ⟨c :: f.gap.reverse, 0, none⟩ := by
        rw [cursor_gap (by simp [push, h, hc])]
        simp [push, h, hc]
      rw [hpush]
      by_cases hc' : c = '}' <;> simp [Cursor.step, hc, hc']
  · obtain ⟨d, hd, hcur⟩ := cursor_open h
    have hx : excess (f.tail ++ [c]) = (d : Int) + 1 + excess [c] := by rw [excess_append, hd]
    rw [hcur]
    by_cases hc : c = '{'
    · subst hc
      rw [excess_open] at hx
      rw [if_neg fun h' => by have := h'.2; omega, cursor_push_open h.ne_nil (d := d + 1) hx]
      have hne : (d : Int) + 1 ≠ 0 := by omega
      simp [Cursor.step, hne]
    · by_cases hc' : c = '}'
      · subst hc'
        rw [excess_close] at hx
        cases d with
        | zero =>
          rw [if_pos ⟨h.ne_nil, by omega⟩]
          have hlow : lowered 1 = 0 := rfl
          simp [Cursor.step, rest, hlow]
        | succ d =>
          have hne : ((d + 1 : Nat) : Int) ≠ 0 := by omega
          rw [if_neg fun h' => by have := h'.2; omega,
            cursor_push_open h.ne_nil (d := d) (by omega)]
          simp only [Cursor.step, lowered_succ, hc, hne, if_false, if_true]
          rfl
      · rw [excess_other hc hc'] at hx
        rw [if_neg fun h' => by have := h'.2; omega, cursor_push_open h.ne_nil (d := d) (by omega)]
        simp [Cursor.step, hc, hc']

/-! ### Walks -/

theorem walk_of_closes {f : Segmentation} (h : f.tail = [] ∨ IsOpen f.tail) {c : Char}
    (hc : f.Closes c) (u : List Char) :
    Cursor.walk decode f.cursor (c :: u) =
      match decode (f.tail ++ [c]) with
      | .object a => (Cursor.walk decode empty.cursor u).withObject a
      | .rejected e => (Cursor.walk decode empty.cursor u).withReport (.rejected (f.tail ++ [c]) e)
      | .escaped e => ⟨f.rest ++ c :: u, 0, some f.gap.length, [], [], some e⟩ := by
  rw [Cursor.walk, step_cursor h, if_pos hc]
  dsimp only
  cases decode (f.tail ++ [c]) <;> simp [cursor, empty, rest, depth, start]

theorem walk_of_not_closes {f : Segmentation} (h : f.tail = [] ∨ IsOpen f.tail) {c : Char}
    (hc : ¬ f.Closes c) (u : List Char) :
    Cursor.walk decode f.cursor (c :: u) = Cursor.walk decode (f.push c).cursor u := by
  rw [Cursor.walk, step_cursor h, if_neg hc]

theorem walk_prepend_object {p : List Char × List Char} {a : α} (h : decode p.2 = .object a)
    (f : Segmentation) : (f.prepend [p]).walk decode = (f.walk decode).withObject a := by
  have ho : objectsOf decode (f.prepend [p]).blocks = a :: objectsOf decode f.blocks := by
    simp [blocks_prepend, objectsOf, h, Decoded.object?]
  have hr : reportsOf decode (f.prepend [p]).blocks = reportsOf decode f.blocks := by
    simp [blocks_prepend, reportsOf, rejectedOf, h, Decoded.rejection?]
  rw [walk, ho, hr]; rfl

theorem walk_prepend_rejected {p : List Char × List Char} {e : Rejection}
    (h : decode p.2 = .rejected e) (f : Segmentation) :
    (f.prepend [p]).walk decode = (f.walk decode).withReport (.rejected p.2 e) := by
  have ho : objectsOf decode (f.prepend [p]).blocks = objectsOf decode f.blocks := by
    simp [blocks_prepend, objectsOf, h, Decoded.object?]
  have hr : reportsOf decode (f.prepend [p]).blocks =
      .rejected p.2 e :: reportsOf decode f.blocks := by
    simp [blocks_prepend, reportsOf, rejectedOf, h, Decoded.rejection?]
  rw [walk, ho, hr]; rfl

/-- **A walk from the state of a segmentation hands over the blocks that its text completes.** -/
theorem walk_cursor {f : Segmentation} (hp : f.pieces = []) (h : f.tail = [] ∨ IsOpen f.tail)
    {u : List Char} (hd : ∀ c ∈ (u.foldl push f).blocks, (decode c).IsSettled) :
    Cursor.walk decode f.cursor u = (u.foldl push f).walk decode := by
  induction u generalizing f with
  | nil => simp [Cursor.walk, walk, cursor, blocks, hp, objectsOf, reportsOf, rejectedOf]
  | cons c u ih =>
    rw [List.foldl_cons] at hd ⊢
    by_cases hc : f.Closes c
    · have hpush : f.push c = empty.prepend [(f.gap, f.tail ++ [c])] := by
        rw [push_of_closes hc, hp]; rfl
      rw [hpush, foldl_push_prepend] at hd ⊢
      rw [blocks_prepend] at hd
      have hrec := ih (f := empty) rfl (Or.inl rfl) fun c hc => hd c (List.mem_append_right _ hc)
      rw [walk_of_closes decode h hc]
      cases hdec : decode (f.tail ++ [c]) with
      | object a =>
        rw [walk_prepend_object decode (p := (f.gap, f.tail ++ [c])) hdec, hrec]
      | rejected e =>
        rw [walk_prepend_rejected decode (p := (f.gap, f.tail ++ [c])) hdec, hrec]
      | escaped e => exact absurd hdec (hd (f.tail ++ [c]) (by simp) e)
    · rw [walk_of_not_closes decode h hc]
      exact ih (by rw [pieces_push hc, hp]) (isOpen_push h c) hd

/-! ### Chunks -/

theorem isOpen_foldl_push {f : Segmentation} (h : f.tail = [] ∨ IsOpen f.tail) (u : List Char) :
    (u.foldl push f).tail = [] ∨ IsOpen (u.foldl push f).tail := by
  induction u generalizing f with
  | nil => exact h
  | cons c u ih => exact ih (isOpen_push h c)

/-- Feeding a text takes the scanner to the state of the longer text. -/
theorem feed_scanner {f : Segmentation} (h : f.tail = [] ∨ IsOpen f.tail) {s : String}
    (hd : ∀ c ∈ (s.toList.foldl push f.forget).blocks, (decode c).IsSettled) :
    f.scanner.feed decode (.str s) =
      ⟨(s.toList.foldl push f).scanner, reportsOf decode (s.toList.foldl push f.forget).blocks,
        .ok (objectsOf decode (s.toList.foldl push f.forget).blocks)⟩ := by
  have hw := walk_cursor decode (f := f.forget) rfl h hd
  have hcur : (⟨((f.rest ++ s.toList).take f.rest.length).reverse, f.depth, f.start⟩ : Cursor) =
      f.forget.cursor := by
    rw [List.take_left]; rfl
  have hlen : (if f.rest.length < (f.rest ++ s.toList).length then
      (s.toList.foldl push f.forget).rest.length else f.rest.length) =
        (s.toList.foldl push f.forget).rest.length := by
    split_ifs with hlt
    · rfl
    · have hs : s.toList = [] := by
        rw [List.length_append] at hlt
        exact List.eq_nil_of_length_eq_zero (by omega)
      rw [hs]; rfl
  rw [foldl_push_eq f]
  simp only [Scanner.feed, scanner, Scanner.feedText, List.drop_left, hcur, hw, walk, hlen]
  rfl

/-- **Chunks are fed as their concatenation.** -/
theorem feedAll_scanner {f : Segmentation} (h : f.tail = [] ∨ IsOpen f.tail)
    {chunks : List String}
    (hd : ∀ c ∈ ((joined chunks).foldl push f.forget).blocks, (decode c).IsSettled) :
    ∃ objects : List (List α),
      f.scanner.feedAll decode (textChunks chunks) =
        ⟨((joined chunks).foldl push f).scanner,
          reportsOf decode ((joined chunks).foldl push f.forget).blocks, objects.map .ok⟩ ∧
      objects.flatten = objectsOf decode ((joined chunks).foldl push f.forget).blocks := by
  induction chunks generalizing f with
  | nil => exact ⟨[], rfl, rfl⟩
  | cons s chunks ih =>
    have hj : joined (s :: chunks) = s.toList ++ joined chunks := rfl
    rw [hj, blocks_foldl_push_append] at hd ⊢
    rw [← forget_foldl_push f] at hd ⊢
    have hfed := feed_scanner decode h (s := s) fun c hc => hd c (List.mem_append_left _ hc)
    obtain ⟨objects, hrun, hobj⟩ :=
      ih (isOpen_foldl_push h s.toList) fun c hc => hd c (List.mem_append_right _ hc)
    refine ⟨objectsOf decode (s.toList.foldl push f.forget).blocks :: objects, ?_, ?_⟩
    · simp only [textChunks, List.map_cons] at hrun ⊢
      rw [Scanner.feedAll, hfed]
      simp only [hrun, List.foldl_append, reportsOf_append]
    · rw [List.flatten_cons, hobj, objectsOf_append]

end Segmentation

/-! ### Runs of a fresh scanner -/

/-- A fresh scanner ends in the state of the segmentation of what it was fed. -/
theorem feedAll_cuts {chunks : List String} {f : Segmentation} (hf : f.Cuts (joined chunks))
    (hd : ∀ c ∈ f.blocks, (decode c).IsSettled) :
    ∃ objects : List (List α),
      Scanner.feedAll decode {} (textChunks chunks) =
        ⟨f.scanner, reportsOf decode f.blocks, objects.map .ok⟩ ∧
      objects.flatten = objectsOf decode f.blocks := by
  obtain rfl : (joined chunks).foldl Segmentation.push .empty = f :=
    (Segmentation.cuts_foldl_push Segmentation.cuts_empty _).unique hf
  exact Segmentation.feedAll_scanner decode (f := .empty) (Or.inl rfl) hd

/-- **Feeding is segmentation.** Every text has one segmentation. A fresh scanner that is fed the
text in any chunks hands over the objects that the blocks decode to and reports the blocks that are
rejected, both in order, and ends with what follows the last block: its text as the buffer, the
depth of the open part, and the offset at which it starts. -/
theorem feedAll_segmentation (chunks : List String) :
    (∃! f : Segmentation, f.Cuts (joined chunks)) ∧
    ∀ f : Segmentation, f.Cuts (joined chunks) → (∀ c ∈ f.blocks, (decode c).IsSettled) →
      ∃ objects : List (List α),
        let run := Scanner.feedAll decode {} (textChunks chunks)
        run.outcomes = objects.map .ok ∧
        objects.flatten = objectsOf decode f.blocks ∧
        run.reports.map (fun d => (d.candidate, d.rejection?, d.message)) =
          (rejectedOf decode f.blocks).map (fun r => (r.1, some r.2, r.2.message)) ∧
        run.scanner.buffer = f.rest ∧
        run.scanner.depth = excess f.tail ∧
        run.scanner.start = (if f.tail = [] then none else some f.gap.length) ∧
        run.scanner.position = f.rest.length ∧ run.scanner.isFinished = false := by
  refine ⟨Segmentation.existsUnique_cuts _, fun f hf hd => ?_⟩
  obtain ⟨objects, hrun, hobj⟩ := feedAll_cuts decode hf hd
  refine ⟨objects, ?_⟩
  rw [hrun]
  exact ⟨rfl, hobj, map_reportsOf _ _, rfl, rfl, rfl, rfl, rfl⟩

/-- Noise, an object that is no JSON text, a payload, and an object that is cut off. -/
theorem feedAll_segmentation_noise :
    let chunks := ["\x7dx\x7b", "\x7b\x7d\x7d", "", "\x7b\"guiding_questions\":[],\"mangle_facts\":[\"p",
      "\"],\"mangle_rules\":[]\x7d \x7b"]
    let f : Segmentation := ⟨[("\x7dx".toList, "\x7b\x7b\x7d\x7d".toList),
      ([], "\x7b\"guiding_questions\":[],\"mangle_facts\":[\"p\"],\"mangle_rules\":[]\x7d".toList)],
      [' '], ['{']⟩
    f.Cuts (joined chunks) ∧ (∀ c ∈ f.blocks, (payloadShape.decode 990 c).IsSettled) ∧
    ∃ objects : List (List payloadShape.Carrier),
      let run := Scanner.feedAll (payloadShape.decode 990) {} (textChunks chunks)
      run.outcomes = objects.map .ok ∧
      objects.flatten.map payloadShape.dump = [.obj [("guiding_questions", .arr []),
        ("mangle_facts", .arr [.str "p"]), ("mangle_rules", .arr [])]] ∧
      run.reports.map Diagnostic.candidate = ["\x7b\x7b\x7d\x7d".toList] ∧
      run.scanner.buffer = " \x7b".toList ∧ run.scanner.depth = 1 ∧ run.scanner.start = some 1 ∧
      run.scanner.position = 2 := by
  intro chunks f
  have hf : f.Cuts (joined chunks) := by decide +kernel
  have hd : ∀ c ∈ f.blocks, (payloadShape.decode 990 c).IsSettled := by decide +kernel
  refine ⟨hf, hd, ?_⟩
  obtain ⟨objects, ho, hflat, hr, hb, hdepth, hstart, hpos, hfin⟩ :=
    (feedAll_segmentation (payloadShape.decode 990) chunks).2 f hf hd
  have hdeep : excess f.tail = 1 := by decide
  refine ⟨objects, ho, ?_, ?_, hb.trans (by decide +kernel), by omega, hstart.trans (by decide),
    hpos.trans (by decide)⟩
  · rw [hflat]
    decide +kernel
  · have hc := congrArg (List.map Prod.fst) hr
    rw [List.map_map] at hc
    refine Eq.trans hc ?_
    decide +kernel

end DatalogIntake

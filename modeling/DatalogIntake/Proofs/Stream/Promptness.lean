import DatalogIntake.Proofs.Stream.Feeding
import DatalogIntake.Proofs.Stream.Limits
import Mathlib.Data.List.Forall2
import Mathlib.Order.Bounds.Basic

/-!
# Prompt extraction

An object is handed over when the chunk with its closing brace has been taken, before the next one
is. A segmentation says where each block ends in its text (`Segmentation.stops`), a text that comes
after adds blocks that end in it (`Segmentation.exists_stops`), and so a chunk hands over the
objects whose ends lie in it (`Extraction.runChunks_prompt`).

* `Extraction.run_prompt`: the objects that a run hands over are those of the text that its source
  gives, each as soon as its closing brace is there; with a limit they are the first of these. -/

namespace DatalogIntake

variable {α : Type}

/-! ### Where blocks end -/

namespace Segmentation

/-- The text of pieces in one. -/
def joinedPieces (ps : List (List Char × List Char)) : List Char := ps.flatMap fun p => p.1 ++ p.2

/-- The blocks of pieces, each with the length of the text up to its closing brace. -/
def stopsFrom (offset : Nat) : List (List Char × List Char) → List (List Char × Nat)
  | [] => []
  | p :: ps =>
    let stop := offset + (p.1 ++ p.2).length
    (p.2, stop) :: stopsFrom stop ps

/-- The blocks of a text, each with the length of the text up to its closing brace. -/
def stops (f : Segmentation) : List (List Char × Nat) := stopsFrom 0 f.pieces

theorem stopsFrom_append (offset : Nat) (ps qs : List (List Char × List Char)) :
    stopsFrom offset (ps ++ qs) =
      stopsFrom offset ps ++ stopsFrom (offset + (joinedPieces ps).length) qs := by
  induction ps generalizing offset with
  | nil => simp [stopsFrom, joinedPieces]
  | cons p ps ih =>
    have hlength : offset + (joinedPieces (p :: ps)).length =
        offset + (p.1 ++ p.2).length + (joinedPieces ps).length := by
      simp [joinedPieces]
      omega
    rw [List.cons_append, stopsFrom, stopsFrom, ih, hlength, List.cons_append]

theorem map_stopsFrom (offset : Nat) (ps : List (List Char × List Char)) :
    (stopsFrom offset ps).map Prod.fst = ps.map Prod.snd := by
  induction ps generalizing offset with
  | nil => rfl
  | cons p ps ih => exact congrArg (p.2 :: ·) (ih _)

theorem exists_of_mem_stopsFrom {offset : Nat} {ps : List (List Char × List Char)}
    {p : List Char × Nat} (h : p ∈ stopsFrom offset ps) :
    ∃ before q after, ps = before ++ q :: after ∧
      p = (q.2, offset + (joinedPieces (before ++ [q])).length) := by
  induction ps generalizing offset with
  | nil => cases h
  | cons q ps ih =>
    rcases List.mem_cons.mp h with rfl | h
    · exact ⟨[], q, ps, rfl, by simp [joinedPieces]⟩
    · obtain ⟨before, r, after, rfl, rfl⟩ := ih h
      refine ⟨q :: before, r, after, rfl, Prod.ext rfl ?_⟩
      simp only [joinedPieces, List.cons_append, List.flatMap_cons, List.length_append]
      omega

theorem suffix_take_of_mem_stops {f : Segmentation} {t : List Char} (h : f.Cuts t)
    {p : List Char × Nat} (hp : p ∈ f.stops) : p.1 <:+ t.take p.2 := by
  obtain ⟨before, q, after, hpieces, rfl⟩ := exists_of_mem_stopsFrom hp
  have ht : t = joinedPieces (before ++ [q]) ++ (joinedPieces after ++ f.rest) := by
    rw [← h.text_eq, text, hpieces]
    simp [joinedPieces]
  rw [ht, Nat.zero_add, List.take_left]
  exact ⟨joinedPieces before ++ q.1, by simp [joinedPieces]⟩

/-! ### Text that comes after -/

/-- The block that one more character closes. -/
def closed (f : Segmentation) (c : Char) : List (List Char) :=
  if f.Closes c then [f.tail ++ [c]] else []

theorem blocks_push_forget (f : Segmentation) (c : Char) :
    (f.forget.push c).blocks = f.closed c := by
  unfold closed
  split_ifs with hc
  · rw [blocks, push_of_closes (f := f.forget) hc]
    rfl
  · rw [blocks, pieces_push (f := f.forget) hc]
    rfl

/-- One more character adds the block that it closes. -/
theorem stops_push {f : Segmentation} {t : List Char} (h : f.Cuts t) (c : Char) :
    (f.push c).stops = f.stops ++ (f.closed c).map (·, t.length + 1) := by
  unfold closed
  split_ifs with hc
  · have hlength : 0 + (joinedPieces f.pieces).length + (f.gap ++ (f.tail ++ [c])).length =
        t.length + 1 := by
      rw [← h.text_eq]
      simp only [joinedPieces, text, rest, List.length_append, List.length_singleton]
      omega
    rw [stops, push_of_closes hc, stopsFrom_append, stopsFrom, hlength]
    rfl
  · rw [stops, pieces_push hc, List.map_nil, List.append_nil]
    rfl

/-- **A text that comes after adds the blocks that end in it.** -/
theorem exists_stops {f : Segmentation} {t : List Char} (h : f.Cuts t) (u : List Char) :
    ∃ new : List (List Char × Nat), (u.foldl push f).stops = f.stops ++ new ∧
      new.map Prod.fst = (u.foldl push f.forget).blocks ∧
      ∀ p ∈ new, t.length < p.2 ∧ p.2 ≤ t.length + u.length := by
  induction u generalizing f t with
  | nil => exact ⟨[], by simp, by simp [forget, blocks], by simp⟩
  | cons c u ih =>
    obtain ⟨new, hstops, hblocks, hbounds⟩ := ih (h.push c)
    rw [List.length_append, List.length_singleton] at hbounds
    refine ⟨(f.closed c).map (·, t.length + 1) ++ new, ?_, ?_, ?_⟩
    · rw [List.foldl_cons, hstops, stops_push h, List.append_assoc]
    · have hforget : (f.forget.push c).forget = (f.push c).forget :=
        (forget_foldl_push f [c]).symm
      have hsplit := blocks_foldl_push_append f.forget [c] u
      rw [List.singleton_append] at hsplit
      rw [hsplit, List.foldl_cons, List.foldl_nil, blocks_push_forget, hforget, ← hblocks,
        List.map_append, List.map_map]
      exact congrArg (· ++ new.map Prod.fst) (List.map_id _)
    · intro p hp
      rw [List.length_cons]
      rcases List.mem_append.mp hp with hp | hp
      · obtain ⟨_, _, rfl⟩ := List.mem_map.mp hp
        exact ⟨Nat.lt_succ_self _, by omega⟩
      · have := hbounds p hp
        omega

end Segmentation

/-! ### Sources of texts -/

/-- How many chunks a source gives before it fails or has no more. -/
def Source.reach (s : Source) : Nat :=
  match s.failure with
  | some (n, _) => min n s.chunks.length
  | none => s.chunks.length

theorem Source.reach_le (s : Source) : s.reach ≤ s.chunks.length := by
  unfold reach
  split
  · exact Nat.min_le_right _ _
  · exact Nat.le_refl _

theorem Source.failureAt?_of_lt {s : Source} {k : Nat} (h : k < s.reach) :
    s.failureAt? k = none := by
  unfold reach at h
  unfold failureAt?
  split
  · next n e hfailure =>
    rw [hfailure] at h
    rw [if_neg (Nat.ne_of_gt (Nat.lt_of_lt_of_le h (Nat.min_le_left _ _)))]
  · rfl

theorem Source.reach_eq_of_failureAt? {s : Source} (h : s.failureAt? s.reach = none) :
    s.reach = s.chunks.length := by
  unfold reach failureAt? at *
  cases hfailure : s.failure with
  | none => rfl
  | some f =>
    obtain ⟨n, e⟩ := f
    rw [hfailure] at h
    dsimp only at h ⊢
    split_ifs at h with hn
    omega

theorem joined_append (a b : List String) : joined (a ++ b) = joined a ++ joined b :=
  List.flatMap_append

theorem joined_take_succ {chunks : List String} {k : Nat} (h : k < chunks.length) :
    joined (chunks.take (k + 1)) = joined (chunks.take k) ++ chunks[k].toList := by
  rw [List.take_succ_eq_append_getElem h, joined_append]
  simp [joined]

theorem joined_drop_take {chunks : List String} {k n : Nat} (hk : k < n) (h : k < chunks.length) :
    joined ((chunks.take n).drop k) =
      chunks[k].toList ++ joined ((chunks.take n).drop (k + 1)) := by
  rw [List.drop_eq_getElem_cons (by rw [List.length_take]; omega), List.getElem_take]
  rfl

theorem length_joined_take_le (chunks : List String) {i j : Nat} (h : i ≤ j) :
    (joined (chunks.take i)).length ≤ (joined (chunks.take j)).length := by
  obtain ⟨more, hmore⟩ := List.take_prefix_take_left (l := chunks) h
  rw [← hmore, joined_append, List.length_append]
  exact Nat.le_add_right _ _

/-! ### Prompt deliveries -/

/-- An object is handed over for a block that ends at a place of the stream: it is what the block is
decoded to, and it comes when just so many chunks have been taken that the text with the closing
brace of the block is there. -/
structure IsPrompt (decode : List Char → Decoded α) (chunks : List String) (p : List Char × Nat)
    (d : Delivery α) : Prop where
  decoded : decode p.1 = .object d.object
  closes : p.1 <:+ (joined chunks).take p.2
  pulled : IsLeast {k | p.2 ≤ (joined (chunks.take k)).length} d.pulled

/-- The blocks that are decoded, among blocks with their ends. -/
def decodedStops (decode : List Char → Decoded α) (stops : List (List Char × Nat)) :
    List (List Char × Nat) :=
  stops.filter fun p => (decode p.1).object?.isSome

namespace Extraction

variable {x : Extraction α}

theorem forall₂_isPrompt {decode : List Char → Decoded α} {chunks : List String} {k : Nat}
    {stops : List (List Char × Nat)} (hcloses : ∀ p ∈ stops, p.1 <:+ (joined chunks).take p.2)
    (hpulled : ∀ p ∈ stops, IsLeast {k | p.2 ≤ (joined (chunks.take k)).length} k) :
    List.Forall₂ (IsPrompt decode chunks) (decodedStops decode stops)
      ((objectsOf decode (stops.map Prod.fst)).map (⟨·, k⟩)) := by
  induction stops with
  | nil => exact .nil
  | cons p stops ih =>
    have hrest := ih (fun q hq => hcloses q (List.mem_cons_of_mem p hq))
      fun q hq => hpulled q (List.mem_cons_of_mem p hq)
    unfold decodedStops objectsOf at hrest ⊢
    rw [List.map_cons]
    cases hp : decode p.1 with
    | object a =>
      rw [List.filter_cons_of_pos (by rw [hp]; rfl), List.filterMap_cons_some (by rw [hp]; rfl)]
      exact .cons ⟨hp, hcloses p List.mem_cons_self, hpulled p List.mem_cons_self⟩ hrest
    | rejected e =>
      rwa [List.filter_cons_of_neg (by rw [hp]; exact Bool.false_ne_true),
        List.filterMap_cons_none (by rw [hp]; rfl)]
    | escaped e =>
      rwa [List.filter_cons_of_neg (by rw [hp]; exact Bool.false_ne_true),
        List.filterMap_cons_none (by rw [hp]; rfl)]

theorem map_object_of_isPrompt {decode : List Char → Decoded α} {chunks : List String}
    {stops : List (List Char × Nat)} {deliveries : List (Delivery α)}
    (h : List.Forall₂ (IsPrompt decode chunks) (decodedStops decode stops) deliveries) :
    deliveries.map Delivery.object = objectsOf decode (stops.map Prod.fst) := by
  induction stops generalizing deliveries with
  | nil =>
    cases h
    rfl
  | cons p stops ih =>
    unfold decodedStops objectsOf at *
    rw [List.map_cons]
    by_cases hp : (decode p.1).object?.isSome
    · rw [List.filter_cons_of_pos (by simpa using hp)] at h
      obtain ⟨d, rest, hd, hrest, rfl⟩ := List.forall₂_cons_left_iff.mp h
      rw [List.filterMap_cons_some (by rw [hd.decoded]; rfl), ← ih hrest]
      rfl
    · rw [List.filter_cons_of_neg (by simpa using hp)] at h
      rw [List.filterMap_cons_none (by simpa using hp)]
      exact ih h

/-- What a run over chunks is to do when so many have been taken, with a segmentation of their text:
it hands over the blocks that the text of the other chunks adds, and takes all chunks that the
source gives. -/
def IsPromptRun (x : Extraction α) (chunks : List String) (k : Nat) (f : Segmentation) (r : Run α) :
    Prop :=
  (∃ new, ((joined ((chunks.take x.source.reach).drop k)).foldl Segmentation.push f).stops =
      f.stops ++ new ∧
    List.Forall₂ (IsPrompt x.decode chunks) (decodedStops x.decode new)
      (Event.deliveries k r.events)) ∧
  k + r.events.countP Event.isTook = x.source.reach ∧
  ∀ e, x.source.failureAt? x.source.reach = some e → r.ending = .failed (.source e)

theorem took_finish (f : Finished) : (f.events : List (Event α)).countP Event.isTook = 0 := by
  obtain ⟨scanner, report, warning, outcome⟩ := f
  cases report <;> cases warning <;> rfl

theorem runChunks_stopped (s : Scanner) {k : Nat} (limit : Option Nat) {rest : List Json}
    (h : x.source.failureAt? k = none → rest = []) :
    let r := x.runChunks s k limit rest
    Event.objects r.events = [] ∧ r.events.countP Event.isTook = 0 ∧
      ∀ e, x.source.failureAt? k = some e → r.ending = .failed (.source e) := by
  cases hfailure : x.source.failureAt? k with
  | some e =>
    have hrun : x.runChunks s k limit rest = ⟨[.broke e], .failed (.source e)⟩ := by
      cases rest <;> rw [runChunks, hfailure]
    rw [hrun]
    refine ⟨rfl, rfl, fun e' he => ?_⟩
    rw [Option.some.inj he]
  | none =>
    rw [h hfailure]
    refine ⟨objects_runChunks_nil s k limit, ?_, fun e he => by cases he⟩
    rw [runChunks, hfailure]
    dsimp only [finishRun]
    split <;> exact took_finish _

theorem isPromptRun_stopped {chunks : List String} (hchunks : x.source.chunks = textChunks chunks)
    (s : Scanner) (f : Segmentation) :
    x.IsPromptRun chunks x.source.reach f
      (x.runChunks s x.source.reach none (textChunks (chunks.drop x.source.reach))) := by
  have hrest : x.source.failureAt? x.source.reach = none →
      textChunks (chunks.drop x.source.reach) = [] := by
    intro hfailure
    have hlength : chunks.length = x.source.reach := by
      rw [Source.reach_eq_of_failureAt? hfailure, hchunks, textChunks, List.length_map]
    rw [← hlength, List.drop_length]
    rfl
  obtain ⟨hobjects, htook, hending⟩ := runChunks_stopped s none hrest
  refine ⟨⟨[], ?_, ?_⟩, by rw [htook, Nat.add_zero], hending⟩
  · rw [List.drop_eq_nil_of_le (List.length_take_le _ _), List.append_nil]
    rfl
  · rw [Event.deliveries_of_objects hobjects]
    exact .nil

theorem took_fed (f : Fed α) : (f.events : List (Event α)).countP Event.isTook = 1 := by
  rw [Fed.events, List.countP_cons_of_pos rfl, List.countP_map]
  exact congrArg (· + 1) (List.countP_eq_zero.mpr fun _ _ => Bool.false_ne_true)

/-- A run takes a text, hands over what it completes, and goes on in the state of the longer
text. -/
theorem runChunks_text {chunks : List String} {k : Nat} (hlt : k < x.source.reach)
    (hlength : k < chunks.length) {f : Segmentation} (hopen : f.tail = [] ∨ IsOpen f.tail)
    (hsettled : ∀ c ∈ (chunks[k].toList.foldl Segmentation.push f.forget).blocks,
      (x.decode c).IsSettled) :
    let objects :=
      objectsOf x.decode (chunks[k].toList.foldl Segmentation.push f.forget).blocks
    let next := x.runChunks (chunks[k].toList.foldl Segmentation.push f).scanner (k + 1) none
      (textChunks (chunks.drop (k + 1)))
    x.runChunks f.scanner k none (textChunks (chunks.drop k)) =
      (next.after (objects.map .delivered)).after
        (f.scanner.feed x.decode (.str chunks[k])).events := by
  have hchunk : textChunks (chunks.drop k) =
      .str chunks[k] :: textChunks (chunks.drop (k + 1)) := by
    rw [List.drop_eq_getElem_cons hlength]
    rfl
  intro objects next
  rw [hchunk, runChunks_cons, Source.failureAt?_of_lt hlt]
  dsimp only
  rw [Segmentation.feed_scanner x.decode hopen hsettled]
  rfl

/-- The blocks that end in a chunk are those whose ends are there once it has been taken, and not
before. -/
theorem isLeast_take {chunks : List String} {k stop : Nat}
    (h : (joined (chunks.take k)).length < stop)
    (h' : stop ≤ (joined (chunks.take (k + 1))).length) :
    IsLeast {j | stop ≤ (joined (chunks.take j)).length} (k + 1) := by
  refine ⟨h', fun j hj => ?_⟩
  by_contra hlt
  have hle := length_joined_take_le chunks (Nat.le_of_lt_succ (Nat.lt_of_not_le hlt))
  have hstop : stop ≤ (joined (chunks.take j)).length := hj
  omega

/-- **One chunk of a prompt run.** -/
theorem isPromptRun_text {chunks : List String} {k : Nat} (hlt : k < x.source.reach)
    (hlength : k < chunks.length) {f : Segmentation} (hf : f.Cuts (joined (chunks.take k)))
    (hsettled : ∀ c ∈ (chunks[k].toList.foldl Segmentation.push f.forget).blocks,
      (x.decode c).IsSettled)
    (hnext : x.IsPromptRun chunks (k + 1) (chunks[k].toList.foldl Segmentation.push f)
      (x.runChunks (chunks[k].toList.foldl Segmentation.push f).scanner (k + 1) none
        (textChunks (chunks.drop (k + 1))))) :
    x.IsPromptRun chunks k f (x.runChunks f.scanner k none (textChunks (chunks.drop k))) := by
  obtain ⟨⟨later, hlater, hprompt⟩, htook, hending⟩ := hnext
  obtain ⟨new, hstops, hblocks, hbounds⟩ := Segmentation.exists_stops hf chunks[k].toList
  have hg : (chunks[k].toList.foldl Segmentation.push f).Cuts (joined (chunks.take (k + 1))) := by
    rw [joined_take_succ hlength]
    exact Segmentation.cuts_foldl_push hf _
  have htext : joined chunks = joined (chunks.take (k + 1)) ++ joined (chunks.drop (k + 1)) := by
    rw [← joined_append, List.take_append_drop]
  have hends : ∀ p ∈ new, (joined (chunks.take k)).length < p.2 ∧
      p.2 ≤ (joined (chunks.take (k + 1))).length := by
    rw [joined_take_succ hlength, List.length_append]
    exact hbounds
  have hnew : List.Forall₂ (IsPrompt x.decode chunks) (decodedStops x.decode new)
      ((objectsOf x.decode (new.map Prod.fst)).map (⟨·, k + 1⟩)) := by
    refine forall₂_isPrompt (fun p hp => ?_) fun p hp => isLeast_take (hends p hp).1 (hends p hp).2
    rw [htext, List.take_append_of_le_length (hends p hp).2]
    exact Segmentation.suffix_take_of_mem_stops hg
      (by rw [hstops]; exact List.mem_append_right _ hp)
  rw [runChunks_text hlt hlength hf.isOpen hsettled, ← hblocks]
  refine ⟨⟨new ++ later, ?_, ?_⟩, ?_, hending⟩
  · rw [joined_drop_take hlt hlength, List.foldl_append, hlater, hstops, List.append_assoc]
  · dsimp only [Run.after]
    rw [Event.deliveries_append, Event.deliveries_append, took_fed, Event.deliveries_delivered,
      Event.took_delivered, Event.deliveries_of_objects (Fed.objects_events _), List.nil_append,
      Nat.add_zero, decodedStops, List.filter_append]
    exact List.rel_append hnew hprompt
  · dsimp only [Run.after]
    rw [List.countP_append, List.countP_append, took_fed, Event.took_delivered]
    omega

/-- **A run over texts is prompt.** -/
theorem runChunks_prompt {chunks : List String} (hchunks : x.source.chunks = textChunks chunks)
    {k : Nat} (hk : k ≤ x.source.reach) {f : Segmentation} (hf : f.Cuts (joined (chunks.take k)))
    (hsettled : ∀ c ∈ ((joined ((chunks.take x.source.reach).drop k)).foldl Segmentation.push
      f.forget).blocks, (x.decode c).IsSettled) :
    x.IsPromptRun chunks k f (x.runChunks f.scanner k none (textChunks (chunks.drop k))) := by
  induction hm : x.source.reach - k generalizing k f with
  | zero =>
    obtain rfl : k = x.source.reach := by omega
    exact isPromptRun_stopped hchunks f.scanner f
  | succ m ih =>
    have hlt : k < x.source.reach := by omega
    have hlength : k < chunks.length := by
      have hle := x.source.reach_le
      rw [hchunks, textChunks, List.length_map] at hle
      omega
    have hg : (chunks[k].toList.foldl Segmentation.push f).Cuts (joined (chunks.take (k + 1))) := by
      rw [joined_take_succ hlength]
      exact Segmentation.cuts_foldl_push hf _
    rw [joined_drop_take hlt hlength, Segmentation.blocks_foldl_push_append,
      ← Segmentation.forget_foldl_push f] at hsettled
    have hnext := ih (Nat.succ_le_of_lt hlt) hg
      (fun c hc => hsettled c (List.mem_append_right _ hc)) (by omega)
    exact isPromptRun_text hlt hlength hf (fun c hc => hsettled c (List.mem_append_left _ hc)) hnext

/-- **Extraction is prompt.** Let the source give texts, until it fails or has no more, and let no
block of the text that it gives escape. Without a limit, the objects that are handed over are those
of the blocks of that text, in order, each when just so many chunks have been taken that its closing
brace is there; if the source fails, it is after all of them, and the run ends with that failure.
With a limit, the objects are the first of these, at the same times, and no chunk is taken after the
one that completes the last; a limit that is not reached changes nothing. -/
theorem run_prompt {chunks : List String} (hchunks : x.source.chunks = textChunks chunks)
    {f : Segmentation} (hf : f.Cuts (joined (chunks.take x.source.reach)))
    (hsettled : ∀ c ∈ f.blocks, (x.decode c).IsSettled) :
    let all := x.run none
    all.deliveries.map Delivery.object = objectsOf x.decode f.blocks ∧
    List.Forall₂ (IsPrompt x.decode chunks) (decodedStops x.decode f.stops) all.deliveries ∧
    all.pulled = x.source.reach ∧
    (∀ e, x.source.failureAt? x.source.reach = some e →
      all.ending = x.source.closing.ending (.failed (.source e))) ∧
    (x.run (some 0)).pulled = 0 ∧
    ∀ n, (x.run (some n)).deliveries = all.deliveries.take n ∧
      (∀ d, all.deliveries[n]? = some d → (x.run (some (n + 1))).pulled = d.pulled) ∧
      (all.deliveries.length < n → x.run (some n) = all) := by
  intro all
  have hsame : (joined (chunks.take x.source.reach)).foldl Segmentation.push .empty = f :=
    (Segmentation.cuts_foldl_push Segmentation.cuts_empty _).unique hf
  have hprompt := runChunks_prompt hchunks (Nat.zero_le _) (f := .empty) Segmentation.cuts_empty
    (by rw [List.drop_zero]; exact hsame.symm ▸ hsettled)
  rw [IsPromptRun, List.drop_zero, hsame, List.drop_zero, ← hchunks] at hprompt
  obtain ⟨⟨new, hnew, hdeliveries⟩, htook, hending⟩ := hprompt
  rw [show Segmentation.stops .empty = [] from rfl, List.nil_append] at hnew
  have hall : List.Forall₂ (IsPrompt x.decode chunks) (decodedStops x.decode f.stops)
      all.deliveries := by
    rw [show all.deliveries = _ from congrArg Run.deliveries (run_none x), deliveries_closeRun,
      hnew]
    exact hdeliveries
  have hobjects : all.deliveries.map Delivery.object = objectsOf x.decode f.blocks := by
    rw [map_object_of_isPrompt hall, Segmentation.stops, Segmentation.map_stopsFrom]
    rfl
  refine ⟨hobjects, hall, ?_, fun e he => ?_, rfl, fun n => ⟨x.deliveries_run_some n,
    fun d hd => pulled_run_some hd, run_some_of_lt⟩⟩
  · rw [show all.pulled = _ from congrArg Run.pulled (run_none x), pulled_closeRun, ← htook,
      Nat.zero_add]
    rfl
  · exact (congrArg Run.ending (run_none x)).trans
      (congrArg x.source.closing.ending (hending e he))

/-- An object that does not fit, a payload cut in two, two payloads in one chunk and a source that
fails before the next. -/
theorem run_prompt_dropped :
    let payload := "\x7b\"guiding_questions\":[],\"mangle_facts\":[],\"mangle_rules\":[]\x7d"
    let chunks := ["\x7b\x7d \x7b\"guiding_questions\":[],",
      "\"mangle_facts\":[],\"mangle_rules\":[]\x7d",
      payload ++ "," ++ payload ++ "\x7b", "\x7d"]
    let x : Extraction payloadShape.Carrier :=
      ⟨payloadShape.decode 990, .warn, textChunks chunks, some (3, ⟨"upstream dropped"⟩), .closes⟩
    let f : Segmentation := ⟨[([], "\x7b\x7d".toList), ([' '], payload.toList),
      ([], payload.toList), ([','], payload.toList)], [], ['\x7b']⟩
    let object : payloadShape.Carrier := ([], [], [], ())
    let all := x.run none
    x.source.chunks = textChunks chunks ∧ f.Cuts (joined (chunks.take x.source.reach)) ∧
      (∀ c ∈ f.blocks, (x.decode c).IsSettled) ∧
      all.deliveries.map Delivery.object = [object, object, object] ∧
      List.Forall₂ (IsPrompt x.decode chunks)
        [(payload.toList, 63), (payload.toList, 123), (payload.toList, 184)] all.deliveries ∧
      all.pulled = 3 ∧ all.ending = .failed (.source ⟨"upstream dropped"⟩) ∧
      (x.run (some 2)).deliveries = all.deliveries.take 2 := by
  intro payload chunks x f object all
  have hf : f.Cuts (joined (chunks.take x.source.reach)) := by decide +kernel
  have hsettled : ∀ c ∈ f.blocks, (x.decode c).IsSettled := by decide +kernel
  obtain ⟨hobjects, hprompt, hpulled, hending, -, hlimit⟩ := run_prompt rfl hf hsettled
  have hstops : decodedStops x.decode f.stops =
      [(payload.toList, 63), (payload.toList, 123), (payload.toList, 184)] := by
    decide +kernel
  rw [hstops] at hprompt
  refine ⟨rfl, hf, hsettled, hobjects.trans ?_, hprompt, hpulled.trans (by decide +kernel),
    hending _ (by decide +kernel), (hlimit 2).1⟩
  decide +kernel

end Extraction

end DatalogIntake

import DatalogIntake.Proofs.Json.Nesting
import DatalogIntake.Proofs.Stream.Feeding

/-!
# Streams of objects

The texts of JSON objects with gaps between them. As long as the braces in each string literal nest,
the blocks of the stream are those texts: an object text is a block by the grammar
(`Json.isBlock_of_object`), and a text has one segmentation.

* `feedAll_objects`: however such a stream is cut into chunks, the candidates are the object texts. -/

namespace DatalogIntake

/-- The text of a JSON object from brace to brace, which the reader reads in the room it has, with
braces that nest in each of its string literals. -/
structure ObjectText (room : Nat) (t : List Char) : Prop where
  object : ∃ fields, Json.ofChars? room t = .ok (.obj fields)
  starts : t.head? = some '{'
  ends : t.getLast? = some '}'
  nested : ∀ l ∈ Json.rawLiterals t, Nested l

theorem ObjectText.isBlock {room : Nat} {t : List Char} (h : ObjectText room t) : IsBlock t := by
  obtain ⟨fields, hf⟩ := h.object
  exact Json.isBlock_of_object hf h.starts h.ends h.nested

/-- A text that is read is decoded or rejected. -/
theorem ObjectText.isSettled {room : Nat} {t : List Char} (h : ObjectText room t)
    (shape : Shape) : (shape.decode room t).IsSettled := by
  obtain ⟨fields, hf⟩ := h.object
  intro e he
  rw [Shape.decode, hf] at he
  dsimp only at he
  split at he <;> cases he

theorem objectsOf_of_fits {α : Type} {decode : List Char → Decoded α} {texts : List (List Char)}
    {values : List α} (h : texts.map decode = values.map .object) :
    objectsOf decode texts = values ∧ reportsOf decode texts = [] := by
  induction texts generalizing values with
  | nil =>
    obtain rfl : values = [] := by simpa using h.symm
    exact ⟨rfl, rfl⟩
  | cons t texts ih =>
    cases values with
    | nil => simp at h
    | cons a values =>
      simp only [List.map_cons, List.cons.injEq] at h
      obtain ⟨ho, hr⟩ := ih h.2
      constructor
      · rw [← ho, objectsOf, List.filterMap_cons, h.1]; rfl
      · rw [← hr, reportsOf, rejectedOf, List.filterMap_cons, h.1]; rfl

theorem cuts_objects {room : Nat} {pieces : List (List Char × List Char)} {last text : List Char}
    (hgap : ∀ p ∈ pieces, IsGap p.1) (hobj : ∀ p ∈ pieces, ObjectText room p.2)
    (hlast : IsGap last) (htext : text = pieces.flatMap (fun p => p.1 ++ p.2) ++ last) :
    Segmentation.Cuts ⟨pieces, last, []⟩ text :=
  ⟨by rw [htext]; simp [Segmentation.text, Segmentation.rest], hgap,
    fun p hp => (hobj p hp).isBlock, hlast, Or.inl rfl⟩

/-- **A stream of objects is cut into its objects.** The object texts of a stream, with gaps around
them, are the candidates in order, however the stream is cut into chunks: a decoder that keeps its
candidates is handed these. Decoded by a shape, those that fit are returned and the others reported;
if all fit nothing is reported. At the end no object is open, and the last gap is in the buffer. -/
theorem feedAll_objects (shape : Shape) {room : Nat} {pieces : List (List Char × List Char)}
    {last : List Char} {chunks : List String} (hgap : ∀ p ∈ pieces, IsGap p.1)
    (hobj : ∀ p ∈ pieces, ObjectText room p.2) (hlast : IsGap last)
    (hcut : joined chunks = pieces.flatMap (fun p => p.1 ++ p.2) ++ last) :
    let texts := pieces.map Prod.snd
    let run := Scanner.feedAll (shape.decode room) {} (textChunks chunks)
    (∃ handed : List (List (List Char)),
      (Scanner.feedAll Decoded.object {} (textChunks chunks)).outcomes = handed.map .ok ∧
      handed.flatten = texts) ∧
    (∃ objects : List (List shape.Carrier),
      run.outcomes = objects.map .ok ∧
      objects.flatten = objectsOf (shape.decode room) texts ∧
      run.reports = reportsOf (shape.decode room) texts ∧
      ∀ values, texts.map (shape.decode room) = values.map .object →
        objects.flatten = values ∧ run.reports = []) ∧
    run.scanner = { buffer := last, depth := 0, start := none, position := last.length } := by
  intro texts run
  have hcuts := cuts_objects hgap hobj hlast hcut
  have hblocks : Segmentation.blocks ⟨pieces, last, []⟩ = texts := rfl
  have hscan : Segmentation.scanner ⟨pieces, last, []⟩ =
      { buffer := last, depth := 0, start := none, position := last.length } := by
    simp [Segmentation.scanner, Segmentation.rest, Segmentation.depth, Segmentation.start]
  obtain ⟨handed, hkeep, hflat⟩ := feedAll_cuts (Decoded.object (α := List Char)) hcuts
    fun c _ e he => by cases he
  have hdec : ∀ c ∈ Segmentation.blocks ⟨pieces, last, []⟩, (shape.decode room c).IsSettled := by
    intro c hc
    obtain ⟨p, hp, rfl⟩ := List.mem_map.mp hc
    exact (hobj p hp).isSettled shape
  obtain ⟨objects, hrun, hobjects⟩ := feedAll_cuts (shape.decode room) hcuts hdec
  rw [hblocks] at hrun hobjects hflat
  have hreports : run.reports = reportsOf (shape.decode room) texts := congrArg Feeding.reports hrun
  refine ⟨⟨handed, congrArg Feeding.outcomes hkeep, ?_⟩, ⟨objects, congrArg Feeding.outcomes hrun,
    hobjects, hreports, fun values hv => ?_⟩, (congrArg Feeding.scanner hrun).trans hscan⟩
  · rw [hflat, objectsOf]
    exact List.filterMap_some
  · obtain ⟨h1, h2⟩ := objectsOf_of_fits hv
    exact ⟨hobjects.trans h1, hreports.trans h2⟩

/-- A payload with braces and an escaped quote in a string, then an object that is no payload. -/
theorem feedAll_objects_payload :
    let payload := "\x7b\"guiding_questions\":[\"\x7ba\\\"\x7d\"],\"mangle_facts\":[],\"mangle_rules\":[]\x7d"
    let other := "\x7b\"k\": \x7b\x7d\x7d"
    let pieces := [("\n\x7d ".toList, payload.toList), ([','], other.toList)]
    let chunks := ["\n\x7d \x7b\"guiding_questions\":[\"\x7ba\\", "", "\"\x7d\"],\"mangle_facts\":[],",
      "\"mangle_rules\":[]\x7d,\x7b\"k\": \x7b", "\x7d\x7d \x7d"]
    (∀ p ∈ pieces, IsGap p.1) ∧ (∀ p ∈ pieces, ObjectText 990 p.2) ∧ IsGap " \x7d".toList ∧
    joined chunks = pieces.flatMap (fun p => p.1 ++ p.2) ++ " \x7d".toList ∧
    let run := Scanner.feedAll (payloadShape.decode 990) {} (textChunks chunks)
    (∃ handed : List (List (List Char)),
      (Scanner.feedAll Decoded.object {} (textChunks chunks)).outcomes = handed.map .ok ∧
      handed.flatten = [payload.toList, other.toList]) ∧
    (∃ objects : List (List payloadShape.Carrier),
      run.outcomes = objects.map .ok ∧
      objects.flatten.map payloadShape.dump = [.obj [("guiding_questions", .arr [.str "\x7ba\"\x7d"]),
        ("mangle_facts", .arr []), ("mangle_rules", .arr [])]]) ∧
    run.reports.map Diagnostic.candidate = [other.toList] ∧
    run.scanner = { buffer := " \x7d".toList, depth := 0, start := none, position := 2 } := by
  intro payload other pieces chunks
  have hgap : ∀ p ∈ pieces, IsGap p.1 := by decide +kernel
  have hobj : ∀ p ∈ pieces, ObjectText 990 p.2 := by
    have hpayload : ObjectText 990 payload.toList :=
      ⟨⟨[("guiding_questions", .arr [.str "\x7ba\"\x7d"]), ("mangle_facts", .arr []),
        ("mangle_rules", .arr [])], by decide +kernel⟩, by decide +kernel, by decide +kernel,
        by decide +kernel⟩
    have hother : ObjectText 990 other.toList :=
      ⟨⟨[("k", .obj [])], by decide +kernel⟩, by decide +kernel, by decide +kernel,
        by decide +kernel⟩
    intro p hp
    rcases List.mem_cons.mp hp with rfl | hp
    · exact hpayload
    · rw [List.mem_singleton.mp hp]
      exact hother
  have hlast : IsGap " \x7d".toList := by decide +kernel
  have hcut : joined chunks = pieces.flatMap (fun p => p.1 ++ p.2) ++ " \x7d".toList := by
    decide +kernel
  obtain ⟨hhanded, ⟨objects, ho, hflat, hr, -⟩, hs⟩ :=
    feedAll_objects payloadShape hgap hobj hlast hcut
  refine ⟨hgap, hobj, hlast, hcut, hhanded, ⟨objects, ho, ?_⟩, ?_, hs⟩
  · rw [hflat]
    decide +kernel
  · rw [hr]
    decide +kernel

end DatalogIntake

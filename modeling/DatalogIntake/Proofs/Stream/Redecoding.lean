import DatalogIntake.Proofs.Json.Limits
import DatalogIntake.Proofs.Service.Variations
import DatalogIntake.Proofs.Shape.Dumps
import DatalogIntake.Proofs.Stream.Objects

/-!
# Decoded objects are decoded again

What comes out of a candidate can be dumped and written, and the text is a candidate again. It is
decoded to the same: integers, doubles and truth values stay what they are, flags and defaults that
were filled in are now given, and members that are not declared are gone. In a stream the text is
one block, unless a string in the object has braces.

* `Shape.ofChars?_dump`: the text of the dump of a decoded object is read as the dump.
* `feedAll_block`: a block that decodes to an object is handed over, however it is cut into chunks.
* `decode_dump`: the object comes out of the text of its dump, alone and in a stream. -/

namespace DatalogIntake

/-! ### The shapes of the service -/

theorem declaresTags_of_mem_serviceShapes :
    ∀ shape ∈ serviceShapes, shape.declaresTags = true := by decide +kernel

theorem areBraceless_names_of_mem_serviceShapes :
    ∀ shape ∈ serviceShapes, Json.AreBraceless shape.names := by decide +kernel

/-- A shape of the service carries the members of an object. -/
theorem exists_dump_of_mem_serviceShapes {shape : Shape} (h : shape ∈ serviceShapes)
    (x : shape.Carrier) : ∃ fields, shape.dump x = .obj fields := by
  simp only [serviceShapes, List.mem_cons, List.not_mem_nil, or_false] at h
  rcases h with rfl | rfl | rfl | rfl | rfl | rfl | rfl | rfl | rfl <;> exact ⟨_, rfl⟩

/-! ### Candidates -/

namespace Shape

variable {shape : Shape} {room : Nat} {t u : List Char} {x : shape.Carrier}

theorem decode_eq_object :
    shape.decode room t = .object x ↔
      ∃ v, Json.ofChars? room t = .ok v ∧ shape.check v = .ok x := by
  unfold decode
  cases hread : Json.ofChars? room t with
  | error e => cases e <;> simp
  | ok v =>
    cases hcheck : shape.check v with
    | error faults => simp [hcheck]
    | ok y => simp [hcheck]

theorem ofChars?_dump (hnames : shape.hasDistinctNames = true)
    (h : shape.decode room t = .object x) (hu : (shape.dump x).IsWrittenAs u) :
    Json.ofChars? room u = .ok (shape.dump x) := by
  obtain ⟨v, hread, hcheck⟩ := decode_eq_object.mp h
  have htext : Json.ofText? room (String.ofList t) = .ok v := by
    rwa [Json.ofText?, String.toList_ofList]
  have hv : v.IsReadable room := Json.isReadable_of_ofText? htext
  exact hu.ofChars? (shape.isReadable_dump hnames room v hv x hcheck)

end Shape

/-- **A block that decodes to an object is handed over as this object**, however it is cut into
chunks. Nothing is reported, and the scanner is fresh again. -/
theorem feedAll_block {α : Type} {decode : List Char → Decoded α} {u : List Char} {a : α}
    (hblock : IsBlock u) (h : decode u = .object a) {chunks : List String}
    (hcut : joined chunks = u) :
    let run := Scanner.feedAll decode {} (textChunks chunks)
    (∃ objects : List (List α), run.outcomes = objects.map .ok ∧ objects.flatten = [a]) ∧
      run.reports = [] ∧ run.scanner = {} := by
  have hcuts : Segmentation.Cuts ⟨[([], u)], [], []⟩ (joined chunks) := by
    refine ⟨?_, by simp [isGap_nil], by simpa using hblock, isGap_nil, Or.inl rfl⟩
    simp [Segmentation.text, Segmentation.rest, hcut]
  have hfits : [u].map decode = [a].map .object := by simp [h]
  obtain ⟨hobjects, hreports⟩ := objectsOf_of_fits hfits
  have hsettled : ∀ c ∈ Segmentation.blocks ⟨[([], u)], [], []⟩, (decode c).IsSettled := by
    intro c hc
    obtain rfl : c = u := by simpa [Segmentation.blocks] using hc
    exact h ▸ Decoded.isSettled_object a
  obtain ⟨objects, hrun, hflat⟩ := feedAll_cuts decode hcuts hsettled
  intro run
  have hblocks : Segmentation.blocks ⟨[([], u)], [], []⟩ = [u] := rfl
  rw [hblocks] at hrun hflat
  refine ⟨⟨objects, congrArg Feeding.outcomes hrun, hflat.trans hobjects⟩, ?_, ?_⟩
  · exact (congrArg Feeding.reports hrun).trans hreports
  · exact congrArg Feeding.scanner hrun

/-- **What is decoded from a text is decoded again from the text of its dump**, and it is the same:
each term is of the kind that it was, and the flags and defaults that were filled in are now given.
The text has any layout, with the characters beyond ASCII as they are or escaped, and there is room
enough for it where there was for the first one. If no string in the object has a brace, a fresh
scanner that is fed the text in any chunks hands over this object and no other, reports nothing and
is fresh again. -/
theorem decode_dump {shape : Shape} (hshape : shape ∈ serviceShapes) {room : Nat} {t : List Char}
    {x : shape.Carrier} (h : shape.decode room t = .object x) {u : List Char}
    (hu : (shape.dump x).IsWrittenAs u) :
    shape.decode room u = .object x ∧
      (Json.AreBraceless (shape.dump x).strings → ∀ chunks, joined chunks = u →
        let run := Scanner.feedAll (shape.decode room) {} (textChunks chunks)
        (∃ objects : List (List shape.Carrier),
          run.outcomes = objects.map .ok ∧ objects.flatten = [x]) ∧
        run.reports = [] ∧ run.scanner = {}) := by
  have hnames := hasDistinctNames_of_mem_serviceShapes shape hshape
  have htags := declaresTags_of_mem_serviceShapes shape hshape
  have hdecode : shape.decode room u = .object x := Shape.decode_eq_object.mpr
    ⟨shape.dump x, Shape.ofChars?_dump hnames h hu, shape.check_dump hnames htags x⟩
  refine ⟨hdecode, fun hstrings chunks hcut => feedAll_block ?_ hdecode hcut⟩
  have hall : Json.AreBraceless (shape.dump x).names := fun s hs =>
    areBraceless_names_of_mem_serviceShapes shape hshape s (shape.names_dump x hs)
  obtain ⟨fields, hfields⟩ := exists_dump_of_mem_serviceShapes hshape x
  rw [hfields] at hu hall hstrings
  exact hu.isBlock hall hstrings

/-- A query with an atom that leaves its type out, has a word for its flag and a member that is not
declared, and terms of all kinds, with an infinite one and one beyond ASCII. The text of the dump is
cut in an escape. -/
theorem decode_dump_query :
    let t := ("\x7b\"name\":\"q\",\"find\":[\"?X\"],\"where\":[\x7b\"isNegated\":\"YES\"," ++
      "\"note\":null,\"predicate\":\"p\",\"args\":[\"?X\",1,1.0,true,1e999,\"é😀\"]\x7d]," ++
      "\"description\":\"\"\x7d").toList
    let dump : Json := .obj [("name", .str "q"), ("description", .str ""),
      ("find", .arr [.str "?X"]), ("where", .arr [.obj [("type", .str "atom"),
        ("predicate", .str "p"), ("args", .arr [.str "?X", .int 1,
          .double (Binary64.ofDecimal false 1 0), .bool true, .double (.infinite false),
          .str "é😀"]), ("isNegated", .bool true)]])]
    let chunks := ["\x7b\"name\": \"q\", \"description\": \"\", \"find\": [\"?X\"], \"where\": " ++
      "[\x7b\"type\": \"atom\", \"predicate\": \"p\", \"args\": [\"?X\", 1, 1.0, true, " ++
      "Infinity, \"\\u0", "0e9\\ud83d\\ude00\"], \"isNegated\": true\x7d]", "", "\x7d"]
    queryShape ∈ serviceShapes ∧ ∃ x, queryShape.decode 4 t = .object x ∧
      queryShape.dump x = dump ∧
      dump.IsWrittenAs (joined chunks) ∧ queryShape.decode 4 (joined chunks) = .object x ∧
      Json.AreBraceless dump.strings ∧
      let run := Scanner.feedAll (queryShape.decode 4) {} (textChunks chunks)
      (∃ objects : List (List queryShape.Carrier),
        run.outcomes = objects.map .ok ∧ objects.flatten = [x]) ∧
      run.reports = [] ∧ run.scanner = {} := by
  intro t dump chunks
  have hshape : queryShape ∈ serviceShapes := by simp [serviceShapes]
  have hdecoded : (queryShape.decode 4 t).object?.map queryShape.dump = some dump := by
    decide +kernel
  obtain ⟨x, hx, hdump⟩ := Option.map_eq_some_iff.mp hdecoded
  have hobject : queryShape.decode 4 t = .object x := by
    cases hd : queryShape.decode 4 t <;> rw [hd] at hx <;> cases hx
    rfl
  have htext : Json.toAscii (Json.write .line 0 dump) = joined chunks := by decide +kernel
  have hwritten : dump.IsWrittenAs (joined chunks) := htext ▸ .ascii .line
  have hbraces : Json.AreBraceless dump.strings := by decide +kernel
  obtain ⟨hdecode, hfeed⟩ := decode_dump hshape hobject (hdump.symm ▸ hwritten)
  exact ⟨hshape, x, hobject, hdump, hwritten, hdecode, hbraces,
    hfeed (hdump.symm ▸ hbraces) chunks rfl⟩

end DatalogIntake

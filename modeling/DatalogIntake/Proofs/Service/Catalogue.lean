import DatalogIntake.Proofs.List.First
import DatalogIntake.Service.Payload

/-!
# Reading a catalogue back

The description of a catalogue says which catalogue it is, as long as no part of a fact has a
character in it that ends the part: the name ends at the first parenthesis, an argument at a comma
or at the parenthesis that closes the list, and the line at its end (`BaseFact.IsLegible`). Every
argument is written behind a comma, a blank and the marker but for the first, which has no comma and
no blank: with a blank before the list all arguments look alike. So the list is read back by its
commas (`readArguments_argumentList`), the line by its parentheses (`BaseFact.ofLine_line`), and the
catalogue by its lines (`readCatalogue_describe`).

* `describeCatalogue_faithful`: one line for each fact, and different texts for different
  catalogues. -/

namespace DatalogIntake

/-! ### Legible facts -/

/-- A fact whose parts can be told apart in its line. -/
structure BaseFact.IsLegible (f : BaseFact) : Prop where
  name : '(' ∉ f.name.toList ∧ '\n' ∉ f.name.toList
  arguments : ∀ a ∈ f.arguments, ',' ∉ a.toList ∧ ')' ∉ a.toList ∧ '\n' ∉ a.toList
  description : '\n' ∉ f.description.toList

instance (f : BaseFact) : Decidable f.IsLegible :=
  decidable_of_iff
    (('(' ∉ f.name.toList ∧ '\n' ∉ f.name.toList) ∧
      (∀ a ∈ f.arguments, ',' ∉ a.toList ∧ ')' ∉ a.toList ∧ '\n' ∉ a.toList) ∧
      '\n' ∉ f.description.toList)
    ⟨fun h => ⟨h.1, h.2.1, h.2.2⟩, fun h => ⟨h.name, h.arguments, h.description⟩⟩

/-! ### Lists of arguments -/

/-- The arguments that a list between parentheses stands for. -/
def readArguments (text : List Char) : List String :=
  if text = [] then []
  else ((' ' :: text).splitOn ',').map fun a => String.ofList (a.drop 2)

/-- The arguments as they stand in a line, marker and all. -/
def argumentList (arguments : List String) : List Char :=
  (Text.commaList (arguments.map fun a => "?" ++ a)).toList

theorem argumentList_cons_cons (a b : String) (rest : List String) :
    argumentList (a :: b :: rest) = '?' :: a.toList ++ ',' :: ' ' :: argumentList (b :: rest) := by
  unfold argumentList
  rw [List.map_cons, List.map_cons, Text.toList_commaList_cons, String.toList_append]
  rfl

/-- With a blank before the first argument, all arguments are written in the same way. -/
theorem argumentList_eq_intercalate {arguments : List String} (h : arguments ≠ []) :
    ' ' :: argumentList arguments =
      [','].intercalate (arguments.map fun a => ' ' :: '?' :: a.toList) := by
  induction arguments with
  | nil => exact absurd rfl h
  | cons a rest ih =>
    cases rest with
    | nil => simp [argumentList, Text.commaList, List.intercalate]
    | cons b rest =>
      rw [argumentList_cons_cons, ih (List.cons_ne_nil b rest)]
      simp [List.intercalate]

/-- A character of an argument list belongs to an argument, unless the listing brings it in. -/
theorem not_mem_argumentList {arguments : List String} {c : Char}
    (hc : c ≠ '?' ∧ c ≠ ',' ∧ c ≠ ' ') (h : ∀ a ∈ arguments, c ∉ a.toList) :
    c ∉ argumentList arguments := by
  obtain ⟨hmarker, hcomma, hblank⟩ := hc
  induction arguments with
  | nil => simp [argumentList, Text.commaList]
  | cons a rest ih =>
    obtain ⟨ha, hrest⟩ := List.forall_mem_cons.mp h
    cases rest with
    | nil => simp [argumentList, Text.commaList, ha, hmarker]
    | cons b rest =>
      rw [argumentList_cons_cons]
      simp [ha, hmarker, hcomma, hblank, ih hrest]

/-- **Arguments without commas are read back from their list.** -/
theorem readArguments_argumentList {arguments : List String}
    (h : ∀ a ∈ arguments, ',' ∉ a.toList) :
    readArguments (argumentList arguments) = arguments := by
  cases arguments with
  | nil => rfl
  | cons a rest =>
    have hne : argumentList (a :: rest) ≠ [] := by
      cases rest with
      | nil => simp [argumentList, Text.commaList]
      | cons b rest => simp [argumentList_cons_cons]
    have hcommas : ∀ l ∈ (a :: rest).map (fun a => ' ' :: '?' :: a.toList), ',' ∉ l := by
      intro l hl
      obtain ⟨b, hb, rfl⟩ := List.mem_map.mp hl
      simp [h b hb]
    rw [readArguments, if_neg hne, argumentList_eq_intercalate (List.cons_ne_nil a rest),
      List.splitOn_intercalate ',' hcommas (by simp), List.map_map]
    refine (List.map_congr_left fun b _ => ?_).trans (List.map_id _)
    exact String.ofList_toList

/-! ### Lines -/

/-- The fact that a line describes: the name ends at the first parenthesis, the list of arguments at
the first one that closes, and the description stands behind a colon and a blank. -/
def BaseFact.ofLine (line : List Char) : BaseFact :=
  let rest := (line.dropWhile (· != '(')).tail
  ⟨String.ofList (line.takeWhile (· != '(')), readArguments (rest.takeWhile (· != ')')),
    String.ofList ((rest.dropWhile (· != ')')).drop 3)⟩

theorem BaseFact.toList_line (f : BaseFact) :
    f.line.toList = f.name.toList ++ '(' :: (argumentList f.arguments ++
      ')' :: ':' :: ' ' :: f.description.toList) := by
  simp [line, argumentList]

/-- **A legible fact is read back from its line.** -/
theorem BaseFact.ofLine_line {f : BaseFact} (h : f.IsLegible) : ofLine f.line.toList = f := by
  have hlist : ')' ∉ argumentList f.arguments :=
    not_mem_argumentList (by decide) fun a ha => (h.arguments a ha).2.1
  have hcommas : ∀ a ∈ f.arguments, ',' ∉ a.toList := fun a ha => (h.arguments a ha).1
  obtain ⟨hname, hrest⟩ := takeWhile_dropWhile_of_not_mem h.name.1
    (r := argumentList f.arguments ++ ')' :: ':' :: ' ' :: f.description.toList)
  obtain ⟨harguments, hdescription⟩ := takeWhile_dropWhile_of_not_mem hlist
    (r := ':' :: ' ' :: f.description.toList)
  rw [ofLine, toList_line]
  simp only [hname, hrest, List.tail_cons, harguments, hdescription, List.drop_succ_cons,
    List.drop_zero, String.ofList_toList, readArguments_argumentList hcommas]

theorem BaseFact.IsLegible.not_mem_line {f : BaseFact} (h : f.IsLegible) :
    '\n' ∉ f.line.toList := by
  have hlist : '\n' ∉ argumentList f.arguments :=
    not_mem_argumentList (by decide) fun a ha => (h.arguments a ha).2.2
  rw [BaseFact.toList_line]
  simp [h.name.2, hlist, h.description]

/-! ### Catalogues -/

/-- The lines of a text. -/
def linesOf (text : String) : List String := (text.toList.splitOn '\n').map String.ofList

/-- The catalogue that a text describes; the empty text describes the empty one. -/
def readCatalogue (text : String) : List BaseFact :=
  if text = "" then [] else (linesOf text).map fun line => BaseFact.ofLine line.toList

/-- The description of legible facts has a line for each of them. -/
theorem linesOf_describe {facts : List BaseFact} (hne : facts ≠ [])
    (h : ∀ f ∈ facts, f.IsLegible) :
    linesOf (describeCatalogue facts) = facts.map BaseFact.line := by
  have htext : (describeCatalogue facts).toList =
      ['\n'].intercalate ((facts.map BaseFact.line).map String.toList) :=
    String.toList_intercalate
  have hlines : ∀ l ∈ (facts.map BaseFact.line).map String.toList, '\n' ∉ l := by
    intro l hl
    rw [List.map_map] at hl
    obtain ⟨f, hf, rfl⟩ := List.mem_map.mp hl
    exact (h f hf).not_mem_line
  rw [linesOf, htext, List.splitOn_intercalate '\n' hlines (by simpa using hne), List.map_map]
  refine (List.map_congr_left fun line _ => ?_).trans (List.map_id _)
  exact String.ofList_toList

theorem describeCatalogue_ne {facts : List BaseFact} (hne : facts ≠ [])
    (h : ∀ f ∈ facts, f.IsLegible) : describeCatalogue facts ≠ "" := by
  intro hempty
  have hlines := linesOf_describe hne h
  rw [hempty] at hlines
  obtain ⟨f, rest, rfl⟩ := List.exists_cons_of_ne_nil hne
  have hline : "" = f.line := (List.cons.inj hlines).1
  have := congrArg String.toList hline
  rw [BaseFact.toList_line] at this
  simp at this

/-- **A catalogue of legible facts is read back from its description.** -/
theorem readCatalogue_describe {facts : List BaseFact} (h : ∀ f ∈ facts, f.IsLegible) :
    readCatalogue (describeCatalogue facts) = facts := by
  by_cases hne : facts = []
  · rw [hne]
    rfl
  · rw [readCatalogue, if_neg (describeCatalogue_ne hne h), linesOf_describe hne h, List.map_map]
    refine (List.map_congr_left fun f hf => ?_).trans (List.map_id _)
    exact BaseFact.ofLine_line (h f hf)

/-- **The description of a catalogue is faithful.** For facts whose parts do not hold the characters
that end them, two catalogues have the same description only if they are the same, fact by fact and
argument by argument, and the description of a catalogue that is not empty has one line for each
fact, in order. -/
theorem describeCatalogue_faithful {facts : List BaseFact} (h : ∀ f ∈ facts, f.IsLegible) :
    (∀ others : List BaseFact, (∀ f ∈ others, f.IsLegible) →
      (describeCatalogue facts = describeCatalogue others ↔ facts = others)) ∧
    (facts ≠ [] → linesOf (describeCatalogue facts) = facts.map BaseFact.line) := by
  refine ⟨fun others hothers => ⟨fun htext => ?_, congrArg describeCatalogue⟩,
    fun hne => linesOf_describe hne h⟩
  rw [← readCatalogue_describe h, htext, readCatalogue_describe hothers]

/-- Facts without a name, without arguments, with an empty argument and with one that has a marker
of its own, and a description that looks like the end of a list. -/
theorem describeCatalogue_faithful_blanks :
    let facts : List BaseFact := [⟨"", [], "x): y"⟩, ⟨"p", [], ""⟩, ⟨"p", ["", "?H", " P"], ","⟩]
    let others : List BaseFact := [⟨"", [], "x): y"⟩, ⟨"p", [""], ""⟩, ⟨"p", ["", "?H", "P"], ","⟩]
    (∀ f ∈ facts, f.IsLegible) ∧ (∀ f ∈ others, f.IsLegible) ∧
      describeCatalogue facts ≠ describeCatalogue others ∧
      linesOf (describeCatalogue facts) = ["(): x): y", "p(): ", "p(?, ??H, ? P): ,"] := by
  intro facts others
  have hfacts : ∀ f ∈ facts, f.IsLegible := by decide
  have hothers : ∀ f ∈ others, f.IsLegible := by decide
  obtain ⟨hiff, hlines⟩ := describeCatalogue_faithful hfacts
  refine ⟨hfacts, hothers, fun htext => ?_, (hlines (by decide)).trans (by decide)⟩
  exact absurd ((hiff others hothers).mp htext) (by decide)

/-- A line break in a description makes one fact look like two. -/
example : describeCatalogue [⟨"p", [], "a\nq(): b"⟩] =
    describeCatalogue [⟨"p", [], "a"⟩, ⟨"q", [], "b"⟩] := by
  decide

end DatalogIntake

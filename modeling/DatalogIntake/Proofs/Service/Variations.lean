import DatalogIntake.Proofs.Json.RoundTrip
import DatalogIntake.Proofs.Service.Refusals
import DatalogIntake.Proofs.Shape.Variation
import DatalogIntake.Service.Payload
import DatalogIntake.Stream.Candidate

/-!
# Variations of payloads

The service is free to write the members of an object in any order, and to add members that were not
asked for. None of this is seen: a check by any of its shapes, the decoding of a candidate and the
reading of a response have the same outcome for two payloads that differ in this way only.

* `hasDistinctNames_of_mem_serviceShapes`: no shape of the service declares two fields with one
  name.
* `variations_unseen`: the outcomes are the same, the errors with all that they say included. -/

namespace DatalogIntake

theorem hasDistinctNames_of_mem_serviceShapes :
    ∀ shape ∈ serviceShapes, shape.hasDistinctNames = true := by decide +kernel

/-! ### From values to texts -/

/-- Texts of values that are checked alike are decoded alike. -/
theorem Shape.decode_congr {shape : Shape} {v w : Json} (h : shape.check v = shape.check w)
    {room more : Nat} {t u : List Char} (ht : Json.ofChars? room t = .ok v)
    (hu : Json.ofChars? more u = .ok w) : shape.decode room t = shape.decode more u := by
  rw [Shape.decode, Shape.decode, ht, hu]
  simp only [h]

theorem programOfResponse?_congr {v w : Json} (h : programShape.check v = programShape.check w)
    {room more : Nat} {t u : String} (ht : Json.ofText? room t = .ok v)
    (hu : Json.ofText? more u = .ok w) : programOfResponse? room t = programOfResponse? more u := by
  have hvalue : programOfValue? v = programOfValue? w := by rw [programOfValue?, programOfValue?, h]
  rw [programOfResponse?_eq_bind, programOfResponse?_eq_bind, readResponse_of_ofText? ht,
    readResponse_of_ofText? hu]
  exact hvalue

theorem catalogueOfResponse?_congr {v w : Json}
    (h : catalogueShape.check v = catalogueShape.check w) {room more : Nat} {t u : String}
    (ht : Json.ofText? room t = .ok v) (hu : Json.ofText? more u = .ok w) :
    catalogueOfResponse? room t = catalogueOfResponse? more u := by
  have hvalue : catalogueOfValue? v = catalogueOfValue? w := by
    rw [catalogueOfValue?, catalogueOfValue?, h]
  rw [catalogueOfResponse?_eq_bind, catalogueOfResponse?_eq_bind, readResponse_of_ofText? ht,
    readResponse_of_ofText? hu]
  exact hvalue

/-! ### Payloads -/

/-- **The order of members and members that are not declared make no difference.** Two payloads that
differ in these alone, at any depth, carry the same or have the same number of faults by a shape of
the service. Texts that denote them are decoded alike, and as responses they stand for the same
program or the same base facts, or are refused with the same error. -/
theorem variations_unseen {shape : Shape} (hshape : shape ∈ serviceShapes) {v w : Json}
    (h : shape.Varies v w) :
    shape.check v = shape.check w ∧
    (∀ room more t u, Json.ofChars? room t = .ok v → Json.ofChars? more u = .ok w →
      shape.decode room t = shape.decode more u) ∧
    (shape = programShape → ∀ room more t u, Json.ofText? room t = .ok v →
      Json.ofText? more u = .ok w → programOfResponse? room t = programOfResponse? more u) ∧
    (shape = catalogueShape → ∀ room more t u, Json.ofText? room t = .ok v →
      Json.ofText? more u = .ok w → catalogueOfResponse? room t = catalogueOfResponse? more u) := by
  have hcheck := h.check_eq (hasDistinctNames_of_mem_serviceShapes shape hshape)
  refine ⟨hcheck, fun room more t u => Shape.decode_congr hcheck, ?_, ?_⟩
  · rintro rfl room more t u ht hu
    exact programOfResponse?_congr hcheck ht hu
  · rintro rfl room more t u ht hu
    exact catalogueOfResponse?_congr hcheck ht hu

/-- The rule of a program with one comparison. -/
def ruleComparing (comparison : List (String × Json)) : Json :=
  .obj [("name", .str "r"), ("naturalLanguageGoal", .str "g"),
    ("ruleHead", .obj [("predicate", .str "p"), ("headArguments", .arr [])]),
    ("ruleBody", .arr [.obj comparison])]

/-- A comparison with an object for its value is refused. It is so with the members of the program
in the other order, with a member more in the comparison, which only an atom has, and with one in
the object that stands for the value. -/
theorem variations_unseen_comparison :
    let comparing (value : List (String × Json)) : List (String × Json) :=
      [("type", .str "comparison"), ("variable", .str "?X"), ("operator", .str "<"),
        ("value", .obj value)]
    let v : Json := .obj [("rules", .arr [ruleComparing (comparing [])]), ("queries", .arr [])]
    let w : Json := .obj [("queries", .arr []),
      ("rules", .arr [ruleComparing (comparing [("k", .null)] ++ [("args", .arr [])])])]
    programShape ∈ serviceShapes ∧ programShape.Varies v w ∧
      programShape.check v = programShape.check w ∧
      Json.ofText? 6 (v.toText .line) = .ok v ∧ Json.ofText? 6 (w.toText .line) = .ok w ∧
      programOfResponse? 6 (v.toText .line) = programOfResponse? 6 (w.toText .line) := by
  intro comparing v w
  have hshape : programShape ∈ serviceShapes := by simp [serviceShapes]
  have within {a b : List (String × Json)} (h : Edit (some clauseShape) (.obj a) (.obj b)) :
      Edit (some programShape)
        (.obj [("queries", .arr []), ("rules", .arr [ruleComparing a])])
        (.obj [("queries", .arr []), ("rules", .arr [ruleComparing b])]) := by
    have hbody : Edit (some (.list clauseShape)) (.arr [.obj a]) (.arr [.obj b]) :=
      .item [] [] h
    have hrule : Edit (some ruleShape) (ruleComparing a) (ruleComparing b) :=
      .member [_, _, _] [] hbody
    have hrules : Edit (some (.list ruleShape)) (.arr [ruleComparing a]) (.arr [ruleComparing b]) :=
      .item [] [] hrule
    exact .member [_] [] hrules
  have hvaries : programShape.Varies v w := by
    refine .trans _ _ _ (.rel _ _ (.permute (by decide) (List.Perm.swap _ _ _))) ?_
    refine .trans _ _ _ (.rel _ _ (within (.add _ "args" (.arr []) (by decide) ?_))) ?_
    · decide +kernel
    · refine .rel _ _ (within (.member [_, _, _] [_] ?_))
      exact .add [] "k" .null (by decide) (by decide +kernel)
  have hv : Json.ofText? 6 (v.toText .line) = .ok v := by
    refine Json.ofText?_toText ?_ .line
    simp [v, comparing, ruleComparing, Json.IsReadable, Json.AreReadable, Json.HaveReadable]
  have hw : Json.ofText? 6 (w.toText .line) = .ok w := by
    refine Json.ofText?_toText ?_ .line
    simp [w, comparing, ruleComparing, Json.IsReadable, Json.AreReadable, Json.HaveReadable]
  obtain ⟨hcheck, -, hresponse, -⟩ := variations_unseen hshape hvaries
  exact ⟨hshape, hvaries, hcheck, hv, hw, hresponse rfl 6 6 _ _ hv hw⟩

end DatalogIntake

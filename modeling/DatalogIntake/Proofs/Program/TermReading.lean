import DatalogIntake.Proofs.Binary64.PlainText
import DatalogIntake.Proofs.List.First
import DatalogIntake.Proofs.Program.Core

/-!
# Reading terms in source text

The source of a term tells which term it is, under three conditions (`Term.IsClear`): the name of a
variable starts with a capital letter and goes on as names do, a literal has no quote in it, and a
double is below `10 ^ 16`, so that it is written with a point. `Term.read?` takes such a term off the
front of a text, provided that what follows cannot go on with the term (`EndsTerm`). -/

namespace DatalogIntake

open Json (Numeral readNumeral EndsNumeral NoDigit)

/-! ### Clear terms -/

/-- The name of a variable: a capital letter, then letters, digits and underscores. -/
def Variable.isName (name : String) : Bool :=
  match name.toList with
  | [] => false
  | c :: rest => c.isUpper && rest.all Name.isFollow

theorem Variable.exists_of_isName {name : String} (h : Variable.isName name = true) :
    ∃ c rest, name.toList = c :: rest ∧ c.isUpper = true ∧
      ∀ d ∈ rest, Name.isFollow d = true := by
  unfold Variable.isName at h
  split at h
  · cases h
  · next c rest heq =>
    rw [Bool.and_eq_true, List.all_eq_true] at h
    exact ⟨c, rest, heq, h⟩

/-- A term whose source tells which term it is. -/
def Term.IsClear : Term → Prop
  | .text s =>
    if Variable.isMarked s then Variable.isName (Variable.bare s) = true else '"' ∉ s.toList
  | .int _ => True
  | .double x => x.units < 10 ^ 16 * 2 ^ 1074
  | .bool _ => True

instance : (t : Term) → Decidable t.IsClear
  | .text s => inferInstanceAs (Decidable (if Variable.isMarked s then _ else _))
  | .int _ => inferInstanceAs (Decidable True)
  | .double x => inferInstanceAs (Decidable (x.units < 10 ^ 16 * 2 ^ 1074))
  | .bool _ => inferInstanceAs (Decidable True)

/-- A text that cannot go on with the term before it. -/
structure EndsTerm (r : List Char) : Prop where
  endsNumeral : EndsNumeral r
  endsName : ∀ c ∈ r.head?, Name.isFollow c = false

theorem endsTerm_comma (r : List Char) : EndsTerm (',' :: r) :=
  ⟨.cons (by decide) r, by rintro _ ⟨⟩; rfl⟩

theorem endsTerm_parenthesis (r : List Char) : EndsTerm (')' :: r) :=
  ⟨.cons (by decide) r, by rintro _ ⟨⟩; rfl⟩

theorem endsTerm_point {r : List Char} (hr : NoDigit r) : EndsTerm ('.' :: r) :=
  ⟨.point hr, by rintro _ ⟨⟩; rfl⟩

/-! ### The reader -/

/-- The term that a number literal denotes. -/
def Term.ofNumeral? (n : Numeral) : Option Term :=
  if n.fraction.isEmpty then some (.int (Decimal.toInt n.isNegative n.whole))
  else
    match n.value with
    | .ok (.double (.finite x)) => some (.double x)
    | _ => none

/-- The term at the front of a text, told by its first character. -/
def Term.read? : List Char → Option (Term × List Char)
  | 't' :: 'r' :: 'u' :: 'e' :: rest => some (.bool true, rest)
  | 'f' :: 'a' :: 'l' :: 's' :: 'e' :: rest => some (.bool false, rest)
  | '"' :: rest =>
    some (.text (String.ofList (rest.takeWhile (· != '"'))), (rest.dropWhile (· != '"')).tail)
  | [] => none
  | c :: rest =>
    if c.isUpper then
      some (.text (String.ofList ('?' :: c :: rest.takeWhile Name.isFollow)),
        rest.dropWhile Name.isFollow)
    else
      match readNumeral (c :: rest) with
      | none => none
      | some (n, rest) => (Term.ofNumeral? n).map (·, rest)

theorem isDigit_of_isUpper {c : Char} (hc : c.isUpper = true) : c.isDigit = false := by
  have hupper : 'A'.val ≤ c.val ∧ c.val ≤ 'Z'.val := of_decide_eq_true hc
  rw [Bool.eq_false_iff]
  intro hdigit
  have hle : c.val ≤ '9'.val := of_decide_eq_true (Bool.and_eq_true_iff.mp hdigit).2
  exact absurd (UInt32.le_trans hupper.1 hle) (by decide)

theorem readNumeral_of_isUpper {c : Char} (hc : c.isUpper = true) (s : List Char) :
    readNumeral (c :: s) = none := by
  have hwhole : Json.readWhole (c :: s) = none := by
    rw [Json.readWhole, if_neg (by rintro rfl; exact absurd hc (by decide)),
      if_neg (by rw [isDigit_of_isUpper hc]; exact Bool.false_ne_true)]
  unfold readNumeral
  split
  · next h =>
    obtain ⟨rfl, -⟩ := List.cons.inj h
    exact absurd hc (by decide)
  · dsimp only
    rw [hwhole]

theorem Term.read?_numeral {s r : List Char} {n : Numeral} (h : readNumeral s = some (n, r)) :
    Term.read? s = (Term.ofNumeral? n).map (·, r) := by
  unfold Term.read?
  split
  · cases h
  · cases h
  · cases h
  · cases h
  · next c rest _ _ _ =>
    have hc : ¬c.isUpper = true := fun hc => by
      rw [readNumeral_of_isUpper hc] at h
      cases h
    rw [if_neg hc, h]

theorem Term.read?_text {n : Numeral} {t : Term} (hn : n.IsProper)
    (ht : Term.ofNumeral? n = some t) {r : List Char} (hr : EndsTerm r) :
    Term.read? (n.text ++ r) = some (t, r) := by
  rw [Term.read?_numeral (Json.readNumeral_text hn hr.endsNumeral), ht]
  rfl

theorem Term.read?_variable {c : Char} {rest r : List Char} (hc : c.isUpper = true)
    (hrest : ∀ d ∈ rest, Name.isFollow d = true) (hr : EndsTerm r) :
    Term.read? (c :: rest ++ r) = some (.text (String.ofList ('?' :: c :: rest)), r) := by
  obtain ⟨htake, hdrop⟩ := Json.takeWhile_append_of_head hrest hr.endsName
  rw [List.cons_append]
  unfold Term.read?
  split
  · next h => exact absurd hc (by rw [(List.cons.inj h).1]; decide)
  · next h => exact absurd hc (by rw [(List.cons.inj h).1]; decide)
  · next h => exact absurd hc (by rw [(List.cons.inj h).1]; decide)
  · next h => cases h
  · next h =>
    obtain ⟨rfl, rfl⟩ := List.cons.inj h
    rw [if_pos hc, htake, hdrop]

theorem Term.read?_literal {s r : List Char} (hs : '"' ∉ s) :
    Term.read? ('"' :: (s ++ '"' :: r)) = some (.text (String.ofList s), r) := by
  obtain ⟨htake, hdrop⟩ := takeWhile_dropWhile_of_not_mem (r := r) hs
  rw [Term.read?, htake, hdrop, List.tail_cons]

/-- **A clear term is read off the front of a text.** -/
theorem Term.read?_chars {t : Term} (ht : t.IsClear) {r : List Char} (hr : EndsTerm r) :
    Term.read? (t.chars ++ r) = some (t, r) := by
  cases t with
  | text s =>
    rw [chars, source, textSource]
    rw [IsClear] at ht
    by_cases hs : Variable.isMarked s
    · rw [if_pos hs] at ht ⊢
      obtain ⟨c, rest, hname, hc, hrest⟩ := Variable.exists_of_isName ht
      have hmarked := Variable.toList_of_isMarked hs
      rw [hname, Term.read?_variable hc hrest hr, ← hname, ← hmarked, String.ofList_toList]
    · rw [if_neg hs] at ht ⊢
      have hread := Term.read?_literal (r := r) ht
      rw [String.ofList_toList] at hread
      simpa using hread
  | int n =>
    have htext : (Term.int n).chars = (Numeral.ofInt n).text := by
      rw [Numeral.text_ofInt]
      exact String.toList_ofList
    rw [htext]
    refine Term.read?_text (Numeral.isProper_ofInt n) ?_ hr
    exact congrArg (fun i => some (Term.int i)) (Numeral.toInt_ofInt n)
  | double x =>
    obtain ⟨n, hn, htext, hfraction, hvalue⟩ := Numeral.exists_plainText ht
    have hchars : (Term.double x).chars = n.text := by
      rw [htext]
      exact String.toList_ofList
    rw [hchars]
    refine Term.read?_text hn ?_ hr
    unfold ofNumeral?
    rw [if_neg (by simpa using hfraction), hvalue]
  | bool b =>
    cases b <;> rfl

end DatalogIntake

import DatalogIntake.Proofs.Json.Ascii

/-!
# Texts that a value is written as

A value is written in a layout, with the characters beyond ASCII as they are or escaped
(`IsWrittenAs`). Each of these texts is read as the value (`IsWrittenAs.ofChars?`). Its braces are
those of the objects and those in the strings of the value and in the names of its members; if these
have none, the text of an object is a block (`IsWrittenAs.isBlock`). -/

namespace DatalogIntake

/-! ### Text without braces -/

/-- A text without braces. -/
def IsBraceless (s : List Char) : Prop := ∀ c ∈ s, c ≠ '{' ∧ c ≠ '}'

instance : DecidablePred IsBraceless :=
  List.decidableBAll fun c => c ≠ '{' ∧ c ≠ '}'

theorem isBraceless_append {a b : List Char} :
    IsBraceless (a ++ b) ↔ IsBraceless a ∧ IsBraceless b :=
  List.forall_mem_append

theorem isBraceless_flatMap {α : Type} {l : List α} {f : α → List Char}
    (h : ∀ a ∈ l, IsBraceless (f a)) : IsBraceless (l.flatMap f) := by
  intro c hc
  obtain ⟨a, ha, hc⟩ := List.mem_flatMap.mp hc
  exact h a ha c hc

theorem isBraceless_of_plain {s : List Char} (h : ∀ c ∈ s, Json.IsPlain c) : IsBraceless s :=
  fun c hc => (h c hc).2.2.2

theorem isBraceless_hexDigits (width n : Nat) : IsBraceless (Text.hexDigits width n) := by
  have digit : ∀ d < 16, IsBraceless [Nat.digitChar d] := by decide
  induction width generalizing n with
  | zero => exact fun _ h => absurd h List.not_mem_nil
  | succ width ih => exact isBraceless_append.mpr ⟨ih _, digit _ (Nat.mod_lt _ (by decide))⟩

/-! ### Nesting is a matter of the braces -/

/-- An opening or a closing brace. -/
def isBrace (c : Char) : Bool := c == '{' || c == '}'

theorem excess_filter (s : List Char) : excess (s.filter isBrace) = excess s := by
  rw [excess, excess, List.count_filter rfl, List.count_filter rfl]

/-- Braces nest in a text just when they do in the text of the braces alone. -/
theorem nested_filter_iff {s : List Char} : Nested (s.filter isBrace) ↔ Nested s := by
  constructor
  · intro h
    refine ⟨by rw [← excess_filter, h.even], fun p hp => ?_⟩
    rw [← excess_filter]
    exact h.nonneg _ (hp.filter isBrace)
  · intro h
    refine ⟨by rw [excess_filter, h.even], fun q hq => ?_⟩
    obtain ⟨p, hp, rfl⟩ := List.prefix_filter_iff.mp hq
    rw [excess_filter]
    exact h.nonneg p hp

theorem filter_isBrace_of_braceless {s : List Char} (h : IsBraceless s) :
    s.filter isBrace = [] := by
  rw [List.filter_eq_nil_iff]
  intro c hc
  simp [isBrace, h c hc]

namespace Json

theorem isBraceless_escapeUnit (u : Nat) : IsBraceless (escapeUnit u) :=
  (isBraceless_append (a := ['\\', 'u'])).mpr ⟨by decide, isBraceless_hexDigits 4 u⟩

/-- In ASCII a character is the brace that it was, or none. -/
theorem filter_asciiChar (c : Char) : (asciiChar c).filter isBrace = [c].filter isBrace := by
  unfold asciiChar
  split_ifs with hc
  · rfl
  · have hother : IsBraceless [c] := by
      intro d hd
      obtain rfl := List.mem_singleton.mp hd
      constructor <;> (rintro rfl; exact hc (by decide))
    rw [filter_isBrace_of_braceless hother, filter_isBrace_of_braceless
      (isBraceless_flatMap fun u _ => isBraceless_escapeUnit u)]

/-- **Braces nest in ASCII as they did.** -/
theorem nested_toAscii {s : List Char} (h : Nested s) : Nested (toAscii s) := by
  have hbraces : (toAscii s).filter isBrace = s.filter isBrace := by
    rw [toAscii, List.filter_flatMap, List.flatMap_congr fun c _ => filter_asciiChar c,
      ← List.filter_flatMap, List.flatMap_singleton']
  rw [← nested_filter_iff, hbraces, nested_filter_iff]
  exact h

/-! ### Strings and names -/

mutual

/-- The strings of a value, at any depth. -/
def strings : Json → List String
  | .null => []
  | .bool _ => []
  | .int _ => []
  | .double _ => []
  | .str s => [s]
  | .arr items => stringsOfItems items
  | .obj fields => stringsOfFields fields

/-- The strings of items. -/
def stringsOfItems : List Json → List String
  | [] => []
  | item :: rest => strings item ++ stringsOfItems rest

/-- The strings of the values of fields. -/
def stringsOfFields : List (String × Json) → List String
  | [] => []
  | (_, value) :: rest => strings value ++ stringsOfFields rest

end

mutual

/-- The names of the members of objects in a value, at any depth. -/
def names : Json → List String
  | .null => []
  | .bool _ => []
  | .int _ => []
  | .double _ => []
  | .str _ => []
  | .arr items => namesOfItems items
  | .obj fields => namesOfFields fields

/-- The names in items. -/
def namesOfItems : List Json → List String
  | [] => []
  | item :: rest => names item ++ namesOfItems rest

/-- The names of fields, and those in their values. -/
def namesOfFields : List (String × Json) → List String
  | [] => []
  | (name, value) :: rest => name :: (names value ++ namesOfFields rest)

end

/-! ### Braces of written text -/

/-- Strings that have no braces. -/
def AreBraceless (ss : List String) : Prop := ∀ s ∈ ss, IsBraceless s.toList

instance : DecidablePred AreBraceless :=
  List.decidableBAll fun (s : String) => IsBraceless s.toList

theorem areBraceless_append {a b : List String} :
    AreBraceless (a ++ b) ↔ AreBraceless a ∧ AreBraceless b :=
  List.forall_mem_append

theorem isBraceless_escapeChar {c : Char} (h : c ≠ '{' ∧ c ≠ '}') :
    IsBraceless (escapeChar c) := by
  unfold escapeChar
  split_ifs
  iterate 7 decide
  · exact isBraceless_escapeUnit c.toNat
  · simpa [IsBraceless] using h

theorem isBraceless_writeString {s : String} (h : IsBraceless s.toList) :
    IsBraceless (writeString s) := by
  have hquote : IsBraceless ['"'] := by decide
  have hchars := isBraceless_flatMap (f := escapeChar) fun c hc => isBraceless_escapeChar (h c hc)
  exact isBraceless_append.mpr ⟨isBraceless_append.mpr ⟨hquote, hchars⟩, hquote⟩

theorem isBraceless_text {n : Numeral} (hn : n.IsProper) : IsBraceless n.text := by
  have hread := readNumeral_text hn endsNumeral_nil
  obtain ⟨u, hu, hplain⟩ := readNumeral_takes hread
  rw [List.append_nil, List.append_nil] at hu
  exact hu ▸ isBraceless_of_plain hplain

theorem isBraceless_jsonText (x : Binary64) : IsBraceless x.jsonText := by
  match x with
  | .nan => decide
  | .infinite false => decide
  | .infinite true => decide
  | .finite x =>
    obtain ⟨n, hn, htext, -⟩ := Numeral.exists_shortText x
    have htext : n.text = (Binary64.finite x).jsonText := htext
    exact htext ▸ isBraceless_text hn

theorem isBraceless_ofInt (n : Int) : IsBraceless (Decimal.ofInt n) :=
  Numeral.text_ofInt n ▸ isBraceless_text (Numeral.isProper_ofInt n)

theorem isBraceless_newline (layout : Layout) (level : Nat) :
    IsBraceless (layout.newline level) :=
  isBraceless_of_plain fun c hc => isPlain_of_isGap (isGap_of_mem_newline c hc)

theorem isBraceless_separator (layout : Layout) (level : Nat) :
    IsBraceless (layout.separator level) := by
  obtain ⟨g, hsep, hg⟩ := separator_eq layout level
  have hcomma : IsBraceless [','] := by decide
  rw [hsep]
  exact (isBraceless_append (a := [','])).mpr
    ⟨hcomma, isBraceless_of_plain fun c hc => isPlain_of_isGap (hg c hc)⟩

theorem nested_between {a s b : List Char} (ha : IsBraceless a) (hs : Nested s)
    (hb : IsBraceless b) : Nested (a ++ s ++ b) :=
  ((nested_of_plain ha).append hs).append (nested_of_plain hb)

theorem nested_field {name : String} {s : List Char} (hn : IsBraceless name.toList)
    (hs : Nested s) : Nested (writeString name ++ ':' :: ' ' :: s) := by
  have hcolon : IsBraceless [':', ' '] := by decide
  exact (nested_of_plain (isBraceless_writeString hn)).append ((nested_of_plain hcolon).append hs)

mutual

/-- **The braces of a written text nest**, if the strings and the names in the value have none. -/
theorem nested_write (layout : Layout) : (v : Json) → (level : Nat) → AreBraceless v.names →
    AreBraceless v.strings → Nested (write layout level v)
  | .null, _, _, _ => nested_of_plain (show IsBraceless ['n', 'u', 'l', 'l'] by decide)
  | .bool true, _, _, _ => nested_of_plain (show IsBraceless ['t', 'r', 'u', 'e'] by decide)
  | .bool false, _, _, _ => nested_of_plain (show IsBraceless ['f', 'a', 'l', 's', 'e'] by decide)
  | .int n, _, _, _ => nested_of_plain (isBraceless_ofInt n)
  | .double x, _, _, _ => nested_of_plain (isBraceless_jsonText x)
  | .str s, _, _, hs => nested_of_plain (isBraceless_writeString (hs s List.mem_cons_self))
  | .arr [], _, _, _ => nested_of_plain (show IsBraceless ['[', ']'] by decide)
  | .arr (item :: rest), level, hn, hs => by
    obtain ⟨hn, hns⟩ := areBraceless_append.mp hn
    obtain ⟨hs, hss⟩ := areBraceless_append.mp hs
    have hitems := (nested_write layout item (level + 1) hn hs).append
      (nested_writeItems layout rest (level + 1) hns hss)
    have hopen : IsBraceless ['['] := by decide
    have hclose : IsBraceless [']'] := by decide
    have hall := nested_between
      (isBraceless_append.mpr ⟨hopen, isBraceless_newline layout (level + 1)⟩) hitems
      (isBraceless_append.mpr ⟨isBraceless_newline layout level, hclose⟩)
    simpa [write] using hall
  | .obj fields, level, hn, hs => by
    obtain ⟨u, hu, hnested⟩ := exists_write_obj layout fields level hn hs
    exact hu ▸ hnested.braced

/-- A written object is text that nests, in braces. -/
theorem exists_write_obj (layout : Layout) : (fields : List (String × Json)) → (level : Nat) →
    AreBraceless (namesOfFields fields) → AreBraceless (stringsOfFields fields) →
    ∃ u, write layout level (.obj fields) = '{' :: u ++ ['}'] ∧ Nested u
  | [], _, _, _ => ⟨[], rfl, nested_nil⟩
  | (name, value) :: rest, level, hn, hs => by
    obtain ⟨hname, hn⟩ := List.forall_mem_cons.mp hn
    obtain ⟨hn, hns⟩ := areBraceless_append.mp hn
    obtain ⟨hs, hss⟩ := areBraceless_append.mp hs
    have hfirst := nested_field hname (nested_write layout value (level + 1) hn hs)
    have hrest := nested_writeFields layout rest (level + 1) hns hss
    refine ⟨_, ?_, nested_between (isBraceless_newline layout (level + 1))
      (hfirst.append hrest) (isBraceless_newline layout level)⟩
    simp [write]

theorem nested_writeItems (layout : Layout) : (items : List Json) → (level : Nat) →
    AreBraceless (namesOfItems items) → AreBraceless (stringsOfItems items) →
    Nested (writeItems layout level items)
  | [], _, _, _ => nested_nil
  | item :: rest, level, hn, hs => by
    obtain ⟨hn, hns⟩ := areBraceless_append.mp hn
    obtain ⟨hs, hss⟩ := areBraceless_append.mp hs
    exact ((nested_of_plain (isBraceless_separator layout level)).append
      (nested_write layout item level hn hs)).append (nested_writeItems layout rest level hns hss)

theorem nested_writeFields (layout : Layout) : (fields : List (String × Json)) → (level : Nat) →
    AreBraceless (namesOfFields fields) → AreBraceless (stringsOfFields fields) →
    Nested (writeFields layout level fields)
  | [], _, _, _ => nested_nil
  | (name, value) :: rest, level, hn, hs => by
    obtain ⟨hname, hn⟩ := List.forall_mem_cons.mp hn
    obtain ⟨hn, hns⟩ := areBraceless_append.mp hn
    obtain ⟨hs, hss⟩ := areBraceless_append.mp hs
    have hfirst := nested_field hname (nested_write layout value level hn hs)
    have hrest := nested_writeFields layout rest level hns hss
    have hall := ((nested_of_plain (isBraceless_separator layout level)).append hfirst).append hrest
    simpa [writeFields] using hall

end

/-! ### The texts of a value -/

/-- A text that a value is written as: in a layout, with the characters beyond ASCII as they are or
escaped. -/
inductive IsWrittenAs (v : Json) : List Char → Prop
  | plain (layout : Layout) : IsWrittenAs v (write layout 0 v)
  | ascii (layout : Layout) : IsWrittenAs v (toAscii (write layout 0 v))

/-- **Each text that a value is written as is read as the value.** -/
theorem IsWrittenAs.ofChars? {v : Json} {u : List Char} {room : Nat} (h : v.IsWrittenAs u)
    (hv : v.IsReadable room) : Json.ofChars? room u = .ok v := by
  have hplain : ∀ layout, Json.ofChars? room (write layout 0 v) = .ok v := by
    intro layout
    have hread := ofText?_toText hv layout
    rwa [ofText?, toText, String.toList_ofList] at hread
  cases h with
  | plain layout => exact hplain layout
  | ascii layout => exact ofChars?_toAscii (hplain layout)

/-- **A text that an object is written as is a block**, if the strings and the names in the object
have no braces. -/
theorem IsWrittenAs.isBlock {fields : List (String × Json)} {u : List Char}
    (h : (obj fields).IsWrittenAs u) (hn : AreBraceless (obj fields).names)
    (hs : AreBraceless (obj fields).strings) : IsBlock u := by
  cases h with
  | plain layout =>
    obtain ⟨u, hu, hnested⟩ := exists_write_obj layout fields 0 hn hs
    exact hu ▸ hnested.block
  | ascii layout =>
    obtain ⟨u, hu, hnested⟩ := exists_write_obj layout fields 0 hn hs
    rw [hu, List.cons_append, toAscii_cons (by decide), toAscii_append]
    exact (nested_toAscii hnested).block

end Json

end DatalogIntake

import Mathlib.Algebra.Group.Nat.Even
import Mathlib.Data.List.DropRight
import TreeFormat.Proofs.Print.Exposure
import TreeFormat.Proofs.Print.Locality

/-!
# Quotes around strings

A string is printed between quotes that depend on nothing but its interpolations: double
ones if there are any, and single ones otherwise.  The texts between them are written as
they are, so nothing escapes a quote in them.

A reader goes from the opening quote to the first quote without a backslash that escapes it.
It finds the closing one, and not an earlier one, if and only if every quote of the kind in
the texts comes escaped, and no text leaves a backslash over (`Node.string_delimited`).
-/

namespace TreeFormat

/-- What a reader comes to between the quotes of a string. -/
inductive StringUnit where
  | char (character : Char)
  /-- An interpolation as a whole. -/
  | interpolation (child : Node)
  deriving DecidableEq

namespace StringUnit

/-- The characters that a unit is printed as. -/
def chars : StringUnit → List Char
  | char character => [character]
  | interpolation child =>
    match child.print.result with
    | .ok doc => doc.chars
    | .error _ => []

/-- Reads up to the first quote that is not escaped and gives what is behind it.  A
backslash takes the next character with it.  There is nothing behind a string that does not
end, and an interpolation cannot be escaped. -/
def readString (quote : Char) : Bool → List StringUnit → Option (List StringUnit)
  | _, [] => none
  | true, char _ :: units => readString quote false units
  | true, interpolation _ :: _ => none
  | false, char character :: units =>
    if character = '\\' then readString quote true units
    else if character = quote then some units
    else readString quote false units
  | false, interpolation _ :: units => readString quote false units

/-- The number of backslashes at the end. -/
def backslashes (front : List StringUnit) : Nat :=
  (front.rtakeWhile (· = char '\\')).length

/-- Behind some units, every quote has an odd number of backslashes in front of it, and no
backslash is left over at an interpolation or at the end. -/
structure EscapedBehind (front : List StringUnit) (quote : Char) (units : List StringUnit) :
    Prop where
  quotes : ∀ before after, units = before ++ char quote :: after →
    ¬ Even (backslashes (front ++ before))
  interpolations : ∀ before child after, units = before ++ interpolation child :: after →
    Even (backslashes (front ++ before))
  last : Even (backslashes (front ++ units))

/-- Every quote among the units is escaped, and every backslash escapes a character. -/
def Escaped (quote : Char) (units : List StringUnit) : Prop :=
  EscapedBehind [] quote units

end StringUnit

/-- A slot of a string holds nothing, a text, or an interpolation. -/
inductive Slot.IsStringPart : Slot → Prop where
  | absent : IsStringPart .absent
  | content (text : String) : IsStringPart (.node (.leaf (.scanner .tstringContent) text))
  | interpolation {child : Node} (hkind : child.kind = .parser .stringEmbexpr) :
      IsStringPart (.node child)

/-- The units of a slot of a string. -/
def Slot.stringUnits : Slot → List StringUnit
  | .node child =>
    if child.kind = .parser .stringEmbexpr then [.interpolation child]
    else (child.literal?.getD "").toList.map .char
  | _ => []

namespace Node

/-- The quote around a string. -/
def quote (node : Node) : Char :=
  if node.slots.any Print.isInterpolation then '"' else '\''

/-- The units between the quotes of a string. -/
def stringUnits (node : Node) : List StringUnit :=
  node.slots.flatMap Slot.stringUnits

end Node

namespace StringUnit

variable {quote : Char}

@[simp] theorem backslashes_nil : backslashes [] = 0 := by
  rfl

@[simp] theorem backslashes_concat (front : List StringUnit) (last : StringUnit) :
    backslashes (front ++ [last]) = if last = char '\\' then backslashes front + 1 else 0 := by
  unfold backslashes
  by_cases hlast : last = char '\\'
  · rw [List.rtakeWhile_concat_pos _ _ _ (by simpa using hlast), if_pos hlast,
      List.length_append, List.length_singleton]
  · rw [List.rtakeWhile_concat_neg _ _ _ (by simpa using hlast), if_neg hlast, List.length_nil]

theorem escapedBehind_nil {front : List StringUnit} :
    EscapedBehind front quote [] ↔ Even (backslashes front) := by
  constructor
  · intro hescaped
    simpa using hescaped.last
  · intro heven
    exact ⟨by simp, by simp, by simpa using heven⟩

/-- What the first unit asks for, and what the others do. -/
theorem escapedBehind_cons {front units : List StringUnit} {unit : StringUnit} :
    EscapedBehind front quote (unit :: units) ↔
      (unit = char quote → ¬ Even (backslashes front)) ∧
        (∀ child, unit = interpolation child → Even (backslashes front)) ∧
          EscapedBehind (front ++ [unit]) quote units := by
  constructor
  · intro hescaped
    refine ⟨?_, ?_, ?_, ?_, ?_⟩
    · rintro rfl
      simpa using hescaped.quotes [] units rfl
    · rintro child rfl
      simpa using hescaped.interpolations [] child units rfl
    · rintro before after rfl
      simpa using hescaped.quotes (unit :: before) after rfl
    · rintro before child after rfl
      simpa using hescaped.interpolations (unit :: before) child after rfl
    · simpa using hescaped.last
  · rintro ⟨hquote, hinterpolation, hrest⟩
    refine ⟨?_, ?_, by simpa using hrest.last⟩
    · intro before after hsplit
      cases before with
      | nil =>
          obtain ⟨rfl, -⟩ := List.cons.inj hsplit
          simpa using hquote rfl
      | cons first before =>
          obtain ⟨rfl, hunits⟩ := List.cons.inj hsplit
          simpa using hrest.quotes before after hunits
    · intro before child after hsplit
      cases before with
      | nil =>
          obtain ⟨rfl, -⟩ := List.cons.inj hsplit
          simpa using hinterpolation child rfl
      | cons first before =>
          obtain ⟨rfl, hunits⟩ := List.cons.inj hsplit
          simpa using hrest.interpolations before child after hunits

/-- A reader that has come past some units knows whether they leave a backslash over. -/
theorem readString_iff
    (hquote : quote ≠ '\\') (front units : List StringUnit) :
    readString quote (decide ¬ Even (backslashes front)) (units ++ [char quote]) = some [] ↔
      EscapedBehind front quote units := by
  induction units generalizing front with
  | nil =>
      rw [escapedBehind_nil]
      by_cases heven : Even (backslashes front)
      · simp [heven, readString, hquote]
      · simp [heven, readString]
  | cons unit units ih =>
      have hrest := ih (front ++ [unit])
      rw [escapedBehind_cons, ← hrest]
      by_cases heven : Even (backslashes front)
      · cases unit with
        | char character =>
            by_cases hbackslash : character = '\\'
            · simp [heven, readString, hbackslash, hquote.symm, Nat.even_add_one]
            · by_cases hends : character = quote
              · simp [heven, readString, hends, hquote]
              · simp [heven, readString, hbackslash, hends]
        | interpolation child => simp [heven, readString]
      · cases unit with
        | char character =>
            by_cases hbackslash : character = '\\'
            · simp [heven, readString, hbackslash, Nat.even_add_one]
            · simp [heven, readString, hbackslash]
        | interpolation child => simp [heven, readString]

/-- A string ends at its closing quote, and not before, if and only if its units are
escaped. -/
theorem readString_eq_some_nil_iff
    (hquote : quote ≠ '\\') (units : List StringUnit) :
    readString quote false (units ++ [char quote]) = some [] ↔ Escaped quote units :=
  readString_iff hquote [] units

end StringUnit

namespace Print

open Doc (join text concat hardLine literalLine line nil)
open Walk (Visits)

theorem quote_ne_backslash (node : Node) : node.quote ≠ '\\' := by
  unfold Node.quote
  split <;> decide

theorem toString_quote (node : Node) :
    (if node.slots.any isInterpolation then "\"" else "'") = String.ofList [node.quote] := by
  unfold Node.quote
  split <;> rfl

theorem chars_of_stringUnits
    {slots : List Slot} {docs : List Doc} (hparts : ∀ slot ∈ slots, slot.IsStringPart)
    (hdocs : Visits (fun child doc => child.print.result = .ok doc) slots docs) :
    docs.flatMap Doc.chars = (slots.flatMap Slot.stringUnits).flatMap StringUnit.chars := by
  induction hdocs with
  | nil => rfl
  | @node child items doc docs hdoc _ ih =>
      rw [List.forall_mem_cons] at hparts
      rw [List.flatMap_cons, List.flatMap_cons, List.flatMap_append, ih hparts.2]
      congr 1
      cases hparts.1 with
      | content text =>
          cases hdoc
          simp [Slot.stringUnits, Node.literal?, StringUnit.chars, List.flatMap_map]
      | interpolation hkind => simp [Slot.stringUnits, hkind, StringUnit.chars, hdoc]
  | absent _ ih =>
      rw [List.forall_mem_cons] at hparts
      exact ih hparts.2

end Print

open Print Doc in
/-- A string is printed between double quotes if it interpolates and between single quotes
otherwise, with its texts as they are.  It ends at the closing quote, and nowhere before, if
and only if the quotes in its texts are escaped. -/
theorem Node.string_delimited
    {node : Node} {doc : Doc} (hkind : node.kind = .parser .stringContent)
    (hparts : ∀ slot ∈ node.slots, slot.IsStringPart) (hprint : node.print.result = .ok doc) :
    (∃ docs, doc = text (.ofList [node.quote]) ++ concat docs ++ text (.ofList [node.quote]) ∧
      Walk.Visits (fun child part => child.print.result = .ok part) node.slots docs) ∧
    (node.quote = '"' ∧ (∃ slot ∈ node.slots, isInterpolation slot = true) ∨
      node.quote = '\'' ∧ ∀ slot ∈ node.slots, isInterpolation slot = false) ∧
    doc.chars =
      node.quote :: (node.stringUnits.flatMap StringUnit.chars ++ [node.quote]) ∧
    (StringUnit.readString node.quote false (node.stringUnits ++ [.char node.quote]) = some [] ↔
      StringUnit.Escaped node.quote node.stringUnits) := by
  have hmakes := makes_of_print hkind hprint
  cases hmakes with
  | @stringContent quote docs hquote hdocs =>
      obtain ⟨items, hitems, hdocs⟩ := hdocs
      rw [listAt_eq_ok_iff] at hitems
      cases slotAt_nil_eq_ok hitems
      rw [toString_quote] at hquote
      subst hquote
      refine ⟨⟨docs, rfl, hdocs⟩, ?_, ?_,
        StringUnit.readString_eq_some_nil_iff (quote_ne_backslash node) node.stringUnits⟩
      · unfold Node.quote
        by_cases hany : node.slots.any isInterpolation = true
        · rw [if_pos hany]
          exact .inl ⟨rfl, List.any_eq_true.1 hany⟩
        · rw [if_neg hany]
          refine .inr ⟨rfl, ?_⟩
          intro slot hslot
          by_contra hinterpolation
          rw [Bool.not_eq_false] at hinterpolation
          exact hany (List.any_eq_true.2 ⟨slot, hslot, hinterpolation⟩)
      · have hunits := chars_of_stringUnits hparts hdocs
        simp [Node.stringUnits, hunits]

/-- A string that interpolates, with an escaped double quote on either side. -/
theorem Node.string_delimited_interpolated :
    let expression : Node := .branch (.parser .stringEmbexpr)
      [.list [.node (.leaf (.scanner .ident) "x")]]
    let string : Node := .branch (.parser .stringContent) [
      .node (.leaf (.scanner .tstringContent) "\\\""), .absent, .node expression,
      .node (.leaf (.scanner .tstringContent) "\\\\\\\"")]
    ∃ doc, string.print.result = .ok doc ∧ string.quote = '"' ∧
      doc.chars = "\"\\\"#\x7bx\x7d\\\\\\\"\"".toList ∧
      StringUnit.readString '"' false (string.stringUnits ++ [.char '"']) = some [] ∧
      StringUnit.Escaped '"' string.stringUnits := by
  intro expression string
  obtain ⟨doc, hprint⟩ : ∃ doc, string.print.result = .ok doc := ⟨_, rfl⟩
  have hparts : ∀ slot ∈ string.slots, slot.IsStringPart := by
    intro slot hslot
    simp only [string, Node.slots_branch, List.mem_cons, List.not_mem_nil, or_false] at hslot
    rcases hslot with rfl | rfl | rfl | rfl
    · exact .content _
    · exact .absent
    · exact .interpolation rfl
    · exact .content _
  have hends : StringUnit.readString '"' false (string.stringUnits ++ [.char '"']) = some [] := by
    decide +kernel
  obtain ⟨-, -, hchars, hread⟩ := Node.string_delimited rfl hparts hprint
  exact ⟨doc, hprint, rfl, hchars.trans (by decide +kernel), hends, hread.1 hends⟩

/-- A single quote in a string that does not interpolate ends the string. -/
theorem Node.string_cut_short :
    let string : Node := .branch (.parser .stringContent)
      [.node (.leaf (.scanner .tstringContent) "it's")]
    let root : Node := .branch (.parser .program)
      [.list [.node (.branch (.parser .stringLiteral) [.node string])]]
    (root.format {}).result.toOption = some "'it's'\n" ∧ string.quote = '\'' ∧
      "it's".toList = "it".toList ++ string.quote :: "s".toList ∧
      StringUnit.backslashes ("it".toList.map .char) = 0 ∧
      StringUnit.readString string.quote false (string.stringUnits ++ [.char string.quote]) =
        some [.char 's', .char '\''] := by
  intro string root
  exact ⟨by decide +kernel, rfl, rfl, by decide +kernel, by decide +kernel⟩

end TreeFormat

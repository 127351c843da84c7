import Mathlib.Data.List.Forall2

/-!
# Texts drawn from a source

The texts of a printed document are fixed texts of the rules and texts of the tree.
`Print.Draws` relates the texts of a source in their order to texts that are made
of fixed ones and of some of the source, each used at most once and in the same
order.  A derivation labels every text (`Draws.exists_labels`).
-/

namespace TreeFormat

namespace Print

/-- The texts that the rules write on their own. -/
def fixedTexts : List String :=
  ["alias ", " ", ", ", " = ", "(", ")", "\"", "'", "#\x7b", "\x7d", ":", "class ", " < ", "end",
    "module ", "def ", "*", "**", "&"]

/-- Texts that are fixed ones or drawn from a source in its order. -/
inductive Draws : List String → List String → Prop where
  | nil : Draws [] []
  | skip (content : String) {source texts : List String} (hrest : Draws source texts) :
      Draws (content :: source) texts
  | take (content : String) {source texts : List String} (hrest : Draws source texts) :
      Draws (content :: source) (content :: texts)
  | fixed {content : String} {source texts : List String}
      (hfixed : content ∈ fixedTexts) (hrest : Draws source texts) :
      Draws source (content :: texts)

namespace Draws

theorem nothing : ∀ source : List String, Draws source []
  | [] => .nil
  | content :: source => .skip content (nothing source)

theorem append
    {front back first second : List String}
    (hfirst : Draws front first) (hsecond : Draws back second) :
    Draws (front ++ back) (first ++ second) := by
  induction hfirst with
  | nil => exact hsecond
  | skip content _ ih => exact .skip content ih
  | take content _ ih => exact .take content ih
  | fixed hfixed _ ih => exact .fixed hfixed ih

theorem behind
    {source texts : List String} (front : List String) (hdraws : Draws source texts) :
    Draws (front ++ source) texts :=
  append (nothing front) hdraws

theorem split
    {source first second : List String} (hdraws : Draws source (first ++ second)) :
    ∃ front back, source = front ++ back ∧ Draws front first ∧ Draws back second := by
  -- The induction needs the texts as a variable, and cuts the first part short as it goes.
  generalize htexts : first ++ second = texts at hdraws
  induction hdraws generalizing first with
  | nil =>
      obtain ⟨rfl, rfl⟩ := List.append_eq_nil_iff.1 htexts
      exact ⟨[], [], rfl, .nil, .nil⟩
  | skip content _ ih =>
      obtain ⟨front, back, rfl, hfirst, hsecond⟩ := ih htexts
      exact ⟨content :: front, back, rfl, .skip content hfirst, hsecond⟩
  | take content hrest ih =>
      cases first with
      | nil =>
          cases htexts
          exact ⟨[], _, rfl, .nil, .take content hrest⟩
      | cons head first =>
          obtain ⟨rfl, hrest'⟩ := List.cons.inj htexts
          obtain ⟨front, back, rfl, hfirst, hsecond⟩ := ih hrest'
          exact ⟨head :: front, back, rfl, .take head hfirst, hsecond⟩
  | fixed hfixed hrest ih =>
      cases first with
      | nil =>
          cases htexts
          exact ⟨[], _, rfl, .nil, .fixed hfixed hrest⟩
      | cons head first =>
          obtain ⟨rfl, hrest'⟩ := List.cons.inj htexts
          obtain ⟨front, back, rfl, hfirst, hsecond⟩ := ih hrest'
          exact ⟨front, back, rfl, .fixed hfixed hfirst, hsecond⟩

theorem fixedAll
    {front source texts : List String} (hfront : ∀ content ∈ front, content ∈ fixedTexts)
    (hdraws : Draws source texts) : Draws source (front ++ texts) := by
  induction front with
  | nil => exact hdraws
  | cons content front ih =>
      rw [List.forall_mem_cons] at hfront
      exact .fixed hfront.1 (ih hfront.2)

end Draws

/-- Where a text comes from: it is a fixed one, or stands at a position of a source. -/
inductive Label where
  | fixed
  | source (position : Nat)
  deriving DecidableEq, Repr

/-- The position of a label in the source. -/
def Label.position? : Label → Option Nat
  | fixed => .none
  | source position => some position

/-- The label of a text is right. -/
def Label.Explains (source : List String) (text : String) : Label → Prop
  | fixed => text ∈ fixedTexts
  | .source position => source[position]? = some text

/-- The label of a text in a source with one text more at the front. -/
def Label.shift : Label → Label
  | fixed => fixed
  | source position => source (position + 1)

theorem Label.explains_shift
    {source : List String} {text : String} {label : Label} (content : String)
    (hlabel : label.Explains source text) : label.shift.Explains (content :: source) text := by
  cases label with
  | fixed => exact hlabel
  | source position => exact hlabel

theorem Label.filterMap_shift (labels : List Label) :
    (labels.map Label.shift).filterMap Label.position? =
      (labels.filterMap Label.position?).map (· + 1) := by
  induction labels with
  | nil => rfl
  | cons label labels ih =>
      cases label with
      | fixed => exact ih
      | source position => exact congrArg _ ih

theorem Draws.exists_labels
    {source texts : List String} (hdraws : Draws source texts) :
    ∃ labels : List Label,
      List.Forall₂ (fun text label => label.Explains source text) texts labels ∧
      (labels.filterMap Label.position?).Pairwise (· < ·) := by
  induction hdraws with
  | nil => exact ⟨[], .nil, .nil⟩
  | fixed hfixed _ ih =>
      obtain ⟨labels, hlabels, hordered⟩ := ih
      exact ⟨.fixed :: labels, .cons hfixed hlabels, hordered⟩
  | skip content _ ih =>
      obtain ⟨labels, hlabels, hordered⟩ := ih
      refine ⟨labels.map Label.shift, ?_, ?_⟩
      · rw [List.forall₂_map_right_iff]
        exact hlabels.imp fun _ _ => Label.explains_shift content
      · rw [Label.filterMap_shift, List.pairwise_map]
        exact hordered.imp (Nat.succ_lt_succ)
  | take content _ ih =>
      obtain ⟨labels, hlabels, hordered⟩ := ih
      refine ⟨.source 0 :: labels.map Label.shift, ?_, ?_⟩
      · refine .cons rfl ?_
        rw [List.forall₂_map_right_iff]
        exact hlabels.imp fun _ _ => Label.explains_shift content
      · rw [List.filterMap_cons, Label.filterMap_shift]
        simp only [Label.position?, List.pairwise_cons, List.pairwise_map]
        refine ⟨?_, hordered.imp Nat.succ_lt_succ⟩
        intro position hposition
        obtain ⟨earlier, -, rfl⟩ := List.mem_map.1 hposition
        exact Nat.succ_pos earlier

end Print

end TreeFormat

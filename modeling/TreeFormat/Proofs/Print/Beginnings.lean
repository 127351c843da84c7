import TreeFormat.Proofs.Print.Outlines

/-!
# What a node begins with

The first thing that a node prints can be told from the tree: it is the first part of the
outline that is visible, or else the first thing that a child prints
(`Node.first?_of_print`).

It is a text of the tree or of a rule, except where a method, a module or a list of
statements comes first.  These are the only ones that put a line break in front of
everything else (`Node.exists_opener`).
-/

namespace TreeFormat

namespace Node

open Print (Part)

/-- The first visible leaf of a part, if what children begin with is known. -/
def firstOfPart (node : Node) (begins : Node → Option Leaf) : Part → Option Leaf
  | .fixed mark => if mark.isVisible then some mark else none
  | .child path =>
    match node.childAt path with
    | .ok child => begins child
    | .error _ => none

/-- The first visible leaf of several parts. -/
def firstOf (node : Node) (begins : Node → Option Leaf) (parts : List Part) : Option Leaf :=
  parts.findSome? (node.firstOfPart begins)

/-- The first visible leaf of what is printed down to a number of nodes. -/
def firstWithin : Nat → Node → Option Leaf
  | 0, _ => none
  | height + 1, node => node.firstOf (firstWithin height) node.outline

/-- The first visible leaf of what a node prints to. -/
def first? (node : Node) : Option Leaf :=
  node.firstWithin node.height

end Node

namespace Print

variable {prints : Node → Doc → Prop} {node : Node}

theorem firstOf_append (begins : Node → Option Leaf) (parts parts' : List Part) :
    node.firstOf begins (parts ++ parts') =
      (node.firstOf begins parts).or (node.firstOf begins parts') :=
  List.findSome?_append

/-- What fills an outline begins with the first thing in the outline that can be seen. -/
theorem Fills.firstOf
    {begins : Node → Option Leaf} {parts : List Part} {leaves : List Leaf}
    (hbegins : ∀ path child doc, node.childAt path = .ok child → prints child doc →
      begins child = (doc.leaves.filter Leaf.isVisible).head?)
    (hfills : Fills prints node parts leaves) :
    node.firstOf begins parts = (leaves.filter Leaf.isVisible).head? := by
  induction hfills with
  | nil => rfl
  | @fixed parts leaves leaf _ ih =>
      by_cases hvisible : leaf.isVisible = true
      · rw [List.filter_cons_of_pos hvisible]
        simp [Node.firstOf, Node.firstOfPart, hvisible]
      · rw [List.filter_cons_of_neg hvisible, ← ih]
        simp [Node.firstOf, Node.firstOfPart, hvisible]
  | @child path doc parts leaves hdoc _ ih =>
      obtain ⟨child, hchild, hdoc⟩ := hdoc
      have hfirst : node.firstOf begins [.child path] = begins child := by
        simp [Node.firstOf, Node.firstOfPart, hchild]
      rw [List.filter_append, List.head?_append, ← hbegins path child doc hchild hdoc, ← hfirst,
        ← ih]
      exact firstOf_append begins [.child path] parts

end Print

namespace Node

open Print

theorem firstWithin_of_print
    {node : Node} {doc : Doc} (hprint : node.print.result = .ok doc) :
    ∀ height, node.height ≤ height →
      node.firstWithin height = (doc.leaves.filter Leaf.isVisible).head? := by
  refine @Node.print_induction (fun node doc => ∀ height, node.height ≤ height →
    node.firstWithin height = (doc.leaves.filter Leaf.isVisible).head?) ?_ ?_ ?_ node doc hprint
  · intro event content height hheight
    cases height with
    | zero => exact absurd (height_pos _) (Nat.not_lt.2 hheight)
    | succ height =>
        -- A leaf has no children, so it does not matter what these print to.
        exact @Fills.firstOf (fun _ _ => False) _ _ _ _ (by simp) (.text content .nil)
  · intro node hkind height hheight
    cases height with
    | zero => exact absurd (height_pos _) (Nat.not_lt.2 hheight)
    | succ height =>
        have houtline : node.outline = [] := by
          unfold outline
          split
          · next event hparser =>
              rw [hparser] at hkind
              cases hkind
          · next event hscanner =>
              rw [hscanner] at hkind
              cases hkind
          · rfl
        rw [firstWithin, houtline]
        rfl
  · intro node event doc hkind hmakes height hheight
    cases height with
    | zero => exact absurd (height_pos _) (Nat.not_lt.2 hheight)
    | succ height =>
        have houtline : node.outline = node.outlineAs event := by rw [outline, hkind]
        rw [firstWithin, houtline]
        refine Fills.firstOf ?_ hmakes.fills
        intro path child doc hchild hdoc
        have hlower := height_childAt_lt hchild
        exact hdoc height (by omega)

/-- The first visible leaf of what a node prints to is found in the tree. -/
theorem first?_of_print
    {node : Node} {doc : Doc} (hprint : node.print.result = .ok doc) :
    node.first? = (doc.leaves.filter Leaf.isVisible).head? :=
  firstWithin_of_print hprint node.height (Nat.le_refl _)

end Node

/-! ## Where a line break in front comes from -/

/-- Whether the rule of a kind may put a line break in front of everything else. -/
def ParserEvent.opensLine : ParserEvent → Bool
  | .bodyStmt | .methodDef | .moduleDef | .program => true
  | _ => false

namespace Print

variable {node : Node} {part : Part}

/-- A part of an outline is a text, or a child that the rule reads. -/
def Part.IsPlain (paths : List (List Nat)) (part : Part) : Prop :=
  (∃ content, part = .text content) ∨ ∃ path ∈ paths, part = .child path

theorem Part.isPlain_of_mem_row
    {paths : List (List Nat)} {content : String} {entries : List (List Part)}
    (hentries : ∀ entry ∈ entries, ∀ part ∈ entry, part.IsPlain paths)
    (hpart : part ∈ row [.text content] entries) : part.IsPlain paths := by
  obtain ⟨entry, hentry, hpart⟩ := List.mem_flatten.1 hpart
  rcases eq_or_mem_of_mem_intersperse hentry with rfl | hentry
  · exact .inl ⟨content, List.mem_singleton.1 hpart⟩
  · exact hentries entry hentry part hpart

theorem Part.isPlain_of_mem_map
    {paths paths' : List (List Nat)} (hsubset : paths' ⊆ paths)
    (hpart : part ∈ paths'.map .child) : part.IsPlain paths := by
  obtain ⟨path, hpath, rfl⟩ := List.mem_map.1 hpart
  exact .inr ⟨path, hsubset hpath, rfl⟩

theorem Part.isPlain_of_mem_children
    {paths paths' : List (List Nat)} {content : String} (hsubset : paths' ⊆ paths)
    (hpart : part ∈ children [.text content] paths') : part.IsPlain paths := by
  refine isPlain_of_mem_row ?_ hpart
  intro entry hentry part hpart
  obtain ⟨path, hpath, rfl⟩ := List.mem_map.1 hentry
  exact .inr ⟨path, hsubset hpath, List.mem_singleton.1 hpart⟩

theorem isPlain_of_mem_infixParts
    {paths : List (List Nat)} {around : List Part} (hpaths : [[0], [2]] ⊆ paths)
    (haround : ∀ part ∈ around, ∃ content, part = .text content)
    (hpart : part ∈ node.infixParts around) : part.IsPlain paths := by
  unfold Node.infixParts at hpart
  split at hpart
  · simp only [List.mem_cons, List.mem_append, List.not_mem_nil, or_false] at hpart
    rcases hpart with rfl | hpart | rfl | hpart | rfl
    · exact .inr ⟨[0], hpaths (by simp), rfl⟩
    · exact .inl (haround part hpart)
    · exact .inl ⟨_, rfl⟩
    · exact .inl (haround part hpart)
    · exact .inr ⟨[2], hpaths (by simp), rfl⟩
  · cases hpart

theorem isPlain_of_mem_slotParts
    {index : Nat} {slots : List Slot} (hpart : part ∈ Node.slotParts index slots) :
    part.IsPlain (Node.slotPathsFrom index slots) := by
  have hlater : ∀ {paths more : List (List Nat)},
      part.IsPlain paths → part.IsPlain (more ++ paths) :=
    fun hplain => hplain.imp_right fun ⟨path, hpath, hchild⟩ =>
      ⟨path, List.mem_append_right _ hpath, hchild⟩
  induction slots generalizing index with
  | nil => cases hpart
  | cons slot slots ih =>
      cases slot with
      | absent => exact ih hpart
      | token content =>
          rcases List.mem_cons.1 hpart with rfl | hpart
          · exact .inl ⟨content, rfl⟩
          · exact ih hpart
      | node child =>
          rcases List.mem_cons.1 hpart with rfl | hpart
          · exact .inr ⟨[index], List.mem_cons_self, rfl⟩
          · exact @hlater _ [[index]] (ih hpart)
      | list items =>
          rcases List.mem_append.1 hpart with hpart | hpart
          · exact Part.isPlain_of_mem_map (List.subset_append_left _ _) hpart
          · exact hlater (ih hpart)

theorem isPlain_of_mem_params (hpart : part ∈ node.outlineAs .params) :
    part.IsPlain (node.readPathsAs .params) := by
  refine Part.isPlain_of_mem_row ?_ hpart
  intro entry hentry part hpart
  simp only [Node.paramParts, List.mem_append, List.mem_map, or_assoc] at hentry
  simp only [Part.IsPlain, Node.readPathsAs, List.mem_append, Node.optionalParamPaths,
    Node.keywordParamPaths, List.mem_flatMap]
  grind

/-- A rule that does not open with a line break writes texts and children.  The breaks of a
class stand behind its keyword. -/
theorem isPlain_of_mem_outlineAs
    {event : ParserEvent} (hevent : event.opensLine = false) (hclass : event ≠ .classDef)
    (hpart : part ∈ node.outlineAs event) : part.IsPlain (node.readPathsAs event) := by
  have htext : ∀ {content : String} {parts : List Part} {paths : List (List Nat)},
      part ∈ Part.text content :: parts → (part ∈ parts → part.IsPlain paths) →
        part.IsPlain paths := by
    intro content parts paths hpart hparts
    rcases List.mem_cons.1 hpart with rfl | hpart
    · exact .inl ⟨content, rfl⟩
    · exact hparts hpart
  have hlast : ∀ {content : String} {parts : List Part} {paths : List (List Nat)},
      part ∈ parts ++ [Part.text content] → (part ∈ parts → part.IsPlain paths) →
        part.IsPlain paths := by
    intro content parts paths hpart hparts
    rcases List.mem_append.1 hpart with hpart | hpart
    · exact hparts hpart
    · exact .inl ⟨content, List.mem_singleton.1 hpart⟩
  have hchildren : ∀ {paths : List (List Nat)}, part ∈ paths.map .child → part.IsPlain paths :=
    Part.isPlain_of_mem_map (List.Subset.refl _)
  cases event with
  | aliasPair => exact htext hpart (Part.isPlain_of_mem_children (List.Subset.refl _))
  | argsAddBlock =>
      rcases List.mem_append.1 hpart with hpart | hpart
      · exact Part.isPlain_of_mem_children (List.subset_append_left _ _) hpart
      · exact Part.isPlain_of_mem_map (List.subset_append_right _ _) hpart
  | assign => exact Part.isPlain_of_mem_children (List.Subset.refl _) hpart
  | command => exact Part.isPlain_of_mem_children (List.Subset.refl _) hpart
  | binary =>
      refine isPlain_of_mem_infixParts (List.Subset.refl _) ?_ hpart
      intro part hpart
      exact ⟨" ", List.mem_singleton.1 hpart⟩
  | call => exact isPlain_of_mem_infixParts (List.Subset.refl _) (by simp) hpart
  | constRef => exact .inr ⟨[0], List.mem_singleton_self _, List.mem_singleton.1 hpart⟩
  | varRef => exact .inr ⟨[0], List.mem_singleton_self _, List.mem_singleton.1 hpart⟩
  | params => exact isPlain_of_mem_params hpart
  | paren => exact htext hpart fun hpart => hlast hpart isPlain_of_mem_slotParts
  | blockArg => exact htext hpart hchildren
  | kwRestParam => exact htext hpart hchildren
  | restParam => exact htext hpart hchildren
  | symbol => exact htext hpart hchildren
  | stringContent => exact htext hpart fun hpart => hlast hpart hchildren
  | stringEmbexpr => exact htext hpart fun hpart => hlast hpart hchildren
  | stringLiteral => exact hchildren hpart
  | symbolLiteral => exact hchildren hpart
  | varField => exact hchildren hpart
  | vcall => exact hchildren hpart
  | voidStmt => cases hpart
  | classDef => exact absurd rfl hclass
  | bodyStmt => cases hevent
  | methodDef => cases hevent
  | moduleDef => cases hevent
  | program => cases hevent

end Print

namespace Node

open Print

theorem exists_part_of_firstOf
    {node : Node} {begins : Node → Option Leaf} {parts : List Part} {leaf : Leaf}
    (hfirst : node.firstOf begins parts = some leaf) :
    .fixed leaf ∈ parts ∨
      ∃ path child, .child path ∈ parts ∧ node.childAt path = .ok child ∧
        begins child = some leaf := by
  obtain ⟨part, hpart, hleaf⟩ := List.exists_of_findSome?_eq_some hfirst
  cases part with
  | fixed mark =>
      obtain ⟨-, rfl⟩ : mark.isVisible = true ∧ mark = leaf := by
        simpa [firstOfPart] using hleaf
      exact .inl hpart
  | child path =>
      rw [firstOfPart] at hleaf
      cases hchild : node.childAt path with
      | error fault =>
          rw [hchild] at hleaf
          cases hleaf
      | ok child =>
          rw [hchild] at hleaf
          exact .inr ⟨path, child, hpart, hchild, hleaf⟩

/-- Where a node opens with something other than a text, this comes from a method, a module
or a list of statements that is printed with the node. -/
theorem exists_opener
    {height : Nat} {node : Node} {leaf : Leaf} (hfirst : node.firstWithin height = some leaf)
    (htext : leaf.text? = none) :
    ∃ position opener event, node.Reads position ∧ node.nodeAt? position = some opener ∧
      opener.kind = .parser event ∧ event.opensLine = true := by
  have hplain : ∀ {content : String}, leaf ≠ .text content := by
    rintro content rfl
    cases htext
  induction height generalizing node with
  | zero => cases hfirst
  | succ height ih =>
      rw [firstWithin] at hfirst
      cases hkind : node.kind with
      | other name =>
          rw [outline, hkind] at hfirst
          cases hfirst
      | scanner event =>
          rw [outline, hkind] at hfirst
          rcases exists_part_of_firstOf hfirst with hpart | ⟨path, child, hpart, -⟩
          · obtain ⟨content, -, hcontent⟩ := List.mem_map.1 hpart
            exact absurd (Part.fixed.inj hcontent).symm hplain
          · obtain ⟨content, -, hcontent⟩ := List.mem_map.1 hpart
            cases hcontent
      | parser event =>
          rw [outline, hkind] at hfirst
          by_cases hevent : event.opensLine = true
          · exact ⟨[], node, event, .here node, rfl, hkind, hevent⟩
          · rw [Bool.not_eq_true] at hevent
            have hclass : event ≠ .classDef := by
              rintro rfl
              exact hplain (Option.some.inj hfirst).symm
            rcases exists_part_of_firstOf hfirst with hpart | ⟨path, child, hpart, hchild, hbegins⟩
            · rcases isPlain_of_mem_outlineAs hevent hclass hpart with ⟨content, heq⟩ | ⟨_, -, heq⟩
              · exact absurd (Part.fixed.inj heq) hplain
              · cases heq
            · rcases isPlain_of_mem_outlineAs hevent hclass hpart with
                ⟨content, heq⟩ | ⟨_, hpath, heq⟩
              · cases heq
              · cases heq
                obtain ⟨position, opener, event', hreads, hopener, hopens⟩ := ih hbegins
                have hread : path ∈ node.readPaths := by rwa [readPaths, hkind]
                refine ⟨path :: position, opener, event', .inside hread hchild hreads, ?_, hopens⟩
                rw [nodeAt?_cons hchild, hopener]

end Node

end TreeFormat

import TreeFormat.Proofs.Tree.Positions

/-!
# What the rules read

A rule prints some of the nodes in the slots of its node and ignores the others.
`Node.readPaths` lists the slot paths that lead to the ones it prints, in the order
in which they are printed.  That is also their order in the tree
(`Node.readPaths_inOrder`).

`Node.Reads` goes on from there: the positions that printing a tree comes to if it
does not stop on the way.
-/

namespace TreeFormat

namespace Node

/-- The slot paths of the children among the elements of a list at a slot path,
counted from an index. -/
def childPathsFrom (path : List Nat) : Nat → List Slot → List (List Nat)
  | _, [] => []
  | index, .node _ :: items => (path ++ [index]) :: childPathsFrom path (index + 1) items
  | index, _ :: items => childPathsFrom path (index + 1) items

/-- The slot paths of the children in the list at a slot path. -/
def childPaths (node : Node) (path : List Nat) : List (List Nat) :=
  match node.listAt path with
  | .ok items => childPathsFrom path 0 items
  | .error _ => []

/-- A slot path, if something is there. -/
def pathIfPresent (node : Node) (path : List Nat) : List (List Nat) :=
  if node.has path then [path] else []

/-- The slot paths of all children in slots counted from an index, lists
flattened. -/
def slotPathsFrom : Nat → List Slot → List (List Nat)
  | _, [] => []
  | index, .node _ :: slots => [index] :: slotPathsFrom (index + 1) slots
  | index, .list items :: slots => childPathsFrom [index] 0 items ++ slotPathsFrom (index + 1) slots
  | index, _ :: slots => slotPathsFrom (index + 1) slots

/-- The slot paths of optional parameters and their defaults, counted from an
index. -/
def optionalParamPaths (count index : Nat) : List (List Nat) :=
  (List.range' index count).flatMap fun index => [[1, index, 0], [1, index, 1]]

/-- The slot paths of keyword parameters and the defaults they have, counted from an
index. -/
def keywordParamPaths (node : Node) (count index : Nat) : List (List Nat) :=
  (List.range' index count).flatMap fun index =>
    [4, index, 0] :: node.pathIfPresent [4, index, 1]

/-- The slot paths of the children that the rule of a composite kind prints. -/
def readPathsAs (node : Node) : ParserEvent → List (List Nat)
  | .aliasPair | .assign | .command | .stringContent | .stringLiteral | .symbol | .symbolLiteral
  | .varField | .vcall => node.childPaths []
  | .argsAddBlock => node.childPaths [0] ++ node.pathIfPresent [1]
  | .binary | .call => [[0], [2]]
  | .blockArg | .kwRestParam | .restParam => node.pathIfPresent [0]
  | .bodyStmt | .program | .stringEmbexpr => node.childPaths [0]
  | .classDef => [0] :: (node.pathIfPresent [1] ++ [[2]])
  | .constRef | .varRef => [[0]]
  | .methodDef => [[0], [1], [2]]
  | .moduleDef => [[0], [1]]
  | .params =>
    node.childPaths [0] ++ (optionalParamPaths (node.listLength [1]) 0 ++
      (node.pathIfPresent [2] ++ (node.childPaths [3] ++
        (node.keywordParamPaths (node.listLength [4]) 0 ++
          (node.pathIfPresent [5] ++ node.pathIfPresent [6])))))
  | .paren => slotPathsFrom 0 node.slots
  | .voidStmt => []

/-- The slot paths of the children that are printed with a node. -/
def readPaths (node : Node) : List (List Nat) :=
  match node.kind with
  | .parser event => node.readPathsAs event
  | .scanner _ | .other _ => []

/-- The positions that printing a tree comes to. -/
inductive Reads : Node → Position → Prop where
  | here (node : Node) : Reads node []
  | inside {node child : Node} {path : List Nat} {rest : Position}
      (hpath : path ∈ node.readPaths) (hchild : node.childAt path = .ok child)
      (hrest : Reads child rest) : Reads node (path :: rest)

theorem Reads.exists_node
    {root : Node} {position : Position} (hreads : root.Reads position) :
    ∃ node, root.nodeAt? position = some node := by
  induction hreads with
  | here node => exact ⟨node, rfl⟩
  | inside hpath hchild hrest ih =>
      obtain ⟨node, hnode⟩ := ih
      exact ⟨node, by rw [nodeAt?_cons hchild, hnode]⟩

/-! ## Children in lists -/

theorem mem_childPathsFrom
    {path found : List Nat} {index : Nat} {items : List Slot}
    (hfound : found ∈ childPathsFrom path index items) :
    ∃ offset child, found = path ++ [index + offset] ∧ items[offset]? = some (.node child) := by
  induction items generalizing index with
  | nil => simp [childPathsFrom] at hfound
  | cons item items ih =>
      have hrest : found ∈ childPathsFrom path (index + 1) items →
          ∃ offset child, found = path ++ [index + offset] ∧
            (item :: items)[offset]? = some (.node child) := by
        intro hmem
        obtain ⟨offset, child, hpath, hitem⟩ := ih hmem
        refine ⟨offset + 1, child, ?_, hitem⟩
        rw [hpath, Nat.add_assoc, Nat.add_comm 1]
      cases item with
      | node child =>
          rw [childPathsFrom, List.mem_cons] at hfound
          rcases hfound with rfl | hmem
          · exact ⟨0, child, rfl, rfl⟩
          · exact hrest hmem
      | absent => exact hrest hfound
      | token content => exact hrest hfound
      | list inner => exact hrest hfound

theorem childPathsFrom_leftOf
    (path : List Nat) (index : Nat) (items : List Slot) :
    (childPathsFrom path index items).Pairwise LeftOf := by
  induction items generalizing index with
  | nil => exact .nil
  | cons item items ih =>
      cases item with
      | node child =>
          rw [childPathsFrom, List.pairwise_cons]
          refine ⟨?_, ih (index + 1)⟩
          intro later hlater
          obtain ⟨offset, -, rfl, -⟩ := mem_childPathsFrom hlater
          exact (LeftOf.of_lt (by omega) [] []).prepend path
      | absent => exact ih (index + 1)
      | token content => exact ih (index + 1)
      | list inner => exact ih (index + 1)

theorem exists_of_mem_childPaths
    {node : Node} {path found : List Nat} (hfound : found ∈ node.childPaths path) :
    ∃ items offset child, node.listAt path = .ok items ∧ found = path ++ [offset] ∧
      items[offset]? = some (.node child) := by
  unfold childPaths at hfound
  cases hitems : node.listAt path with
  | error fault =>
      rw [hitems] at hfound
      cases hfound
  | ok items =>
      rw [hitems] at hfound
      obtain ⟨offset, child, hpath, hitem⟩ := mem_childPathsFrom hfound
      rw [Nat.zero_add] at hpath
      exact ⟨items, offset, child, rfl, hpath, hitem⟩

theorem childPaths_leftOf (node : Node) (path : List Nat) :
    (node.childPaths path).Pairwise LeftOf := by
  unfold childPaths
  split
  · exact childPathsFrom_leftOf path 0 _
  · exact .nil

theorem childPaths_of_list
    {node : Node} {path : List Nat} {items : List Slot}
    (hlist : node.slotAt path = .ok (.list items)) :
    node.childPaths path = childPathsFrom path 0 items := by
  rw [childPaths, listAt_eq_ok_iff.2 hlist]

theorem childPaths_of_not_has
    {node : Node} {path : List Nat} (hhas : node.has path = false) : node.childPaths path = [] := by
  unfold childPaths
  cases hitems : node.listAt path with
  | error fault => rfl
  | ok items =>
      rw [listAt_eq_ok_iff] at hitems
      simp [has, hitems] at hhas

/-! ## Slots in order -/

/-- Slot paths in tree order that start at or behind a slot. -/
structure InOrderFrom (first : Nat) (paths : List (List Nat)) : Prop where
  leftOf : paths.Pairwise LeftOf
  starts : ∀ path ∈ paths, ∃ slot below, path = slot :: below ∧ first ≤ slot

namespace InOrderFrom

theorem nil (first : Nat) : InOrderFrom first [] :=
  ⟨.nil, by simp⟩

theorem mono
    {first first' : Nat} {paths : List (List Nat)}
    (hpaths : InOrderFrom first' paths) (hfirst : first ≤ first') : InOrderFrom first paths where
  leftOf := hpaths.leftOf
  starts := by
    intro path hpath
    obtain ⟨slot, below, hslot, hle⟩ := hpaths.starts path hpath
    exact ⟨slot, below, hslot, Nat.le_trans hfirst hle⟩

/-- The slot paths that start at one slot, and then those behind the slot. -/
theorem append
    {slot : Nat} {paths rest : List (List Nat)}
    (hpaths : paths.Pairwise LeftOf) (hslot : ∀ path ∈ paths, ∃ below, path = slot :: below)
    (hrest : InOrderFrom (slot + 1) rest) : InOrderFrom slot (paths ++ rest) where
  leftOf := by
    rw [List.pairwise_append]
    refine ⟨hpaths, hrest.leftOf, ?_⟩
    intro path hpath later hlater
    obtain ⟨below, rfl⟩ := hslot path hpath
    obtain ⟨slot', below', rfl, hslot'⟩ := hrest.starts later hlater
    exact LeftOf.of_lt hslot' below below'
  starts := by
    intro path hpath
    rcases List.mem_append.1 hpath with hpath | hpath
    · obtain ⟨below, hbelow⟩ := hslot path hpath
      exact ⟨slot, below, hbelow, Nat.le_refl slot⟩
    · obtain ⟨slot', below', hbelow, hslot'⟩ := hrest.starts path hpath
      exact ⟨slot', below', hbelow, by omega⟩

theorem cons
    {slot : Nat} {rest : List (List Nat)} (hrest : InOrderFrom (slot + 1) rest) :
    InOrderFrom slot ([slot] :: rest) := by
  have hone : ∀ path ∈ [[slot]], ∃ below, path = slot :: below := by simp
  exact append (List.pairwise_singleton _ _) hone hrest

theorem present
    (node : Node) {slot : Nat} {rest : List (List Nat)} (hrest : InOrderFrom (slot + 1) rest) :
    InOrderFrom slot (node.pathIfPresent [slot] ++ rest) := by
  unfold pathIfPresent
  split
  · exact cons hrest
  · exact hrest.mono (Nat.le_succ slot)

theorem children
    (node : Node) {slot : Nat} {rest : List (List Nat)} (hrest : InOrderFrom (slot + 1) rest) :
    InOrderFrom slot (node.childPaths [slot] ++ rest) := by
  refine append (childPaths_leftOf node [slot]) ?_ hrest
  intro path hpath
  obtain ⟨-, offset, -, -, rfl, -⟩ := exists_of_mem_childPaths hpath
  exact ⟨[offset], rfl⟩

/-- Groups of slot paths that start with the elements of the list in a slot. -/
theorem entries
    {slot : Nat} {group : Nat → List (List Nat)} {rest : List (List Nat)}
    (hgroup : ∀ index, InOrderFrom 0 (group index)) (count first : Nat)
    (hrest : InOrderFrom (slot + 1) rest) :
    InOrderFrom slot
      (((List.range' first count).flatMap fun index =>
        (group index).map fun path => slot :: index :: path) ++ rest) := by
  refine append ?_ ?_ hrest
  · induction count generalizing first with
    | zero => exact .nil
    | succ count ih =>
        rw [List.range'_succ, List.flatMap_cons, List.pairwise_append]
        refine ⟨?_, ih (first + 1), ?_⟩
        · rw [List.pairwise_map]
          exact (hgroup first).leftOf.imp fun hleft => hleft.prepend [slot, first]
        · intro path hpath later hlater
          obtain ⟨below, -, rfl⟩ := List.mem_map.1 hpath
          obtain ⟨index, hindex, hlater⟩ := List.mem_flatMap.1 hlater
          obtain ⟨below', -, rfl⟩ := List.mem_map.1 hlater
          have hlt : first < index := by
            rw [List.mem_range'_1] at hindex
            omega
          exact (LeftOf.of_lt hlt below below').prepend [slot]
  · intro path hpath
    obtain ⟨index, -, hpath⟩ := List.mem_flatMap.1 hpath
    obtain ⟨below, -, rfl⟩ := List.mem_map.1 hpath
    exact ⟨index :: below, rfl⟩

end InOrderFrom

theorem slotPathsFrom_inOrder (index : Nat) (slots : List Slot) :
    InOrderFrom index (slotPathsFrom index slots) := by
  induction slots generalizing index with
  | nil => exact .nil index
  | cons slot slots ih =>
      cases slot with
      | node child => exact .cons (ih (index + 1))
      | absent => exact (ih (index + 1)).mono (Nat.le_succ index)
      | token content => exact (ih (index + 1)).mono (Nat.le_succ index)
      | list items =>
          refine .append (childPathsFrom_leftOf [index] 0 items) ?_ (ih (index + 1))
          intro path hpath
          obtain ⟨offset, -, rfl, -⟩ := mem_childPathsFrom hpath
          exact ⟨[0 + offset], rfl⟩

theorem childPaths_nil_inOrder (node : Node) : InOrderFrom 0 (node.childPaths []) where
  leftOf := childPaths_leftOf node []
  starts := by
    intro path hpath
    obtain ⟨-, offset, -, -, rfl, -⟩ := exists_of_mem_childPaths hpath
    exact ⟨offset, [], rfl, Nat.zero_le offset⟩

theorem params_inOrder (node : Node) : InOrderFrom 0 (node.readPathsAs .params) := by
  have hblock : InOrderFrom 6 (node.pathIfPresent [6]) := by
    simpa using InOrderFrom.present node (.nil 7)
  have hkeywordRest := InOrderFrom.present node hblock
  have hkeyword : ∀ index,
      InOrderFrom 0 ([0] :: if node.has [4, index, 1] then [[1]] else []) := by
    intro index
    refine .cons ?_
    split
    · exact .cons (.nil 2)
    · exact .nil 1
  have hkeywords := InOrderFrom.entries hkeyword (node.listLength [4]) 0 hkeywordRest
  have hpost := InOrderFrom.children node hkeywords
  have hrest := InOrderFrom.present node hpost
  have hpair : ∀ _ : Nat, InOrderFrom 0 [[0], [1]] := fun _ => .cons (.cons (.nil 2))
  have hoptional := InOrderFrom.entries hpair (node.listLength [1]) 0 hrest
  have hall := InOrderFrom.children node hoptional
  have hpairs : node.keywordParamPaths (node.listLength [4]) 0 =
      (List.range' 0 (node.listLength [4])).flatMap fun index =>
        ([0] :: if node.has [4, index, 1] then [[1]] else []).map
          fun path => 4 :: index :: path := by
    unfold keywordParamPaths pathIfPresent
    congr 1
    funext index
    split <;> rfl
  rw [readPathsAs, hpairs]
  exact hall

/-- The children that a rule prints stand from left to right. -/
theorem readPathsAs_inOrder (node : Node) (event : ParserEvent) :
    InOrderFrom 0 (node.readPathsAs event) := by
  have hall := childPaths_nil_inOrder node
  have hlist : InOrderFrom 0 (node.childPaths [0]) := by
    simpa using InOrderFrom.children node (.nil 1)
  have hname : InOrderFrom 0 (node.pathIfPresent [0]) := by
    simpa using InOrderFrom.present node (.nil 1)
  have hlast : InOrderFrom 2 [[2]] := .cons (.nil 3)
  have hblock : InOrderFrom 1 (node.pathIfPresent [1]) := by
    simpa using InOrderFrom.present node (.nil 2)
  cases event with
  | argsAddBlock => exact .children node hblock
  | binary => exact .cons (hlast.mono (by decide))
  | call => exact .cons (hlast.mono (by decide))
  | classDef => exact .cons (.present node hlast)
  | constRef => exact .cons (.nil 1)
  | varRef => exact .cons (.nil 1)
  | methodDef => exact .cons (.cons hlast)
  | moduleDef => exact .cons (.cons (.nil 2))
  | params => exact params_inOrder node
  | paren => exact slotPathsFrom_inOrder 0 node.slots
  | voidStmt => exact .nil 0
  | bodyStmt => exact hlist
  | program => exact hlist
  | stringEmbexpr => exact hlist
  | blockArg => exact hname
  | kwRestParam => exact hname
  | restParam => exact hname
  | _ => exact hall

theorem readPaths_inOrder (node : Node) : InOrderFrom 0 node.readPaths := by
  unfold readPaths
  split
  · exact readPathsAs_inOrder node _
  · exact .nil 0
  · exact .nil 0

end Node

end TreeFormat

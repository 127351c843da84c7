import TreeFormat.Proofs.Lists
import TreeFormat.Proofs.Tree.Lookups
import TreeFormat.Tree.Cursor

/-!
# Positions in a tree

A position lists the slot paths on the way down from a node to one of the nodes
below it.  `Node.nodeAt?` finds the node there and `Node.routeTo` writes the way
down.

A cursor that went down step by step stands at such a position, and its frames and
its flat trail amount to the same route (`Cursor.route_below`).  Different
positions of a tree have different routes, whatever the kinds are called
(`Node.routeTo_injective`).

Joined up, the slot paths of a position are its address.  The nodes of a tree in
order, each in front of what is below it, have lexicographically increasing
addresses.
-/

namespace TreeFormat

/-- The slot paths on the way down to a node. -/
abbrev Position := List (List Nat)

namespace Node

/-- The node at a position. -/
def nodeAt? : Node → Position → Option Node
  | node, [] => some node
  | node, path :: rest =>
    match node.childAt path with
    | .ok child => child.nodeAt? rest
    | .error _ => none

/-- The readable way to a position. -/
def routeTo : Node → Position → String
  | node, [] => node.kind.name
  | node, path :: rest =>
    match node.childAt path with
    | .ok child => node.kind.name ++ indexText path ++ " > " ++ child.routeTo rest
    | .error _ => ""

@[simp] theorem nodeAt?_nil (node : Node) : node.nodeAt? [] = some node := rfl

theorem nodeAt?_cons
    {node child : Node} {path : List Nat} (hchild : node.childAt path = .ok child)
    (rest : Position) : node.nodeAt? (path :: rest) = child.nodeAt? rest := by
  rw [nodeAt?, hchild]

theorem routeTo_cons
    {node child : Node} {path : List Nat} (hchild : node.childAt path = .ok child)
    (rest : Position) :
    node.routeTo (path :: rest) =
      node.kind.name ++ indexText path ++ " > " ++ child.routeTo rest := by
  rw [routeTo, hchild]

theorem exists_child_of_nodeAt?_cons
    {node found : Node} {path : List Nat} {rest : Position}
    (hfound : node.nodeAt? (path :: rest) = some found) :
    ∃ child, node.childAt path = .ok child ∧ child.nodeAt? rest = some found := by
  rw [nodeAt?] at hfound
  cases hchild : node.childAt path with
  | error fault =>
      rw [hchild] at hfound
      cases hfound
  | ok child =>
      rw [hchild] at hfound
      exact ⟨child, rfl, hfound⟩

end Node

/-! ## Cursors at positions -/

namespace Cursor

/-- The cursor that goes down to a position below the current node. -/
def below? : Cursor → Position → Option Cursor
  | cursor, [] => some cursor
  | cursor, path :: rest =>
    match cursor.node.childAt path with
    | .ok child => (cursor.descend child path).below? rest
    | .error _ => none

theorem below?_cons
    {cursor : Cursor} {child : Node} {path : List Nat}
    (hchild : cursor.node.childAt path = .ok child) (rest : Position) :
    cursor.below? (path :: rest) = (cursor.descend child path).below? rest := by
  rw [below?, hchild]

/-- Every frame remembers a place inside the trail. -/
def Sound (cursor : Cursor) : Prop :=
  ∀ frame ∈ cursor.frames, frame.start ≤ cursor.trail.length

theorem frames_descend (cursor : Cursor) (child : Node) (path : List Nat) :
    (cursor.descend child path).frames = cursor.frames ++ [⟨child, cursor.trail.length⟩] := by
  simp [frames, descend]

theorem sound_ofRoot (root : Node) : (ofRoot root).Sound := by
  intro frame hframe
  have hroot : frame = ⟨root, 0⟩ := by simpa [frames, ofRoot] using hframe
  rw [hroot]
  exact Nat.zero_le _

theorem Sound.descend
    {cursor : Cursor} (hsound : cursor.Sound) (child : Node) (path : List Nat) :
    (cursor.descend child path).Sound := by
  intro frame hframe
  have hlength : cursor.trail.length ≤ (cursor.descend child path).trail.length := by
    simp [Cursor.descend]
  rw [frames_descend, List.mem_append, List.mem_singleton] at hframe
  rcases hframe with hframe | rfl
  · exact Nat.le_trans (hsound frame hframe) hlength
  · exact hlength

theorem length_runs (trail : List Nat) (frames : List Frame) :
    (runs trail frames).length = frames.length := by
  fun_induction runs trail frames with
  | case1 => rfl
  | case2 frame => rfl
  | case3 frame next rest ih => simpa using ih

/-- A step down adds its slot path to the runs of the trail and leaves the others
as they are. -/
theorem runs_append
    {trail : List Nat} {frames : List Frame}
    (hframes : ∀ frame ∈ frames, frame.start ≤ trail.length)
    (child : Node) (path : List Nat) :
    runs (trail ++ path) (frames ++ [⟨child, trail.length⟩]) = runs trail frames ++ [path] := by
  fun_induction runs trail frames with
  | case1 => simp [runs]
  | case2 frame => simp [runs]
  | case3 frame next rest ih =>
      have hnext : next.start ≤ trail.length := hframes next (by simp)
      have hrest := ih fun frame hframe => hframes frame (List.mem_cons_of_mem _ hframe)
      rw [List.cons_append] at hrest
      simp only [List.cons_append, runs, hrest, List.take_append_of_le_length hnext]

theorem steps_eq (cursor : Cursor) :
    cursor.steps =
      (cursor.above.reverse.map fun frame => frame.node.kind).zip cursor.segments ++
        [(cursor.node.kind, [])] := by
  have hlength :
      (cursor.above.reverse.map fun frame => frame.node.kind).length = cursor.segments.length := by
    simp [segments, length_runs, frames]
  rw [steps, frames, List.reverse_cons, List.map_append, List.zip_append hlength]
  rfl

theorem segments_descend
    {cursor : Cursor} (hsound : cursor.Sound) (child : Node) (path : List Nat) :
    (cursor.descend child path).segments = cursor.segments ++ [path] := by
  have htail : ∀ frame ∈ cursor.frames.tail, frame.start ≤ cursor.trail.length := by
    intro frame hframe
    exact hsound frame (List.mem_of_mem_tail hframe)
  have hframes : cursor.frames ≠ [] := by simp [frames]
  rw [segments, frames_descend, List.tail_append_of_ne_nil hframes]
  exact runs_append htail child path

theorem steps_descend
    {cursor : Cursor} (hsound : cursor.Sound) (child : Node) (path : List Nat) :
    (cursor.descend child path).steps =
      (cursor.above.reverse.map fun frame => frame.node.kind).zip cursor.segments ++
        [(cursor.node.kind, path), (child.kind, [])] := by
  have hlength :
      (cursor.above.reverse.map fun frame => frame.node.kind).length = cursor.segments.length := by
    simp [segments, length_runs, frames]
  rw [steps_eq, segments_descend hsound]
  have habove : (cursor.descend child path).above.reverse.map (fun frame => frame.node.kind) =
      (cursor.above.reverse.map fun frame => frame.node.kind) ++ [cursor.node.kind] := by
    simp [Cursor.descend, node]
  rw [habove, List.zip_append hlength]
  simp

theorem route_descend
    {cursor : Cursor} (hsound : cursor.Sound) (child : Node) (path : List Nat) :
    (cursor.descend child path).route =
      cursor.route ++ indexText path ++ " > " ++ child.kind.name := by
  rw [route, route, steps_descend hsound, steps_eq]
  generalize (cursor.above.reverse.map fun frame => frame.node.kind).zip cursor.segments = above
  have hempty : indexText [] = "" := rfl
  cases above with
  | nil => simp [hempty, String.intercalate_cons_cons, String.append_assoc]
  | cons first above =>
      simp only [List.map_append, List.map_cons, List.map_nil, hempty, String.append_empty]
      rw [String.intercalate_append_of_ne_nil (by simp) (by simp),
        String.intercalate_append_of_ne_nil (by simp) (by simp)]
      simp [String.intercalate_cons_cons, String.append_assoc]

/-- A route ends with the name of the node that it leads to. -/
theorem exists_route_eq (cursor : Cursor) :
    ∃ front, cursor.route = front ++ cursor.node.kind.name := by
  have hempty : indexText [] = "" := rfl
  rw [route, steps_eq]
  generalize (cursor.above.reverse.map fun frame => frame.node.kind).zip cursor.segments = above
  cases above with
  | nil => exact ⟨"", by simp [hempty]⟩
  | cons first above =>
      rw [List.map_append, String.intercalate_append_of_ne_nil (by simp) (by simp)]
      exact ⟨_, by simp [hempty]; rfl⟩

theorem route_ne_empty
    {cursor : Cursor} (hknown : cursor.node.kind.isKnown = true) : cursor.route ≠ "" := by
  obtain ⟨front, hroute⟩ := cursor.exists_route_eq
  rw [hroute]
  intro hempty
  exact Kind.name_ne_empty hknown (String.append_eq_empty_iff.1 hempty).2

/-- A cursor that went down from another one has the way between them behind the
route of the other one. -/
theorem route_below
    {cursor lower : Cursor} {position : Position} (hsound : cursor.Sound)
    (hlower : cursor.below? position = some lower) {front : String}
    (hroute : cursor.route = front ++ cursor.node.kind.name) :
    lower.route = front ++ cursor.node.routeTo position := by
  induction position generalizing cursor front with
  | nil =>
      cases hlower
      rw [hroute, Node.routeTo]
  | cons path rest ih =>
      cases hchild : cursor.node.childAt path with
      | error fault => simp [below?, hchild] at hlower
      | ok child =>
          rw [below?_cons hchild] at hlower
          have hstep : (cursor.descend child path).route =
              (front ++ cursor.node.kind.name ++ indexText path ++ " > ") ++
                (cursor.descend child path).node.kind.name := by
            rw [route_descend hsound, hroute]
            rfl
          rw [ih (hsound.descend child path) hlower hstep, Node.routeTo_cons hchild]
          simp [String.append_assoc]

theorem route_ofRoot (root : Node) : (ofRoot root).route = root.kind.name := by
  simp [route, steps, segments, frames, runs, ofRoot, indexText]

theorem route_below_root
    {root : Node} {lower : Cursor} {position : Position}
    (hlower : (ofRoot root).below? position = some lower) :
    lower.route = root.routeTo position := by
  have hroot : (ofRoot root).route = "" ++ (ofRoot root).node.kind.name := by
    rw [route_ofRoot, String.empty_append]
    rfl
  rw [route_below (sound_ofRoot root) hlower hroot, String.empty_append]
  rfl

theorem node_below
    {cursor lower : Cursor} {position : Position}
    (hlower : cursor.below? position = some lower) :
    cursor.node.nodeAt? position = some lower.node := by
  induction position generalizing cursor with
  | nil =>
      cases hlower
      rfl
  | cons path rest ih =>
      cases hchild : cursor.node.childAt path with
      | error fault => simp [below?, hchild] at hlower
      | ok child =>
          rw [below?_cons hchild] at hlower
          rw [Node.nodeAt?_cons hchild]
          exact ih hlower

theorem exists_below
    {cursor : Cursor} {found : Node} {position : Position}
    (hfound : cursor.node.nodeAt? position = some found) :
    ∃ lower, cursor.below? position = some lower := by
  induction position generalizing cursor with
  | nil => exact ⟨cursor, rfl⟩
  | cons path rest ih =>
      obtain ⟨child, hchild, hfound⟩ := Node.exists_child_of_nodeAt?_cons hfound
      rw [below?_cons hchild]
      exact ih hfound

/-- The cursors that nested visits get to: from the root down, through the child at a slot
path or through a child in the list there. -/
inductive Reachable (root : Node) : Cursor → Prop where
  | root : Reachable root (ofRoot root)
  | call {cursor : Cursor} {child : Node} {path : List Nat}
      (hcursor : Reachable root cursor) (hchild : cursor.node.childAt path = .ok child) :
      Reachable root (cursor.descend child path)
  | each {cursor : Cursor} {child : Node} {path : List Nat} {items : List Slot} {index : Nat}
      (hcursor : Reachable root cursor) (hitems : cursor.node.listAt path = .ok items)
      (hchild : items[index]? = some (.node child)) :
      Reachable root (cursor.descend child (path ++ [index]))

theorem Reachable.sound {root : Node} {cursor : Cursor} (hcursor : Reachable root cursor) :
    cursor.Sound := by
  induction hcursor with
  | root => exact sound_ofRoot root
  | call _ _ ih => exact ih.descend _ _
  | each _ _ _ ih => exact ih.descend _ _

end Cursor

/-! ## Routes -/

theorem indexText_cons (index : Nat) (path : List Nat) :
    indexText (index :: path) = "[" ++ toString index ++ "]" ++ indexText path := by
  simp [indexText, String.join_cons]

theorem bracket_notMem_repr (index : Nat) : ']' ∉ index.repr.toList := by
  intro hmem
  rw [Nat.toList_repr] at hmem
  have hdigit := Nat.isDigit_of_mem_toDigits (by decide) (by decide) hmem
  exact absurd hdigit (by decide)

/-- The indices of a slot path can be read off its text. -/
theorem indexText_inj
    {path path' : List Nat} {rest rest' : List Char}
    (htext : (indexText path).toList ++ ' ' :: rest = (indexText path').toList ++ ' ' :: rest') :
    path = path' ∧ rest = rest' := by
  induction path generalizing path' with
  | nil =>
      cases path' with
      | nil => simpa [indexText] using htext
      | cons index' path' => simp [indexText] at htext
  | cons index path ih =>
      cases path' with
      | nil => simp [indexText] at htext
      | cons index' path' =>
          have hbrackets :
              index.repr.toList ++ ']' :: ((indexText path).toList ++ ' ' :: rest) =
                index'.repr.toList ++ ']' :: ((indexText path').toList ++ ' ' :: rest') := by
            simpa [indexText_cons] using htext
          obtain ⟨hindex, htail⟩ := append_cons_inj (bracket_notMem_repr index)
            (bracket_notMem_repr index') hbrackets
          have hsame : index = index' := by
            rw [Nat.toList_repr, Nat.toList_repr] at hindex
            rw [← Nat.ofDigitChars_ten_toDigits (n := index), hindex, Nat.ofDigitChars_ten_toDigits]
          obtain ⟨rfl, hrest⟩ := ih htail
          exact ⟨by rw [hsame], hrest⟩

/-- Different positions of a tree have different routes. -/
theorem Node.routeTo_injective
    {root node node' : Node} {position position' : Position}
    (hnode : root.nodeAt? position = some node) (hnode' : root.nodeAt? position' = some node')
    (hroute : root.routeTo position = root.routeTo position') : position = position' := by
  have hshorter : ∀ (name text rest : String), name ≠ name ++ text ++ " > " ++ rest := by
    intro name text rest heq
    have hlength := congrArg String.length heq
    simp only [String.length_append] at hlength
    have harrow : " > ".length = 3 := rfl
    omega
  induction position generalizing root position' with
  | nil =>
      cases position' with
      | nil => rfl
      | cons path' rest' =>
          obtain ⟨child', hchild', -⟩ := exists_child_of_nodeAt?_cons hnode'
          rw [routeTo, routeTo_cons hchild'] at hroute
          exact absurd hroute (hshorter _ _ _)
  | cons path rest ih =>
      obtain ⟨child, hchild, hbelow⟩ := exists_child_of_nodeAt?_cons hnode
      cases position' with
      | nil =>
          rw [routeTo, routeTo_cons hchild] at hroute
          exact absurd hroute.symm (hshorter _ _ _)
      | cons path' rest' =>
          obtain ⟨child', hchild', hbelow'⟩ := exists_child_of_nodeAt?_cons hnode'
          have htexts :
              (indexText path).toList ++ ' ' :: '>' :: ' ' :: (child.routeTo rest).toList =
                (indexText path').toList ++ ' ' :: '>' :: ' ' :: (child'.routeTo rest').toList := by
            have hchars := congrArg String.toList hroute
            simpa [routeTo_cons hchild, routeTo_cons hchild'] using hchars
          obtain ⟨rfl, hrest⟩ := indexText_inj htexts
          have hsame : child = child' := by
            rw [hchild] at hchild'
            exact Except.ok.inj hchild'
          subst hsame
          have hroutes : child.routeTo rest = child.routeTo rest' := by
            simpa [String.toList_inj] using hrest
          rw [ih hbelow hbelow' hroutes]

/-! ## Tree order -/

/-- Two addresses part at a common ancestor, and the first one takes the earlier way. -/
def LeftOf (first second : List Nat) : Prop :=
  ∃ common index later below below',
    first = common ++ index :: below ∧ second = common ++ later :: below' ∧ index < later

namespace LeftOf

variable {first second : List Nat}

theorem of_lt
    {index later : Nat} (hlater : index < later) (below below' : List Nat) :
    LeftOf (index :: below) (later :: below') :=
  ⟨[], index, later, below, below', rfl, rfl, hlater⟩

theorem append (hleft : LeftOf first second) (below below' : List Nat) :
    LeftOf (first ++ below) (second ++ below') := by
  obtain ⟨common, index, later, rest, rest', rfl, rfl, hlater⟩ := hleft
  exact ⟨common, index, later, rest ++ below, rest' ++ below', by simp, by simp, hlater⟩

theorem prepend (hleft : LeftOf first second) (above : List Nat) :
    LeftOf (above ++ first) (above ++ second) := by
  obtain ⟨common, index, later, rest, rest', rfl, rfl, hlater⟩ := hleft
  exact ⟨above ++ common, index, later, rest, rest', by simp, by simp, hlater⟩

theorem lt (hleft : LeftOf first second) : first < second := by
  obtain ⟨common, index, later, rest, rest', rfl, rfl, hlater⟩ := hleft
  exact List.append_left_lt (List.cons_lt_cons_iff.2 (.inl hlater))

theorem not_prefix (hleft : LeftOf first second) : ¬ first <+: second := by
  obtain ⟨common, index, later, rest, rest', rfl, rfl, hlater⟩ := hleft
  rw [List.prefix_append_right_inj, List.cons_prefix_cons]
  rintro ⟨hsame, -⟩
  exact Nat.ne_of_lt hlater hsame

theorem not_prefix_symm (hleft : LeftOf first second) : ¬ second <+: first := by
  obtain ⟨common, index, later, rest, rest', rfl, rfl, hlater⟩ := hleft
  rw [List.prefix_append_right_inj, List.cons_prefix_cons]
  rintro ⟨hsame, -⟩
  exact Nat.ne_of_gt hlater hsame

end LeftOf

end TreeFormat

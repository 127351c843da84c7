import TreeFormat.Tree.Lookup

/-!
# Cursors

A cursor stands on a node of a tree.  It keeps a frame for every node on the way
down and one flat trail of all slot indices taken, and every frame remembers
where its own indices begin in the trail.  `Cursor.route` writes the way down
for a reader.

A walk is an action that moves a cursor, threads a state of its own and may stop
with an error.  `Walk.call` visits the child at a slot path and `Walk.each`
visits every child of a list; both move the cursor back when the visit ends,
also when it ends with an error.
-/

namespace TreeFormat

/-- A node on the way down, with the offset in the trail where the indices that
led to it begin. -/
structure Frame where
  node : Node
  start : Nat
  deriving DecidableEq

/-- A position in a tree: the node it is on, the nodes above it from the nearest
to the root, and all indices taken on the way. -/
structure Cursor where
  focus : Frame
  above : List Frame
  trail : List Nat
  deriving DecidableEq

namespace Cursor

/-- The cursor on the root of a tree. -/
def ofRoot (root : Node) : Cursor where
  focus := ⟨root, 0⟩
  above := []
  trail := []

/-- The node under the cursor. -/
def node (cursor : Cursor) : Node :=
  cursor.focus.node

/-- The number of steps from the root. -/
def depth (cursor : Cursor) : Nat :=
  cursor.above.length

/-- The frames from the root down to the current node. -/
def frames (cursor : Cursor) : List Frame :=
  (cursor.focus :: cursor.above).reverse

/-- The cursor on a child of the current node, reached through a slot path. -/
def descend (cursor : Cursor) (child : Node) (path : List Nat) : Cursor where
  focus := ⟨child, cursor.trail.length⟩
  above := cursor.focus :: cursor.above
  trail := cursor.trail ++ path

/-- The cursor one step back; the root stays where it is. -/
def ascend (cursor : Cursor) : Cursor :=
  match cursor.above with
  | [] => cursor
  | frame :: rest =>
    { focus := frame, above := rest, trail := cursor.trail.take cursor.focus.start }

@[simp] theorem ascend_descend (cursor : Cursor) (child : Node) (path : List Nat) :
    (cursor.descend child path).ascend = cursor := by
  simp [ascend, descend]

@[simp] theorem node_descend (cursor : Cursor) (child : Node) (path : List Nat) :
    (cursor.descend child path).node = child := rfl

@[simp] theorem depth_descend (cursor : Cursor) (child : Node) (path : List Nat) :
    (cursor.descend child path).depth = cursor.depth + 1 := rfl

/-- Cuts a trail into the runs of indices that lead to the frames of a list.
The run of a frame ends where the run of the next frame begins. -/
def runs (trail : List Nat) : List Frame → List (List Nat)
  | [] => []
  | [frame] => [trail.drop frame.start]
  | frame :: next :: rest =>
    (trail.take next.start).drop frame.start :: runs trail (next :: rest)

/-- The slot paths taken at each step from the root. -/
def segments (cursor : Cursor) : List (List Nat) :=
  runs cursor.trail cursor.frames.tail

/-- The way from the root to the current node: the kind of every node on it,
with the slot path that was taken from there.  None is taken from the last one. -/
def steps (cursor : Cursor) : List (Kind × List Nat) :=
  (cursor.frames.map fun frame => frame.node.kind).zip (cursor.segments ++ [[]])

/-- A readable way from the root to the current node, e.g. `program[0][1] >
class[2] > def`. -/
def route (cursor : Cursor) : String :=
  String.intercalate " > " (cursor.steps.map fun (kind, path) => kind.name ++ indexText path)

end Cursor

/-- An action that moves a cursor, threads a state `σ` and may stop with an
error `ε`.  Cursor and state are kept when it stops. -/
abbrev Walk (σ ε : Type) := ExceptT ε (StateM (Cursor × σ))

/-- Errors that a failed lookup turns into. -/
class OfLookupFault (ε : Type) where
  ofLookupFault : LookupFault → ε

instance : OfLookupFault LookupFault where
  ofLookupFault fault := fault

namespace Walk

variable {σ ε α : Type}

/-- The cursor. -/
def cursor : Walk σ ε Cursor := do
  return (← get).1

/-- The node under the cursor. -/
def node : Walk σ ε Node := do
  return (← get).1.node

/-- Changes the threaded state. -/
def update (change : σ → σ) : Walk σ ε Unit :=
  modify fun (cursor, state) => (cursor, change state)

/-- Runs an action on a child of the current node and moves back, whether or not
it stopped. -/
def descend (child : Node) (path : List Nat) (act : Walk σ ε α) : Walk σ ε α :=
  ExceptT.mk do
    modify fun (cursor, state) => (cursor.descend child path, state)
    let result ← act.run
    modify fun (cursor, state) => (cursor.ascend, state)
    return result

variable [OfLookupFault ε]

/-- Stops with a failed lookup. -/
def fail (fault : LookupFault) : Walk σ ε α :=
  throw (OfLookupFault.ofLookupFault fault)

/-- The result of a lookup, or a stop if it failed. -/
def ofLookup (found : Except LookupFault α) : Walk σ ε α :=
  match found with
  | .ok value => pure value
  | .error fault => fail fault

/-- Runs an action on the single child at a slot path. -/
def call (path : List Nat) (act : Walk σ ε α) : Walk σ ε α := do
  descend (← ofLookup ((← node).childAt path)) path act

/-- Runs an action on every child among the elements of a list at a slot path,
counted from an index.  Absent elements are skipped, and any other element stops
the walk. -/
def eachFrom (path : List Nat) (act : Walk σ ε α) : Nat → List Slot → Walk σ ε (List α)
  | _, [] => pure []
  | index, .node child :: rest => do
    let first ← descend child (path ++ [index]) act
    return first :: (← eachFrom path act (index + 1) rest)
  | index, .absent :: rest => eachFrom path act (index + 1) rest
  | index, _ :: _ => do
    fail (.shape (← node).kind (path ++ [index]) .node)

/-- Runs an action on every child of the list at a slot path, in order. -/
def each (path : List Nat) (act : Walk σ ε α) : Walk σ ε (List α) := do
  eachFrom path act 0 (← ofLookup ((← node).listAt path))

end Walk

end TreeFormat

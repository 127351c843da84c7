import TreeFormat.Tree.Node

/-!
# Slot paths

A slot path is a list of indices: the first one picks a slot of the node, the
later ones pick elements of nested lists.  The empty path stands for all slots
of the node as one list.

A lookup fails because the node is a leaf, because there is no slot at the path,
or because what is there has another shape than the caller asked for.
-/

namespace TreeFormat

/-- What a caller expects to find. -/
inductive Expected where
  | node | list | token | literal
  deriving DecidableEq, Repr

/-- The words for an expectation. -/
def Expected.words : Expected → String
  | node => "a node"
  | list => "a list"
  | token => "a token"
  | literal => "a literal token"

/-- Why a slot lookup failed at a node of some kind. -/
inductive LookupFault where
  /-- The node is a leaf and has no slots. -/
  | literalBody (kind : Kind)
  /-- There is no slot at the path. -/
  | missing (kind : Kind) (path : List Nat)
  /-- The slot exists but holds something else than expected. -/
  | shape (kind : Kind) (path : List Nat) (expected : Expected)
  deriving DecidableEq, Repr

/-- Indices in brackets, one after the other. -/
def indexText (path : List Nat) : String :=
  String.join (path.map fun index => "[" ++ toString index ++ "]")

namespace LookupFault

/-- The kind of the node where the lookup failed. -/
def kind : LookupFault → Kind
  | literalBody kind => kind
  | missing kind _ => kind
  | shape kind _ _ => kind

/-- The words for a failed lookup. -/
def message : LookupFault → String
  | literalBody kind => "`" ++ kind.name ++ "` is a literal token and has no slots"
  | missing kind path => "`" ++ kind.name ++ "` has no slot at " ++ indexText path
  | shape kind path expected =>
    "slot " ++ indexText path ++ " of `" ++ kind.name ++ "` is not " ++ expected.words

end LookupFault

/-- What can stop a walk through nested lists. -/
inductive Obstacle where
  /-- The list is too short. -/
  | gap
  /-- Something other than a list is in the way. -/
  | notList
  deriving DecidableEq, Repr

/-- The fault that an obstacle on a slot path of a node amounts to. -/
def Obstacle.fault (kind : Kind) (path : List Nat) : Obstacle → LookupFault
  | gap => .missing kind path
  | notList => .shape kind path .list

/-- Follows indices through nested lists. -/
def Slot.follow : Slot → List Nat → Except Obstacle Slot
  | slot, [] => .ok slot
  | list items, index :: rest =>
    match items[index]? with
    | some slot => slot.follow rest
    | none => .error .gap
  | _, _ :: _ => .error .notList

namespace Node

/-- What stands at a slot path. -/
def slotAt : Node → List Nat → Except LookupFault Slot
  | leaf kind _, _ => .error (.literalBody kind)
  | branch kind slots, path => ((Slot.list slots).follow path).mapError (Obstacle.fault kind path)

/-- Whether something other than an absent child stands at a slot path. -/
def has (node : Node) (path : List Nat) : Bool :=
  match node.slotAt path with
  | .ok .absent => false
  | .ok _ => true
  | .error _ => false

/-- The raw token at a slot path.  Some dumps wrap operators and connectors in
leaf nodes, so the text of a leaf counts as a token as well. -/
def tokenAt (node : Node) (path : List Nat) : Except LookupFault String := do
  match ← node.slotAt path with
  | .token text => return text
  | .node (.leaf _ text) => return text
  | _ => throw (.shape node.kind path .token)

/-- The single child at a slot path. -/
def childAt (node : Node) (path : List Nat) : Except LookupFault Node := do
  match ← node.slotAt path with
  | .node child => return child
  | _ => throw (.shape node.kind path .node)

/-- The list at a slot path. -/
def listAt (node : Node) (path : List Nat) : Except LookupFault (List Slot) := do
  match ← node.slotAt path with
  | .list items => return items
  | _ => throw (.shape node.kind path .list)

/-- The number of elements of the list at a slot path, zero when no list is
there. -/
def listLength (node : Node) (path : List Nat) : Nat :=
  match node.slotAt path with
  | .ok (.list items) => items.length
  | _ => 0

end Node

end TreeFormat

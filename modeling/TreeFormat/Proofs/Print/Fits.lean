import TreeFormat.Proofs.Tree.Lookups

/-!
# What the rules ask for

A rule relies on some slots of its node and does not look at the others.  `Node.fits`
tests what it relies on: the children, lists and tokens that it is going to ask for.
It looks at one node only and not at what is below.
-/

namespace TreeFormat

namespace Slot

/-- Whether an element of a list of children is a child, or a place left empty. -/
def isOptionalChild : Slot → Bool
  | absent => true
  | node _ => true
  | token _ => false
  | list _ => false

/-- Whether everything in a slot can stand between parentheses. -/
def isPart : Slot → Bool
  | absent => true
  | token _ => true
  | node _ => true
  | list items => items.all isOptionalChild

end Slot

namespace Node

/-- Whether a child is at a slot path. -/
def holdsChild (node : Node) (path : List Nat) : Bool :=
  (node.childAt path).isOk

/-- Whether a token is at a slot path. -/
def holdsToken (node : Node) (path : List Nat) : Bool :=
  (node.tokenAt path).isOk

/-- Whether a list of children is at a slot path. -/
def holdsChildren (node : Node) (path : List Nat) : Bool :=
  match node.listAt path with
  | .ok items => items.all Slot.isOptionalChild
  | .error _ => false

theorem holdsChildren_of_list
    {node : Node} {path : List Nat} {items : List Slot}
    (hlist : node.slotAt path = .ok (.list items)) :
    node.holdsChildren path = items.all Slot.isOptionalChild := by
  rw [holdsChildren, listAt_eq_ok_iff.2 hlist]

/-- Whether a child or nothing is at a slot path. -/
def mayHoldChild (node : Node) (path : List Nat) : Bool :=
  !node.has path || node.holdsChild path

/-- Whether a list of children or nothing is at a slot path. -/
def mayHoldChildren (node : Node) (path : List Nat) : Bool :=
  !node.has path || node.holdsChildren path

/-- Whether the optional parameters counted from an index are pairs of children. -/
def fitsOptionalParams (node : Node) (count index : Nat) : Bool :=
  (List.range' index count).all fun index =>
    node.holdsChild [1, index, 0] && node.holdsChild [1, index, 1]

/-- Whether the keyword parameters counted from an index are children with a default or
without one. -/
def fitsKeywordParams (node : Node) (count index : Nat) : Bool :=
  (List.range' index count).all fun index =>
    node.holdsChild [4, index, 0] && node.mayHoldChild [4, index, 1]

/-- Whether the rule of a composite kind finds what it asks for. -/
def fitsAs (node : Node) : ParserEvent → Bool
  | .aliasPair | .assign | .command | .stringContent | .stringLiteral | .symbol | .symbolLiteral
  | .varField | .vcall => node.holdsChildren []
  | .argsAddBlock => node.holdsChildren [0] && node.mayHoldChild [1]
  | .binary | .call => node.holdsToken [1] && (node.holdsChild [0] && node.holdsChild [2])
  | .blockArg | .kwRestParam | .restParam => node.mayHoldChild [0]
  | .bodyStmt | .program | .stringEmbexpr => node.holdsChildren [0]
  | .classDef => node.holdsChild [0] && (node.mayHoldChild [1] && node.holdsChild [2])
  | .constRef | .varRef => node.holdsChild [0]
  | .methodDef => node.holdsChild [0] && (node.holdsChild [1] && node.holdsChild [2])
  | .moduleDef => node.holdsChild [0] && node.holdsChild [1]
  | .params =>
    node.mayHoldChildren [0] && (node.fitsOptionalParams (node.listLength [1]) 0 &&
      (node.mayHoldChild [2] && (node.mayHoldChildren [3] &&
        (node.fitsKeywordParams (node.listLength [4]) 0 &&
          (node.mayHoldChild [5] && node.mayHoldChild [6])))))
  | .paren => node.slots.all Slot.isPart
  | .voidStmt => true

/-- Whether a node has what printing it asks for. -/
def fits (node : Node) : Bool :=
  match node.kind with
  | .scanner _ => node.literal?.isSome
  | .parser event => node.fitsAs event
  | .other _ => true

end Node

end TreeFormat

import TreeFormat.Json.Value
import TreeFormat.Tree.Node

/-!
# The wire form of trees

On the wire a node is an object with a `type` and a `body`: the text of a leaf
or the array of the slots of a composite node.  An absent slot is `null`, a
token is a string, and a list is an array.

Decoding accepts more.  `false` is an absent slot and `true` a token; members
with other names are ignored; and an array of two elements that reads as a type
and a body is a node as well.  Numbers have no place inside a body.
-/

namespace TreeFormat

open Json (Value)

/-! ## Encoding -/

mutual

/-- The wire form of a node. -/
def Node.toValue : Node → Value
  | .leaf kind text => .object [("type", .string kind.name), ("body", .string text)]
  | .branch kind slots =>
    .object [("type", .string kind.name), ("body", .array (Slot.toValues slots))]

/-- The wire form of a slot. -/
def Slot.toValue : Slot → Value
  | .absent => .null
  | .token text => .string text
  | .node child => child.toValue
  | .list items => .array (Slot.toValues items)

/-- The wire forms of several slots. -/
def Slot.toValues : List Slot → List Value
  | [] => []
  | slot :: slots => slot.toValue :: Slot.toValues slots

end

/-- The text of the wire form of a node. -/
def Node.toJson (node : Node) : String :=
  String.ofList node.toValue.render

/-! ## Decoding -/

/-- What a node holds besides its kind. -/
inductive Body where
  | literal (text : String)
  | slots (slots : List Slot)
  deriving DecidableEq

/-- The node of a kind with a body. -/
def Body.toNode (kind : Kind) : Body → Node
  | .literal text => .leaf kind text
  | .slots items => .branch kind items

/-- The type that the members of an object give: that of the one `type` member,
a string. -/
def typeOf? (members : List (String × Value)) : Option Kind :=
  match members.filter fun member => member.1 == "type" with
  | [(_, .string name)] => some (Kind.ofName name)
  | _ => none

mutual

/-- The slot that a value inside a body stands for. -/
def Slot.ofValue? : Value → Option Slot
  | .null => some .absent
  | .bool false => some .absent
  | .bool true => some (.token "true")
  | .number _ => none
  | .string text => some (.token text)
  | .array [.string name, .string text] => some (.node (.leaf (Kind.ofName name) text))
  | .array [.string name, .array items] =>
    (Slot.ofValues? items).map fun slots => .node (.branch (Kind.ofName name) slots)
  | .array items => (Slot.ofValues? items).map .list
  | .object members =>
    match typeOf? members, Body.ofMembers members with
    | some kind, [some body] => some (.node (body.toNode kind))
    | _, _ => none

/-- The slots that values inside a body stand for. -/
def Slot.ofValues? : List Value → Option (List Slot)
  | [] => some []
  | value :: values => do
    let slot ← Slot.ofValue? value
    return slot :: (← Slot.ofValues? values)

/-- The body that a value stands for. -/
def Body.ofValue? : Value → Option Body
  | .string text => some (.literal text)
  | .array items => (Slot.ofValues? items).map .slots
  | _ => none

/-- What every `body` member of an object stands for. -/
def Body.ofMembers : List (String × Value) → List (Option Body)
  | [] => []
  | (key, value) :: members =>
    if key = "body" then Body.ofValue? value :: Body.ofMembers members
    else Body.ofMembers members

end

end TreeFormat

import TreeFormat.Tree.Wire

/-!
# Decoding by alternatives

A second account of decoding, which does not look at the form of a value first.  A value
inside a body is taken for everything that may stand there, one thing after the other, and
the first attempt that succeeds counts.  The order is: null, a flag, a text, a node, a list.

A node is an object or an array of two elements.  The members of an object are taken one
by one; a second type or a second body is a failure, and members with other names are
passed over.  A body is first taken for a text and then for a list of slots.
-/

namespace TreeFormat

open Json (Value)

/-! ## Raw slots -/

/-- What a value inside a body was taken for. -/
inductive RawSlot where
  | null
  | flag (value : Bool)
  | token (text : String)
  | node (node : Node)
  | list (items : List RawSlot)

mutual

/-- The slot that a raw one stands for. -/
def RawSlot.toSlot : RawSlot → Slot
  | .null => .absent
  | .flag false => .absent
  | .flag true => .token "true"
  | .token text => .token text
  | .node child => .node child
  | .list items => .list (RawSlot.toSlots items)

/-- The slots that several raw ones stand for. -/
def RawSlot.toSlots : List RawSlot → List Slot
  | [] => []
  | item :: items => item.toSlot :: RawSlot.toSlots items

end

/-! ## Attempts -/

namespace Json.Value

/-- A value taken for null. -/
def null? : Value → Option Unit
  | .null => some ()
  | _ => none

/-- A value taken for a flag. -/
def flag? : Value → Option Bool
  | .bool value => some value
  | _ => none

/-- A value taken for a text. -/
def text? : Value → Option String
  | .string text => some text
  | _ => none

end Json.Value

mutual

/-- A value taken for the first thing that it can be inside a body. -/
def RawSlot.attempt (value : Value) : Option RawSlot :=
  (value.null?.map fun _ => .null).or <|
    (value.flag?.map .flag).or <|
      (value.text?.map .token).or <|
        ((Node.attempt value).map .node).or <|
          (RawSlot.attemptItems value).map .list
termination_by (sizeOf value, 2)

/-- A value taken for a node. -/
def Node.attempt : Value → Option Node
  | .object members => Node.attemptMembers none none members
  | .array [type, body] => do
    let name ← type.text?
    return (← Body.attempt body).toNode (Kind.ofName name)
  | _ => none
termination_by value => (sizeOf value, 1)

/-- The members of an object taken for those of a node, with what was found before. -/
def Node.attemptMembers (kind? : Option Kind) (body? : Option Body) :
    List (String × Value) → Option Node
  | [] => do return (← body?).toNode (← kind?)
  | (key, value) :: members =>
    if key = "type" then
      match kind?, value.text? with
      | none, some name => Node.attemptMembers (some (Kind.ofName name)) body? members
      | _, _ => none
    else if key = "body" then
      match body?, Body.attempt value with
      | none, some body => Node.attemptMembers kind? (some body) members
      | _, _ => none
    else Node.attemptMembers kind? body? members
termination_by members => (sizeOf members, 0)

/-- A value taken for a body. -/
def Body.attempt (value : Value) : Option Body :=
  (value.text?.map .literal).or <|
    (RawSlot.attemptItems value).map fun items => .slots (RawSlot.toSlots items)
termination_by (sizeOf value, 2)

/-- A value taken for a list. -/
def RawSlot.attemptItems : Value → Option (List RawSlot)
  | .array items => RawSlot.attemptAll items
  | _ => none
termination_by value => (sizeOf value, 1)

/-- Several values, each taken for the first thing that it can be. -/
def RawSlot.attemptAll : List Value → Option (List RawSlot)
  | [] => some []
  | value :: values => do
    let item ← RawSlot.attempt value
    return item :: (← RawSlot.attemptAll values)
termination_by values => (sizeOf values, 0)

end

/-- The slot that the first attempt to succeed gives. -/
def Slot.attempt (value : Value) : Option Slot :=
  (RawSlot.attempt value).map RawSlot.toSlot

end TreeFormat

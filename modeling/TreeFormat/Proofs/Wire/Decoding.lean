import Mathlib.Data.List.Basic
import TreeFormat.Proofs.Json.ValueRoundTrip
import TreeFormat.Tree.Wire

/-!
# Decoding what was encoded

`Slot.toValue` writes a slot as a value and `Slot.ofValue?` reads one.  Reading
is richer than writing: a list of two elements may read as a node.  This module
finds the slots that survive: those without such a list anywhere inside
(`Slot.ofValue?_toValue_iff`), provided that the kinds are ones that a name on
the wire stands for.
-/

namespace TreeFormat

open Json (Value)

/-! ## What stands inside a tree -/

mutual

/-- The kinds of a node and of all nodes below it. -/
def Node.kinds : Node → List Kind
  | .leaf kind _ => [kind]
  | .branch kind slots => kind :: Slot.allKinds slots

/-- The kinds of all nodes inside a slot. -/
def Slot.kinds : Slot → List Kind
  | .absent => []
  | .token _ => []
  | .node child => child.kinds
  | .list items => Slot.allKinds items

/-- The kinds of all nodes inside several slots. -/
def Slot.allKinds : List Slot → List Kind
  | [] => []
  | slot :: slots => slot.kinds ++ Slot.allKinds slots

end

mutual

/-- The lists that stand in the slots of a node, at any depth. -/
def Node.lists : Node → List (List Slot)
  | .leaf _ _ => []
  | .branch _ slots => Slot.allLists slots

/-- The lists inside a slot, the one that it holds included. -/
def Slot.lists : Slot → List (List Slot)
  | .absent => []
  | .token _ => []
  | .node child => child.lists
  | .list items => items :: Slot.allLists items

/-- The lists inside several slots. -/
def Slot.allLists : List Slot → List (List Slot)
  | [] => []
  | slot :: slots => slot.lists ++ Slot.allLists slots

end

/-- Whether a list is written like a node in its array form: it has two elements,
the first one a token and the second one a token or a list. -/
def Slot.mimicsNode : List Slot → Bool
  | [.token _, .token _] => true
  | [.token _, .list _] => true
  | _ => false

/-- A kind that some name on the wire stands for. -/
def Kind.IsNamed (kind : Kind) : Prop :=
  ∃ name, Kind.ofName name = kind

theorem Kind.isKnown_of_ofKnownName?
    {name : String} {kind : Kind} (hkind : Kind.ofKnownName? name = some kind) :
    kind.isKnown = true := by
  have hscanner : ∀ bare, (ScannerEvent.ofBareName? bare).map Kind.scanner = some kind →
      kind.isKnown = true := by
    intro bare hbare
    obtain ⟨event, -, rfl⟩ := Option.map_eq_some_iff.1 hbare
    rfl
  rw [Kind.ofKnownName?] at hkind
  split at hkind
  · exact hscanner _ hkind
  · rw [Option.orElse_eq_orElse, Option.orElse_eq_or, Option.or_eq_some_iff] at hkind
    rcases hkind with hbare | ⟨-, hparser⟩
    · exact hscanner _ hbare
    · obtain ⟨event, -, rfl⟩ := Option.map_eq_some_iff.1 hparser
      rfl

theorem Kind.ofName_name
    {kind : Kind} (hkind : kind.IsNamed) : Kind.ofName kind.name = kind := by
  obtain ⟨name, rfl⟩ := hkind
  cases hknown : Kind.ofKnownName? name with
  | none => simp [Kind.ofName, hknown, Kind.name]
  | some known =>
      have hname : Kind.ofName name = known := by simp [Kind.ofName, hknown]
      rw [hname]
      exact Kind.ofName_name_of_isKnown (Kind.isKnown_of_ofKnownName? hknown)

/-! ## Decoding what was encoded -/

theorem Slot.ofValues?_cons_eq_some_iff
    {value : Value} {values : List Value} {slot : Slot} {slots : List Slot} :
    Slot.ofValues? (value :: values) = some (slot :: slots) ↔
      Slot.ofValue? value = some slot ∧ Slot.ofValues? values = some slots := by
  rw [Slot.ofValues?]
  cases Slot.ofValue? value <;> cases Slot.ofValues? values <;> simp

theorem Slot.toValue_eq_string_iff
    {slot : Slot} {text : String} : slot.toValue = .string text ↔ slot = .token text := by
  cases slot with
  | node child => cases child <;> simp [Slot.toValue, Node.toValue]
  | _ => simp [Slot.toValue]

theorem Slot.eq_list_of_toValue_eq_array
    {slot : Slot} {values : List Value} (hvalue : slot.toValue = .array values) :
    ∃ items, slot = .list items := by
  cases slot with
  | node child => cases child <;> simp [Slot.toValue, Node.toValue] at hvalue
  | list items => exact ⟨items, rfl⟩
  | _ => simp [Slot.toValue] at hvalue

theorem Slot.toValues_eq_pair
    {items : List Slot} {first second : Value}
    (hvalues : Slot.toValues items = [first, second]) :
    ∃ slot slot', items = [slot, slot'] ∧ slot.toValue = first ∧ slot'.toValue = second := by
  match items with
  | [] => simp [Slot.toValues] at hvalues
  | [_] => simp [Slot.toValues] at hvalues
  | [slot, slot'] =>
      simp only [Slot.toValues, List.cons.injEq, and_true] at hvalues
      exact ⟨slot, slot', rfl, hvalues.1, hvalues.2⟩
  | _ :: _ :: _ :: _ => simp [Slot.toValues] at hvalues

theorem Slot.ofValue?_array_of_mimicsNode
    {items : List Slot} (hmimics : Slot.mimicsNode items = true) :
    Slot.ofValue? (.array (Slot.toValues items)) ≠ some (.list items) := by
  unfold Slot.mimicsNode at hmimics
  split at hmimics
  · simp [Slot.toValues, Slot.toValue, Slot.ofValue?]
  · simp [Slot.toValues, Slot.toValue, Slot.ofValue?]
  · contradiction

theorem Slot.ofValue?_array
    {items : List Slot} (hmimics : Slot.mimicsNode items = false) :
    Slot.ofValue? (.array (Slot.toValues items)) =
      (Slot.ofValues? (Slot.toValues items)).map .list := by
  rw [Slot.ofValue?]
  · intro name text hvalues
    obtain ⟨first, second, rfl, hfirst, hsecond⟩ := Slot.toValues_eq_pair hvalues
    rw [Slot.toValue_eq_string_iff.1 hfirst, Slot.toValue_eq_string_iff.1 hsecond] at hmimics
    simp [Slot.mimicsNode] at hmimics
  · intro name values hvalues
    obtain ⟨first, second, rfl, hfirst, hsecond⟩ := Slot.toValues_eq_pair hvalues
    obtain ⟨inner, rfl⟩ := Slot.eq_list_of_toValue_eq_array hsecond
    rw [Slot.toValue_eq_string_iff.1 hfirst] at hmimics
    simp [Slot.mimicsNode] at hmimics

theorem Slot.ofValue?_toValue_leaf
    {kind : Kind} (hkind : kind.IsNamed) (text : String) :
    Slot.ofValue? (Node.leaf kind text).toValue = some (.node (.leaf kind text)) := by
  simp [Node.toValue, Slot.ofValue?, typeOf?, Body.ofMembers, Body.ofValue?, Body.toNode,
    Kind.ofName_name hkind]

theorem Slot.ofValue?_toValue_branch
    {kind : Kind} (hkind : kind.IsNamed) (slots : List Slot) :
    Slot.ofValue? (Node.branch kind slots).toValue =
      (Slot.ofValues? (Slot.toValues slots)).map fun slots => .node (.branch kind slots) := by
  cases hslots : Slot.ofValues? (Slot.toValues slots) <;>
    simp [Node.toValue, Slot.ofValue?, typeOf?, Body.ofMembers, Body.ofValue?, Body.toNode,
      Kind.ofName_name hkind, hslots]

mutual

theorem Slot.ofValue?_toValue_iff :
    ∀ {slot : Slot}, (∀ kind ∈ slot.kinds, kind.IsNamed) →
      (Slot.ofValue? slot.toValue = some slot ↔
        ∀ items ∈ slot.lists, Slot.mimicsNode items = false)
  | .absent, _ => by simp [Slot.toValue, Slot.ofValue?, Slot.lists]
  | .token text, _ => by simp [Slot.toValue, Slot.ofValue?, Slot.lists]
  | .node (.leaf kind text), hkinds => by
      have hkind : kind.IsNamed := hkinds kind (by simp [Slot.kinds, Node.kinds])
      simp [Slot.toValue, Slot.ofValue?_toValue_leaf hkind, Slot.lists, Node.lists]
  | .node (.branch kind slots), hkinds => by
      simp only [Slot.kinds, Node.kinds, List.forall_mem_cons] at hkinds
      rw [Slot.toValue, Slot.ofValue?_toValue_branch hkinds.1, Slot.lists, Node.lists,
        ← Slot.ofValues?_toValues_iff hkinds.2]
      simp
  | .list items, hkinds => by
      rw [Slot.kinds] at hkinds
      rw [Slot.toValue, Slot.lists, List.forall_mem_cons]
      cases hmimics : Slot.mimicsNode items with
      | true => simpa using Slot.ofValue?_array_of_mimicsNode hmimics
      | false =>
          rw [Slot.ofValue?_array hmimics, ← Slot.ofValues?_toValues_iff hkinds]
          simp

theorem Slot.ofValues?_toValues_iff :
    ∀ {slots : List Slot}, (∀ kind ∈ Slot.allKinds slots, kind.IsNamed) →
      (Slot.ofValues? (Slot.toValues slots) = some slots ↔
        ∀ items ∈ Slot.allLists slots, Slot.mimicsNode items = false)
  | [], _ => by simp [Slot.toValues, Slot.ofValues?, Slot.allLists]
  | slot :: slots, hkinds => by
      rw [Slot.allKinds, List.forall_mem_append] at hkinds
      rw [Slot.toValues, Slot.ofValues?_cons_eq_some_iff, Slot.allLists,
        List.forall_mem_append, Slot.ofValue?_toValue_iff hkinds.1,
        Slot.ofValues?_toValues_iff hkinds.2]

end

mutual

theorem Node.numberFree_toValue : ∀ node : Node, node.toValue.NumberFree
  | .leaf _ _ => by simp [Node.toValue, Value.NumberFree, Value.MembersNumberFree]
  | .branch _ slots => by
      simpa [Node.toValue, Value.NumberFree, Value.MembersNumberFree] using
        Slot.numberFree_toValues slots

theorem Slot.numberFree_toValue : ∀ slot : Slot, slot.toValue.NumberFree
  | .absent => by simp [Slot.toValue, Value.NumberFree]
  | .token _ => by simp [Slot.toValue, Value.NumberFree]
  | .node child => by
      rw [Slot.toValue]
      exact Node.numberFree_toValue child
  | .list items => by
      rw [Slot.toValue, Value.NumberFree]
      exact Slot.numberFree_toValues items

theorem Slot.numberFree_toValues :
    ∀ slots : List Slot, Value.AllNumberFree (Slot.toValues slots)
  | [] => by simp [Slot.toValues, Value.AllNumberFree]
  | slot :: slots => by
      rw [Slot.toValues, Value.AllNumberFree]
      exact ⟨Slot.numberFree_toValue slot, Slot.numberFree_toValues slots⟩

end

end TreeFormat

import Mathlib.Data.List.Basic
import TreeFormat.Proofs.Wire.Decoding
import TreeFormat.Tree.Alternatives

/-!
# The grammar of bodies

Which values may stand inside a body, and what they say there, is said twice.
`Json.Value.IsSlot` is the grammar on its own: null, flags, texts, objects with one type
and one body, and arrays of such values, whatever their length.  `Json.Value.Denotes` adds
what a value stands for; there an array of two elements may be a node.

Both decoders agree with them.  That an array is tried as a node before it is tried as a
list decides what it stands for, but neither adds to the values that are accepted nor
takes any away (`Slot.attempt_eq_some_iff_denotes`).
-/

namespace TreeFormat

open Json (Value)

namespace Json.Value

/-! ## What may stand inside a body -/

/-- The members of an object with a name. -/
def membersNamed (name : String) (members : List (String × Value)) : List (String × Value) :=
  members.filter fun member => member.1 == name

/-- A value that may stand inside a body. -/
inductive IsSlot : Value → Prop where
  | null : IsSlot .null
  | flag (value : Bool) : IsSlot (.bool value)
  | text (text : String) : IsSlot (.string text)
  | leaf {members : List (String × Value)} {name text : String}
      (htype : membersNamed "type" members = [("type", .string name)])
      (hbody : membersNamed "body" members = [("body", .string text)]) : IsSlot (.object members)
  | branch {members : List (String × Value)} {name : String} {items : List Value}
      (htype : membersNamed "type" members = [("type", .string name)])
      (hbody : membersNamed "body" members = [("body", .array items)])
      (hitems : ∀ item ∈ items, IsSlot item) : IsSlot (.object members)
  | array {items : List Value} (hitems : ∀ item ∈ items, IsSlot item) : IsSlot (.array items)

/-- Whether a value has the form of a body: a text or an array. -/
def isBodyForm : Value → Bool
  | .string _ => true
  | .array _ => true
  | _ => false

mutual

/-- The slot that a value inside a body stands for. -/
inductive Denotes : Value → Slot → Prop where
  | null : Denotes .null .absent
  | no : Denotes (.bool false) .absent
  | yes : Denotes (.bool true) (.token "true")
  | text (text : String) : Denotes (.string text) (.token text)
  | object {members : List (String × Value)} {name : String} {value : Value} {body : Body}
      (htype : membersNamed "type" members = [("type", .string name)])
      (hbody : membersNamed "body" members = [("body", value)]) (hvalue : DenotesBody value body) :
      Denotes (.object members) (.node (body.toNode (Kind.ofName name)))
  | pair {name : String} {value : Value} {body : Body} (hvalue : DenotesBody value body) :
      Denotes (.array [.string name, value]) (.node (body.toNode (Kind.ofName name)))
  | list {items : List Value} {slots : List Slot}
      (hpair : ∀ name value, items = [.string name, value] → value.isBodyForm = false)
      (hitems : DenotesAll items slots) : Denotes (.array items) (.list slots)

/-- The body that a value stands for. -/
inductive DenotesBody : Value → Body → Prop where
  | literal (text : String) : DenotesBody (.string text) (.literal text)
  | slots {items : List Value} {slots : List Slot} (hitems : DenotesAll items slots) :
      DenotesBody (.array items) (.slots slots)

/-- The slots that several values stand for, in their order. -/
inductive DenotesAll : List Value → List Slot → Prop where
  | nil : DenotesAll [] []
  | cons {value : Value} {values : List Value} {slot : Slot} {slots : List Slot}
      (hvalue : Denotes value slot) (hvalues : DenotesAll values slots) :
      DenotesAll (value :: values) (slot :: slots)

end

theorem isBodyForm_of_denotesBody
    {value : Value} {body : Body} (hvalue : value.DenotesBody body) : value.isBodyForm = true := by
  cases hvalue <;> rfl

/-! ## The values that stand for something -/

mutual

theorem isSlot_of_denotes : ∀ {value : Value} {slot : Slot}, value.Denotes slot → value.IsSlot
  | _, _, .null => .null
  | _, _, .no => .flag false
  | _, _, .yes => .flag true
  | _, _, .text text => .text text
  | _, _, .object htype hbody (.literal _) => .leaf htype hbody
  | _, _, .object htype hbody (.slots hitems) => .branch htype hbody (isSlot_of_denotesAll hitems)
  | _, _, .pair hvalue => by
      refine .array ?_
      rw [List.forall_mem_cons, List.forall_mem_singleton]
      exact ⟨.text _, isSlot_of_denotesBody hvalue⟩
  | _, _, .list _ hitems => .array (isSlot_of_denotesAll hitems)

theorem isSlot_of_denotesBody :
    ∀ {value : Value} {body : Body}, value.DenotesBody body → value.IsSlot
  | _, _, .literal text => .text text
  | _, _, .slots hitems => .array (isSlot_of_denotesAll hitems)

theorem isSlot_of_denotesAll :
    ∀ {values : List Value} {slots : List Slot}, DenotesAll values slots →
      ∀ value ∈ values, value.IsSlot
  | _, _, .nil => by simp
  | _, _, .cons hvalue hvalues => by
      rw [List.forall_mem_cons]
      exact ⟨isSlot_of_denotes hvalue, isSlot_of_denotesAll hvalues⟩

end

theorem exists_denotesAll
    {values : List Value} (hvalues : ∀ value ∈ values, ∃ slot, value.Denotes slot) :
    ∃ slots, DenotesAll values slots := by
  induction values with
  | nil => exact ⟨[], .nil⟩
  | cons value values ih =>
      rw [List.forall_mem_cons] at hvalues
      obtain ⟨⟨slot, hslot⟩, hrest⟩ := hvalues
      obtain ⟨slots, hslots⟩ := ih hrest
      exact ⟨slot :: slots, .cons hslot hslots⟩

/-- A value of the grammar stands for a slot, and for a body if it has the form of one.
An array of two elements needs the second part for its second element. -/
theorem IsSlot.denotes
    {value : Value} (hvalue : value.IsSlot) :
    (∃ slot, value.Denotes slot) ∧
      (value.isBodyForm = true → ∃ body, value.DenotesBody body) := by
  induction hvalue with
  | null => exact ⟨⟨_, .null⟩, nofun⟩
  | flag value =>
      refine ⟨?_, nofun⟩
      cases value with
      | false => exact ⟨_, .no⟩
      | true => exact ⟨_, .yes⟩
  | text text => exact ⟨⟨_, .text text⟩, fun _ => ⟨_, .literal text⟩⟩
  | leaf htype hbody => exact ⟨⟨_, .object htype hbody (.literal _)⟩, nofun⟩
  | branch htype hbody hitems ih =>
      obtain ⟨slots, hslots⟩ := exists_denotesAll fun item hitem => (ih item hitem).1
      exact ⟨⟨_, .object htype hbody (.slots hslots)⟩, nofun⟩
  | @array items hitems ih =>
      obtain ⟨slots, hslots⟩ := exists_denotesAll fun item hitem => (ih item hitem).1
      refine ⟨?_, fun _ => ⟨_, .slots hslots⟩⟩
      by_cases hpair : ∀ name value, items = [.string name, value] → value.isBodyForm = false
      · exact ⟨_, .list hpair hslots⟩
      · push Not at hpair
        obtain ⟨name, value, rfl, hform⟩ := hpair
        rw [ne_eq, Bool.not_eq_false] at hform
        obtain ⟨body, hbody⟩ := (ih value (by simp)).2 hform
        exact ⟨_, .pair hbody⟩

theorem exists_denotes_iff_isSlot
    {value : Value} : (∃ slot, value.Denotes slot) ↔ value.IsSlot :=
  ⟨fun ⟨_, hslot⟩ => isSlot_of_denotes hslot, fun hvalue => hvalue.denotes.1⟩

end Json.Value

open Json.Value (membersNamed Denotes DenotesBody DenotesAll)

/-! ## Decoding by the form of a value -/

theorem typeOf?_eq_some_iff
    {members : List (String × Value)} {kind : Kind} :
    typeOf? members = some kind ↔
      ∃ name, membersNamed "type" members = [("type", .string name)] ∧
        Kind.ofName name = kind := by
  have hnamed : ∀ member ∈ membersNamed "type" members, member.1 = "type" := by
    intro member hmember
    simpa using (List.mem_filter.1 hmember).2
  have hfilter : members.filter (fun member => member.1 == "type") =
      membersNamed "type" members := rfl
  rw [typeOf?, hfilter]
  constructor
  · intro htype
    split at htype
    · next key name hmembers =>
        rw [hmembers, List.forall_mem_singleton] at hnamed
        cases hnamed
        exact ⟨name, hmembers, Option.some.inj htype⟩
    · cases htype
  · rintro ⟨name, hmembers, rfl⟩
    rw [hmembers]

theorem Body.ofMembers_eq_map (members : List (String × Value)) :
    Body.ofMembers members =
      (membersNamed "body" members).map fun member => Body.ofValue? member.2 := by
  induction members with
  | nil => rfl
  | cons member members ih =>
      obtain ⟨key, value⟩ := member
      rw [Body.ofMembers, ih]
      by_cases hkey : key = "body" <;> simp [membersNamed, hkey]

theorem Body.ofMembers_eq_single_iff
    {members : List (String × Value)} {body : Body} :
    Body.ofMembers members = [some body] ↔
      ∃ value, membersNamed "body" members = [("body", value)] ∧
        Body.ofValue? value = some body := by
  have hnamed : ∀ member ∈ membersNamed "body" members, member.1 = "body" := by
    intro member hmember
    simpa using (List.mem_filter.1 hmember).2
  rw [Body.ofMembers_eq_map]
  constructor
  · intro hbodies
    obtain ⟨⟨key, value⟩, hmembers, hvalue⟩ := List.map_eq_singleton_iff.1 hbodies
    rw [hmembers, List.forall_mem_singleton] at hnamed
    cases hnamed
    exact ⟨value, hmembers, hvalue⟩
  · rintro ⟨value, hmembers, hvalue⟩
    rw [hmembers, List.map_singleton, hvalue]

theorem Slot.ofValue?_object_eq_some_iff
    {members : List (String × Value)} {slot : Slot} :
    Slot.ofValue? (.object members) = some slot ↔
      ∃ name value body, membersNamed "type" members = [("type", .string name)] ∧
        membersNamed "body" members = [("body", value)] ∧ Body.ofValue? value = some body ∧
          slot = .node (body.toNode (Kind.ofName name)) := by
  rw [Slot.ofValue?]
  constructor
  · intro hslot
    split at hslot
    · next kind body htype hbody =>
        obtain ⟨name, hname, rfl⟩ := typeOf?_eq_some_iff.1 htype
        obtain ⟨value, hmembers, hvalue⟩ := Body.ofMembers_eq_single_iff.1 hbody
        exact ⟨name, value, body, hname, hmembers, hvalue, (Option.some.inj hslot).symm⟩
    · cases hslot
  · rintro ⟨name, value, body, hname, hmembers, hvalue, rfl⟩
    rw [typeOf?_eq_some_iff.2 ⟨name, hname, rfl⟩,
      Body.ofMembers_eq_single_iff.2 ⟨value, hmembers, hvalue⟩]

/-- An array of two elements that may be a type and a body is a node. -/
theorem Slot.ofValue?_pair
    {value : Value} (hform : value.isBodyForm = true) (name : String) :
    Slot.ofValue? (.array [.string name, value]) =
      (Body.ofValue? value).map fun body => .node (body.toNode (Kind.ofName name)) := by
  cases value with
  | string text => rfl
  | array items =>
      rw [Slot.ofValue?, Body.ofValue?, Option.map_map]
      rfl
  | _ => cases hform

/-- All other arrays are lists. -/
theorem Slot.ofValue?_of_not_pair
    {items : List Value}
    (hpair : ∀ name value, items = [.string name, value] → value.isBodyForm = false) :
    Slot.ofValue? (.array items) = (Slot.ofValues? items).map .list := by
  rw [Slot.ofValue?]
  · intro name text hitems
    cases hpair _ _ hitems
  · intro name inner hitems
    cases hpair _ _ hitems

mutual

theorem Slot.ofValue?_eq_some_iff :
    ∀ {value : Value} {slot : Slot}, Slot.ofValue? value = some slot ↔ value.Denotes slot
  | .null, slot => by
      rw [Slot.ofValue?, Option.some.injEq]
      exact ⟨fun h => h ▸ .null, fun | .null => rfl⟩
  | .bool false, slot => by
      rw [Slot.ofValue?, Option.some.injEq]
      exact ⟨fun h => h ▸ .no, fun | .no => rfl⟩
  | .bool true, slot => by
      rw [Slot.ofValue?, Option.some.injEq]
      exact ⟨fun h => h ▸ .yes, fun | .yes => rfl⟩
  | .number _, slot => by
      rw [Slot.ofValue?]
      exact ⟨nofun, nofun⟩
  | .string text, slot => by
      rw [Slot.ofValue?, Option.some.injEq]
      exact ⟨fun h => h ▸ .text text, fun | .text _ => rfl⟩
  | .object members, slot => by
      have hmembers : ∀ value, membersNamed "body" members = [("body", value)] →
          ∀ body, Body.ofValue? value = some body ↔ value.DenotesBody body := by
        intro value hbody
        have hmem : ("body", value) ∈ membersNamed "body" members := by simp [hbody]
        exact Body.ofValue?_members_iff members "body" value (List.mem_filter.1 hmem).1
      rw [Slot.ofValue?_object_eq_some_iff]
      constructor
      · rintro ⟨name, value, body, htype, hbody, hvalue, rfl⟩
        exact .object htype hbody ((hmembers value hbody body).1 hvalue)
      · rintro (_ | _ | _ | _ | ⟨htype, hbody, hvalue⟩)
        exact ⟨_, _, _, htype, hbody, (hmembers _ hbody _).2 hvalue, rfl⟩
  | .array items, slot => by
      by_cases hpair : ∀ name value, items = [.string name, value] → value.isBodyForm = false
      · rw [Slot.ofValue?_of_not_pair hpair, Option.map_eq_some_iff]
        constructor
        · rintro ⟨slots, hslots, rfl⟩
          exact .list hpair (Slot.ofValues?_eq_some_iff.1 hslots)
        · rintro (_ | _ | _ | _ | _ | hvalue | ⟨_, hslots⟩)
          · have hform := Json.Value.isBodyForm_of_denotesBody hvalue
            rw [hpair _ _ rfl] at hform
            cases hform
          · exact ⟨_, Slot.ofValues?_eq_some_iff.2 hslots, rfl⟩
      · push Not at hpair
        obtain ⟨name, value, rfl, hform⟩ := hpair
        rw [ne_eq, Bool.not_eq_false] at hform
        rw [Slot.ofValue?_pair hform, Option.map_eq_some_iff]
        constructor
        · rintro ⟨body, hbody, rfl⟩
          exact .pair (Body.ofValue?_eq_some_iff.1 hbody)
        · rintro (_ | _ | _ | _ | _ | hvalue | ⟨hpair, -⟩)
          · exact ⟨_, Body.ofValue?_eq_some_iff.2 hvalue, rfl⟩
          · rw [hpair _ _ rfl] at hform
            cases hform

theorem Body.ofValue?_members_iff :
    ∀ (members : List (String × Value)) (key : String) (value : Value), (key, value) ∈ members →
      ∀ body, Body.ofValue? value = some body ↔ value.DenotesBody body
  | [], _, _, hmember, _ => nomatch hmember
  | (_, first) :: members, key, value, hmember, body => by
      rcases List.mem_cons.1 hmember with hfirst | hmember
      · cases hfirst
        exact Body.ofValue?_eq_some_iff
      · exact Body.ofValue?_members_iff members key value hmember body

theorem Body.ofValue?_eq_some_iff :
    ∀ {value : Value} {body : Body}, Body.ofValue? value = some body ↔ value.DenotesBody body
  | .string text, body => by
      rw [Body.ofValue?, Option.some.injEq]
      exact ⟨fun h => h ▸ .literal text, fun | .literal _ => rfl⟩
  | .array items, body => by
      rw [Body.ofValue?, Option.map_eq_some_iff]
      constructor
      · rintro ⟨slots, hslots, rfl⟩
        exact .slots (Slot.ofValues?_eq_some_iff.1 hslots)
      · rintro ⟨⟩
        rename_i slots hslots
        exact ⟨slots, Slot.ofValues?_eq_some_iff.2 hslots, rfl⟩
  | .null, _ | .bool _, _ | .number _, _ | .object _, _ => by
      rw [Body.ofValue?]
      · exact ⟨nofun, nofun⟩
      · nofun
      · nofun

theorem Slot.ofValues?_eq_some_iff :
    ∀ {values : List Value} {slots : List Slot},
      Slot.ofValues? values = some slots ↔ DenotesAll values slots
  | [], slots => by
      rw [Slot.ofValues?, Option.some.injEq]
      exact ⟨fun h => h ▸ .nil, fun | .nil => rfl⟩
  | value :: values, [] => by
      rw [Slot.ofValues?]
      refine ⟨?_, nofun⟩
      intro hslots
      obtain ⟨slot, -, hslots⟩ := Option.bind_eq_some_iff.1 hslots
      obtain ⟨slots, -, hslots⟩ := Option.bind_eq_some_iff.1 hslots
      cases hslots
  | value :: values, slot :: slots => by
      rw [Slot.ofValues?_cons_eq_some_iff, Slot.ofValue?_eq_some_iff, Slot.ofValues?_eq_some_iff]
      exact ⟨fun ⟨hvalue, hvalues⟩ => .cons hvalue hvalues,
        fun | .cons hvalue hvalues => ⟨hvalue, hvalues⟩⟩

end

end TreeFormat

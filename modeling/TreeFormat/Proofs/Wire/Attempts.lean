import TreeFormat.Proofs.Wire.Grammar

/-!
# Attempts and the grammar

Trying one alternative after the other comes to the same as looking at the form of a value
first (`Slot.attempt_eq_ofValue?`).  The two differ most where an array of two elements
could be a node but its second element holds something that may not stand there: one
decoder gives up, and the other one tries the array as a list and fails at the same place.

So both accept exactly the grammar, and what they give is what the grammar says
(`Slot.attempt_eq_some_iff_denotes`).
-/

namespace TreeFormat

open Json (Value)
open Json.Value (membersNamed Denotes DenotesBody DenotesAll)

/-! ## Arrays -/

/-- An array is refused only if one of its elements is, whether it is a node or a list. -/
theorem Slot.ofValue?_array_eq_none_iff
    {items : List Value} : Slot.ofValue? (.array items) = none ↔ Slot.ofValues? items = none := by
  have harray : (∃ slot, Value.Denotes (.array items) slot) ↔ ∃ slots, DenotesAll items slots := by
    rw [Json.Value.exists_denotes_iff_isSlot]
    constructor
    · rintro (_ | _ | _ | _ | _ | hitems)
      exact Json.Value.exists_denotesAll fun item hitem => (hitems item hitem).denotes.1
    · rintro ⟨slots, hslots⟩
      exact .array (Json.Value.isSlot_of_denotesAll hslots)
  simp only [← Slot.ofValue?_eq_some_iff, ← Slot.ofValues?_eq_some_iff,
    ← Option.isSome_iff_exists] at harray
  rw [← Option.not_isSome_iff_eq_none, ← Option.not_isSome_iff_eq_none, harray]

/-- A value that has not the form of a body is not taken for one. -/
theorem Body.attempt_of_not_bodyForm
    {value : Value} (hform : value.isBodyForm = false) : Body.attempt value = none := by
  rw [Body.attempt]
  cases value with
  | string text => cases hform
  | array items => cases hform
  | _ =>
      rw [RawSlot.attemptItems]
      · rfl
      · intro items hitems
        cases hitems

theorem Node.attempt_pair
    (name : String) (value : Value) :
    Node.attempt (.array [.string name, value]) =
      (Body.attempt value).map fun body => body.toNode (Kind.ofName name) := by
  rw [Node.attempt]
  cases Body.attempt value <;> rfl

theorem Node.attempt_of_not_pair
    {items : List Value}
    (hpair : ∀ name value, items = [.string name, value] → value.isBodyForm = false) :
    Node.attempt (.array items) = none := by
  by_cases htwo : ∃ type body, items = [type, body]
  · obtain ⟨type, body, rfl⟩ := htwo
    rw [Node.attempt]
    cases type with
    | string name => simp [Json.Value.text?, Body.attempt_of_not_bodyForm (hpair name body rfl)]
    | _ => rfl
  · rw [Node.attempt]
    · intro members hmembers
      cases hmembers
    · rintro type body hitems
      cases hitems
      exact htwo ⟨type, body, rfl⟩

/-! ## Members -/

/-- What every `type` member of an object stands for. -/
def Kind.ofMembers (members : List (String × Value)) : List (Option Kind) :=
  (membersNamed "type" members).map fun member => member.2.text?.map Kind.ofName

theorem Kind.ofMembers_eq_single_iff
    {members : List (String × Value)} {kind : Kind} :
    Kind.ofMembers members = [some kind] ↔
      ∃ name, membersNamed "type" members = [("type", .string name)] ∧ Kind.ofName name = kind := by
  constructor
  · intro hkinds
    obtain ⟨⟨key, value⟩, hmembers, hkind⟩ := List.map_eq_singleton_iff.1 hkinds
    obtain ⟨name, hname, rfl⟩ := Option.map_eq_some_iff.1 hkind
    have hmem : (key, value) ∈ membersNamed "type" members := by simp [hmembers]
    have hkey : key = "type" := by simpa using (List.mem_filter.1 hmem).2
    cases value with
    | string text =>
        cases hname
        exact ⟨name, hkey ▸ hmembers, rfl⟩
    | _ => cases hname
  · rintro ⟨name, hmembers, rfl⟩
    rw [Kind.ofMembers, hmembers]
    rfl

theorem Kind.ofMembers_cons (key : String) (value : Value) (members : List (String × Value)) :
    Kind.ofMembers ((key, value) :: members) =
      if key = "type" then value.text?.map Kind.ofName :: Kind.ofMembers members
      else Kind.ofMembers members := by
  by_cases hkey : key = "type" <;> simp [Kind.ofMembers, membersNamed, hkey]

/-- With what was found before, the members give one type and one body. -/
theorem Node.attemptMembers_eq_some_iff
    {members : List (String × Value)}
    (hbodies : ∀ member ∈ members, Body.attempt member.2 = Body.ofValue? member.2)
    {kind? : Option Kind} {body? : Option Body} {node : Node} :
    Node.attemptMembers kind? body? members = some node ↔
      ∃ kind body, kind?.toList.map some ++ Kind.ofMembers members = [some kind] ∧
        body?.toList.map some ++ Body.ofMembers members = [some body] ∧
          body.toNode kind = node := by
  induction members generalizing kind? body? with
  | nil =>
      rw [Node.attemptMembers, Body.ofMembers, Kind.ofMembers]
      cases kind? <;> cases body? <;> simp [membersNamed]
  | cons member members ih =>
      obtain ⟨key, value⟩ := member
      rw [List.forall_mem_cons] at hbodies
      obtain ⟨hbody, hrest⟩ := hbodies
      rw [Node.attemptMembers.eq_def, Body.ofMembers, Kind.ofMembers_cons]
      dsimp only at hbody ⊢
      by_cases htype : key = "type"
      · -- a second type is one too many
        subst htype
        cases kind? with
        | some kind => simp
        | none =>
            cases value.text? with
            | none => simp
            | some name => simp [ih hrest]
      · by_cases hkey : key = "body"
        · -- and so is a second body
          subst hkey
          rw [hbody]
          cases body? with
          | some body => simp
          | none =>
              cases Body.ofValue? value with
              | none => simp
              | some body => simp [ih hrest]
        · simp only [if_neg htype, if_neg hkey]
          exact ih hrest

theorem Node.attempt_object
    {members : List (String × Value)}
    (hbodies : ∀ member ∈ members, Body.attempt member.2 = Body.ofValue? member.2) :
    (Node.attempt (.object members)).map Slot.node = Slot.ofValue? (.object members) := by
  rw [Node.attempt]
  apply Option.ext
  intro slot
  rw [Option.map_eq_some_iff, Slot.ofValue?_object_eq_some_iff]
  constructor
  · rintro ⟨node, hnode, rfl⟩
    obtain ⟨kind, body, hkind, hbody, rfl⟩ := (Node.attemptMembers_eq_some_iff hbodies).1 hnode
    obtain ⟨name, htype, rfl⟩ := Kind.ofMembers_eq_single_iff.1 hkind
    obtain ⟨value, hmembers, hvalue⟩ := Body.ofMembers_eq_single_iff.1 hbody
    exact ⟨name, value, body, htype, hmembers, hvalue, rfl⟩
  · rintro ⟨name, value, body, htype, hmembers, hvalue, rfl⟩
    have hkind := Kind.ofMembers_eq_single_iff.2 ⟨name, htype, rfl⟩
    have hbody := Body.ofMembers_eq_single_iff.2 ⟨value, hmembers, hvalue⟩
    exact ⟨_, (Node.attemptMembers_eq_some_iff hbodies).2 ⟨_, _, hkind, hbody, rfl⟩, rfl⟩

mutual

theorem RawSlot.map_attempt :
    ∀ value : Value, (RawSlot.attempt value).map RawSlot.toSlot = Slot.ofValue? value
  | .null => by
      rw [RawSlot.attempt]
      rfl
  | .bool value => by
      rw [RawSlot.attempt]
      cases value <;> rfl
  | .string text => by
      rw [RawSlot.attempt]
      rfl
  | .number numeral => by
      rw [RawSlot.attempt, Node.attempt, RawSlot.attemptItems, Slot.ofValue?]
      · rfl
      · nofun
      · nofun
      · nofun
  | .object members => by
      have hnode := Node.attempt_object (Body.attempt_members members)
      rw [RawSlot.attempt, RawSlot.attemptItems, ← hnode]
      · cases Node.attempt (.object members) <;> rfl
      · nofun
  | .array items => by
      have hitems := RawSlot.map_attemptAll items
      have hlist : ((RawSlot.attemptAll items).map RawSlot.list).map RawSlot.toSlot =
          (Slot.ofValues? items).map .list := by
        rw [← hitems, Option.map_map, Option.map_map]
        rfl
      have hattempt : (RawSlot.attempt (.array items)).map RawSlot.toSlot =
          ((Node.attempt (.array items)).map Slot.node).or ((Slot.ofValues? items).map .list) := by
        rw [RawSlot.attempt, RawSlot.attemptItems, ← hlist]
        cases Node.attempt (.array items) <;> rfl
      rw [hattempt]
      by_cases hpair : ∀ name value, items = [.string name, value] → value.isBodyForm = false
      · rw [Node.attempt_of_not_pair hpair, Slot.ofValue?_of_not_pair hpair]
        rfl
      · push Not at hpair
        obtain ⟨name, value, rfl, hform⟩ := hpair
        rw [ne_eq, Bool.not_eq_false] at hform
        have hslot := Slot.ofValue?_pair hform name
        rw [Node.attempt_pair, Body.attempt_eq_ofValue? value, hslot]
        cases hbody : Body.ofValue? value with
        | some body => rfl
        | none =>
            -- The list fails as well, because an array is refused only for its elements.
            rw [hbody] at hslot
            rw [Slot.ofValue?_array_eq_none_iff.1 hslot]
            rfl

theorem Body.attempt_eq_ofValue? :
    ∀ value : Value, Body.attempt value = Body.ofValue? value
  | .string text => by
      rw [Body.attempt]
      rfl
  | .array items => by
      have hitems := RawSlot.map_attemptAll items
      rw [Body.attempt, RawSlot.attemptItems, Body.ofValue?, ← hitems, Option.map_map]
      rfl
  | .null => Body.attempt_of_not_bodyForm rfl
  | .bool _ => Body.attempt_of_not_bodyForm rfl
  | .number _ => Body.attempt_of_not_bodyForm rfl
  | .object _ => Body.attempt_of_not_bodyForm rfl

theorem Body.attempt_members :
    ∀ members : List (String × Value), ∀ member ∈ members,
      Body.attempt member.2 = Body.ofValue? member.2
  | [] => by simp
  | (_, value) :: members => by
      rw [List.forall_mem_cons]
      exact ⟨Body.attempt_eq_ofValue? value, Body.attempt_members members⟩

theorem RawSlot.map_attemptAll :
    ∀ values : List Value,
      (RawSlot.attemptAll values).map RawSlot.toSlots = Slot.ofValues? values
  | [] => by
      rw [RawSlot.attemptAll]
      rfl
  | value :: values => by
      rw [RawSlot.attemptAll, Slot.ofValues?, ← RawSlot.map_attempt value,
        ← RawSlot.map_attemptAll values]
      cases RawSlot.attempt value <;> cases RawSlot.attemptAll values <;> rfl

end

theorem Slot.attempt_eq_ofValue? (value : Value) : Slot.attempt value = Slot.ofValue? value :=
  RawSlot.map_attempt value

/-- Trying the alternatives one after the other accepts exactly the values of the grammar
and gives the slots that they stand for, and so does the decoder that looks at the form of
a value first. -/
theorem Slot.attempt_eq_some_iff_denotes (value : Value) :
    ((∃ slot, Slot.attempt value = some slot) ↔ value.IsSlot) ∧
      (∀ slot, Slot.attempt value = some slot ↔ value.Denotes slot) ∧
        Slot.ofValue? value = Slot.attempt value := by
  have hdenotes : ∀ slot, Slot.attempt value = some slot ↔ value.Denotes slot := by
    intro slot
    rw [Slot.attempt_eq_ofValue?]
    exact Slot.ofValue?_eq_some_iff
  refine ⟨?_, hdenotes, (Slot.attempt_eq_ofValue? value).symm⟩
  simp only [hdenotes]
  exact Json.Value.exists_denotes_iff_isSlot

end TreeFormat

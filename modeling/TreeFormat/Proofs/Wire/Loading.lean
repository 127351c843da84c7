import TreeFormat.Proofs.Json.Nesting
import TreeFormat.Proofs.Wire.RoundTrip

/-!
# What a loaded tree is made of

Whatever its members are and in which order they come, a root that is read has a kind that
some name stands for and a body that some value stands for, and that value nests less
deeply than the room that is left inside the root (`isRead_of_loadTree`).
-/

namespace TreeFormat

open Json (Value Fault)

/-- A body that stands in some text, where there is room for a number of arrays and objects
to be open at once. -/
def Body.IsRead (room : Nat) (body : Body) : Prop :=
  ∃ value : Value, value.nesting < room ∧ Body.ofValue? value = some body

/-- A node with a type and a body that stand in some text, where there is room for a number
of arrays and objects to be open at once inside of the node. -/
def Node.IsRead (room : Nat) (node : Node) : Prop :=
  ∃ (kind : Kind) (body : Body), kind.IsNamed ∧ body.IsRead room ∧ node = body.toNode kind

namespace RootReader

theorem eq_ok_of_lift
    {α : Type} {reading : Except Fault α} {value : α} (hlift : lift reading = .ok value) :
    reading = .ok value := by
  cases reading with
  | error fault => cases hlift
  | ok read => exact congrArg _ (Except.ok.inj hlift)

theorem isNamed_of_readType
    {text rest : List Char} {kind : Kind} (hread : readType text = .ok (kind, rest)) :
    kind.IsNamed := by
  rw [readType] at hread
  split at hread
  · cases hread
  · split at hread
    · obtain ⟨⟨name, _⟩, -, hkind⟩ := exists_of_bind_eq_ok hread
      cases hkind
      exact ⟨name, rfl⟩
    · cases hread

variable {room : Nat}

theorem isRead_of_readBody
    {text rest : List Char} {body : Body} (hroom : 0 < room)
    (hread : readBody room text = .ok (body, rest)) : body.IsRead room := by
  obtain ⟨⟨value, _⟩, hvalue, hread⟩ := exists_of_bind_eq_ok hread
  have hnesting := Value.nesting_lt_of_read hroom (eq_ok_of_lift hvalue)
  dsimp only at hread
  split at hread
  · rename_i found hbody
    cases hread
    exact ⟨value, hnesting, hbody⟩
  · cases hread

theorem isRead_of_readFields (hroom : 0 < room) :
    ∀ {fuel : Nat} {first : Bool} {kind? : Option Kind} {body? : Option Body}
      {text rest : List Char} {node : Node},
      (∀ kind ∈ kind?, kind.IsNamed) → (∀ body ∈ body?, body.IsRead room) →
      readFields room fuel first kind? body? text = .ok (node, rest) → node.IsRead room
  | 0, _, _, _, _, _, _, _, _, hread => by cases hread
  | fuel + 1, first, kind?, body?, text, rest, node, hkind?, hbody?, hread => by
      unfold readFields at hread
      obtain ⟨next, -, hread⟩ := exists_of_bind_eq_ok hread
      cases next with
      | none =>
          cases kind? with
          | none => cases hread
          | some kind =>
              cases body? with
              | none => cases hread
              | some body =>
                  cases hread
                  exact ⟨kind, body, hkind? kind rfl, hbody? body rfl, rfl⟩
      | some member =>
          obtain ⟨key, text⟩ := member
          dsimp only at hread
          split at hread
          · -- a second type stops the reader
            split at hread
            · cases hread
            obtain ⟨_, -, hread⟩ := exists_of_bind_eq_ok hread
            obtain ⟨⟨kind, _⟩, hkind, hread⟩ := exists_of_bind_eq_ok hread
            refine isRead_of_readFields hroom ?_ hbody? hread
            rintro _ ⟨⟩
            exact isNamed_of_readType hkind
          split at hread
          · -- a second body stops the reader
            split at hread
            · cases hread
            obtain ⟨_, -, hread⟩ := exists_of_bind_eq_ok hread
            obtain ⟨⟨body, _⟩, hbody, hread⟩ := exists_of_bind_eq_ok hread
            refine isRead_of_readFields hroom hkind? ?_ hread
            rintro _ ⟨⟩
            exact isRead_of_readBody hroom hbody
          · obtain ⟨_, -, hread⟩ := exists_of_bind_eq_ok hread
            obtain ⟨_, -, hread⟩ := exists_of_bind_eq_ok hread
            exact isRead_of_readFields hroom hkind? hbody? hread

theorem isRead_of_readPair
    {text rest : List Char} {node : Node} (hroom : 0 < room)
    (hread : readPair room text = .ok (node, rest)) : node.IsRead room := by
  obtain ⟨first, -, hread⟩ := exists_of_bind_eq_ok hread
  cases first with
  | none => cases hread
  | some text =>
      obtain ⟨⟨kind, text⟩, hkind, hread⟩ := exists_of_bind_eq_ok hread
      obtain ⟨second, -, hread⟩ := exists_of_bind_eq_ok hread
      cases second with
      | none => cases hread
      | some text =>
          obtain ⟨⟨body, text⟩, hbody, hread⟩ := exists_of_bind_eq_ok hread
          cases hread
          exact ⟨kind, body, isNamed_of_readType hkind, isRead_of_readBody hroom hbody, rfl⟩

theorem exists_inside_of_close
    {closing : List Char → List Char × Option Fault}
    {inside : Except Halt (Node × List Char)} {node : Node} {rest : List Char}
    (hclose : close closing inside = .ok (node, rest)) :
    ∃ text, inside = .ok (node, text) := by
  cases inside with
  | error halt => cases halt <;> cases hclose
  | ok read =>
      obtain ⟨found, text⟩ := read
      rw [close] at hclose
      split at hclose
      · cases hclose
        exact ⟨text, rfl⟩
      · cases hclose

theorem isRead_of_readRoot
    {text rest : List Char} {node : Node} (hread : readRoot text = .ok (node, rest)) :
    node.IsRead (depthLimit - 1) := by
  have hroom : 0 < depthLimit - 1 := by decide
  rw [readRoot] at hread
  split at hread
  · cases hread
  · split at hread
    · obtain ⟨_, hfields⟩ := exists_inside_of_close hread
      exact isRead_of_readFields hroom (by simp) (by simp) hfields
    split at hread
    · obtain ⟨_, hpair⟩ := exists_inside_of_close hread
      exact isRead_of_readPair hroom hpair
    · cases hread

end RootReader

/-- A loaded tree is made of a type and a body that stand in the text, with the whole of
the room inside the root for the body. -/
theorem isRead_of_loadTree
    {text path : String} {node : Node} (hload : loadTree text path = .ok node) :
    node.IsRead (RootReader.depthLimit - 1) := by
  have hread := loadTree_eq_ok_iff.1 hload
  obtain ⟨⟨found, rest⟩, hroot, hread⟩ := exists_of_bind_eq_ok hread
  dsimp only at hread
  split at hread
  · cases hread
    exact RootReader.isRead_of_readRoot hroot
  · cases hread

end TreeFormat

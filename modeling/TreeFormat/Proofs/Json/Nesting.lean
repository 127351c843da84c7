import TreeFormat.Json.Value

/-!
# How deep a value nests that was read

The reader has room for a number of arrays and objects that are open at once, and takes
one off for every bracket and brace.  So a value that was read nests less deeply than there
was room for (`Value.nesting_lt_of_read`), whatever the text was.
-/

namespace TreeFormat

theorem exists_of_map_eq_ok
    {ε α β : Type} {result : Except ε α} {change : α → β} {value : β}
    (hvalue : result.map change = .ok value) :
    ∃ before, result = .ok before ∧ change before = value := by
  cases result with
  | error fault => cases hvalue
  | ok before => exact ⟨before, rfl, Except.ok.inj hvalue⟩

theorem exists_of_bind_eq_ok
    {ε α β : Type} {result : Except ε α} {next : α → Except ε β} {value : β}
    (hvalue : (result >>= next) = .ok value) :
    ∃ before, result = .ok before ∧ next before = .ok value := by
  cases result with
  | error fault => cases hvalue
  | ok before => exact ⟨before, rfl, hvalue⟩

namespace Json.Value

theorem nesting_of_map
    {α : Type} {room : Nat} {reading : Except Fault α} {form : α → Value × List Char}
    {value : Value} {rest : List Char}
    (hread : reading.map form = .ok (value, rest))
    (hform : ∀ part, reading = .ok part → (form part).1.nesting < room) :
    value.nesting < room := by
  obtain ⟨part, hpart, hvalue⟩ := exists_of_map_eq_ok hread
  have hnesting := hform part hpart
  rwa [hvalue] at hnesting

mutual

theorem nesting_readWithin :
    ∀ {fuel room : Nat} {text : List Char} {value : Value} {rest : List Char}, 0 < room →
      readWithin fuel room text = .ok (value, rest) → value.nesting < room
  | 0, _, _, _, _, _, hread => by cases hread
  | fuel + 1, room, text, value, rest, hroom, hread => by
      rw [readWithin] at hread
      split at hread
      · cases hread
      split at hread
      · exact nesting_of_map hread fun _ _ => hroom
      split at hread
      · exact nesting_of_map hread fun _ _ => hroom
      split at hread
      · exact nesting_of_map hread fun _ _ => hroom
      split at hread
      · exact nesting_of_map hread fun _ _ => hroom
      split at hread
      · split at hread
        · cases hread
        · refine nesting_of_map hread ?_
          intro items hitems
          have hbelow := nesting_readElements (by omega) hitems
          rw [nesting]
          omega
      split at hread
      · split at hread
        · cases hread
        · refine nesting_of_map hread ?_
          intro members hmembers
          have hbelow := nesting_readMembers (by omega) hmembers
          rw [nesting]
          omega
      split at hread
      · exact nesting_of_map hread fun _ _ => hroom
      · cases hread

theorem nesting_readElements :
    ∀ {fuel room : Nat} {first : Bool} {text : List Char} {items : List Value}
      {rest : List Char}, 0 < room →
      readElements fuel room first text = .ok (items, rest) → nestingAll items < room
  | 0, _, _, _, _, _, _, hread => by cases hread
  | fuel + 1, room, first, text, items, rest, hroom, hread => by
      rw [readElements] at hread
      obtain ⟨next, -, hread⟩ := exists_of_bind_eq_ok hread
      cases next with
      | none =>
          cases hread
          simpa [nestingAll] using hroom
      | some text =>
          obtain ⟨⟨item, between⟩, hitem, hread⟩ := exists_of_bind_eq_ok hread
          obtain ⟨⟨more, _⟩, hmore, hread⟩ := exists_of_bind_eq_ok hread
          cases hread
          rw [nestingAll, Nat.max_lt]
          exact ⟨nesting_readWithin hroom hitem, nesting_readElements hroom hmore⟩

theorem nesting_readMembers :
    ∀ {fuel room : Nat} {first : Bool} {text : List Char} {members : List (String × Value)}
      {rest : List Char}, 0 < room →
      readMembers fuel room first text = .ok (members, rest) → nestingMembers members < room
  | 0, _, _, _, _, _, _, hread => by cases hread
  | fuel + 1, room, first, text, members, rest, hroom, hread => by
      rw [readMembers] at hread
      obtain ⟨next, -, hread⟩ := exists_of_bind_eq_ok hread
      cases next with
      | none =>
          cases hread
          simpa [nestingMembers] using hroom
      | some entry =>
          obtain ⟨key, text⟩ := entry
          obtain ⟨behindColon, -, hread⟩ := exists_of_bind_eq_ok hread
          obtain ⟨⟨value, between⟩, hvalue, hread⟩ := exists_of_bind_eq_ok hread
          obtain ⟨⟨more, _⟩, hmore, hread⟩ := exists_of_bind_eq_ok hread
          cases hread
          rw [nestingMembers, Nat.max_lt]
          exact ⟨nesting_readWithin hroom hvalue, nesting_readMembers hroom hmore⟩

end

/-- A value that was read nests less deeply than the room allows. -/
theorem nesting_lt_of_read
    {room : Nat} {text : List Char} {value : Value} {rest : List Char} (hroom : 0 < room)
    (hread : read room text = .ok (value, rest)) : value.nesting < room :=
  nesting_readWithin hroom hread

end Json.Value

end TreeFormat

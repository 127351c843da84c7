import Mathlib.Data.List.Basic
import TreeFormat.Json.Value
import TreeFormat.Proofs.Json.StringRoundTrip

/-!
# Values read back

A written value that has no numerals inside is taken off a text again, whatever
follows it, as long as fewer arrays and objects are open at once than the reader
has room for.  Where there are more, the reader refuses the text as too deep.
Both outcomes are one statement, `ReadsBack`, so that one induction over the
value covers them.
-/

namespace TreeFormat.Json

namespace Value

mutual

/-- No numeral stands inside a value. -/
def NumberFree : Value → Prop
  | .number _ => False
  | .array items => AllNumberFree items
  | .object members => MembersNumberFree members
  | _ => True

/-- No numeral stands inside any of several values. -/
def AllNumberFree : List Value → Prop
  | [] => True
  | item :: items => item.NumberFree ∧ AllNumberFree items

/-- No numeral stands inside any of several members. -/
def MembersNumberFree : List (String × Value) → Prop
  | [] => True
  | (_, value) :: members => value.NumberFree ∧ MembersNumberFree members

end

/-! ## What follows a bracket or a brace -/

/-- The text of the elements that are left, in front of the first one or after
another one. -/
def renderElements (first : Bool) (items : List Value) : List Char :=
  if first then renderItems items else renderMoreItems items

/-- The text of the members that are left, in front of the first one or after
another one. -/
def renderFields (first : Bool) (members : List (String × Value)) : List Char :=
  if first then renderMembers members else renderMoreMembers members

theorem skipBlanks_cons
    {c : Char} (hc : isBlank c = false) (rest : List Char) :
    skipBlanks (c :: rest) = c :: rest := by
  simp [skipBlanks, hc]

/-- The text of a value without numerals starts with a character that is neither
a blank nor a closing bracket. -/
theorem exists_head_render
    {value : Value} (hvalue : value.NumberFree) :
    ∃ c rest, value.render = c :: rest ∧ isBlank c = false ∧ c ≠ ']' := by
  cases value with
  | null => exact ⟨'n', _, rfl, by decide, by decide⟩
  | bool flag =>
      cases flag with
      | false => exact ⟨'f', _, rfl, by decide, by decide⟩
      | true => exact ⟨'t', _, rfl, by decide, by decide⟩
  | number numeral => exact hvalue.elim
  | string text => exact ⟨'"', _, rfl, by decide, by decide⟩
  | array items => exact ⟨'[', _, by rw [render], by decide, by decide⟩
  | object members => exact ⟨'\x7b', _, by rw [render], by decide, by decide⟩

theorem nextElement_nil
    (first : Bool) (rest : List Char) :
    nextElement first (renderElements first [] ++ rest) = .ok none := by
  have hblank : isBlank ']' = false := by decide
  cases first <;> simp [renderElements, renderItems, renderMoreItems, nextElement,
    skipBlanks_cons hblank]

theorem dropClosing_renderElements
    (first : Bool) (rest : List Char) :
    dropClosing (renderElements first [] ++ rest) = rest := by
  have hblank : isBlank ']' = false := by decide
  cases first <;> simp [renderElements, renderItems, renderMoreItems, dropClosing,
    skipBlanks_cons hblank]

theorem nextElement_cons
    {item : Value} (hitem : item.NumberFree)
    (first : Bool) (items : List Value) (rest : List Char) :
    nextElement first (renderElements first (item :: items) ++ rest) =
      .ok (some (item.render ++ (renderElements false items ++ rest))) := by
  obtain ⟨c, tail, hrender, hblank, hbracket⟩ := exists_head_render hitem
  have hcomma : isBlank ',' = false := by decide
  cases first with
  | true =>
      simp [renderElements, renderItems, hrender, nextElement, skipBlanks_cons hblank,
        hbracket]
  | false =>
      simp [renderElements, renderMoreItems, hrender, nextElement, skipBlanks_cons hblank,
        skipBlanks_cons hcomma, hbracket]

theorem nextKey_nil
    (first : Bool) (rest : List Char) :
    nextKey first (renderFields first [] ++ rest) = .ok none := by
  have hblank : isBlank '\x7d' = false := by decide
  cases first <;> simp [renderFields, renderMembers, renderMoreMembers, nextKey,
    skipBlanks_cons hblank]

theorem dropClosing_renderFields
    (first : Bool) (rest : List Char) :
    dropClosing (renderFields first [] ++ rest) = rest := by
  have hblank : isBlank '\x7d' = false := by decide
  cases first <;> simp [renderFields, renderMembers, renderMoreMembers, dropClosing,
    skipBlanks_cons hblank]

theorem nextKey_cons
    (first : Bool) (key : String) (value : Value)
    (members : List (String × Value)) (rest : List Char) :
    nextKey first (renderFields first ((key, value) :: members) ++ rest) =
      .ok (some (key, ':' :: (value.render ++ (renderFields false members ++ rest)))) := by
  have hquote : isBlank '"' = false := by decide
  have hcomma : isBlank ',' = false := by decide
  have hread := Quoted.read_render key
    (':' :: (value.render ++ (renderMoreMembers members ++ rest)))
  cases first with
  | true =>
      simp [renderFields, renderMembers, Quoted.render, nextKey, skipBlanks_cons hquote,
        hread, Except.map]
  | false =>
      simp [renderFields, renderMoreMembers, Quoted.render, nextKey, skipBlanks_cons hquote,
        skipBlanks_cons hcomma, hread, Except.map]

theorem expectColon_colon (rest : List Char) : expectColon (':' :: rest) = .ok rest := by
  have hcolon : isBlank ':' = false := by decide
  simp [expectColon, skipBlanks_cons hcolon]

theorem length_render_pos
    {value : Value} (hvalue : value.NumberFree) : 0 < value.render.length := by
  obtain ⟨c, rest, hrender, -, -⟩ := exists_head_render hvalue
  simp [hrender]

theorem length_renderElements_pos (items : List Value) :
    0 < (renderElements false items).length := by
  cases items <;> simp [renderElements, renderMoreItems]

/-! ## Reading back -/

/-- What reading a written text gives: the text behind it where its nesting fits,
and a refusal otherwise. -/
def ReadsBack {α : Type}
    (fits : Prop) (written : α) (rest : List Char)
    (reading : Except Fault (α × List Char)) : Prop :=
  (fits → reading = .ok (written, rest)) ∧
    (¬fits → ∃ unread, reading = .error ⟨.tooDeep, unread⟩)

theorem ReadsBack.of_fits
    {α : Type} {fits : Prop} {written : α} {rest : List Char}
    {reading : Except Fault (α × List Char)}
    (hfits : fits) (hreading : reading = .ok (written, rest)) :
    ReadsBack fits written rest reading :=
  ⟨fun _ => hreading, fun hdeep => absurd hfits hdeep⟩

theorem ReadsBack.map
    {α β : Type} {fits : Prop} {written : α} {rest : List Char}
    {reading : Except Fault (α × List Char)}
    (hreading : ReadsBack fits written rest reading) (form : α → β) :
    ReadsBack fits (form written) rest
      (reading.map fun (value, rest) => (form value, rest)) := by
  constructor
  · intro hfits
    rw [hreading.1 hfits]
    rfl
  · intro hdeep
    obtain ⟨unread, herror⟩ := hreading.2 hdeep
    exact ⟨unread, by rw [herror]; rfl⟩

theorem ReadsBack.bind
    {α β : Type} {fits fits' : Prop} {written : α} {written' : β}
    {rest rest' : List Char} {reading : Except Fault (α × List Char)}
    {next : α × List Char → Except Fault (β × List Char)}
    (hreading : ReadsBack fits written rest reading)
    (hnext : ReadsBack fits' written' rest' (next (written, rest))) :
    ReadsBack (fits ∧ fits') written' rest' (reading >>= next) := by
  by_cases hfits : fits
  · rw [hreading.1 hfits]
    exact ⟨fun h => hnext.1 h.2, fun h => hnext.2 fun hfits' => h ⟨hfits, hfits'⟩⟩
  · obtain ⟨unread, herror⟩ := hreading.2 hfits
    rw [herror]
    exact ⟨fun h => absurd h.1 hfits, fun _ => ⟨unread, rfl⟩⟩

theorem ReadsBack.congr
    {α : Type} {fits fits' : Prop} {written : α} {rest : List Char}
    {reading : Except Fault (α × List Char)}
    (hreading : ReadsBack fits written rest reading) (hfits : fits ↔ fits') :
    ReadsBack fits' written rest reading := by
  rwa [← propext hfits]

theorem readElements_succ
    {item : Value} (hitem : item.NumberFree) (fuel room : Nat) (first : Bool)
    (items : List Value) (rest : List Char) :
    readElements (fuel + 1) room first (renderElements first (item :: items) ++ rest) =
      readWithin fuel room (item.render ++ (renderElements false items ++ rest)) >>=
        fun (item, text) => (readElements fuel room false text).map
          fun (items, text) => (item :: items, text) := by
  rw [readElements, nextElement_cons hitem]
  rfl

theorem readMembers_succ
    (fuel room : Nat) (first : Bool) (key : String) (value : Value)
    (members : List (String × Value)) (rest : List Char) :
    readMembers (fuel + 1) room first
        (renderFields first ((key, value) :: members) ++ rest) =
      readWithin fuel room (value.render ++ (renderFields false members ++ rest)) >>=
        fun (value, text) => (readMembers fuel room false text).map
          fun (members, text) => ((key, value) :: members, text) := by
  rw [readMembers, nextKey_cons]
  simp only [bind, Except.bind, expectColon_colon]
  rfl

/-! The inductions below follow the writer.  Every call of a reader spends one unit
of fuel and every second one takes a character, so that fuel for twice the length
of the written text is always enough. -/

mutual

theorem readWithin_render :
    ∀ {value : Value}, value.NumberFree → ∀ (fuel room : Nat) (rest : List Char),
      2 * value.render.length ≤ fuel → 0 < room →
        ReadsBack (value.nesting < room) value rest
          (readWithin fuel room (value.render ++ rest))
  | .null, _, fuel, room, rest, hfuel, hroom => by
      obtain ⟨fuel, rfl⟩ : ∃ less, fuel = less + 1 :=
        Nat.exists_eq_add_one.2 (by simp [render] at hfuel; omega)
      apply ReadsBack.of_fits
      · simpa [nesting] using hroom
      · simp [render, readWithin, skipBlanks, isBlank, expectWord, Except.map]
  | .bool flag, _, fuel, room, rest, hfuel, hroom => by
      obtain ⟨fuel, rfl⟩ : ∃ less, fuel = less + 1 :=
        Nat.exists_eq_add_one.2 (by cases flag <;> simp [render] at hfuel <;> omega)
      apply ReadsBack.of_fits
      · simpa [nesting] using hroom
      · cases flag <;>
          simp [render, readWithin, skipBlanks, isBlank, expectWord, Except.map]
  | .string text, _, fuel, room, rest, hfuel, hroom => by
      obtain ⟨fuel, rfl⟩ : ∃ less, fuel = less + 1 :=
        Nat.exists_eq_add_one.2 (by simp [render, Quoted.render] at hfuel; omega)
      apply ReadsBack.of_fits
      · simpa [nesting] using hroom
      · simp [render, Quoted.render, readWithin, skipBlanks, isBlank, Quoted.read_render,
          Except.map]
  | .array items, hfree, fuel, room, rest, hfuel, hroom => by
      rw [render, List.length_cons] at hfuel
      obtain ⟨fuel, rfl⟩ : ∃ less, fuel = less + 1 := Nat.exists_eq_add_one.2 (by omega)
      by_cases hlast : room ≤ 1
      · constructor
        · intro hfits
          rw [nesting] at hfits
          omega
        · intro _
          exact ⟨_, by simp [render, readWithin, skipBlanks, isBlank, hlast]; rfl⟩
      · have hitems := readElements_render hfree fuel (room - 1) true rest
          (by simp only [renderElements, if_true]; omega) (by omega)
        have hread : readWithin (fuel + 1) room ((array items).render ++ rest) =
            (readElements fuel (room - 1) true (renderElements true items ++ rest)).map
              fun (items, rest) => (array items, rest) := by
          simp [render, readWithin, skipBlanks, isBlank, hlast, renderElements]
        rw [hread]
        exact (hitems.map array).congr (by rw [nesting]; omega)
  | .object members, hfree, fuel, room, rest, hfuel, hroom => by
      rw [render, List.length_cons] at hfuel
      obtain ⟨fuel, rfl⟩ : ∃ less, fuel = less + 1 := Nat.exists_eq_add_one.2 (by omega)
      by_cases hlast : room ≤ 1
      · constructor
        · intro hfits
          rw [nesting] at hfits
          omega
        · intro _
          exact ⟨_, by simp [render, readWithin, skipBlanks, isBlank, hlast]; rfl⟩
      · have hmembers := readMembers_render hfree fuel (room - 1) true rest
          (by simp only [renderFields, if_true]; omega) (by omega)
        have hread : readWithin (fuel + 1) room ((object members).render ++ rest) =
            (readMembers fuel (room - 1) true (renderFields true members ++ rest)).map
              fun (members, rest) => (object members, rest) := by
          simp [render, readWithin, skipBlanks, isBlank, hlast, renderFields]
        rw [hread]
        exact (hmembers.map object).congr (by rw [nesting]; omega)

theorem readElements_render :
    ∀ {items : List Value}, AllNumberFree items → ∀ (fuel room : Nat) (first : Bool)
      (rest : List Char), 2 * (renderElements first items).length ≤ fuel → 0 < room →
        ReadsBack (nestingAll items < room) items rest
          (readElements fuel room first (renderElements first items ++ rest))
  | [], _, fuel, room, first, rest, hfuel, hroom => by
      obtain ⟨fuel, rfl⟩ : ∃ less, fuel = less + 1 := Nat.exists_eq_add_one.2 (by
        cases first <;> simp [renderElements, renderItems, renderMoreItems] at hfuel <;> omega)
      apply ReadsBack.of_fits
      · simpa [nestingAll] using hroom
      · rw [readElements, nextElement_nil]
        change Except.ok ([], dropClosing _) = _
        rw [dropClosing_renderElements]
  | item :: items, hfree, fuel, room, first, rest, hfuel, hroom => by
      have hlength : item.render.length + (renderElements false items).length ≤
          (renderElements first (item :: items)).length := by
        cases first <;> simp [renderElements, renderItems, renderMoreItems]
      have hitemPos := length_render_pos hfree.1
      have hitemsPos := length_renderElements_pos items
      obtain ⟨fuel, rfl⟩ : ∃ less, fuel = less + 1 := Nat.exists_eq_add_one.2 (by omega)
      have hitem := readWithin_render hfree.1 fuel room
        (renderElements false items ++ rest) (by omega) hroom
      have hitems := readElements_render hfree.2 fuel room false rest
        (by omega) hroom
      rw [readElements_succ hfree.1]
      exact (hitem.bind (hitems.map (item :: ·))).congr (by rw [nestingAll, Nat.max_lt])

theorem readMembers_render :
    ∀ {members : List (String × Value)}, MembersNumberFree members →
      ∀ (fuel room : Nat) (first : Bool) (rest : List Char),
        2 * (renderFields first members).length ≤ fuel → 0 < room →
          ReadsBack (nestingMembers members < room) members rest
            (readMembers fuel room first (renderFields first members ++ rest))
  | [], _, fuel, room, first, rest, hfuel, hroom => by
      obtain ⟨fuel, rfl⟩ : ∃ less, fuel = less + 1 := Nat.exists_eq_add_one.2 (by
        cases first <;> simp [renderFields, renderMembers, renderMoreMembers] at hfuel <;> omega)
      apply ReadsBack.of_fits
      · simpa [nestingMembers] using hroom
      · rw [readMembers, nextKey_nil]
        change Except.ok ([], dropClosing _) = _
        rw [dropClosing_renderFields]
  | (key, value) :: members, hfree, fuel, room, first, rest, hfuel, hroom => by
      have hlength : value.render.length + (renderFields false members).length + 1 ≤
          (renderFields first ((key, value) :: members)).length := by
        cases first with
        | true => simp [renderFields, renderMembers]
        | false =>
            simp [renderFields, renderMoreMembers]
            omega
      obtain ⟨fuel, rfl⟩ : ∃ less, fuel = less + 1 := Nat.exists_eq_add_one.2 (by omega)
      have hvalue := readWithin_render hfree.1 fuel room
        (renderFields false members ++ rest) (by omega) hroom
      have hmembers := readMembers_render hfree.2 fuel room false rest
        (by omega) hroom
      rw [readMembers_succ]
      exact (hvalue.bind (hmembers.map ((key, value) :: ·))).congr
        (by rw [nestingMembers, Nat.max_lt])

end

/-- A written value without numerals is taken off a text if it nests less deeply
than the room allows, and is refused as too deep otherwise. -/
theorem read_render
    {value : Value} (hvalue : value.NumberFree) {room : Nat} (hroom : 0 < room)
    (rest : List Char) :
    ReadsBack (value.nesting < room) value rest (read room (value.render ++ rest)) := by
  apply readWithin_render hvalue _ room rest _ hroom
  simp only [List.length_append]
  omega

end Value
end TreeFormat.Json

import Mathlib.Data.List.Forall2

/-!
# Facts about lists

A few facts about lists, lists with separators and lists that are related element by
element.
-/

namespace TreeFormat

theorem append_cons_inj
    {α : Type} {mark : α} {first second rest rest' : List α}
    (hfirst : mark ∉ first) (hsecond : mark ∉ second)
    (heq : first ++ mark :: rest = second ++ mark :: rest') : first = second ∧ rest = rest' := by
  induction first generalizing second with
  | nil =>
      cases second with
      | nil => simpa using heq
      | cons head second =>
          have hhead : mark = head := (List.cons.inj heq).1
          exact absurd List.mem_cons_self (hhead ▸ hsecond)
  | cons head first ih =>
      cases second with
      | nil =>
          have hhead : head = mark := (List.cons.inj heq).1
          exact absurd List.mem_cons_self (hhead ▸ hfirst)
      | cons head' second =>
          obtain ⟨rfl, htail⟩ := List.cons.inj heq
          obtain ⟨rfl, hrest⟩ := ih (List.not_mem_of_not_mem_cons hfirst)
            (List.not_mem_of_not_mem_cons hsecond) htail
          exact ⟨rfl, hrest⟩

/-! ## Related lists -/

theorem forall₂_append_split
    {α β : Type} {rel : α → β → Prop} {front back : List α} {values : List β}
    (hvalues : List.Forall₂ rel (front ++ back) values) :
    ∃ first second, values = first ++ second ∧
      List.Forall₂ rel front first ∧ List.Forall₂ rel back second := by
  induction front generalizing values with
  | nil => exact ⟨[], values, rfl, .nil, hvalues⟩
  | cons head front ih =>
      cases hvalues with
      | cons hhead htail =>
          obtain ⟨first, second, rfl, hfirst, hsecond⟩ := ih htail
          exact ⟨_ :: first, second, rfl, .cons hhead hfirst, hsecond⟩

theorem exists_right_of_mem
    {α β : Type} {rel : α → β → Prop} {lefts : List α} {rights : List β}
    (hall : List.Forall₂ rel lefts rights) {left : α} (hleft : left ∈ lefts) :
    ∃ right ∈ rights, rel left right := by
  induction hall with
  | nil => cases hleft
  | cons hrel _ ih =>
      rcases List.mem_cons.1 hleft with rfl | hleft
      · exact ⟨_, List.mem_cons_self, hrel⟩
      · obtain ⟨right, hright, hrel⟩ := ih hleft
        exact ⟨right, List.mem_cons_of_mem _ hright, hrel⟩

/-! ## Separators -/

theorem mem_intersperse_of_mem
    {α : Type} {value : α} {values : List α} (separator : α) (hvalue : value ∈ values) :
    value ∈ values.intersperse separator := by
  induction values with
  | nil => cases hvalue
  | cons head values ih =>
      cases values with
      | nil => exact hvalue
      | cons next values =>
          rw [List.intersperse_cons_cons]
          rcases List.mem_cons.1 hvalue with rfl | hvalue
          · exact List.mem_cons_self
          · exact List.mem_cons_of_mem _ (List.mem_cons_of_mem _ (ih hvalue))

theorem eq_or_mem_of_mem_intersperse
    {α : Type} {value separator : α} {values : List α}
    (hvalue : value ∈ values.intersperse separator) : value = separator ∨ value ∈ values := by
  induction values with
  | nil => cases hvalue
  | cons head values ih =>
      cases values with
      | nil => exact .inr hvalue
      | cons next values =>
          rw [List.intersperse_cons_cons, List.mem_cons, List.mem_cons] at hvalue
          rcases hvalue with rfl | rfl | hvalue
          · exact .inr List.mem_cons_self
          · exact .inl rfl
          · exact (ih hvalue).imp_right (List.mem_cons_of_mem _)

theorem intersperse_append
    {α : Type} {separator : α} {front back : List α} (hfront : front ≠ []) (hback : back ≠ []) :
    (front ++ back).intersperse separator =
      front.intersperse separator ++ separator :: back.intersperse separator := by
  obtain ⟨next, back, rfl⟩ := List.exists_cons_of_ne_nil hback
  induction front with
  | nil => contradiction
  | cons head front ih =>
      cases front with
      | nil => rfl
      | cons head' front =>
          have hrest := ih (by simp)
          simp only [List.cons_append, List.intersperse_cons_cons] at hrest ⊢
          rw [hrest]

/-- Every second element of a list with separators is one of the list.  In front of each
but the first one stands a separator. -/
theorem intersperse_split
    {α : Type} (separator : α) {value : α} {values : List α} {index : Nat}
    (hvalue : values[index]? = some value) :
    ∃ left right, values.intersperse separator = left ++ value :: right ∧
      left.length = 2 * index ∧
      (index = 0 ∨ ∃ front, left = front ++ [separator]) := by
  induction values generalizing index with
  | nil => cases hvalue
  | cons head values ih =>
      cases index with
      | zero =>
          cases hvalue
          cases values with
          | nil => exact ⟨[], [], rfl, rfl, .inl rfl⟩
          | cons next values => exact ⟨[], _, List.intersperse_cons_cons, rfl, .inl rfl⟩
      | succ index =>
          obtain ⟨left, right, hsplit, hlength, hfront⟩ := ih hvalue
          cases values with
          | nil => cases hvalue
          | cons next values =>
              refine ⟨head :: separator :: left, right, ?_, ?_, .inr ?_⟩
              · rw [List.intersperse_cons_cons, hsplit]
                rfl
              · simp only [List.length_cons, hlength]
                omega
              · rcases hfront with rfl | ⟨front, rfl⟩
                · rw [Nat.mul_zero, List.length_eq_zero_iff] at hlength
                  exact ⟨[head], by rw [hlength]; rfl⟩
                · exact ⟨head :: separator :: front, rfl⟩

/-- Between two neighbours of a list stands a separator. -/
theorem intersperse_neighbours
    {α : Type} (separator first second : α) (front back : List α) :
    ∃ left right, (front ++ first :: second :: back).intersperse separator =
      left ++ first :: separator :: second :: right := by
  obtain ⟨right, hright⟩ :
      ∃ right, (second :: back).intersperse separator = second :: right := by
    cases back with
    | nil => exact ⟨[], List.intersperse_singleton⟩
    | cons next back => exact ⟨_, List.intersperse_cons_cons⟩
  have hpair : (first :: second :: back).intersperse separator =
      first :: separator :: second :: right := by
    rw [List.intersperse_cons_cons, hright]
  by_cases hfront : front = []
  · exact ⟨[], right, by rw [hfront, List.nil_append, hpair, List.nil_append]⟩
  · refine ⟨front.intersperse separator ++ [separator], right, ?_⟩
    rw [intersperse_append hfront (List.cons_ne_nil _ _), hpair, List.append_assoc]
    rfl

end TreeFormat

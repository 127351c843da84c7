import TreeFormat.Print.Script
import TreeFormat.Proofs.Tree.Walks

/-!
# Walks that come back

A visit moves the cursor onto a child and back.  It comes back however it ends: with a
value, because a lookup failed, or because the visitor stopped at one of the children.

A visitor is composed of what a cursor offers (`Walk.Composed`).  It looks at the cursor,
changes the state of the walk, stops, and makes visits of its own, whose outcome it may
look at before it goes on; and it may choose each step by what the steps before it found.
Such a visitor leaves the cursor where it was, so every visit that it makes, or that is
made with it, does the same (`Walk.visits_return`).  All cursor scripts are visitors of
this kind.
-/

namespace TreeFormat

namespace Walk

variable {σ ε ε' α β : Type}

/-- A walk as a value: what it ended with, be it a value or an error. -/
def attempt (act : Walk σ ε α) : Walk σ ε' (Except ε α) :=
  ExceptT.mk do
    return .ok (← act.run)

theorem run_attempt (act : Walk σ ε α) (start : Cursor × σ) :
    (attempt act : Walk σ ε' (Except ε α)).run start =
      let ended := act.run start
      (.ok ended.1, ended.2) := by
  rfl

/-- To recover from a stop is to look at what the walk ended with. -/
theorem tryCatch_eq (act : Walk σ ε α) (handler : ε → Walk σ ε α) :
    tryCatch act handler =
      (attempt act : Walk σ ε (Except ε α)) >>= fun
        | .ok value => pure value
        | .error fault => handler fault := by
  funext start
  have hcaught : (tryCatch act handler : Walk σ ε α) start =
      StateT.bind act.run (fun
        | .ok value => pure (.ok value)
        | .error fault => (handler fault).run) start := rfl
  refine Eq.trans ?_ (run_bind _ _ start).symm
  rw [hcaught, run_attempt, StateT.bind]
  cases act.run start with
  | mk result after =>
      cases result with
      | ok value => rfl
      | error fault => rfl

/-! ## Walks that return -/

/-- A run leaves the cursor where it was, whatever it ends with. -/
def Returns (act : Walk σ ε α) : Prop :=
  ∀ (cursor : Cursor) (state : σ), (act.run (cursor, state)).2.1 = cursor

namespace Returns

variable {act : Walk σ ε α}

theorem pure (value : α) : Returns (Pure.pure value : Walk σ ε α) := by
  intro cursor state
  rfl

theorem throw (fault : ε) : Returns (MonadExcept.throw fault : Walk σ ε α) := by
  intro cursor state
  rfl

theorem cursor : Returns (Walk.cursor : Walk σ ε Cursor) := by
  intro cursor state
  rfl

theorem update (change : σ → σ) : Returns (Walk.update change : Walk σ ε Unit) := by
  intro cursor state
  rfl

theorem attempt (hact : act.Returns) : Returns (Walk.attempt act : Walk σ ε' (Except ε α)) := by
  intro cursor state
  rw [run_attempt]
  exact hact cursor state

theorem bind
    {next : α → Walk σ ε β} (hact : act.Returns) (hnext : ∀ value, (next value).Returns) :
    (act >>= next).Returns := by
  intro cursor state
  have hback := hact cursor state
  rw [run_bind]
  cases hrun : act.run (cursor, state) with
  | mk result after =>
      obtain ⟨moved, state'⟩ := after
      rw [hrun] at hback
      cases hback
      cases result with
      | ok value => exact hnext value moved state'
      | error fault => rfl

/-- The step down and the step back cancel out. -/
theorem descend
    (hact : act.Returns) (child : Node) (path : List Nat) :
    (Walk.descend child path act).Returns := by
  intro cursor state
  have hbelow := hact (cursor.descend child path) state
  rw [run_descend]
  dsimp only
  rw [hbelow, Cursor.ascend_descend]

theorem node : Returns (Walk.node : Walk σ ε Node) := by
  intro cursor state
  rfl

section Faults

variable [OfLookupFault ε]

theorem fail (fault : LookupFault) : Returns (Walk.fail fault : Walk σ ε α) :=
  throw _

theorem ofLookup (found : Except LookupFault α) : Returns (Walk.ofLookup found : Walk σ ε α) := by
  cases found with
  | ok value => exact pure value
  | error fault => exact fail fault

theorem call (hact : act.Returns) (path : List Nat) : (Walk.call path act).Returns := by
  refine bind node ?_
  intro focus
  refine bind (ofLookup _) ?_
  intro child
  exact hact.descend child path

/-- One element after the other: what stands in the list decides whether there is a visit,
nothing to do, or a stop. -/
theorem eachFrom
    (hact : act.Returns) (path : List Nat) (index : Nat) (items : List Slot) :
    (Walk.eachFrom path act index items).Returns := by
  induction items generalizing index with
  | nil => exact pure []
  | cons item items ih =>
      cases item with
      | absent => exact ih (index + 1)
      | token text => exact bind node fun _ => fail _
      | list inner => exact bind node fun _ => fail _
      | node child =>
          refine bind (hact.descend child _) ?_
          intro first
          refine bind (ih (index + 1)) ?_
          intro rest
          exact pure (first :: rest)

theorem each (hact : act.Returns) (path : List Nat) : (Walk.each path act).Returns := by
  refine bind node ?_
  intro focus
  refine bind (ofLookup _) ?_
  intro items
  exact hact.eachFrom path 0 items

end Faults

end Returns

/-! ## Visitors -/

/-- The walks that are put together from what a cursor offers.  A look at the cursor gives
its node, its depth and its route, and with them all lookups. -/
inductive Composed {σ : Type} : {ε α : Type} → Walk σ ε α → Prop where
  | pure {ε α : Type} (value : α) : Composed (Pure.pure value : Walk σ ε α)
  | throw {ε α : Type} (fault : ε) : Composed (MonadExcept.throw fault : Walk σ ε α)
  | cursor {ε : Type} : Composed (Walk.cursor : Walk σ ε Cursor)
  | update {ε : Type} (change : σ → σ) : Composed (Walk.update change : Walk σ ε Unit)
  | bind {ε α β : Type} {act : Walk σ ε α} {next : α → Walk σ ε β}
      (hact : Composed act) (hnext : ∀ value, Composed (next value)) : Composed (act >>= next)
  | attempt {ε ε' α : Type} {act : Walk σ ε α} (hact : Composed act) :
      Composed (Walk.attempt act : Walk σ ε' (Except ε α))
  | call {ε α : Type} [OfLookupFault ε] {act : Walk σ ε α} (hact : Composed act)
      (path : List Nat) : Composed (Walk.call path act)
  | each {ε α : Type} [OfLookupFault ε] {act : Walk σ ε α} (hact : Composed act)
      (path : List Nat) : Composed (Walk.each path act)

namespace Composed

variable {act : Walk σ ε α}

theorem returns (hact : act.Composed) : act.Returns := by
  induction hact with
  | pure value => exact .pure value
  | throw fault => exact .throw fault
  | cursor => exact .cursor
  | update change => exact .update change
  | bind _ _ hact hnext => exact .bind hact hnext
  | attempt _ hact => exact .attempt hact
  | call _ path hact => exact .call hact path
  | each _ path hact => exact .each hact path

theorem node : Composed (Walk.node : Walk σ ε Node) :=
  @bind σ ε Cursor Node Walk.cursor _ cursor fun cursor => pure cursor.node

theorem map (hact : act.Composed) (change : α → β) : Composed (change <$> act) := by
  rw [map_eq_pure_bind]
  exact bind hact fun value => pure (change value)

theorem tryCatch
    {handler : ε → Walk σ ε α} (hact : act.Composed) (hhandler : ∀ fault, (handler fault).Composed) :
    Composed (MonadExcept.tryCatch act handler) := by
  rw [tryCatch_eq]
  refine bind (attempt hact) ?_
  intro ended
  cases ended with
  | ok value => exact pure value
  | error fault => exact hhandler fault

end Composed

end Walk

/-! ## Scripts -/

namespace CursorStep

theorem look_composed (answer : Cursor → CursorAnswer) : (look answer).Composed :=
  .bind .cursor fun _ => .pure _

theorem attempt_composed {α : Type} {visit : Run α} (hvisit : visit.Composed) :
    (attempt visit).Composed :=
  .tryCatch (hvisit.map Except.ok) fun _ => .pure _

mutual

theorem run_composed : ∀ step : CursorStep, step.run.Composed
  | .node => look_composed _
  | .depth => look_composed _
  | .describe => look_composed _
  | .print => look_composed _
  | .slot _ => look_composed _
  | .has _ => look_composed _
  | .token _ => look_composed _
  | .call path steps => by
      rw [run]
      exact .bind (attempt_composed (.call (runAll_composed steps) path)) fun _ => .pure _
  | .each path steps => by
      rw [run]
      exact .bind (attempt_composed (.each (runAll_composed steps) path)) fun _ => .pure _
  | .giveUp none => .throw surrender
  | .giveUp (some name) => by
      rw [run]
      refine .bind .node ?_
      intro focus
      dsimp only
      split
      · exact .bind (.throw surrender) fun _ => .pure _
      · exact .pure _

theorem runAll_composed : ∀ steps : List CursorStep, (runAll steps).Composed
  | [] => by
      rw [runAll]
      exact .pure []
  | step :: steps => by
      rw [runAll]
      exact .bind (run_composed step) fun _ => .bind (runAll_composed steps) fun _ => .pure _

end

end CursorStep

/-! ## Visits -/

namespace Walk

/-- A visit leaves the cursor as it was, with all its frames and its trail, whether it
ends with a value, with a failed lookup or with a stop of the visitor. -/
theorem visits_return
    {σ ε α : Type} [OfLookupFault ε] {act : Walk σ ε α} (hact : act.Composed)
    (path : List Nat) (cursor : Cursor) (state : σ) :
    ((Walk.call path act).run (cursor, state)).2.1 = cursor ∧
      ((Walk.each path act).run (cursor, state)).2.1 = cursor :=
  ⟨hact.returns.call path cursor state, hact.returns.each path cursor state⟩

/-- A visitor that makes visits of its own, one of which fails, and stops at the second
child of the list.  Neither the stop nor the failed visit moves the cursor. -/
theorem visits_return_surrender :
    let reference : Node := .branch (.parser .vcall) [.node (.leaf (.scanner .ident) "foo")]
    let nothing : Node := .branch (.parser .voidStmt) []
    let root : Node :=
      .branch (.parser .program) [.list [.node reference, .absent, .node nothing]]
    let visitor := CursorStep.runAll
      [.each [] [.describe], .call [7] [.depth], .giveUp (some "void_stmt")]
    let cursor := Cursor.ofRoot root
    visitor.Composed ∧
      ((Walk.each [0] visitor).run (cursor, ())).1 = .error CursorStep.surrender ∧
      ((Walk.call [0, 0] visitor).run (cursor, ())).2.1 = cursor ∧
      ((Walk.each [0] visitor).run (cursor, ())).2.1 = cursor := by
  intro reference nothing root visitor cursor
  have hvisitor : visitor.Composed := CursorStep.runAll_composed _
  have hcalled := (visits_return hvisitor [0, 0] cursor ()).1
  have hmapped := (visits_return hvisitor [0] cursor ()).2
  exact ⟨hvisitor, by rfl, hcalled, hmapped⟩

end Walk

end TreeFormat

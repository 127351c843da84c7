import Mathlib.Tactic.Choose
import TreeFormat.Print.Printer
import TreeFormat.Proofs.Print.Fits
import TreeFormat.Proofs.Print.Reads
import TreeFormat.Proofs.Tree.Refusals
import TreeFormat.Proofs.Tree.Walks

/-!
# Plans of the rules

A rule does little with the tree: it looks at its own node, has some children
printed, one after the other, and stops if a lookup fails.  `Print.Plan` is that and
nothing else.

At every node each rule runs a plan that depends on the node only, and the plan
prints the children at `Node.readPathsAs` in order.  It comes to its end if the node
fits, and stops for a lookup that the node refuses if it does not
(`Print.rule_plans`).  What holds of every such plan therefore holds of all rules.
-/

namespace TreeFormat

namespace Print

/-- What is left to do at a node. -/
inductive Plan (α : Type) where
  | done (value : α)
  /-- A lookup failed. -/
  | stop (reason : LookupFault)
  /-- A child is to be printed before the plan goes on. -/
  | visit (path : List Nat) (child : Node) (next : Doc → Plan α)

namespace Plan

variable {α β : Type}

/-- One plan after another. -/
def bind : Plan α → (α → Plan β) → Plan β
  | done value, next => next value
  | stop reason, _ => stop reason
  | visit path child rest, next => visit path child fun doc => (rest doc).bind next

/-- Carries a plan out. -/
def run (visit : Printer Doc) : Plan α → Printer α
  | done value => pure value
  | stop reason => Walk.fail reason
  | .visit path child next => do
    let doc ← Walk.descend child path visit
    (next doc).run visit

/-- A plan prints the children at slot paths of a node in order.  The flag tells whether
it prints all of them; otherwise the node refuses a lookup on the way. -/
inductive Follows (node : Node) : List (List Nat) → Bool → Plan α → Prop where
  | done (value : α) : Follows node [] true (.done value)
  | stop (paths : List (List Nat)) {reason : LookupFault} (hrefuses : node.Refuses reason) :
      Follows node paths false (.stop reason)
  | visit {path : List Nat} {child : Node} {next : Doc → Plan α} {paths : List (List Nat)}
      {ends : Bool}
      (hchild : node.childAt path = .ok child)
      (hnext : ∀ doc, Follows node paths ends (next doc)) :
      Follows node (path :: paths) ends (.visit path child next)

theorem Follows.bind
    {node : Node} {paths paths' : List (List Nat)} {ends ends' : Bool} {plan : Plan α}
    {next : α → Plan β}
    (hplan : Follows node paths ends plan)
    (hnext : ∀ value, Follows node paths' ends' (next value)) :
    Follows node (paths ++ paths') (ends && ends') (plan.bind next) := by
  induction hplan with
  | done value => exact hnext value
  | stop paths hrefuses => exact .stop _ hrefuses
  | visit hchild _ ih => exact .visit hchild ih

end Plan

/-! ## Actions that carry plans out -/

/-- A walk always comes back to where it started. -/
def Returns {α : Type} (act : Printer α) : Prop :=
  ∀ cursor log, (act.run (cursor, log)).2.1 = cursor

/-- At a node, an action that has children printed carries out a plan for slot
paths, whatever the printing of a child does. -/
def Plans {α : Type} (act : Printer Doc → Printer α) (node : Node) (paths : List (List Nat))
    (ends : Bool) : Prop :=
  ∃ plan : Plan α, plan.Follows node paths ends ∧
    ∀ visit, Returns visit → ∀ cursor log, cursor.node = node →
      (act visit).run (cursor, log) = (plan.run visit).run (cursor, log)

namespace Plan

variable {α β : Type} {visit : Printer Doc}

theorem run_visit
    (path : List Nat) (child : Node) (next : Doc → Plan α) (cursor : Cursor) (log : Log)
    (hvisit : Returns visit) :
    ((Plan.visit path child next).run visit).run (cursor, log) =
      match visit.run (cursor.descend child path, log) with
      | (.ok doc, _, log) => ((next doc).run visit).run (cursor, log)
      | (.error fault, _, log) => (.error fault, cursor, log) := by
  have hback := hvisit (cursor.descend child path) log
  rw [Plan.run, Walk.run_bind, Walk.run_descend]
  rcases hrun : visit.run (cursor.descend child path, log) with ⟨result, cursor', log'⟩
  rw [hrun] at hback
  cases result <;> simp_all

theorem run_returns (plan : Plan α) (hvisit : Returns visit) : Returns (plan.run visit) := by
  intro cursor log
  induction plan generalizing log with
  | done value => rfl
  | stop reason => rfl
  | visit path child next ih =>
      rw [run_visit _ _ _ _ _ hvisit]
      split
      · exact ih _ _
      · rfl

theorem run_bind (plan : Plan α) (next : α → Plan β) :
    (plan.bind next).run visit = plan.run visit >>= fun value => (next value).run visit := by
  induction plan with
  | done value => simp [Plan.bind, Plan.run]
  | stop reason => rfl
  | visit path child rest ih => simp [Plan.bind, Plan.run, ih]

end Plan

/-- At a node, an action that has children printed carries out a plan, whatever the printing
of a child does. -/
def Carries {α : Type} (act : Printer Doc → Printer α) (node : Node) (plan : Plan α) : Prop :=
  ∀ visit, Returns visit → ∀ cursor log, cursor.node = node →
    (act visit).run (cursor, log) = (plan.run visit).run (cursor, log)

namespace Carries

variable {α β : Type} {node : Node}

theorem pure (value : α) : Carries (fun _ => Pure.pure value) node (.done value) :=
  fun _ _ _ _ _ => rfl

theorem fail (reason : LookupFault) :
    Carries (fun _ => (Walk.fail reason : Printer α)) node (.stop reason) :=
  fun _ _ _ _ _ => rfl

theorem bind
    {act : Printer Doc → Printer α} {next : Printer Doc → α → Printer β} {plan : Plan α}
    {rest : α → Plan β} (hact : Carries act node plan)
    (hnext : ∀ value, Carries (fun visit => next visit value) node (rest value)) :
    Carries (fun visit => act visit >>= next visit) node (plan.bind rest) := by
  intro visit hvisit cursor log hcursor
  have hreturn := plan.run_returns hvisit cursor log
  rw [Plan.run_bind, Walk.run_bind, Walk.run_bind, hact visit hvisit cursor log hcursor]
  rcases hplanRun : (plan.run visit).run (cursor, log) with ⟨result, cursor', log'⟩
  rw [hplanRun] at hreturn
  cases result with
  | error fault => rfl
  | ok value =>
      have hback : cursor' = cursor := hreturn
      rw [hback]
      exact hnext value visit hvisit cursor log' hcursor

theorem atNode
    {next : Printer Doc → Node → Printer α} {plan : Plan α}
    (hnext : Carries (fun visit => next visit node) node plan) :
    Carries (fun visit => Walk.node >>= next visit) node plan := by
  intro visit hvisit cursor log hcursor
  rw [← hnext visit hvisit cursor log hcursor, Walk.run_bind, ← hcursor]
  rfl

theorem descend (child : Node) (path : List Nat) :
    Carries (fun visit => Walk.descend child path visit) node (.visit path child .done) := by
  intro visit _ cursor log _
  rw [Plan.run]
  simp [Plan.run]

end Carries

namespace Plans

variable {α β : Type} {node : Node} {paths paths' : List (List Nat)} {ends ends' : Bool}

theorem pure (value : α) : Plans (fun _ => Pure.pure value) node [] true :=
  ⟨.done value, .done value, Carries.pure value⟩

theorem fail (paths : List (List Nat)) {reason : LookupFault} (hrefuses : node.Refuses reason) :
    Plans (fun _ => (Walk.fail reason : Printer α)) node paths false :=
  ⟨.stop reason, .stop paths hrefuses, Carries.fail reason⟩

theorem bind
    {act : Printer Doc → Printer α} {next : Printer Doc → α → Printer β}
    (hact : Plans act node paths ends)
    (hnext : ∀ value, Plans (fun visit => next visit value) node paths' ends') :
    Plans (fun visit => act visit >>= next visit) node (paths ++ paths') (ends && ends') := by
  obtain ⟨plan, hplan, hrun⟩ := hact
  choose rest hrest hruns using hnext
  exact ⟨plan.bind rest, hplan.bind hrest, Carries.bind hrun hruns⟩

/-- What comes last asks for nothing. -/
theorem finish
    {act : Printer Doc → Printer α} {next : Printer Doc → α → Printer β}
    (hact : Plans act node paths ends)
    (hnext : ∀ value, Plans (fun visit => next visit value) node [] true) :
    Plans (fun visit => act visit >>= next visit) node paths ends := by
  rw [← List.append_nil paths, ← Bool.and_true ends]
  exact hact.bind hnext

theorem map
    {act : Printer Doc → Printer α} (hact : Plans act node paths ends) (wrap : α → β) :
    Plans (fun visit => do return wrap (← act visit)) node paths ends :=
  hact.finish fun value => pure (wrap value)

theorem atNode
    {next : Printer Doc → Node → Printer α}
    (hnext : Plans (fun visit => next visit node) node paths ends) :
    Plans (fun visit => Walk.node >>= next visit) node paths ends := by
  obtain ⟨plan, hplan, hrun⟩ := hnext
  exact ⟨plan, hplan, Carries.atNode hrun⟩

theorem ofLookup
    {found : Except LookupFault α}
    (hfound : ∀ reason, found = .error reason → node.Refuses reason) :
    Plans (fun _ => (Walk.ofLookup found : Printer α)) node [] found.isOk := by
  cases found with
  | ok value => exact pure value
  | error reason => exact fail [] (hfound reason rfl)

theorem descend
    {child : Node} {path : List Nat} (hchild : node.childAt path = .ok child) :
    Plans (fun visit => Walk.descend child path visit) node [path] true :=
  ⟨.visit path child .done, .visit hchild .done, Carries.descend child path⟩

end Plans

/-! ## Parts of rules -/

section Rules

variable {node : Node}

theorem child_plans (path : List Nat) :
    Plans (fun visit => child visit path) node [path] (node.holdsChild path) := by
  refine .atNode ?_
  unfold Node.holdsChild
  cases hchild : node.childAt path with
  | error reason => exact .fail [path] (.child hchild)
  | ok found => exact .descend hchild

theorem refuses_of_element
    {path : List Nat} {index : Nat} {slot : Slot}
    (hslot : node.slotAt (path ++ [index]) = .ok slot) (hchild : slot.isOptionalChild = false) :
    node.Refuses (.shape node.kind (path ++ [index]) .node) := by
  refine @Node.Refuses.child node (path ++ [index]) _ ?_
  unfold Node.childAt
  rw [hslot]
  cases slot with
  | absent => cases hchild
  | node child => cases hchild
  | token content => rfl
  | list inner => rfl

theorem eachFrom_plans
    {path : List Nat} {index : Nat} {items : List Slot}
    (hitems : ∀ offset slot, items[offset]? = some slot →
      node.slotAt (path ++ [index + offset]) = .ok slot) :
    Plans (fun visit => Walk.eachFrom path visit index items) node
      (Node.childPathsFrom path index items) (items.all Slot.isOptionalChild) := by
  induction items generalizing index with
  | nil => exact .pure []
  | cons item items ih =>
      have hitem : node.slotAt (path ++ [index]) = .ok item := hitems 0 item rfl
      have hrest : Plans (fun visit => Walk.eachFrom path visit (index + 1) items) node
          (Node.childPathsFrom path (index + 1) items) (items.all Slot.isOptionalChild) := by
        apply ih
        intro offset slot hslot
        have hfound := hitems (offset + 1) slot hslot
        rwa [Nat.add_comm offset, ← Nat.add_assoc] at hfound
      cases item with
      | absent => exact hrest
      | token content => exact .atNode (.fail _ (refuses_of_element hitem rfl))
      | list inner => exact .atNode (.fail _ (refuses_of_element hitem rfl))
      | node child =>
          have hchild := Node.childAt_eq_ok_iff.2 hitem
          exact (Plans.descend hchild).bind fun doc => hrest.map (doc :: ·)

theorem children_plans (path : List Nat) :
    Plans (fun visit => children visit path) node (node.childPaths path)
      (node.holdsChildren path) := by
  refine .atNode ?_
  unfold Node.childPaths Node.holdsChildren
  cases hitems : node.listAt path with
  | error reason => exact .fail [] (.list hitems)
  | ok items =>
      rw [Node.listAt_eq_ok_iff] at hitems
      apply eachFrom_plans
      intro offset slot hslot
      rw [Nat.zero_add, Node.slotAt_concat_eq_ok_iff]
      exact ⟨items, hitems, hslot⟩

theorem child?_plans (path : List Nat) :
    Plans (fun visit => child? visit path) node (node.pathIfPresent path)
      (node.mayHoldChild path) := by
  refine .atNode ?_
  unfold Node.pathIfPresent Node.mayHoldChild
  cases node.has path with
  | true => exact (child_plans path).map some
  | false => exact .pure none

theorem childrenOrNone_plans (path : List Nat) :
    Plans (fun visit => childrenOrNone visit path) node (node.childPaths path)
      (node.mayHoldChildren path) := by
  refine .atNode ?_
  unfold Node.mayHoldChildren
  cases hhas : node.has path with
  | true => exact children_plans path
  | false =>
      rw [Node.childPaths_of_not_has hhas]
      exact .pure []

theorem token_plans (path : List Nat) :
    Plans (fun _ => token path) node [] (node.holdsToken path) :=
  .atNode (.ofLookup fun _ => .token)

theorem slotsFrom_plans
    {index : Nat} {slots : List Slot} (hslots : node.slots.drop index = slots) :
    Plans (fun visit => slotsFrom visit index slots) node (Node.slotPathsFrom index slots)
      (slots.all Slot.isPart) := by
  induction slots generalizing index with
  | nil => exact .pure []
  | cons slot slots ih =>
      obtain ⟨hfound, hdrop⟩ := Node.slotAt_of_drop_eq_cons hslots
      have hrest := ih hdrop
      cases slot with
      | absent => exact hrest.map ([] ++ ·)
      | token content => exact hrest.map ([Doc.text content] ++ ·)
      | node child =>
          have hchild : node.holdsChild [index] = true := by
            rw [Node.holdsChild, Node.childAt_eq_ok_iff.2 hfound]
            rfl
          rw [Node.slotPathsFrom, List.all_cons, Slot.isPart, ← hchild]
          exact (child_plans [index]).bind fun doc => hrest.map ([doc] ++ ·)
      | list items =>
          rw [Node.slotPathsFrom, List.all_cons, Slot.isPart, ← Node.childPaths_of_list hfound,
            ← Node.holdsChildren_of_list hfound]
          exact (children_plans [index]).bind fun first => hrest.map (first ++ ·)

theorem optionalParams_plans (count index : Nat) :
    Plans (fun visit => optionalParams visit count index) node
      (Node.optionalParamPaths count index) (node.fitsOptionalParams count index) := by
  induction count generalizing index with
  | zero => exact .pure []
  | succ count ih =>
      rw [Node.fitsOptionalParams, List.range'_succ, List.all_cons, Bool.and_assoc]
      exact (child_plans [1, index, 0]).bind fun name =>
        (child_plans [1, index, 1]).bind fun default => (ih (index + 1)).map _

theorem keywordParams_plans (count index : Nat) :
    Plans (fun visit => keywordParams visit count index) node
      (node.keywordParamPaths count index) (node.fitsKeywordParams count index) := by
  induction count generalizing index with
  | zero => exact .pure []
  | succ count ih =>
      rw [Node.fitsKeywordParams, List.range'_succ, List.all_cons, Bool.and_assoc]
      exact (child_plans [4, index, 0]).bind fun label =>
        (child?_plans [4, index, 1]).bind fun default => (ih (index + 1)).map _

/-! ## Rules -/

theorem argsAddBlock_plans :
    Plans argsAddBlock node (node.readPathsAs .argsAddBlock) (node.fitsAs .argsAddBlock) := by
  refine (children_plans [0]).bind fun docs => ?_
  refine (child?_plans [1]).finish fun block => ?_
  cases block with
  | none => exact .pure _
  | some block => exact .pure _

theorem params_plans : Plans params node (node.readPathsAs .params) (node.fitsAs .params) := by
  refine .atNode ?_
  refine (childrenOrNone_plans [0]).bind fun required => ?_
  refine (optionalParams_plans _ 0).bind fun optional => ?_
  refine (child?_plans [2]).bind fun rest => ?_
  refine (childrenOrNone_plans [3]).bind fun post => ?_
  refine (keywordParams_plans _ 0).bind fun keywords => ?_
  refine (child?_plans [5]).bind fun keywordRest => ?_
  exact (child?_plans [6]).map _

theorem paren_plans : Plans paren node (node.readPathsAs .paren) (node.fitsAs .paren) :=
  .atNode ((slotsFrom_plans rfl).map _)

/-- At a node every rule carries out a plan for the children that it reads. -/
theorem rule_plans (node : Node) (event : ParserEvent) :
    Plans (fun visit => rule visit event) node (node.readPathsAs event) (node.fitsAs event) := by
  have hall := @children_plans node []
  have hlist := @children_plans node [0]
  have hfirst := @child_plans node [0]
  have hsecond := @child_plans node [1]
  have hthird := @child_plans node [2]
  have hname := @child?_plans node [0]
  have htoken := @token_plans node [1]
  cases event with
  | aliasPair => exact hall.map _
  | argsAddBlock => exact argsAddBlock_plans
  | assign => exact hall.map _
  | binary => exact htoken.bind fun _ => hfirst.bind fun _ => hthird.map _
  | blockArg => exact hname.map _
  | bodyStmt => exact hlist.map _
  | call => exact htoken.bind fun _ => hfirst.bind fun _ => hthird.map _
  | classDef =>
      have hparent := @child?_plans node [1]
      exact hfirst.bind fun _ => hparent.bind fun _ => hthird.finish fun _ => .atNode (.pure _)
  | command => exact hall.map _
  | constRef => exact hfirst
  | methodDef => exact hfirst.bind fun _ => hsecond.bind fun _ => hthird.map _
  | kwRestParam => exact hname.map _
  | moduleDef => exact hfirst.bind fun _ => hsecond.finish fun _ => .atNode (.pure _)
  | params => exact params_plans
  | paren => exact paren_plans
  | program => exact hlist.map _
  | restParam => exact hname.map _
  | stringContent => exact .atNode (hall.map _)
  | stringEmbexpr => exact hlist.map _
  | stringLiteral => exact hall.map _
  | symbol => exact hall.map _
  | symbolLiteral => exact hall.map _
  | varField => exact hall.map _
  | varRef => exact hfirst
  | vcall => exact hall.map _
  | voidStmt => exact .pure _

end Rules

end Print

end TreeFormat

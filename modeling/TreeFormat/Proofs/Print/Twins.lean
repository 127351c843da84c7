import TreeFormat.Proofs.Print.Definitions
import TreeFormat.Proofs.Print.Plans
import TreeFormat.Proofs.Tree.Resemblance

/-!
# Rules at nodes that resemble each other

At two nodes that resemble each other a rule carries out two plans that are the same apart
from the children that they have printed (`Print.rule_twin`).  The rule sees into the slots
of its children in two places only: an operator or a connector may be wrapped in a node, and
a class or a module looks for the first statement of its body.  There the two nodes have to
agree.
-/

namespace TreeFormat

/-- Two nodes agree in what a rule reads below the slots of its own node: the token of an
operation or a call, and the break in front of a body. -/
structure Node.Agrees (node node' : Node) : Prop where
  token : node.kind = .parser .binary ∨ node.kind = .parser .call →
    node.tokenAt [1] = node'.tokenAt [1]
  breaks : node.breaksBeforeBody = node'.breaksBeforeBody

namespace Print

variable {α β : Type} {node node' : Node} {paths paths' : List (List Nat)}

/-! ## Plans at two nodes -/

/-- Two plans for children at slot paths are the same, apart from the children. -/
inductive Plan.Twins (node node' : Node) : List (List Nat) → Plan α → Plan α → Prop where
  | done (value : α) : Twins node node' [] (.done value) (.done value)
  | stop (paths : List (List Nat)) (reason : LookupFault) :
      Twins node node' paths (.stop reason) (.stop reason)
  | visit {path : List Nat} {child child' : Node} {next next' : Doc → Plan α}
      {paths : List (List Nat)}
      (hchild : node.childAt path = .ok child) (hchild' : node'.childAt path = .ok child')
      (hnext : ∀ doc, Twins node node' paths (next doc) (next' doc)) :
      Twins node node' (path :: paths) (.visit path child next) (.visit path child' next')

theorem Plan.Twins.bind
    {plan plan' : Plan α} {next next' : α → Plan β} (hplan : Twins node node' paths plan plan')
    (hnext : ∀ value, Twins node node' paths' (next value) (next' value)) :
    Twins node node' (paths ++ paths') (plan.bind next) (plan'.bind next') := by
  induction hplan with
  | done value => exact hnext value
  | stop paths reason => exact .stop _ reason
  | visit hchild hchild' _ ih => exact .visit hchild hchild' ih

/-- Two actions at two nodes carry out plans that are the same, apart from the children. -/
def Twin (act act' : Printer Doc → Printer α) (node node' : Node) (paths : List (List Nat)) :
    Prop :=
  ∃ plan plan' : Plan α,
    plan.Twins node node' paths plan' ∧ Carries act node plan ∧ Carries act' node' plan'

namespace Twin

theorem pure {value value' : α} (hvalue : value = value') :
    Twin (fun _ => Pure.pure value) (fun _ => Pure.pure value') node node' [] := by
  subst hvalue
  exact ⟨.done value, .done value, .done value, .pure value, .pure value⟩

theorem fail (paths : List (List Nat)) (reason : LookupFault) :
    Twin (fun _ => (Walk.fail reason : Printer α)) (fun _ => Walk.fail reason) node node' paths :=
  ⟨.stop reason, .stop reason, .stop paths reason, .fail reason, .fail reason⟩

theorem bind
    {act act' : Printer Doc → Printer α} {next next' : Printer Doc → α → Printer β}
    (hact : Twin act act' node node' paths)
    (hnext : ∀ value, Twin (fun visit => next visit value) (fun visit => next' visit value) node
      node' paths') :
    Twin (fun visit => act visit >>= next visit) (fun visit => act' visit >>= next' visit) node
      node' (paths ++ paths') := by
  obtain ⟨plan, plan', htwins, hcarries, hcarries'⟩ := hact
  choose rest rest' hrest hnext hnext' using hnext
  exact ⟨plan.bind rest, plan'.bind rest', htwins.bind hrest, hcarries.bind hnext,
    hcarries'.bind hnext'⟩

/-- What comes last asks for nothing. -/
theorem finish
    {act act' : Printer Doc → Printer α} {next next' : Printer Doc → α → Printer β}
    (hact : Twin act act' node node' paths)
    (hnext : ∀ value, Twin (fun visit => next visit value) (fun visit => next' visit value) node
      node' []) :
    Twin (fun visit => act visit >>= next visit) (fun visit => act' visit >>= next' visit) node
      node' paths := by
  rw [← List.append_nil paths]
  exact hact.bind hnext

theorem map
    {act act' : Printer Doc → Printer α} (hact : Twin act act' node node' paths) (wrap : α → β) :
    Twin (fun visit => do return wrap (← act visit)) (fun visit => do return wrap (← act' visit))
      node node' paths :=
  hact.finish fun _ => pure rfl

theorem atNode
    {next next' : Printer Doc → Node → Printer α}
    (hnext : Twin (fun visit => next visit node) (fun visit => next' visit node') node node'
      paths) :
    Twin (fun visit => Walk.node >>= next visit) (fun visit => Walk.node >>= next' visit) node node'
      paths := by
  obtain ⟨plan, plan', htwins, hcarries, hcarries'⟩ := hnext
  exact ⟨plan, plan', htwins, hcarries.atNode, hcarries'.atNode⟩

theorem descend
    {child child' : Node} {path : List Nat} (hchild : node.childAt path = .ok child)
    (hchild' : node'.childAt path = .ok child') :
    Twin (fun visit => Walk.descend child path visit) (fun visit => Walk.descend child' path visit)
      node node' [path] :=
  ⟨.visit path child .done, .visit path child' .done, .visit hchild hchild' .done,
    .descend child path, .descend child' path⟩

end Twin

/-! ## Parts of rules -/

section Rules

variable (hresembles : node.Resembles node') (hknown : node.kind.isKnown = true)

include hresembles hknown

theorem child_twin (path : List Nat) :
    Twin (fun visit => child visit path) (fun visit => child visit path) node node' [path] := by
  refine .atNode ?_
  rcases (hresembles.childAt hknown path).eq_or with
    ⟨fault, hfault, hfault'⟩ | ⟨found, found', hchild, hchild', -⟩
  · rw [hfault, hfault']
    exact .fail [path] fault
  · rw [hchild, hchild']
    exact .descend hchild hchild'

omit hknown in
theorem eachFrom_twin
    {path : List Nat} {index : Nat} {items items' : List Slot}
    (hitems : Slot.ResembleAll items items')
    (hslots : ∀ offset slot, items[offset]? = some slot →
      node.slotAt (path ++ [index + offset]) = .ok slot)
    (hslots' : ∀ offset slot, items'[offset]? = some slot →
      node'.slotAt (path ++ [index + offset]) = .ok slot) :
    Twin (fun visit => Walk.eachFrom path visit index items)
      (fun visit => Walk.eachFrom path visit index items') node node'
      (Node.childPathsFrom path index items) := by
  have hkind := hresembles.kind_eq
  induction items generalizing items' index with
  | nil =>
      cases hitems
      exact .pure rfl
  | cons item items ih =>
      cases hitems with
      | @cons _ item' _ items' hitem hitems =>
          have hshift : ∀ {node : Node} {item : Slot} {items : List Slot},
              (∀ offset slot, (item :: items)[offset]? = some slot →
                node.slotAt (path ++ [index + offset]) = .ok slot) →
              ∀ offset slot, items[offset]? = some slot →
                node.slotAt (path ++ [index + 1 + offset]) = .ok slot := by
            intro node item items hslots offset slot hslot
            have hfound := hslots (offset + 1) slot hslot
            rwa [Nat.add_comm offset, ← Nat.add_assoc] at hfound
          have hrest := ih hitems (hshift hslots) (hshift hslots')
          cases hitem with
          | absent => exact hrest
          | token content =>
              refine .atNode ?_
              rw [hkind]
              exact .fail _ _
          | list hinner =>
              refine .atNode ?_
              rw [hkind]
              exact .fail _ _
          | @node found found' _ =>
              have hchild := Node.childAt_eq_ok_iff.2 (hslots 0 _ rfl)
              have hchild' := Node.childAt_eq_ok_iff.2 (hslots' 0 _ rfl)
              exact (Twin.descend hchild hchild').bind fun doc => hrest.map (doc :: ·)

theorem children_twin (path : List Nat) :
    Twin (fun visit => children visit path) (fun visit => children visit path) node node'
      (node.childPaths path) := by
  refine .atNode ?_
  unfold Node.childPaths
  rcases (hresembles.listAt hknown path).eq_or with
    ⟨fault, hfault, hfault'⟩ | ⟨items, items', hok, hok', hitems⟩
  · rw [hfault, hfault']
    exact .fail [] fault
  · have hslots : ∀ {node : Node} {items : List Slot}, node.listAt path = .ok items →
        ∀ offset slot, items[offset]? = some slot →
          node.slotAt (path ++ [0 + offset]) = .ok slot := by
      intro node items hlist offset slot hslot
      rw [Node.listAt_eq_ok_iff] at hlist
      rw [Nat.zero_add, Node.slotAt_concat_eq_ok_iff]
      exact ⟨items, hlist, hslot⟩
    have heach := eachFrom_twin hresembles hitems (hslots hok) (hslots hok')
    rw [hok, hok']
    exact heach

theorem child?_twin (path : List Nat) :
    Twin (fun visit => child? visit path) (fun visit => child? visit path) node node'
      (node.pathIfPresent path) := by
  refine .atNode ?_
  unfold Node.pathIfPresent
  rw [← hresembles.has_eq hknown path]
  cases node.has path with
  | true => exact (child_twin hresembles hknown path).map some
  | false => exact .pure rfl

theorem childrenOrNone_twin (path : List Nat) :
    Twin (fun visit => childrenOrNone visit path) (fun visit => childrenOrNone visit path) node
      node' (node.childPaths path) := by
  refine .atNode ?_
  rw [← hresembles.has_eq hknown path]
  cases hhas : node.has path with
  | true => exact children_twin hresembles hknown path
  | false =>
      rw [Node.childPaths_of_not_has hhas]
      exact .pure rfl

omit hresembles hknown in
theorem token_twin {path : List Nat} (htoken : node.tokenAt path = node'.tokenAt path) :
    Twin (fun _ => token path) (fun _ => token path) node node' [] := by
  refine .atNode ?_
  rw [← htoken]
  cases node.tokenAt path with
  | error fault => exact .fail [] fault
  | ok content => exact .pure rfl

theorem slotsFrom_twin
    {index : Nat} {slots slots' : List Slot} (hslots : Slot.ResembleAll slots slots')
    (hdrop : node.slots.drop index = slots) :
    Twin (fun visit => slotsFrom visit index slots) (fun visit => slotsFrom visit index slots') node
      node' (Node.slotPathsFrom index slots) := by
  induction slots generalizing slots' index with
  | nil =>
      cases hslots
      exact .pure rfl
  | cons slot slots ih =>
      cases hslots with
      | @cons _ slot' _ slots' hslot hslots =>
          obtain ⟨hfound, hbehind⟩ := Node.slotAt_of_drop_eq_cons hdrop
          have hrest := ih hslots hbehind
          cases hslot with
          | absent => exact hrest.map ([] ++ ·)
          | token content => exact hrest.map ([Doc.text content] ++ ·)
          | node _ =>
              exact (child_twin hresembles hknown [index]).bind fun doc => hrest.map ([doc] ++ ·)
          | list _ =>
              rw [Node.slotPathsFrom, ← Node.childPaths_of_list hfound]
              exact (children_twin hresembles hknown [index]).bind fun first =>
                hrest.map (first ++ ·)

theorem optionalParams_twin (count index : Nat) :
    Twin (fun visit => optionalParams visit count index)
      (fun visit => optionalParams visit count index) node node'
      (Node.optionalParamPaths count index) := by
  induction count generalizing index with
  | zero => exact .pure rfl
  | succ count ih =>
      exact (child_twin hresembles hknown [1, index, 0]).bind fun name =>
        (child_twin hresembles hknown [1, index, 1]).bind fun default => (ih (index + 1)).map _

theorem keywordParams_twin (count index : Nat) :
    Twin (fun visit => keywordParams visit count index)
      (fun visit => keywordParams visit count index) node node'
      (node.keywordParamPaths count index) := by
  induction count generalizing index with
  | zero => exact .pure rfl
  | succ count ih =>
      exact (child_twin hresembles hknown [4, index, 0]).bind fun label =>
        (child?_twin hresembles hknown [4, index, 1]).bind fun default =>
          (ih (index + 1)).map _

/-! ## Rules -/

theorem argsAddBlock_twin :
    Twin argsAddBlock argsAddBlock node node' (node.readPathsAs .argsAddBlock) := by
  refine (children_twin hresembles hknown [0]).bind fun docs => ?_
  refine (child?_twin hresembles hknown [1]).finish fun block => ?_
  cases block with
  | none => exact .pure rfl
  | some block => exact .pure rfl

theorem params_twin : Twin params params node node' (node.readPathsAs .params) := by
  refine .atNode ?_
  rw [← hresembles.listLength_eq hknown [1], ← hresembles.listLength_eq hknown [4]]
  refine (childrenOrNone_twin hresembles hknown [0]).bind fun required => ?_
  refine (optionalParams_twin hresembles hknown _ 0).bind fun optional => ?_
  refine (child?_twin hresembles hknown [2]).bind fun rest => ?_
  refine (childrenOrNone_twin hresembles hknown [3]).bind fun post => ?_
  refine (keywordParams_twin hresembles hknown _ 0).bind fun keywords => ?_
  refine (child?_twin hresembles hknown [5]).bind fun keywordRest => ?_
  exact (child?_twin hresembles hknown [6]).map _

theorem paren_twin : Twin paren paren node node' (node.readPathsAs .paren) :=
  .atNode ((slotsFrom_twin hresembles hknown (hresembles.slots hknown) rfl).map _)

omit hresembles hknown in
theorem any_isInterpolation_eq
    {slots slots' : List Slot} (hslots : Slot.ResembleAll slots slots') :
    slots.any isInterpolation = slots'.any isInterpolation := by
  induction slots generalizing slots' with
  | nil =>
      cases hslots
      rfl
  | cons slot slots ih =>
      cases hslots with
      | cons hslot hslots =>
          rw [List.any_cons, List.any_cons, ih hslots]
          cases hslot with
          | node hchild => rw [isInterpolation, isInterpolation, hchild.kind_eq]
          | _ => rfl

theorem stringContent_twin :
    Twin stringContent stringContent node node' (node.readPathsAs .stringContent) := by
  refine .atNode ?_
  rw [any_isInterpolation_eq (hresembles.slots hknown)]
  exact (children_twin hresembles hknown []).map _

omit hknown in
/-- At two nodes that resemble each other and agree, a rule carries out the same plan apart
from the children. -/
theorem rule_twin
    {event : ParserEvent} (hkind : node.kind = .parser event) (hagrees : node.Agrees node') :
    Twin (fun visit => rule visit event) (fun visit => rule visit event) node node'
      (node.readPathsAs event) := by
  have hknown : node.kind.isKnown = true := by rw [hkind]; rfl
  have hall := child_twin hresembles hknown
  have hlists := children_twin hresembles hknown
  have hpresent := child?_twin hresembles hknown
  have hkind' := hresembles.kind_eq.symm.trans hkind
  have hbreaks := hagrees.breaks
  cases event with
  | aliasPair => exact (hlists []).map _
  | argsAddBlock => exact argsAddBlock_twin hresembles hknown
  | assign => exact (hlists []).map _
  | binary =>
      have htoken := token_twin (hagrees.token (.inl hkind))
      exact htoken.bind fun _ => (hall [0]).bind fun _ => (hall [2]).map _
  | blockArg => exact (hpresent [0]).map _
  | bodyStmt => exact (hlists [0]).map _
  | call =>
      have htoken := token_twin (hagrees.token (.inr hkind))
      exact htoken.bind fun _ => (hall [0]).bind fun _ => (hall [2]).map _
  | classDef =>
      refine (hall [0]).bind fun _ => (hpresent [1]).bind fun _ => (hall [2]).finish fun body => ?_
      refine .atNode (.pure ?_)
      have hfront : node.breaksInFront 2 = node'.breaksInFront 2 := by
        simpa [Node.breaksBeforeBody, hkind, hkind'] using hbreaks
      rw [onOwnLine_eq, onOwnLine_eq, hfront]
  | command => exact (hlists []).map _
  | constRef => exact hall [0]
  | methodDef => exact (hall [0]).bind fun _ => (hall [1]).bind fun _ => (hall [2]).map _
  | kwRestParam => exact (hpresent [0]).map _
  | moduleDef =>
      refine (hall [0]).bind fun _ => (hall [1]).finish fun body => ?_
      refine .atNode (.pure ?_)
      have hfront : node.breaksInFront 1 = node'.breaksInFront 1 := by
        simpa [Node.breaksBeforeBody, hkind, hkind'] using hbreaks
      rw [onOwnLine_eq, onOwnLine_eq, hfront]
  | params => exact params_twin hresembles hknown
  | paren => exact paren_twin hresembles hknown
  | program => exact (hlists [0]).map _
  | restParam => exact (hpresent [0]).map _
  | stringContent => exact stringContent_twin hresembles hknown
  | stringEmbexpr => exact (hlists [0]).map _
  | stringLiteral => exact (hlists []).map _
  | symbol => exact (hlists []).map _
  | symbolLiteral => exact (hlists []).map _
  | varField => exact (hlists []).map _
  | varRef => exact hall [0]
  | vcall => exact (hlists []).map _
  | voidStmt => exact .pure rfl

end Rules

end Print

end TreeFormat

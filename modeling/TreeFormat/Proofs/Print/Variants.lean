import TreeFormat.Proofs.Print.Courses
import TreeFormat.Proofs.Print.Definitions
import TreeFormat.Proofs.Tree.InStep

/-!
# Spellings of a tree print alike

If a tree prints, all its other spellings print to the same document, with the same log
(`Node.print_of_respellings`).  A rule asks whether something is there, counts the elements
of a list, goes through all slots, or reads a token, and each time it makes no difference
which spelling it has before it (`Print.rule_inStep`).

Only trees that print are compared.  A tree that does not print may stop for another reason
in another spelling: a slot that is missing in one of them holds nothing in the other.
-/

namespace TreeFormat

open Walk (InStep)

/-! ## What rules see of a node -/

namespace Slot

theorem child?_kind_eq_of_forall₂
    {items items' : List Slot} (hitems : List.Forall₂ MayRespell items items') :
    (items.findSome? child?).map Node.kind = (items'.findSome? child?).map Node.kind := by
  induction hitems with
  | nil => rfl
  | cons hitem _ ih =>
      rw [List.findSome?_cons, List.findSome?_cons]
      cases hitem.holdSame with
      | absent => exact ih
      | token text => exact ih
      | list hinner => exact ih
      | node hchild => exact congrArg some hchild.kind_eq

theorem Extend.any_isInterpolation_eq
    {slots slots' : List Slot} (hslots : Extend MayRespell slots slots') :
    slots.any Print.isInterpolation = slots'.any Print.isInterpolation := by
  induction hslots with
  | absent count => simp [Print.isInterpolation]
  | cons hslot _ ih =>
      rw [List.any_cons, List.any_cons, ih]
      cases hslot.holdSame with
      | node hchild => rw [Print.isInterpolation, Print.isInterpolation, hchild.kind_eq]
      | _ => rfl

end Slot

namespace Node

variable {node node' : Node}

/-- Two spellings of a body open with statements of the same kind. -/
theorem MayRespell.firstStatement?_kind_eq (hnode : node.MayRespell node') (slot : Nat) :
    (Print.firstStatement? node slot).map Node.kind =
      (Print.firstStatement? node' slot).map Node.kind := by
  unfold Print.firstStatement?
  have hagree := hnode.slotAt slot []
  generalize node.slotAt [slot] = found, node'.slotAt [slot] = found' at hagree ⊢
  cases hagree with
  | failed fault fault' => rfl
  | padded fault => rfl
  | found hstands =>
      cases hstands with
      | wrapped text wrapper => rfl
      | spelled hslot =>
          cases hslot.holdSame with
          | absent => rfl
          | token text => rfl
          | list hitems => rfl
          | node hchild =>
              dsimp only
              rw [List.head?_eq_getElem?, List.head?_eq_getElem?]
              rcases hchild.slots.getElem? 0 with
                ⟨first, first', hsome, hsome', hfirst⟩ | ⟨hnone, hnone' | habsent⟩
              · rw [hsome, hsome']
                cases hfirst with
                | wrapped text wrapper => rfl
                | spelled hfirst =>
                    cases hfirst.holdSame with
                    | list hitems => exact Slot.child?_kind_eq_of_forall₂ hitems
                    | _ => rfl
              · rw [hnone, hnone']
              · rw [hnone, habsent]

end Node

namespace Print

variable {node node' : Node} {visit visit' : Printer Doc}

/-! ## Parts of rules -/

section Rules

variable (hnode : node.MayRespell node')
  (hvisit : ∀ child child', child.MayRespell child' → child.height < node.height →
    child'.height < node'.height → InStep visit visit' child child')

include hnode hvisit

theorem child_inStep (path : List Nat) :
    InStep (child visit path) (child visit' path) node node' :=
  .call hnode hvisit path

theorem children_inStep (path : List Nat) :
    InStep (children visit path) (children visit' path) node node' :=
  .each hnode hvisit path

theorem child?_inStep (index : Nat) (rest : List Nat) :
    InStep (child? visit (index :: rest)) (child? visit' (index :: rest)) node node' := by
  refine .atNode ?_
  rw [← hnode.has_eq index rest]
  cases node.has (index :: rest) with
  | true => exact (child_inStep hnode hvisit (index :: rest)).map some
  | false => exact .pure none

theorem childrenOrNone_inStep (index : Nat) (rest : List Nat) :
    InStep (childrenOrNone visit (index :: rest)) (childrenOrNone visit' (index :: rest))
      node node' := by
  refine .atNode ?_
  rw [← hnode.has_eq index rest]
  cases node.has (index :: rest) with
  | true => exact children_inStep hnode hvisit (index :: rest)
  | false => exact .pure []

omit hvisit in
theorem token_inStep (path : List Nat) :
    InStep (token path) (token path) node node' :=
  .atNode (.ofLookup fun _ => hnode.tokenAt)

omit hnode hvisit in
theorem slotsFrom_absent (visit : Printer Doc) (index count : Nat) :
    slotsFrom visit index (List.replicate count .absent) = pure [] := by
  induction count generalizing index with
  | zero => rfl
  | succ count ih =>
      rw [List.replicate_succ, slotsFrom, ih]
      rfl

theorem slotsFrom_inStep
    {slots slots' : List Slot} (hslots : Slot.Extend Slot.MayRespell slots slots') (index : Nat) :
    InStep (slotsFrom visit index slots) (slotsFrom visit' index slots') node node' := by
  induction hslots generalizing index with
  | absent count =>
      rw [slotsFrom_absent]
      exact .pure []
  | cons hslot _ ih =>
      have hrest := ih (index + 1)
      cases hslot.holdSame with
      | absent => exact hrest.map ([] ++ ·)
      | token content => exact hrest.map ([Doc.text content] ++ ·)
      | node _ => exact (child_inStep hnode hvisit [index]).bind fun doc => hrest.map ([doc] ++ ·)
      | list _ =>
          exact (children_inStep hnode hvisit [index]).bind fun docs => hrest.map (docs ++ ·)

theorem optionalParams_inStep (count index : Nat) :
    InStep (optionalParams visit count index) (optionalParams visit' count index) node node' := by
  induction count generalizing index with
  | zero => exact .pure []
  | succ count ih =>
      refine (child_inStep hnode hvisit [1, index, 0]).bind fun name => ?_
      refine (child_inStep hnode hvisit [1, index, 1]).bind fun default => ?_
      exact (ih (index + 1)).map _

theorem keywordParams_inStep (count index : Nat) :
    InStep (keywordParams visit count index) (keywordParams visit' count index) node node' := by
  induction count generalizing index with
  | zero => exact .pure []
  | succ count ih =>
      refine (child_inStep hnode hvisit [4, index, 0]).bind fun label => ?_
      refine (child?_inStep hnode hvisit 4 [index, 1]).bind fun default => ?_
      exact (ih (index + 1)).map _

/-! ## Rules -/

theorem argsAddBlock_inStep : InStep (argsAddBlock visit) (argsAddBlock visit') node node' := by
  refine (children_inStep hnode hvisit [0]).bind fun docs => ?_
  refine (child?_inStep hnode hvisit 1 []).bind fun block => ?_
  cases block with
  | none => exact .pure _
  | some block => exact .pure _

theorem params_inStep : InStep (params visit) (params visit') node node' := by
  refine .atNode ?_
  rw [← hnode.listLength_eq 1 [], ← hnode.listLength_eq 4 []]
  refine (childrenOrNone_inStep hnode hvisit 0 []).bind fun required => ?_
  refine (optionalParams_inStep hnode hvisit _ 0).bind fun optional => ?_
  refine (child?_inStep hnode hvisit 2 []).bind fun rest => ?_
  refine (childrenOrNone_inStep hnode hvisit 3 []).bind fun post => ?_
  refine (keywordParams_inStep hnode hvisit _ 0).bind fun keywords => ?_
  refine (child?_inStep hnode hvisit 5 []).bind fun keywordRest => ?_
  exact (child?_inStep hnode hvisit 6 []).map _

theorem classDef_inStep : InStep (classDef visit) (classDef visit') node node' := by
  refine (child_inStep hnode hvisit [0]).bind fun name => ?_
  refine (child?_inStep hnode hvisit 1 []).bind fun superclass => ?_
  refine (child_inStep hnode hvisit [2]).bind fun body => ?_
  refine .atNode ?_
  rw [onOwnLine_eq, onOwnLine_eq, Node.breaksInFront_congr (hnode.firstStatement?_kind_eq 2)]
  exact .pure _

theorem moduleDef_inStep : InStep (moduleDef visit) (moduleDef visit') node node' := by
  refine (child_inStep hnode hvisit [0]).bind fun name => ?_
  refine (child_inStep hnode hvisit [1]).bind fun body => ?_
  refine .atNode ?_
  rw [onOwnLine_eq, onOwnLine_eq, Node.breaksInFront_congr (hnode.firstStatement?_kind_eq 1)]
  exact .pure _

/-- On two spellings of a node its rule goes in step, if the visits of lower children do. -/
theorem rule_inStep {event : ParserEvent} (hkind : node.kind = .parser event) :
    InStep (rule visit event) (rule visit' event) node node' := by
  have hall := child_inStep hnode hvisit
  have hlists := children_inStep hnode hvisit
  have hpresent := child?_inStep hnode hvisit
  cases event with
  | aliasPair => exact (hlists []).map _
  | argsAddBlock => exact argsAddBlock_inStep hnode hvisit
  | assign => exact (hlists []).map _
  | binary =>
      exact (token_inStep hnode [1]).bind fun _ => (hall [0]).bind fun _ => (hall [2]).map _
  | blockArg => exact (hpresent 0 []).map _
  | bodyStmt => exact (hlists [0]).map _
  | call =>
      exact (token_inStep hnode [1]).bind fun _ => (hall [0]).bind fun _ => (hall [2]).map _
  | classDef => exact classDef_inStep hnode hvisit
  | command => exact (hlists []).map _
  | constRef => exact hall [0]
  | methodDef => exact (hall [0]).bind fun _ => (hall [1]).bind fun _ => (hall [2]).map _
  | kwRestParam => exact (hpresent 0 []).map _
  | moduleDef => exact moduleDef_inStep hnode hvisit
  | params => exact params_inStep hnode hvisit
  | paren =>
      have hslots := hnode.slots_of_plain (by rw [hkind]; decide)
      exact .atNode ((slotsFrom_inStep hnode hvisit hslots 0).map _)
  | program => exact (hlists [0]).map _
  | restParam => exact (hpresent 0 []).map _
  | stringContent =>
      have hslots := hnode.slots_of_plain (by rw [hkind]; decide)
      refine .atNode ?_
      rw [hslots.any_isInterpolation_eq]
      exact (hlists []).map _
  | stringEmbexpr => exact (hlists [0]).map _
  | stringLiteral => exact (hlists []).map _
  | symbol => exact (hlists []).map _
  | symbolLiteral => exact (hlists []).map _
  | varField => exact (hlists []).map _
  | varRef => exact hall [0]
  | vcall => exact (hlists []).map _
  | voidStmt => exact .pure Doc.nil

end Rules

/-! ## Printing -/

theorem literal_inStep (hnode : node.MayRespell node') : InStep literal literal node node' := by
  refine .atNode ?_
  cases node with
  | leaf kind content =>
      rw [hnode.eq_of_leaf]
      exact .pure _
  | branch kind slots => exact .fail _ _

/-- A node of unknown kind has one spelling only, and it is reported from the same place. -/
theorem skip_inStep (hnode : node.MayRespell node') (hunknown : node.kind.isKnown = false) :
    InStep skip skip node node' := by
  have hrun : ∀ (cursor : Cursor) (log : Log), skip.run (cursor, log) =
      (.ok .nil, cursor, log.push (.skipped ⟨cursor.node, cursor.route⟩)) := fun _ _ => rfl
  rintro cursor cursor' log doc after habreast rfl hnode' hskip
  rw [hrun] at hskip
  cases hskip
  rw [hrun, hnode', hnode.eq_of_unknown hunknown, ← habreast.route]
  exact ⟨rfl, rfl⟩

theorem located_inStep
    {act act' : Printer Doc} (hact : InStep act act' node node') :
    InStep (located act) (located act') node node' := by
  intro cursor cursor' log doc after habreast hcursor hcursor' hrun
  rw [run_located] at hrun ⊢
  cases hfirst : act.run (cursor, log) with
  | mk result ended =>
      rw [hfirst] at hrun
      cases result with
      | error fault => cases hrun
      | ok value =>
          cases hrun
          obtain ⟨hback, hsecond⟩ :=
            hact cursor cursor' log doc ended habreast hcursor hcursor' hfirst
          rw [hsecond]
          exact ⟨hback, rfl⟩

/-- Two spellings of a tree are printed in step. -/
theorem within_inStep
    {height height' : Nat} (hnode : node.MayRespell node') (hheight : node.height ≤ height)
    (hheight' : node'.height ≤ height') : InStep (within height) (within height') node node' := by
  -- The printer goes down to children only, and these are lower than their node.
  induction height generalizing node node' height' with
  | zero => exact absurd node.height_pos (Nat.not_lt.2 hheight)
  | succ height ih =>
      cases height' with
      | zero => exact absurd node'.height_pos (Nat.not_lt.2 hheight')
      | succ height' =>
          have hvisit : ∀ child child', child.MayRespell child' → child.height < node.height →
              child'.height < node'.height →
                InStep (within height) (within height') child child' := by
            intro child child' hchild hlower hlower'
            exact ih hchild (by omega) (by omega)
          rintro cursor cursor' log doc after habreast rfl rfl hrun
          rw [run_within_succ] at hrun ⊢
          rw [← hnode.kind_eq, ← habreast.depth]
          cases hkind : cursor.node.kind with
          | scanner event =>
              have hstep := located_inStep (literal_inStep hnode)
              rw [hkind] at hrun
              exact hstep cursor cursor' _ doc after habreast rfl rfl hrun
          | parser event =>
              have hstep := located_inStep (rule_inStep hnode hvisit hkind)
              rw [hkind] at hrun
              exact hstep cursor cursor' _ doc after habreast rfl rfl hrun
          | other name =>
              have hstep := located_inStep (skip_inStep hnode (by rw [hkind]; rfl))
              rw [hkind] at hrun
              exact hstep cursor cursor' _ doc after habreast rfl rfl hrun

end Print

namespace Node

variable {root root' : Node} {doc : Doc}

/-- Another spelling in one place changes nothing about how a tree prints. -/
theorem MayRespell.print_eq
    (hroot : root.MayRespell root') (hprint : root.print.result = .ok doc) :
    root'.print = root.print := by
  have hhere : ∀ root : Node, Print.here.run (Cursor.ofRoot root, #[]) =
      (Print.within root.height).run (Cursor.ofRoot root, #[]) := fun _ => rfl
  have hstep := Print.within_inStep hroot (Nat.le_refl _) (Nat.le_refl _)
  rw [print, Cursor.print, hhere] at hprint
  rw [print, print, Cursor.print, Cursor.print, hhere, hhere]
  cases hrun : (Print.within root.height).run (Cursor.ofRoot root, #[]) with
  | mk result after =>
      rw [hrun] at hprint
      cases hprint
      obtain ⟨-, hrun'⟩ := hstep _ _ #[] doc after (.ofRoot hroot.kind_eq) rfl rfl hrun
      rw [hrun']

/-- If a tree prints, every other spelling of it prints to the same document.  Everything that
is logged is the same as well, and with it the reports of unknown nodes and their routes. -/
theorem print_of_respellings
    (hspelled : Relation.ReflTransGen Respells root root') (hprint : root.print.result = .ok doc) :
    root'.print.result = .ok doc ∧ root'.print.log = root.print.log := by
  induction hspelled with
  | refl => exact ⟨hprint, rfl⟩
  | tail _ hlast ih =>
      obtain ⟨hresult, hlog⟩ := ih
      have hsame := MayRespell.print_eq (.single hlast) hresult
      rw [hsame]
      exact ⟨hresult, hlog⟩

/-- A sum of a name and an unknown node.  In the other spelling the operator is wrapped, and the
name and the program have a slot more at the end. -/
theorem print_of_respellings_sum :
    let operand (more : List Slot) : Node :=
      .branch (.parser .vcall) (.node (.leaf (.scanner .ident) "a") :: more)
    let sum (left : Node) (operator : Slot) : Node := .branch (.parser .binary)
      [.node left, operator, .node (.branch (.other "yield") [.absent])]
    let program (statement : Node) (more : List Slot) : Node :=
      .branch (.parser .program) (.list [.node statement] :: more)
    let root := program (sum (operand []) (.token "+")) []
    let root' := program (sum (operand [.absent]) (.node (.leaf (.scanner .op) "+"))) [.absent]
    let doc : Doc := .root <| Doc.join .hardLine
      [Doc.join (Doc.concat [.text " ", .text "+", .text " "]) [Doc.concat [.text "a"], .nil]]
    Relation.ReflTransGen Respells root root' ∧ root.print.result = .ok doc ∧
      root.print.log.skipped.map Skipped.route = ["program[0][0] > binary[2] > yield"] ∧
      root'.print.result = .ok doc ∧ root'.print.log = root.print.log := by
  intro operand sum program root root' doc
  have hinside : ∀ {statement statement' : Node}, statement.Respells statement' →
      (program statement []).Respells (program statement' []) := fun hstatement =>
    .inside rfl (.list (.node hstatement) [] []) [] []
  have hwrap : (sum (operand []) (.token "+")).Respells
      (sum (operand []) (.node (.leaf (.scanner .op) "+"))) :=
    .wrap (.inl rfl) _ "+" (.scanner .op) _
  have hpad : (sum (operand []) (.node (.leaf (.scanner .op) "+"))).Respells
      (sum (operand [.absent]) (.node (.leaf (.scanner .op) "+"))) :=
    .inside rfl (.node (.pad rfl [.node (.leaf (.scanner .ident) "a")])) [] _
  have hspelled : Relation.ReflTransGen Respells root root' :=
    ((Relation.ReflTransGen.single (hinside hwrap)).tail (hinside hpad)).tail (.pad rfl _)
  have hprint : root.print.result = .ok doc := by rfl
  exact ⟨hspelled, hprint, by decide +kernel, print_of_respellings hspelled hprint⟩

end Node

end TreeFormat

import TreeFormat.Proofs.Layout.Leaves
import TreeFormat.Proofs.Print.Draws
import TreeFormat.Proofs.Print.Induction

/-!
# Where printed texts come from

Every text of a printed document is a fixed text of a rule or the text of a leaf or
raw token of the tree, and those are printed in tree order and each at most once.

Most rules read their slots in order.  The induction therefore follows the texts
of a node slot by slot: `Node.textsFrom` holds those that have not been passed yet.
-/

namespace TreeFormat

mutual

/-- The texts of the leaves and of the raw tokens of a node in tree order. -/
def Node.texts : Node → List String
  | .leaf _ content => [content]
  | .branch _ slots => Slot.allTexts slots

/-- The texts of the leaves and of the raw tokens in a slot in tree order. -/
def Slot.texts : Slot → List String
  | .absent => []
  | .token content => [content]
  | .node child => child.texts
  | .list items => Slot.allTexts items

/-- The texts of the leaves and of the raw tokens in several slots in tree order. -/
def Slot.allTexts : List Slot → List String
  | [] => []
  | slot :: slots => slot.texts ++ Slot.allTexts slots

end

/-- The texts in the slots of a node from an index on. -/
def Node.textsFrom (node : Node) (index : Nat) : List String :=
  Slot.allTexts (node.slots.drop index)

namespace Print

open Walk (Visits)

theorem allTexts_append (slots slots' : List Slot) :
    Slot.allTexts (slots ++ slots') = Slot.allTexts slots ++ Slot.allTexts slots' := by
  induction slots with
  | nil => rfl
  | cons slot slots ih => rw [List.cons_append, Slot.allTexts, ih, Slot.allTexts, List.append_assoc]

/-! ## Slots in order -/

namespace Draws

/-- Drawing from a slot, and then from the slots behind it. -/
theorem slot
    {slots : List Slot} {start index : Nat} {slot : Slot} {texts rest : List String}
    (hstart : start ≤ index) (hslot : slots[index]? = some slot)
    (htexts : Draws slot.texts texts)
    (hrest : Draws (Slot.allTexts (slots.drop (index + 1))) rest) :
    Draws (Slot.allTexts (slots.drop start)) (texts ++ rest) := by
  obtain ⟨passed, rfl⟩ := Nat.exists_eq_add_of_le hstart
  obtain ⟨hindex, hget⟩ := List.getElem?_eq_some_iff.1 hslot
  have hbehind : slots.drop (start + passed) = slot :: slots.drop (start + passed + 1) := by
    rw [List.drop_eq_getElem_cons hindex, hget]
  have hsplit : slots.drop start =
      (slots.drop start).take passed ++ slot :: slots.drop (start + passed + 1) := by
    rw [← hbehind, ← List.drop_drop, List.take_append_drop]
  rw [hsplit, allTexts_append, Slot.allTexts]
  exact (htexts.append hrest).behind _

theorem pass
    {slots : List Slot} {index : Nat} {texts : List String}
    (hrest : Draws (Slot.allTexts (slots.drop (index + 1))) texts) :
    Draws (Slot.allTexts (slots.drop index)) texts := by
  rw [← List.tail_drop] at hrest
  cases hdrop : slots.drop index with
  | nil =>
      rw [hdrop] at hrest
      exact hrest
  | cons slot slots' =>
      rw [hdrop] at hrest
      exact hrest.behind slot.texts

/-- Separators between documents are no obstacle if their texts are fixed. -/
theorem intersperse
    {separator : Doc} (hseparator : ∀ content ∈ separator.texts, content ∈ fixedTexts)
    {source rest : List String} {docs : List Doc}
    (hdocs : Draws source (docs.flatMap Doc.texts ++ rest)) :
    Draws source ((docs.intersperse separator).flatMap Doc.texts ++ rest) := by
  induction docs generalizing source with
  | nil => exact hdocs
  | cons doc docs ih =>
      cases docs with
      | nil => exact hdocs
      | cons next docs =>
          rw [List.flatMap_cons, List.append_assoc] at hdocs
          obtain ⟨front, back, rfl, hfirst, hrest⟩ := hdocs.split
          simp only [List.intersperse_cons_cons, List.flatMap_cons, List.append_assoc] at ih ⊢
          exact hfirst.append (fixedAll hseparator (ih (by simpa using hrest)))

end Draws

/-! ## Lookups in order -/

/-- The texts of a document are drawn from a node. -/
def Drawn (node : Node) (doc : Doc) : Prop :=
  Draws node.texts doc.texts

section Lookups

variable {node : Node} {start index : Nat} {rest : List String}

theorem draws_token
    {content : String} (hstart : start ≤ index) (htoken : node.tokenAt [index] = .ok content)
    (hrest : Draws (node.textsFrom (index + 1)) rest) :
    Draws (node.textsFrom start) (content :: rest) := by
  rcases Node.tokenAt_eq_ok htoken with hslot | ⟨kind, hslot⟩
  · exact .slot hstart (Node.slotAt_singleton_eq_ok_iff.1 hslot) (.take content .nil) hrest
  · exact .slot hstart (Node.slotAt_singleton_eq_ok_iff.1 hslot) (.take content .nil) hrest

theorem draws_child
    {doc : Doc} (hstart : start ≤ index) (hdoc : ChildAt Drawn node [index] doc)
    (hrest : Draws (node.textsFrom (index + 1)) rest) :
    Draws (node.textsFrom start) (doc.texts ++ rest) := by
  obtain ⟨child, hchild, hdrawn⟩ := hdoc
  rw [Node.childAt_eq_ok_iff, Node.slotAt_singleton_eq_ok_iff] at hchild
  exact .slot hstart hchild hdrawn hrest

theorem draws_visits
    {items : List Slot} {docs : List Doc} (hdocs : Visits Drawn items docs) :
    Draws (Slot.allTexts items) (docs.flatMap Doc.texts) := by
  induction hdocs with
  | nil => exact .nil
  | absent _ ih => exact ih
  | node hdoc _ ih => exact hdoc.append ih

theorem draws_children
    {docs : List Doc} (hstart : start ≤ index) (hdocs : ChildrenAt Drawn node [index] docs)
    (hrest : Draws (node.textsFrom (index + 1)) rest) :
    Draws (node.textsFrom start) (docs.flatMap Doc.texts ++ rest) := by
  obtain ⟨items, hitems, hvisits⟩ := hdocs
  rw [Node.listAt_eq_ok_iff, Node.slotAt_singleton_eq_ok_iff] at hitems
  exact .slot hstart hitems (draws_visits hvisits) hrest

theorem draws_allChildren
    {docs : List Doc} (hdocs : ChildrenAt Drawn node [] docs) :
    Draws (node.textsFrom 0) (docs.flatMap Doc.texts) := by
  obtain ⟨items, hitems, hvisits⟩ := hdocs
  rw [Node.listAt_eq_ok_iff] at hitems
  cases Node.slotAt_nil_eq_ok hitems
  exact draws_visits hvisits

theorem draws_child?
    {doc : Option Doc} (hdoc : ChildAt? Drawn node [index] doc)
    (hrest : Draws (node.textsFrom (index + 1)) rest) :
    Draws (node.textsFrom index) (doc.toList.flatMap Doc.texts ++ rest) := by
  cases doc with
  | none => exact .pass hrest
  | some doc =>
      rw [Option.toList_some, List.flatMap_singleton]
      exact draws_child (Nat.le_refl index) hdoc.2 hrest

theorem draws_children?
    {docs : List Doc} (hdocs : ChildrenAt? Drawn node [index] docs)
    (hrest : Draws (node.textsFrom (index + 1)) rest) :
    Draws (node.textsFrom index) (docs.flatMap Doc.texts ++ rest) := by
  rcases hdocs with ⟨-, hdocs⟩ | ⟨-, rfl⟩
  · exact draws_children (Nat.le_refl index) hdocs hrest
  · exact .pass hrest

theorem exists_item_of_childAt
    {path : List Nat} {doc : Doc} (hdoc : ChildAt Drawn node (path ++ [index]) doc) :
    ∃ items child, node.slotAt path = .ok (.list items) ∧
      items[index]? = some (.node child) ∧ Drawn child doc := by
  obtain ⟨child, hchild, hdrawn⟩ := hdoc
  rw [Node.childAt_eq_ok_iff, Node.slotAt_concat_eq_ok_iff] at hchild
  obtain ⟨items, hitems, hitem⟩ := hchild
  exact ⟨items, child, hitems, hitem, hdrawn⟩

theorem draws_pair
    {path : List Nat} {first second : Doc} {between : String} (hbetween : between ∈ fixedTexts)
    (hfirst : ChildAt Drawn node (path ++ [0]) first)
    (hsecond : ChildAt Drawn node (path ++ [1]) second) :
    ∃ slot, node.slotAt path = .ok slot ∧
      Draws slot.texts (Doc.concat [first, .text between, second]).texts := by
  obtain ⟨pair, child, hpair, hchild, hdrawn⟩ := exists_item_of_childAt hfirst
  obtain ⟨pair', child', hpair', hchild', hdrawn'⟩ := exists_item_of_childAt hsecond
  cases hpair.symm.trans hpair'
  refine ⟨.list pair, hpair, ?_⟩
  have hback : Draws (Slot.allTexts (pair.drop 1)) (second.texts ++ []) :=
    .slot (Nat.le_refl 1) hchild' hdrawn' (.nothing _)
  have hall : Draws (Slot.allTexts (pair.drop 0))
      (first.texts ++ between :: (second.texts ++ [])) :=
    .slot (Nat.le_refl 0) hchild hdrawn (.fixed hbetween hback)
  simpa [Slot.texts] using hall

theorem draws_optionalParam
    {doc : Doc} (hdoc : OptionalParam Drawn node index doc) :
    ∃ slot, node.slotAt [1, index] = .ok slot ∧ Draws slot.texts doc.texts := by
  obtain ⟨hname, hdefault⟩ := hdoc
  exact draws_pair (by decide) hname hdefault

theorem draws_keywordParam
    {doc : Doc} (hdoc : KeywordParam Drawn node index doc) :
    ∃ slot, node.slotAt [4, index] = .ok slot ∧ Draws slot.texts doc.texts := by
  cases hdoc with
  | optional hlabel hdefault => exact draws_pair (by decide) hlabel hdefault.2
  | required hlabel hdefault =>
      have hitem : ChildAt Drawn node ([4, index] ++ [0]) doc := hlabel
      obtain ⟨pair, child, hpair, hchild, hdrawn⟩ := exists_item_of_childAt hitem
      refine ⟨.list pair, hpair, ?_⟩
      have hall : Draws (Slot.allTexts (pair.drop 0)) (doc.texts ++ []) :=
        .slot (Nat.le_refl 0) hchild hdrawn (.nothing _)
      simpa [Slot.texts] using hall

theorem draws_items
    {items : List Slot} {entry : Nat → Doc → Prop}
    (hentry : ∀ index doc, entry index doc →
      ∃ slot, items[index]? = some slot ∧ Draws slot.texts doc.texts)
    {first count : Nat} {docs : List Doc}
    (hdocs : List.Forall₂ entry (List.range' first count) docs) :
    Draws (Slot.allTexts (items.drop first)) (docs.flatMap Doc.texts) := by
  induction count generalizing first docs with
  | zero =>
      cases hdocs
      exact .nothing _
  | succ count ih =>
      rw [List.range'_succ] at hdocs
      obtain ⟨doc, docs', hdoc, hdocs', rfl⟩ := List.forall₂_cons_left_iff.1 hdocs
      obtain ⟨slot, hslot, hdraws⟩ := hentry first doc hdoc
      exact .slot (Nat.le_refl first) hslot hdraws (ih hdocs')

/-- The entries of a parameter group are drawn from the list that holds the group. -/
theorem draws_entries
    {group : Nat} {entry : Nat → Doc → Prop} {count : Nat} {docs : List Doc}
    (hentry : ∀ index doc, entry index doc →
      ∃ slot, node.slotAt ([group] ++ [index]) = .ok slot ∧ Draws slot.texts doc.texts)
    (hdocs : List.Forall₂ entry (List.range' 0 count) docs)
    (hrest : Draws (node.textsFrom (group + 1)) rest) :
    Draws (node.textsFrom group) (docs.flatMap Doc.texts ++ rest) := by
  cases count with
  | zero =>
      cases hdocs
      exact .pass hrest
  | succ count =>
      -- The first entry shows that there is a list in the slot.
      obtain ⟨doc, _, hdoc, -, -⟩ := List.forall₂_cons_left_iff.1 hdocs
      obtain ⟨slot, hslot, -⟩ := hentry 0 doc hdoc
      obtain ⟨items, hitems, -⟩ := Node.slotAt_concat_eq_ok_iff.1 hslot
      have hitem : ∀ index doc, entry index doc →
          ∃ slot, items[index]? = some slot ∧ Draws slot.texts doc.texts := by
        intro index doc hdoc
        obtain ⟨slot, hslot, hdraws⟩ := hentry index doc hdoc
        obtain ⟨items', hitems', hitem⟩ := Node.slotAt_concat_eq_ok_iff.1 hslot
        cases hitems.symm.trans hitems'
        exact ⟨slot, hitem, hdraws⟩
      exact .slot (Nat.le_refl group) (Node.slotAt_singleton_eq_ok_iff.1 hitems)
        (draws_items hitem hdocs) hrest

theorem draws_join
    {separator : Doc} (hseparator : ∀ content ∈ separator.texts, content ∈ fixedTexts)
    {source : List String} {docs : List Doc} (hdocs : Draws source (docs.flatMap Doc.texts)) :
    Draws source (Doc.join separator docs).texts := by
  rw [← List.append_nil (docs.flatMap Doc.texts)] at hdocs
  rw [Doc.texts_join, ← List.append_nil (List.flatMap _ _)]
  exact .intersperse hseparator hdocs

theorem draws_list
    {docs : List Doc} (hdocs : ChildrenAt Drawn node [0] docs) :
    Draws (node.textsFrom 0) (docs.flatMap Doc.texts) := by
  rw [← List.append_nil (docs.flatMap Doc.texts)]
  exact draws_children (Nat.le_refl 0) hdocs (.nothing _)

theorem draws_last
    {doc : Doc} (hstart : start ≤ index) (hdoc : ChildAt Drawn node [index] doc) :
    Draws (node.textsFrom start) doc.texts := by
  rw [← List.append_nil doc.texts]
  exact draws_child hstart hdoc (.nothing _)

theorem draws_sigil
    {mark : String} {name : Option Doc} (hmark : mark ∈ fixedTexts)
    (hname : ChildAt? Drawn node [0] name) :
    Draws (node.textsFrom 0) (.text mark ++ name.getD .nil : Doc).texts := by
  rw [Doc.texts_append]
  refine .fixed hmark ?_
  cases name with
  | none => exact .nothing _
  | some doc => exact draws_last (Nat.le_refl 0) hname.2

theorem draws_body
    {docs : List Doc} (hdocs : ChildrenAt Drawn node [] docs) :
    Draws (node.textsFrom 0) (Doc.concat docs).texts := by
  rw [Doc.texts_concat]
  exact draws_allChildren hdocs

theorem texts_onOwnLine (index : Nat) (body : Doc) :
    (onOwnLine node index body).texts = body.texts := by
  unfold onOwnLine
  split
  · split <;> simp
  · rfl

/-! ## Rules -/

theorem draws_classDef
    {doc : Doc} (hmakes : Makes Drawn node .classDef doc) :
    Draws (node.textsFrom 0) doc.texts := by
  cases hmakes with
  | @classDef name body hname hparent hbody =>
      have hend : Draws (node.textsFrom 1) (body.texts ++ ["end"]) :=
        draws_child (by decide) hbody (.fixed (by decide) (.nothing _))
      have hall : Draws (node.textsFrom 0) ("class " :: (name.texts ++ (body.texts ++ ["end"]))) :=
        .fixed (by decide) (draws_child (Nat.le_refl 0) hname hend)
      simpa [texts_onOwnLine] using hall
  | @subclassDef name parent body hname hparent hbody =>
      have hend : Draws (node.textsFrom 2) (body.texts ++ ["end"]) :=
        draws_child (Nat.le_refl 2) hbody (.fixed (by decide) (.nothing _))
      have htail : Draws (node.textsFrom 1) (" < " :: (parent.texts ++ (body.texts ++ ["end"]))) :=
        .fixed (by decide) (draws_child (Nat.le_refl 1) hparent.2 hend)
      have hall : Draws (node.textsFrom 0)
          ("class " :: (name.texts ++ " < " :: (parent.texts ++ (body.texts ++ ["end"])))) :=
        .fixed (by decide) (draws_child (Nat.le_refl 0) hname htail)
      simpa [texts_onOwnLine] using hall

theorem draws_moduleDef
    {doc : Doc} (hmakes : Makes Drawn node .moduleDef doc) :
    Draws (node.textsFrom 0) doc.texts := by
  cases hmakes with
  | @moduleDef name body hname hbody =>
      have hend : Draws (node.textsFrom 1) (body.texts ++ ["end"]) :=
        draws_child (Nat.le_refl 1) hbody (.fixed (by decide) (.nothing _))
      have hall : Draws (node.textsFrom 0) ("module " :: (name.texts ++ (body.texts ++ ["end"]))) :=
        .fixed (by decide) (draws_child (Nat.le_refl 0) hname hend)
      simpa [texts_onOwnLine] using hall

theorem draws_methodDef
    {doc : Doc} (hmakes : Makes Drawn node .methodDef doc) :
    Draws (node.textsFrom 0) doc.texts := by
  cases hmakes with
  | @methodDef name parameters body hname hparameters hbody =>
      have hend : Draws (node.textsFrom 2) (body.texts ++ ["end"]) :=
        draws_child (Nat.le_refl 2) hbody (.fixed (by decide) (.nothing _))
      have htail : Draws (node.textsFrom 1) (parameters.texts ++ (body.texts ++ ["end"])) :=
        draws_child (Nat.le_refl 1) hparameters hend
      have hall : Draws (node.textsFrom 0)
          ("def " :: (name.texts ++ (parameters.texts ++ (body.texts ++ ["end"])))) :=
        .fixed (by decide) (draws_child (Nat.le_refl 0) hname htail)
      simpa using hall

theorem draws_params
    {doc : Doc} (hmakes : Makes Drawn node .params doc) : Draws (node.textsFrom 0) doc.texts := by
  cases hmakes with
  | params hrequired hoptional hrest hpost hkeywords hkeywordRest hblock =>
      -- The separators are put aside first; the groups then follow the slots in order.
      rw [Doc.texts_join, ← List.append_nil (List.flatMap _ _)]
      apply Draws.intersperse (by decide)
      simp only [List.flatMap_append, List.append_assoc]
      apply draws_children? hrequired
      apply draws_entries (fun _ _ => draws_optionalParam) hoptional
      apply draws_child? hrest
      apply draws_children? hpost
      apply draws_entries (fun _ _ => draws_keywordParam) hkeywords
      apply draws_child? hkeywordRest
      apply draws_child? hblock
      exact .nothing _

theorem draws_binary
    {doc : Doc} (hmakes : Makes Drawn node .binary doc) : Draws (node.textsFrom 0) doc.texts := by
  cases hmakes with
  | @binary operator left right hoperator hleft hright =>
      have hright' : Draws (node.textsFrom 2) (" " :: right.texts) :=
        .fixed (by decide) (draws_last (Nat.le_refl 2) hright)
      have htail : Draws (node.textsFrom 1) (" " :: operator :: " " :: right.texts) :=
        .fixed (by decide) (draws_token (Nat.le_refl 1) hoperator hright')
      have hall : Draws (node.textsFrom 0) (left.texts ++ " " :: operator :: " " :: right.texts) :=
        draws_child (Nat.le_refl 0) hleft htail
      simpa using hall

theorem draws_call
    {doc : Doc} (hmakes : Makes Drawn node .call doc) : Draws (node.textsFrom 0) doc.texts := by
  cases hmakes with
  | @call connector receiver method hconnector hreceiver hmethod =>
      have htail : Draws (node.textsFrom 1) (connector :: method.texts) :=
        draws_token (Nat.le_refl 1) hconnector (draws_last (Nat.le_refl 2) hmethod)
      have hall : Draws (node.textsFrom 0) (receiver.texts ++ connector :: method.texts) :=
        draws_child (Nat.le_refl 0) hreceiver htail
      simpa using hall

theorem draws_argsAddBlock
    {doc : Doc} (hmakes : Makes Drawn node .argsAddBlock doc) :
    Draws (node.textsFrom 0) doc.texts := by
  cases hmakes with
  | arguments hdocs hblock => exact draws_join (by decide) (draws_list hdocs)
  | @argsAddBlock docs block hdocs hblock =>
      rw [Doc.texts_group, Doc.texts_append, Doc.texts_join]
      apply Draws.intersperse (by decide)
      exact draws_children (Nat.le_refl 0) hdocs (draws_last (Nat.le_refl 1) hblock.2)

theorem draws_slotDocs
    {slots : List Slot} {docs : List (List Doc)}
    (hdocs : List.Forall₂ (SlotDocs Drawn) slots docs) :
    Draws (Slot.allTexts slots) (docs.flatten.flatMap Doc.texts) := by
  induction hdocs with
  | nil => exact .nil
  | cons hslot _ ih =>
      rw [Slot.allTexts, List.flatten_cons, List.flatMap_append]
      refine .append ?_ ih
      cases hslot with
      | absent => exact .nil
      | token content => exact .take content .nil
      | node hdoc =>
          rw [List.flatMap_singleton]
          exact hdoc
      | list hdocs => exact draws_visits hdocs

theorem draws_paren
    {doc : Doc} (hmakes : Makes Drawn node .paren doc) : Draws (node.textsFrom 0) doc.texts := by
  cases hmakes with
  | @paren docs hdocs =>
      have hclosing : Draws [] [")"] := .fixed (by decide) .nil
      have hopening : "(" ∈ fixedTexts := by decide
      have hall := Draws.fixed hopening ((draws_slotDocs hdocs).append hclosing)
      simpa [Node.textsFrom] using hall

theorem draws_between
    {opening closing : String} {docs : List Doc}
    (hopening : opening ∈ fixedTexts) (hclosing : closing ∈ fixedTexts)
    {source : List String} (hdocs : Draws source (docs.flatMap Doc.texts)) :
    Draws source (.text opening ++ Doc.concat docs ++ .text closing : Doc).texts := by
  have hend : Draws [] [closing] := .fixed hclosing .nil
  simpa using Draws.fixed hopening (hdocs.append hend)

/-- A document that a rule makes is drawn from the slots of the node if the documents
of the children are drawn from the children. -/
theorem draws_makes
    {event : ParserEvent} {doc : Doc} (hmakes : Makes Drawn node event doc) :
    Draws (node.textsFrom 0) doc.texts := by
  cases event with
  | argsAddBlock => exact draws_argsAddBlock hmakes
  | binary => exact draws_binary hmakes
  | call => exact draws_call hmakes
  | classDef => exact draws_classDef hmakes
  | moduleDef => exact draws_moduleDef hmakes
  | methodDef => exact draws_methodDef hmakes
  | params => exact draws_params hmakes
  | paren => exact draws_paren hmakes
  | aliasPair =>
      cases hmakes with
      | aliasPair hdocs =>
          rw [Doc.texts_append]
          exact .fixed (by decide) (draws_join (by decide) (draws_allChildren hdocs))
  | assign =>
      cases hmakes with
      | assign hdocs => exact draws_join (by decide) (draws_allChildren hdocs)
  | command =>
      cases hmakes with
      | command hdocs => exact draws_join (by decide) (draws_allChildren hdocs)
  | bodyStmt =>
      cases hmakes with
      | bodyStmt hdocs => exact draws_join (by decide) (draws_list hdocs)
  | program =>
      cases hmakes with
      | program hdocs => exact draws_join (by decide) (draws_list hdocs)
  | blockArg =>
      cases hmakes with
      | blockArg hname => exact draws_sigil (by decide) hname
  | restParam =>
      cases hmakes with
      | restParam hname => exact draws_sigil (by decide) hname
  | kwRestParam =>
      cases hmakes with
      | kwRestParam hname => exact draws_sigil (by decide) hname
  | constRef =>
      cases hmakes with
      | constRef hdoc => exact draws_last (Nat.le_refl 0) hdoc
  | varRef =>
      cases hmakes with
      | varRef hdoc => exact draws_last (Nat.le_refl 0) hdoc
  | stringContent =>
      cases hmakes with
      | stringContent hquote hdocs =>
          have hfixed :
              ∀ interpolates : Bool, (if interpolates then "\"" else "'") ∈ fixedTexts := by
            decide
          rw [hquote]
          exact draws_between (hfixed _) (hfixed _) (draws_allChildren hdocs)
  | stringEmbexpr =>
      cases hmakes with
      | stringEmbexpr hdocs => exact draws_between (by decide) (by decide) (draws_list hdocs)
  | symbol =>
      cases hmakes with
      | symbol hdocs =>
          rw [Doc.texts_append, Doc.texts_concat]
          exact .fixed (by decide) (draws_allChildren hdocs)
  | stringLiteral =>
      cases hmakes with
      | stringLiteral hdocs => exact draws_body hdocs
  | symbolLiteral =>
      cases hmakes with
      | symbolLiteral hdocs => exact draws_body hdocs
  | varField =>
      cases hmakes with
      | varField hdocs => exact draws_body hdocs
  | vcall =>
      cases hmakes with
      | vcall hdocs => exact draws_body hdocs
  | voidStmt =>
      cases hmakes
      exact .nothing _

theorem draws_texts
    {texts : List String} (hdraws : Draws (node.textsFrom 0) texts) : Draws node.texts texts := by
  cases node with
  | leaf kind content => exact .skip content hdraws
  | branch kind slots => simpa [Node.textsFrom, Node.texts] using hdraws

end Lookups

theorem drawn_of_print
    {node : Node} {doc : Doc} (hprint : node.print.result = .ok doc) : Drawn node doc := by
  refine Node.print_induction ?_ ?_ ?_ hprint
  · intro event content
    exact .take content .nil
  · intro node hkind
    exact .nothing _
  · intro node event doc hkind hmakes
    exact draws_texts (draws_makes hmakes)

end Print

/-- Every text of a printed document is a fixed text of the rules or the text at a
position of the tree, counted over its leaves and raw tokens in tree order, and these
positions increase from one text to the next. -/
theorem Node.print_texts
    {node : Node} {doc : Doc} (hprint : node.print.result = .ok doc) :
    ∃ labels : List Print.Label,
      List.Forall₂ (fun text label => label.Explains node.texts text) doc.texts labels ∧
      (labels.filterMap Print.Label.position?).Pairwise (· < ·) :=
  (Print.drawn_of_print hprint).exists_labels

theorem Node.print_texts_sum :
    let sum : Node :=
      .branch (.parser .binary) [
        .node (.leaf (.scanner .ident) "a"),
        .token "+",
        .node (.leaf (.scanner .ident) "b")]
    let doc : Doc :=
      .join (.concat [.text " ", .text "+", .text " "]) [.text "a", .text "b"]
    sum.print.result = .ok doc ∧
      ∃ labels : List Print.Label,
        List.Forall₂ (fun text label => label.Explains sum.texts text) doc.texts labels ∧
        (labels.filterMap Print.Label.position?).Pairwise (· < ·) := by
  intro sum doc
  have hprint : sum.print.result = .ok doc := rfl
  exact ⟨hprint, Node.print_texts hprint⟩

end TreeFormat

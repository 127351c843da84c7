import Mathlib.Data.List.Forall2
import TreeFormat.Print.Printer
import TreeFormat.Proofs.Tree.Walks

/-!
# What the rules make

`Print.Makes` says for every rule which document it makes of a node from the
documents of the children.  It is one step: which documents the children have is an
argument.
-/

namespace TreeFormat

namespace Print

open Doc (join text concat hardLine literalLine line nil)
open Walk (Ensures Visits)

section Lookups

variable (prints : Node → Doc → Prop) (node : Node)

/-- The child at a slot path has a document. -/
def ChildAt (path : List Nat) (doc : Doc) : Prop :=
  ∃ child, node.childAt path = .ok child ∧ prints child doc

/-- The children in the list at a slot path have documents. -/
def ChildrenAt (path : List Nat) (docs : List Doc) : Prop :=
  ∃ items, node.listAt path = .ok items ∧ Visits prints items docs

/-- The child at a slot path has a document, if something is there. -/
def ChildAt? (path : List Nat) : Option Doc → Prop
  | some doc => node.has path = true ∧ ChildAt prints node path doc
  | none => node.has path = false

/-- The children in the list at a slot path have documents, if something is there. -/
def ChildrenAt? (path : List Nat) (docs : List Doc) : Prop :=
  node.has path = true ∧ ChildrenAt prints node path docs ∨
    node.has path = false ∧ docs = []

/-- The documents of one slot: none if nothing is there, and several of a list. -/
inductive SlotDocs : Slot → List Doc → Prop where
  | absent : SlotDocs .absent []
  | token (content : String) : SlotDocs (.token content) [text content]
  | node {child : Node} {doc : Doc} (hdoc : prints child doc) : SlotDocs (.node child) [doc]
  | list {items : List Slot} {docs : List Doc} (hdocs : Visits prints items docs) :
      SlotDocs (.list items) docs

/-- The document of an optional parameter. -/
inductive OptionalParam (index : Nat) : Doc → Prop where
  | intro {name default : Doc}
      (hname : ChildAt prints node [1, index, 0] name)
      (hdefault : ChildAt prints node [1, index, 1] default) :
      OptionalParam index (concat [name, text " = ", default])

/-- The document of a keyword parameter. -/
inductive KeywordParam (index : Nat) : Doc → Prop where
  | required {label : Doc}
      (hlabel : ChildAt prints node [4, index, 0] label)
      (hdefault : ChildAt? prints node [4, index, 1] none) :
      KeywordParam index label
  | optional {label default : Doc}
      (hlabel : ChildAt prints node [4, index, 0] label)
      (hdefault : ChildAt? prints node [4, index, 1] (some default)) :
      KeywordParam index (concat [label, text " ", default])

/-- The rule of a composite kind makes a document of a node. -/
inductive Makes : ParserEvent → Doc → Prop where
  | aliasPair {docs : List Doc} (hdocs : ChildrenAt prints node [] docs) :
      Makes .aliasPair (text "alias " ++ join (text " ") docs)
  | arguments {docs : List Doc}
      (hdocs : ChildrenAt prints node [0] docs) (hblock : ChildAt? prints node [1] none) :
      Makes .argsAddBlock (.group (join (text ", ") docs))
  | argsAddBlock {docs : List Doc} {block : Doc}
      (hdocs : ChildrenAt prints node [0] docs) (hblock : ChildAt? prints node [1] (some block)) :
      Makes .argsAddBlock (.group (join (text ", ") docs ++ block))
  | assign {docs : List Doc} (hdocs : ChildrenAt prints node [] docs) :
      Makes .assign (join (text " = ") docs)
  | binary {operator : String} {left right : Doc}
      (hoperator : node.tokenAt [1] = .ok operator)
      (hleft : ChildAt prints node [0] left) (hright : ChildAt prints node [2] right) :
      Makes .binary (join (concat [text " ", text operator, text " "]) [left, right])
  | blockArg {name : Option Doc} (hname : ChildAt? prints node [0] name) :
      Makes .blockArg (text "&" ++ name.getD nil)
  | bodyStmt {docs : List Doc} (hdocs : ChildrenAt prints node [0] docs) :
      Makes .bodyStmt (join line docs)
  | call {connector : String} {receiver method : Doc}
      (hconnector : node.tokenAt [1] = .ok connector)
      (hreceiver : ChildAt prints node [0] receiver) (hmethod : ChildAt prints node [2] method) :
      Makes .call (join (text connector) [receiver, method])
  | classDef {name body : Doc}
      (hname : ChildAt prints node [0] name) (hparent : ChildAt? prints node [1] none)
      (hbody : ChildAt prints node [2] body) :
      Makes .classDef <| concat [
        .group (text "class " ++ name),
        .indent (onOwnLine node 2 body),
        .group (hardLine ++ text "end"),
        literalLine]
  | subclassDef {name parent body : Doc}
      (hname : ChildAt prints node [0] name) (hparent : ChildAt? prints node [1] (some parent))
      (hbody : ChildAt prints node [2] body) :
      Makes .classDef <| concat [
        .group (text "class " ++ name ++ text " < " ++ parent),
        .indent (onOwnLine node 2 body),
        .group (hardLine ++ text "end"),
        literalLine]
  | command {docs : List Doc} (hdocs : ChildrenAt prints node [] docs) :
      Makes .command (join (text " ") docs)
  | constRef {doc : Doc} (hdoc : ChildAt prints node [0] doc) : Makes .constRef doc
  | methodDef {name parameters body : Doc}
      (hname : ChildAt prints node [0] name)
      (hparameters : ChildAt prints node [1] parameters)
      (hbody : ChildAt prints node [2] body) :
      Makes .methodDef <| concat [
        .group (hardLine ++ text "def " ++ name ++ parameters),
        .indent (hardLine ++ body),
        .group (hardLine ++ text "end")]
  | kwRestParam {name : Option Doc} (hname : ChildAt? prints node [0] name) :
      Makes .kwRestParam (text "**" ++ name.getD nil)
  | moduleDef {name body : Doc}
      (hname : ChildAt prints node [0] name) (hbody : ChildAt prints node [1] body) :
      Makes .moduleDef <| concat [
        hardLine ++ text "module " ++ name,
        .indent (onOwnLine node 1 body),
        hardLine ++ text "end",
        literalLine]
  | params {required optional post keywords : List Doc} {rest keywordRest block : Option Doc}
      (hrequired : ChildrenAt? prints node [0] required)
      (hoptional : List.Forall₂ (OptionalParam prints node)
        (List.range' 0 (node.listLength [1])) optional)
      (hrest : ChildAt? prints node [2] rest)
      (hpost : ChildrenAt? prints node [3] post)
      (hkeywords : List.Forall₂ (KeywordParam prints node)
        (List.range' 0 (node.listLength [4])) keywords)
      (hkeywordRest : ChildAt? prints node [5] keywordRest)
      (hblock : ChildAt? prints node [6] block) :
      Makes .params <| join (text ", ") <|
        required ++ optional ++ rest.toList ++ post ++ keywords ++ keywordRest.toList ++
          block.toList
  | paren {docs : List (List Doc)} (hdocs : List.Forall₂ (SlotDocs prints) node.slots docs) :
      Makes .paren (concat (text "(" :: (docs.flatten ++ [text ")"])))
  | program {docs : List Doc} (hdocs : ChildrenAt prints node [0] docs) :
      Makes .program (.root (join hardLine docs))
  | restParam {name : Option Doc} (hname : ChildAt? prints node [0] name) :
      Makes .restParam (text "*" ++ name.getD nil)
  | stringContent {quote : String} {docs : List Doc}
      (hquote : quote = if node.slots.any isInterpolation then "\"" else "'")
      (hdocs : ChildrenAt prints node [] docs) :
      Makes .stringContent (text quote ++ concat docs ++ text quote)
  | stringEmbexpr {docs : List Doc} (hdocs : ChildrenAt prints node [0] docs) :
      Makes .stringEmbexpr (text "#\x7b" ++ concat docs ++ text "\x7d")
  | stringLiteral {docs : List Doc} (hdocs : ChildrenAt prints node [] docs) :
      Makes .stringLiteral (concat docs)
  | symbol {docs : List Doc} (hdocs : ChildrenAt prints node [] docs) :
      Makes .symbol (text ":" ++ concat docs)
  | symbolLiteral {docs : List Doc} (hdocs : ChildrenAt prints node [] docs) :
      Makes .symbolLiteral (concat docs)
  | varField {docs : List Doc} (hdocs : ChildrenAt prints node [] docs) :
      Makes .varField (concat docs)
  | varRef {doc : Doc} (hdoc : ChildAt prints node [0] doc) : Makes .varRef doc
  | vcall {docs : List Doc} (hdocs : ChildrenAt prints node [] docs) :
      Makes .vcall (concat docs)
  | voidStmt : Makes .voidStmt nil

end Lookups

end Print

end TreeFormat

/-!
# Kinds of syntax tree nodes

A tree dump names every node.  Scanner events are the leaf tokens of the
language and carry a leading `@` on the wire; parser events are the composite
rules and are bare words.  A name outside both sets is kept verbatim, so that
the printer can report the node instead of refusing the tree.

`Kind.name` writes a kind and `Kind.ofName` reads one; reading also accepts a
scanner event without its sigil.
-/

namespace TreeFormat

/-- The leaf tokens that the printer knows. -/
inductive ScannerEvent where
  | const | ident | int | float | ivar | gvar | cvar | keyword | label | period | op
  | tstringContent
  deriving DecidableEq, Repr

namespace ScannerEvent

/-- Every scanner event. -/
def all : List ScannerEvent :=
  [const, ident, int, float, ivar, gvar, cvar, keyword, label, period, op, tstringContent]

/-- The name of a scanner event without the sigil. -/
def bareName : ScannerEvent → String
  | const => "const"
  | ident => "ident"
  | int => "int"
  | float => "float"
  | ivar => "ivar"
  | gvar => "gvar"
  | cvar => "cvar"
  | keyword => "kw"
  | label => "label"
  | period => "period"
  | op => "op"
  | tstringContent => "tstring_content"

/-- The scanner event with a bare name; `keyword` is a second spelling of `kw`. -/
def ofBareName? (name : String) : Option ScannerEvent :=
  if name = "keyword" then some keyword else all.find? fun event => event.bareName = name

theorem mem_all (event : ScannerEvent) : event ∈ all := by
  cases event <;> simp [all]

theorem ofBareName?_bareName (event : ScannerEvent) :
    ofBareName? event.bareName = some event := by
  cases event <;> decide

end ScannerEvent

/-- The composite rules that the printer knows. -/
inductive ParserEvent where
  | aliasPair | argsAddBlock | assign | binary | blockArg | bodyStmt | call | classDef | command
  | constRef | methodDef | kwRestParam | moduleDef | params | paren | program | restParam
  | stringContent | stringEmbexpr | stringLiteral | symbol | symbolLiteral | varField | varRef
  | vcall | voidStmt
  deriving DecidableEq, Repr

namespace ParserEvent

/-- Every parser event. -/
def all : List ParserEvent :=
  [aliasPair, argsAddBlock, assign, binary, blockArg, bodyStmt, call, classDef, command, constRef,
    methodDef, kwRestParam, moduleDef, params, paren, program, restParam, stringContent,
    stringEmbexpr, stringLiteral, symbol, symbolLiteral, varField, varRef, vcall, voidStmt]

/-- The name of a parser event. -/
def name : ParserEvent → String
  | aliasPair => "alias"
  | argsAddBlock => "args_add_block"
  | assign => "assign"
  | binary => "binary"
  | blockArg => "blockarg"
  | bodyStmt => "bodystmt"
  | call => "call"
  | classDef => "class"
  | command => "command"
  | constRef => "const_ref"
  | methodDef => "def"
  | kwRestParam => "kwrest_param"
  | moduleDef => "module"
  | params => "params"
  | paren => "paren"
  | program => "program"
  | restParam => "rest_param"
  | stringContent => "string_content"
  | stringEmbexpr => "string_embexpr"
  | stringLiteral => "string_literal"
  | symbol => "symbol"
  | symbolLiteral => "symbol_literal"
  | varField => "var_field"
  | varRef => "var_ref"
  | vcall => "vcall"
  | voidStmt => "void_stmt"

/-- The parser event with a name. -/
def ofName? (name : String) : Option ParserEvent :=
  all.find? fun event => event.name = name

theorem mem_all (event : ParserEvent) : event ∈ all := by
  cases event <;> simp [all]

theorem ofName?_name (event : ParserEvent) : ofName? event.name = some event := by
  cases event <;> decide

end ParserEvent

/-- What a node of a syntax tree is. -/
inductive Kind where
  | scanner (event : ScannerEvent)
  | parser (event : ParserEvent)
  | other (name : String)
  deriving DecidableEq, Repr

namespace Kind

/-- The name of a kind on the wire and in messages. -/
def name : Kind → String
  | scanner event => "@" ++ event.bareName
  | parser event => event.name
  | other text => text

/-- The known kind with a name.  The sigil is optional for scanner events, and
parser events never carry one. -/
def ofKnownName? (name : String) : Option Kind :=
  match name.toList with
  | '@' :: bare => (ScannerEvent.ofBareName? (String.ofList bare)).map scanner
  | _ => (ScannerEvent.ofBareName? name).map scanner <|> (ParserEvent.ofName? name).map parser

/-- The kind with a name.  A name that is not known is kept as it is. -/
def ofName (name : String) : Kind :=
  (ofKnownName? name).getD (other name)

/-- Kinds of the composite rules and of the leaf tokens, as opposed to names
outside both sets. -/
def isKnown : Kind → Bool
  | other _ => false
  | _ => true

theorem name_ne_empty {kind : Kind} (known : kind.isKnown = true) : kind.name ≠ "" := by
  cases kind with
  | scanner event => cases event <;> decide
  | parser event => cases event <;> decide
  | other text => simp [isKnown] at known

theorem ofName_name_of_isKnown {kind : Kind} (known : kind.isKnown = true) :
    ofName kind.name = kind := by
  cases kind with
  | scanner event => cases event <;> decide +kernel
  | parser event => cases event <;> decide +kernel
  | other text => simp [isKnown] at known

end Kind

end TreeFormat

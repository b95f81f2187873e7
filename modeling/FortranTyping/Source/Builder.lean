import FortranTyping.Source.Text
import FortranTyping.Source.Unit

/-!
# Building trees

Trees made in code rather than read from a text. A builder hands out identities in ascending order
and places the leaves one behind the other, with one byte between them; a composite node takes its
identity after its parts and covers them. Widths are counted in bytes of UTF-8.
-/

namespace FortranTyping

structure Builder where
  /-- The identity of the next node. -/
  nextId : Nat := 0
  /-- Where the next leaf begins. -/
  cursor : Nat := 0

abbrev Build := StateM Builder

namespace Build

/-- The next `width` bytes. -/
def place (width : Nat) : Build Span :=
  modifyGet fun b => (.ofWidth b.cursor width, { b with cursor := b.cursor + width + 1 })

def freshId : Build NodeId :=
  modifyGet fun b => (⟨b.nextId⟩, { b with nextId := b.nextId + 1 })

def node (span : Span) : Build Node :=
  return ⟨← freshId, span⟩

def name (text : String) : Build (Located String) :=
  return ⟨← place text.utf8ByteSize, text⟩

/-! ## Expressions -/

def literal (value : Literal) : Build Expr := do
  let span ← place value.text.utf8ByteSize
  return .literal (← node span) value

/-- The operator takes no room of its own. -/
def unary (op : UnaryOp) (operand : Expr) : Build Expr :=
  return .unary (← node operand.span) op operand

def binary (op : BinaryOp) (left right : Expr) : Build Expr :=
  return .binary (← node (left.span.join right.span)) op left right

/-- Parentheses take no room of their own. -/
def paren (inner : Expr) : Build Expr :=
  return .paren (← node inner.span) inner

def reference (text : String) : Build Expr := do
  let name ← name text
  return .reference (← node name.span) name

def element (text : String) (subscripts : List Expr) : Build Expr := do
  let name ← name text
  return .element (← node (name.span.joinAll (subscripts.map Expr.span))) name subscripts

/-- The brackets take room only if there is nothing between them. -/
def bracketed : List Entry → Build Span
  | [] => place 2
  | entry :: rest => return entry.span.joinAll (rest.map Entry.span)

def array (entries : List Entry) : Build Expr := do
  let span ← bracketed entries
  return .array (← node span) entries

/-- Covers the loop variable, which is placed last, the final value, the body and the stride. -/
def impliedDo (body : List Entry) (loopVariable : String) (start stop : Expr)
    (stride : Option Expr) : Build Entry := do
  let loopVariable ← name loopVariable
  let span := (loopVariable.span.join stop.span).joinAll
    (body.map Entry.span ++ stride.toList.map Expr.span)
  return .impliedDo span body loopVariable start stop stride

/-! ## Declarations and statements -/

def typeSpec (keyword : Keyword) (kind length : Option Expr) : Build TypeSpec := do
  let span ← place keyword.text.utf8ByteSize
  return ⟨⟨span, keyword⟩, kind, length⟩

def entity (text : String) (shape : Option Shape) (init : Option Expr) : Build Entity :=
  return ⟨← name text, shape, init⟩

/-- Begins with the keyword and reaches at least to the end of every entity. -/
def declaration (typeSpec : TypeSpec) (attributes : List Attribute) (entities : List Entity) :
    Located Declaration where
  span := (entities.map Entity.stop).foldl Span.extendTo typeSpec.keyword.span
  value := ⟨typeSpec, attributes, entities⟩

def assignment (target value : Expr) : Located Statement :=
  ⟨target.span.join value.span, .assignment target value⟩

def otherStatement : Build (Located Statement) :=
  return ⟨← place 1, .other⟩

def unit (kind : UnitKind) (text : String) (declarations : List (Located Declaration))
    (statements : List (Located Statement)) : Build ProgramUnit :=
  return ⟨kind, ← name text, declarations, statements⟩

end Build

end FortranTyping

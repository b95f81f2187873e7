import FortranTyping.Source.Operator
import FortranTyping.Span

/-!
# Expressions

The tree of an expression. Every node has an identity and a place in the source; the entries of an
array constructor that are implied-do ranges have a place only. A designator is not a part of the
tree of its own but a view of the two kinds of reference.
-/

namespace FortranTyping

/-- Identity of an expression node, distinct within one program unit. -/
structure NodeId where
  index : Nat
  deriving DecidableEq, Repr

def NodeId.text (id : NodeId) : String :=
  s!"#{id.index}"

structure Node where
  id : NodeId
  span : Span
  deriving DecidableEq

/-- Numbers keep the text in which they are written, a kind suffix included; a character literal
keeps what stands between its quotes. -/
inductive Literal where
  | integer (text : String)
  | real (text : String)
  | character (content : String)
  | logical (value : Bool)
  | complex (re im : String)
  deriving DecidableEq, Repr

mutual

inductive Expr where
  | literal (node : Node) (value : Literal)
  | unary (node : Node) (op : UnaryOp) (operand : Expr)
  | binary (node : Node) (op : BinaryOp) (left right : Expr)
  | paren (node : Node) (inner : Expr)
  /-- A whole variable. -/
  | reference (node : Node) (name : Located String)
  /-- A subscripted variable. The list of subscripts may be empty. -/
  | element (node : Node) (name : Located String) (subscripts : List Expr)
  | array (node : Node) (entries : List Entry)

/-- An entry of an array constructor. -/
inductive Entry where
  | plain (value : Expr)
  /-- The body once for every value of the loop variable. The stride is 1 when absent. -/
  | impliedDo (span : Span) (body : List Entry) (loopVariable : Located String)
      (start stop : Expr) (stride : Option Expr)

end

/-- A reference to a variable. The subscripts of a whole variable are absent, not empty. -/
structure Designator where
  name : Located String
  subscripts : Option (List Expr)

def Designator.isSubscripted (designator : Designator) : Bool :=
  designator.subscripts.isSome

namespace Expr

def node : Expr → Node
  | literal node _ | unary node _ _ | binary node _ _ _ | paren node _
  | reference node _ | element node _ _ | array node _ => node

def id (e : Expr) : NodeId :=
  e.node.id

def span (e : Expr) : Span :=
  e.node.span

def withNode (new : Node) : Expr → Expr
  | literal _ value => literal new value
  | unary _ op operand => unary new op operand
  | binary _ op left right => binary new op left right
  | paren _ inner => paren new inner
  | reference _ name => reference new name
  | element _ name subscripts => element new name subscripts
  | array _ entries => array new entries

def designator? : Expr → Option Designator
  | reference _ name => some ⟨name, none⟩
  | element _ name subscripts => some ⟨name, some subscripts⟩
  | _ => none

/-- The expression within any number of parentheses. -/
def bare : Expr → Expr
  | paren _ inner => inner.bare
  | e => e

/-- Whether an array constructor stands within the parentheses, if there are any. -/
def isArrayConstructor (e : Expr) : Bool :=
  match e.bare with
  | array _ _ => true
  | _ => false

end Expr

def Entry.span : Entry → Span
  | .plain value => value.span
  | .impliedDo span _ _ _ _ _ => span

end FortranTyping

/-!
# Operators

The unary and binary operators of expressions, with their spelling.
-/

namespace FortranTyping

inductive UnaryOp where
  | plus
  | minus
  | not
  deriving DecidableEq, Repr

def UnaryOp.text : UnaryOp → String
  | plus => "+"
  | minus => "-"
  | not => ".not."

inductive Relation where
  | eq
  | ne
  | lt
  | le
  | gt
  | ge
  deriving DecidableEq, Repr

def Relation.text : Relation → String
  | eq => "=="
  | ne => "/="
  | lt => "<"
  | le => "<="
  | gt => ">"
  | ge => ">="

inductive BinaryOp where
  | add
  | sub
  | mul
  | div
  | pow
  | concat
  | relation (rel : Relation)
  | and
  | or
  | eqv
  | neqv
  deriving DecidableEq, Repr

namespace BinaryOp

def text : BinaryOp → String
  | add => "+"
  | sub => "-"
  | mul => "*"
  | div => "/"
  | pow => "**"
  | concat => "//"
  | relation rel => rel.text
  | and => ".and."
  | or => ".or."
  | eqv => ".eqv."
  | neqv => ".neqv."

def isRelation : BinaryOp → Bool
  | relation _ => true
  | _ => false

end BinaryOp

end FortranTyping

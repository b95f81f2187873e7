import FortranTyping.Diagnostic.Severity
import FortranTyping.Source.Expr
import FortranTyping.Ty.Basic

/-!
# Diagnostics

What the checker has to say about a program, as data: each finding names the expression that it is
about and carries the types at fault. Its wording and its severity follow from it, and a diagnostic
puts it at a place.
-/

namespace FortranTyping

/-- Why a construct was left unchecked. -/
inductive SkipReason where
  | nonLiteralBound
  | rank (dimensions : Nat)
  | deferredShape
  | nonLiteralLoopBound
  | zeroStride
  deriving DecidableEq, Repr

def SkipReason.text : SkipReason → String
  | nonLiteralBound => "array bound is not a literal constant"
  | rank dimensions => s!"arrays of rank {dimensions} are not checked"
  | deferredShape => "deferred or assumed shape arrays are not checked"
  | nonLiteralLoopBound => "implied-do bounds are not literal constants"
  | zeroStride => "implied-do stride is zero"

inductive Finding where
  /-- A value that does not fit the variable it is stored into. -/
  | mismatch (expr : NodeId) (expected actual : Ty)
  | binaryOperands (expr : NodeId) (op : BinaryOp) (left right : Ty)
  | unaryOperand (expr : NodeId) (op : UnaryOp) (operand : Ty)
  /-- An entry that does not fit its array constructor. An implied-do entry is named by the
  constructor. -/
  | constructorElement (expr : NodeId) (base element : Ty)
  /-- A bound or stride of an implied-do that is not an integer. -/
  | loopControl (expr : NodeId) (type : Ty)
  | subscript (expr : NodeId) (type : Ty)
  | literalRange (expr : NodeId) (literal : String) (kind : Nat)
  | unresolved (expr : NodeId) (name : String)
  /-- Something left unchecked, which need not be an expression. -/
  | skipped (expr : Option NodeId) (reason : SkipReason)
  deriving DecidableEq

def BinaryOp.description : BinaryOp → String
  | add | sub => "addition"
  | mul | div => "multiplication"
  | pow => "power"
  | concat => "concatenation"
  | relation .eq | relation .ne => "equality"
  | relation _ => "binary relation"
  | and => "logical and"
  | or => "logical or"
  | eqv | neqv => "logical equivalence"

def UnaryOp.description : UnaryOp → String
  | plus | minus => "unary addition"
  | not => "logical not"

namespace Finding

def expr? : Finding → Option NodeId
  | mismatch expr _ _ | binaryOperands expr _ _ _ | unaryOperand expr _ _
  | constructorElement expr _ _ | loopControl expr _ | subscript expr _
  | literalRange expr _ _ | unresolved expr _ => some expr
  | skipped expr _ => expr

def severity : Finding → Severity
  | literalRange _ _ _ => .error
  | skipped _ _ => .note
  | _ => .warning

def text : Finding → String
  | mismatch _ expected actual =>
      s!"Assigning {actual.text} value to a variable of {expected.text} type"
  | binaryOperands _ op left right =>
      s!"Can't infer type of this {op.description} expression where arguments are: " ++
        s!"{left.text} and {right.text}"
  | unaryOperand _ op operand =>
      s!"Can't infer type of this {op.description} expression where argument is: {operand.text}"
  | constructorElement _ base element =>
      s!"Array constructor element of {element.text} type does not fit an array of " ++
        s!"{base.text} type"
  | loopControl _ type => s!"Implied-do loop bound must be integer, got {type.text}"
  | subscript _ type => s!"Array subscript must be integer, got {type.text}"
  | literalRange _ literal kind =>
      s!"Integer literal {literal} is too big for integer(kind={kind})"
  | unresolved _ name => s!"Can't resolve declaration of `{name}`"
  | skipped _ reason => s!"Type checking skipped: {reason.text}"

end Finding

/-- A finding at a place in the source. -/
structure Diagnostic where
  severity : Severity
  span : Span
  finding : Finding
  deriving DecidableEq

namespace Diagnostic

/-- A diagnostic with the severity that the finding calls for. -/
def of (span : Span) (finding : Finding) : Diagnostic :=
  ⟨finding.severity, span, finding⟩

def text (d : Diagnostic) : String :=
  s!"{d.severity.text}: {d.finding.text}"

end Diagnostic

end FortranTyping

import FortranTyping.DeclaredType
import FortranTyping.Ty.Operation

/-!
# Verdicts

The typing rule of each kind of node but the array constructor, as a function of the types of its
parts. A verdict is the type of the node with the reports that the rule makes about it; it depends
on nothing but the node and these types.
-/

namespace FortranTyping

structure Verdict where
  type : Ty
  reports : List Diagnostic

namespace Verdict

/-- A type without reports. -/
def clean (type : Ty) : Verdict :=
  ⟨type, []⟩

/-- A report that leaves the type unknown and is its explanation. -/
def fault (span : Span) (finding : Finding) : Verdict :=
  ⟨.unknown (some finding.text), [.of span finding]⟩

/-- A literal always has the type of its form, even if its value is out of range. -/
def literal (node : Node) : Literal → Verdict
  | .integer text =>
      match IntegerLiteral.overflowedKind? text with
      | none => clean .integer
      | some kind => ⟨.integer, [.of node.span (.literalRange node.id text kind)]⟩
  | .real _ => clean .real
  | .character content => clean (.character (some content.length))
  | .logical _ => clean .logical
  | .complex _ _ => clean .complex

def unary (options : Options) (node : Node) (op : UnaryOp) (operand : Ty) : Verdict :=
  if op.allows operand then clean operand
  else if options.reports [operand] then
    fault node.span (.unaryOperand node.id op operand)
  else clean (.unknown none)

/-- A comparison stays logical when its operands do not compare. -/
def binary (options : Options) (node : Node) (op : BinaryOp) (left right : Ty) : Verdict :=
  let finding := Finding.binaryOperands node.id op left right
  if op.allows left right || !options.reports [left, right] then clean (op.result left right)
  else if op.isRelation then ⟨.logical, [.of node.span finding]⟩
  else fault node.span finding

/-- The report about a subscript, bound or stride that has to be an integer and is not. -/
def nonInteger (options : Options) (finding : NodeId → Ty → Finding) (node : Node) (type : Ty) :
    List Diagnostic :=
  if type ≠ .integer ∧ options.reports [type] then [.of node.span (finding node.id type)] else []

/-- A reference to a variable that a declaration may have been found for. -/
def reference (options : Options) (node : Node) (designator : Designator) :
    Option DeclaredEntity → Verdict
  | none =>
      let name := designator.name.value
      ⟨.unknown (some s!"unresolved variable `{name}`"),
        if options.reportUnresolved then
          [.of designator.name.span (.unresolved node.id name)]
        else []⟩
  | some declared =>
      match declared.type options with
      | .error reason => clean (.unknown (some reason.text))
      | .ok type => clean (if designator.isSubscripted then type.element else type)

end Verdict

end FortranTyping

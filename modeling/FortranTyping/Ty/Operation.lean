import FortranTyping.Count
import FortranTyping.Source.Operator
import FortranTyping.Ty.Basic

/-!
# Types of operations

The type that each operator gives to its operands' types. Arithmetic works element by element on
arrays, every other operation on scalars alone. An operation that has no rule for its operands is
unknown, without a cause.
-/

namespace FortranTyping

namespace Ty

/-- Arithmetic on two scalars. -/
def scalarArithmetic : Ty → Ty → Ty
  | integer, integer => integer
  | integer, real | real, integer | real, real => real
  | complex, complex => complex
  | _, _ => unknown none

/-- Arithmetic, element by element where an operand is an array. Two arrays need the same size. -/
def arithmetic : Ty → Ty → Ty
  | array a m, array b n => if m = n then arrayOf (scalarArithmetic a b) m else unknown none
  | array a m, b => arrayOf (scalarArithmetic a b) m
  | a, array b n => arrayOf (scalarArithmetic a b) n
  | a, b => scalarArithmetic a b

/-- A numeric base keeps its type under an integer exponent. -/
def power (base exponent : Ty) : Ty :=
  if base.isNumeric ∧ exponent = integer then base else unknown none

/-- Lengths add up, as long as both are known and the sum stays within range. -/
def concat : Ty → Ty → Ty
  | character m, character n => character (do Count.add? (← m) (← n))
  | _, _ => unknown none

def connect (a b : Ty) : Ty :=
  if a = logical ∧ b = logical then logical else unknown none

/-- Two character values of any length compare, and so does whatever arithmetic combines. -/
def comparable : Ty → Ty → Bool
  | character _, character _ => true
  | a, b => !(arithmetic a b).isUnknown

end Ty

namespace UnaryOp

def allows : UnaryOp → Ty → Bool
  | plus, operand | minus, operand => operand.isNumeric
  | not, operand => operand == .logical

end UnaryOp

namespace BinaryOp

/-- The type of the operation. A comparison is logical whatever it compares. -/
def result : BinaryOp → Ty → Ty → Ty
  | add, left, right | sub, left, right | mul, left, right | div, left, right =>
      left.arithmetic right
  | pow, left, right => left.power right
  | concat, left, right => left.concat right
  | relation _, _, _ => .logical
  | and, left, right | or, left, right | eqv, left, right | neqv, left, right =>
      left.connect right

/-- The operand types for which there is a rule. -/
def allows (op : BinaryOp) (left right : Ty) : Bool :=
  if op.isRelation then left.comparable right else !(op.result left right).isUnknown

end BinaryOp

end FortranTyping

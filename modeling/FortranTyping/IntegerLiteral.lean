import FortranTyping.Capacity
import FortranTyping.Numeral
import FortranTyping.Source.Expr

/-!
# Integer literals

An integer literal such as `42_8` is a run of digits, with a kind behind an underscore if it is not
the default kind. `overflowedKind?` checks the digits against the kind, and `Expr.integerValue?` is
the value of a literal that may stand under signs and parentheses.
-/

namespace FortranTyping

namespace IntegerLiteral

/-- What stands before the first underscore, and what stands behind it if there is one. -/
def split (text : String) : List Char × Option (List Char) :=
  let cs := text.toList
  (cs.takeWhile (· ≠ '_'), (cs.dropWhile (· ≠ '_')).tail?)

/-- The kind that a suffix selects. The kind of a named constant is not known. -/
def kind? : Option (List Char) → Option Nat
  | none => some 4
  | some suffix => Numeral.unsigned? (capacity 8) suffix

/-- The largest value of a kind, which is its size in bytes. -/
def maxOfKind? (kind : Nat) : Option Nat :=
  if kind ∈ [1, 2, 4, 8, 16] then some (capacity (8 * kind - 1) - 1) else none

/-- The literal's kind, if its value is known to be too big for it. Digits that cannot be read are
too big for every kind. -/
def overflowedKind? (text : String) : Option Nat := do
  let (digits, suffix) := split text
  let kind ← kind? suffix
  let largest ← maxOfKind? kind
  if (Numeral.unsigned? (capacity 128) digits).any (· ≤ largest) then none else some kind

def value? (text : String) : Option Int :=
  Numeral.signed? (capacity 63) (split text).1

end IntegerLiteral

/-- The opposite number. There is none for the lowest of the 64-bit integers. -/
def negate? (n : Int) : Option Int :=
  if n = -(capacity 63 : Int) then none else some (-n)

/-- The value of an integer literal under any number of signs and parentheses. -/
def Expr.integerValue? : Expr → Option Int
  | .literal _ (.integer text) => IntegerLiteral.value? text
  | .unary _ .minus operand => operand.integerValue?.bind negate?
  | .unary _ .plus operand => operand.integerValue?
  | .paren _ inner => inner.integerValue?
  | _ => none

/-- The value of a bound or stride that is 1 when absent. -/
def valueOrOne? : Option Expr → Option Int
  | none => some 1
  | some e => e.integerValue?

end FortranTyping

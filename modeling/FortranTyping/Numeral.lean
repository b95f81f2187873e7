/-!
# Decimal numerals

Readers for runs of decimal digits. `unsigned?` allows a plus sign, `signed?` either sign, and both
refuse an empty run and a value outside their range.
-/

namespace FortranTyping.Numeral

def digitValue (c : Char) : Nat :=
  c.toNat - '0'.toNat

/-- The number written by decimal digits, the most significant first. -/
def value (digits : List Char) : Nat :=
  digits.foldl (fun n c => 10 * n + digitValue c) 0

/-- Reads a nonempty run of digits and nothing else. -/
def digits? (cs : List Char) : Option Nat :=
  if cs ≠ [] ∧ cs.all Char.isDigit then some (value cs) else none

def dropPlus : List Char → List Char
  | '+' :: cs => cs
  | cs => cs

/-- Reads a number below `bound`. -/
def unsigned? (bound : Nat) (cs : List Char) : Option Nat := do
  let n ← digits? (dropPlus cs)
  if n < bound then some n else none

/-- Reads a number from `-bound` up to, but not including, `bound`. -/
def signed? (bound : Nat) : List Char → Option Int
  | '-' :: cs => do
      let n ← digits? cs
      if n ≤ bound then some (-(n : Int)) else none
  | cs => do
      let n ← unsigned? bound cs
      some (n : Int)

end FortranTyping.Numeral

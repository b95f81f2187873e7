import FortranTyping.Ty.Basic

/-!
# Assignment between types

`accepts target source` says that a value of type `source` may be stored into a variable of type
`target`, and `unify` is the least type that accepts both of two types, if there is one.
-/

namespace FortranTyping.Ty

/-- A character value fits unless both lengths are known and it is the longer one. Nothing is
accepted by, or as, an unknown type. -/
def accepts : Ty → Ty → Bool
  | integer, integer | real, integer | real, real | logical, logical | complex, complex => true
  | character (some capacity), character (some length) => decide (length ≤ capacity)
  | character _, character _ => true
  | array target m, array source n => m == n && accepts target source
  | _, _ => false

/-- The longer of two lengths, known only if both are. -/
def longer : Option Nat → Option Nat → Option Nat
  | some m, some n => some (max m n)
  | _, _ => none

def unify (a b : Ty) : Ty :=
  if a = b then a
  else match a, b with
    | integer, real | real, integer => real
    | character m, character n => character (longer m n)
    | array base m, array base' n => if m = n then arrayOf (unify base base') m else unknown none
    | _, _ => unknown none

end FortranTyping.Ty

/-!
# Types

The types that an expression can be given. `Ty` itself allows any base below an array; `arrayOf` is
the way to build one, and it refuses arrays of arrays and of unknowns.
-/

namespace FortranTyping

/-- An integer or real type stands for all its kinds. A character length of `none` is not known
statically, and an unknown type may carry the message that explains it. -/
inductive Ty where
  | integer
  | real
  | logical
  | complex
  | character (length : Option Nat)
  | array (base : Ty) (size : Nat)
  | unknown (cause : Option String)
  deriving DecidableEq, Repr

namespace Ty

def isUnknown : Ty → Bool
  | unknown _ => true
  | _ => false

def isArray : Ty → Bool
  | array _ _ => true
  | _ => false

/-- Neither an array nor unknown. -/
def isScalar : Ty → Bool
  | array _ _ | unknown _ => false
  | _ => true

/-- The types that arithmetic widens: complex is not among them. -/
def isNumeric : Ty → Bool
  | integer | real => true
  | _ => false

def cause? : Ty → Option String
  | unknown cause => cause
  | _ => none

def base? : Ty → Option Ty
  | array base _ => some base
  | _ => none

/-- The type of one element: the base of an array, and any other type itself. -/
def element : Ty → Ty
  | array base _ => base
  | ty => ty

/-- An array of `size` elements, or unknown if `base` is not a scalar. -/
def arrayOf (base : Ty) (size : Nat) : Ty :=
  if base.isScalar then array base size else unknown none

/-- The name of the type in messages. It leaves out character lengths and causes. -/
def text : Ty → String
  | integer => "integer"
  | real => "real"
  | logical => "logical"
  | complex => "complex"
  | character _ => "character"
  | array base size => s!"{base.text}, dimension({size})"
  | unknown _ => "unknown type"

end Ty

end FortranTyping

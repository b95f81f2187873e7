import FortranTyping.Count
import FortranTyping.IntegerLiteral
import FortranTyping.Options
import FortranTyping.Source.Declaration

/-!
# Declared types

The type that a declaration gives to an entity. Only literal lengths and bounds are looked at, and
only shapes of one dimension have a type; `DeclaredEntity.type` gives the reason for the others.
-/

namespace FortranTyping

/-- The length in characters that a selector declares. A negative one declares an empty string. -/
def declaredLength? (length : Expr) : Option Nat :=
  length.integerValue?.map Int.toNat

/-- The type of a single element. -/
def TypeSpec.elementType (spec : TypeSpec) (options : Options) : Ty :=
  match spec.keyword.value with
  | .integer => .integer
  | .real | .doublePrecision => .real
  | .complex => .complex
  | .logical => .logical
  | .character =>
      match spec.length with
      | none => .character (some options.defaultCharacterLength)
      | some length => .character (declaredLength? length)

/-- The number of elements along a dimension that ends at `upper`. -/
def Dimension.extent? (dimension : Dimension) (upper : Expr) : Option Nat := do
  Count.between? (← valueOrOne? dimension.lower) (← upper.integerValue?)

/-- The number of elements of a shape, if it can be told. -/
def Shape.size (shape : Shape) : Except SkipReason Nat :=
  match shape with
  | [dimension] =>
      match dimension.upper with
      | none => .error .deferredShape
      | some upper =>
          match dimension.extent? upper with
          | none => .error .nonLiteralBound
          | some size => .ok size
  | _ => .error (.rank shape.rank)

def DeclaredEntity.type (declared : DeclaredEntity) (options : Options) : Except SkipReason Ty :=
  let element := declared.declaration.typeSpec.elementType options
  match declared.shape? with
  | none => .ok element
  | some shape => shape.size.map (.arrayOf element)

end FortranTyping

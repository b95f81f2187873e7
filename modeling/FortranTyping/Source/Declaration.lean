import FortranTyping.Source.Expr

/-!
# Type declaration statements

A statement such as `integer, dimension(6) :: a, b(2) = [1, 2]`: a type, attributes, and the
entities it declares. Each entity has at most one shape in force, its own or else the statement's.
-/

namespace FortranTyping

inductive Keyword where
  | integer
  | real
  | doublePrecision
  | complex
  | logical
  | character
  deriving DecidableEq, Repr

def Keyword.text : Keyword → String
  | integer => "integer"
  | real => "real"
  | doublePrecision => "double precision"
  | complex => "complex"
  | logical => "logical"
  | character => "character"

/-- A keyword with its selectors. A length may be written behind any keyword but only means
something behind `character`. -/
structure TypeSpec where
  keyword : Located Keyword
  kind : Option Expr
  length : Option Expr

/-- One dimension of a shape. The lower bound is 1 when absent; without an upper bound the extent is
deferred or assumed. -/
structure Dimension where
  lower : Option Expr
  upper : Option Expr

def Dimension.bounds (dimension : Dimension) : List Expr :=
  dimension.lower.toList ++ dimension.upper.toList

abbrev Shape := List Dimension

namespace Shape

def rank (shape : Shape) : Nat :=
  shape.length

def bounds (shape : Shape) : List Expr :=
  shape.flatMap Dimension.bounds

end Shape

inductive Attribute where
  | dimension (shape : Shape)
  | parameter
  /-- An attribute without a bearing on types. -/
  | other (text : String)

def Attribute.shape? : Attribute → Option Shape
  | dimension shape => some shape
  | _ => none

structure Entity where
  name : Located String
  shape : Option Shape
  init : Option Expr

/-- Where the entity ends: behind its initial value, if it has one. -/
def Entity.stop (entity : Entity) : Nat :=
  match entity.init with
  | none => entity.name.span.stop
  | some init => init.span.stop

structure Declaration where
  typeSpec : TypeSpec
  attributes : List Attribute
  entities : List Entity

/-- The shape of the first dimension attribute. -/
def Declaration.dimension? (declaration : Declaration) : Option Shape :=
  declaration.attributes.findSome? Attribute.shape?

/-- An entity together with the statement that declares it. -/
structure DeclaredEntity where
  declaration : Declaration
  entity : Entity

namespace DeclaredEntity

def name (declared : DeclaredEntity) : String :=
  declared.entity.name.value

/-- The entity's own shape, or else that of its statement. -/
def shape? (declared : DeclaredEntity) : Option Shape :=
  declared.entity.shape <|> declared.declaration.dimension?

end DeclaredEntity

def Declaration.declared (declaration : Declaration) : List DeclaredEntity :=
  declaration.entities.map fun entity => ⟨declaration, entity⟩

end FortranTyping

import FortranTyping.Source.Declaration

/-!
# Program units

A program unit is a list of type declarations followed by a list of statements, of which only
assignments concern types.
-/

namespace FortranTyping

inductive Statement where
  | assignment (target value : Expr)
  | other

inductive UnitKind where
  | mainProgram
  | module
  | subroutine
  | function
  deriving DecidableEq, Repr

def UnitKind.text : UnitKind → String
  | mainProgram => "MainProgram"
  | module => "Module"
  | subroutine => "Subroutine"
  | function => "Function"

structure ProgramUnit where
  kind : UnitKind
  name : Located String
  declarations : List (Located Declaration)
  statements : List (Located Statement)

/-- The type declarations without their places. -/
def ProgramUnit.specifications (unit : ProgramUnit) : List Declaration :=
  unit.declarations.map Located.value

end FortranTyping

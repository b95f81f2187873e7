import FortranTyping.Event
import FortranTyping.Name

/-!
# Scopes

A scope keeps the first declaration of every name. A resolver finds the declaration that a reference
means, as a pure function of the reference, together with the events that the search is worth.
-/

namespace FortranTyping

/-- The entities that have been declared, in order. -/
structure Scope where
  entities : List DeclaredEntity

namespace Scope

def empty : Scope :=
  ⟨[]⟩

def size (scope : Scope) : Nat :=
  scope.entities.length

def get? (scope : Scope) (name : String) : Option DeclaredEntity :=
  scope.entities.find? fun declared => SameName declared.name name

/-- Adds a declaration and tells whether its name was free. -/
def declare (scope : Scope) (declared : DeclaredEntity) : Scope × Bool :=
  if (scope.get? declared.name).isSome then (scope, false)
  else (⟨scope.entities ++ [declared]⟩, true)

/-- Adds declarations in turn and lists those whose name was taken. -/
def declareAll (scope : Scope) : List DeclaredEntity → Scope × List DeclaredEntity
  | [] => (scope, [])
  | declared :: rest =>
      let (scope, free) := scope.declare declared
      let (scope, taken) := scope.declareAll rest
      (scope, if free then taken else declared :: taken)

/-- The scope of a list of statements, and the entities that it leaves out. -/
def ofDeclarations (declarations : List Declaration) : Scope × List DeclaredEntity :=
  empty.declareAll (declarations.flatMap Declaration.declared)

end Scope

/-- The event of a declaration that a scope leaves out. -/
def DeclaredEntity.redeclared (declared : DeclaredEntity) : Event :=
  .redeclared declared.name

structure Resolver where
  find : Designator → Option DeclaredEntity
  /-- The events of a search, in order. -/
  events : Designator → List Event

namespace Resolver

def ofScope (scope : Scope) : Resolver where
  find designator := scope.get? designator.name.value
  events designator :=
    [.resolved designator.name.value (scope.get? designator.name.value).isSome]

/-- Asks `inner` first and `outer` only if that fails. -/
def orElse (inner outer : Resolver) : Resolver where
  find designator := inner.find designator <|> outer.find designator
  events designator :=
    inner.events designator ++
      if (inner.find designator).isSome then [] else outer.events designator

end Resolver

end FortranTyping

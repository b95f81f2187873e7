import FortranTyping.Source.Expr
import FortranTyping.Ty.Basic

/-!
# Type maps

The types of expression nodes, in the order in which they became known. The first type of a node is
final.
-/

namespace FortranTyping

structure TypeMap where
  entries : List (NodeId × Ty)

namespace TypeMap

def empty : TypeMap :=
  ⟨[]⟩

def size (types : TypeMap) : Nat :=
  types.entries.length

def ids (types : TypeMap) : List NodeId :=
  types.entries.map Prod.fst

def get? (types : TypeMap) (id : NodeId) : Option Ty :=
  (types.entries.find? fun entry => entry.1 == id).map Prod.snd

def contains (types : TypeMap) (id : NodeId) : Bool :=
  (types.get? id).isSome

/-- Adds the type of a node that has none yet, and tells whether that was so. -/
def insert (types : TypeMap) (id : NodeId) (ty : Ty) : TypeMap × Bool :=
  if types.contains id then (types, false) else (⟨types.entries ++ [(id, ty)]⟩, true)

end TypeMap

end FortranTyping

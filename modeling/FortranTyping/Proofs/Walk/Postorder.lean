import FortranTyping.Source.Unit

/-!
# Subexpressions in post-order

The expressions within an expression, each behind those it is built from. The parts of an
implied-do are its body, start, stop and stride, in this order.
-/

namespace FortranTyping

mutual

/-- The expressions within an expression, which is itself the last of them. -/
def Expr.postorder : Expr → List Expr
  | e@(.literal _ _) | e@(.reference _ _) => [e]
  | e@(.unary _ _ operand) => operand.postorder ++ [e]
  | e@(.binary _ _ left right) => left.postorder ++ right.postorder ++ [e]
  | e@(.paren _ inner) => inner.postorder ++ [e]
  | e@(.element _ _ subscripts) => subscriptPostorder subscripts ++ [e]
  | e@(.array _ entries) => entryPostorder entries ++ [e]
termination_by structural e => e

def subscriptPostorder : List Expr → List Expr
  | [] => []
  | e :: rest => e.postorder ++ subscriptPostorder rest
termination_by structural subscripts => subscripts

def Entry.postorder : Entry → List Expr
  | .plain value => value.postorder
  | .impliedDo _ body _ start stop stride =>
      entryPostorder body ++ start.postorder ++ stop.postorder ++ stridePostorder stride
termination_by structural entry => entry

def stridePostorder : Option Expr → List Expr
  | none => []
  | some stride => stride.postorder
termination_by structural stride => stride

def entryPostorder : List Entry → List Expr
  | [] => []
  | entry :: rest => entry.postorder ++ entryPostorder rest
termination_by structural entries => entries

end

def Expr.ids (e : Expr) : List NodeId :=
  e.postorder.map Expr.id

theorem Expr.id_mem_ids (e : Expr) : e.id ∈ e.ids := by
  refine List.mem_map_of_mem ?_
  cases e <;> simp [postorder]

/-- The identities that reports about the entries of a constructor name are those of its parts. -/
theorem cons_ids_subset (node : Node) (entries : List Entry) :
    node.id :: (entryPostorder entries).map Expr.id ⊆ (Expr.array node entries).ids := by
  simp [Expr.ids, Expr.postorder, Expr.id, Expr.node]

/-! ## Blocks -/

/-- The expressions within a listed one are listed in one block, which it ends. -/
def Nested (es : List Expr) : Prop :=
  ∀ part ∈ es, part.postorder <:+: es

namespace Nested

variable {es rest : List Expr}

theorem nil : Nested [] := by
  intro part hpart
  cases hpart

theorem append (h : Nested es) (hrest : Nested rest) : Nested (es ++ rest) := by
  intro part hpart
  rcases List.mem_append.mp hpart with hpart | hpart
  · exact (h part hpart).trans (List.prefix_append es rest).isInfix
  · exact (hrest part hpart).trans (List.suffix_append es rest).isInfix

/-- An expression behind its parts. -/
theorem node {e : Expr} (h : Nested es) (he : e.postorder = es ++ [e]) : Nested e.postorder := by
  intro part hpart
  rw [he, List.mem_append, List.mem_singleton] at hpart
  rcases hpart with hpart | rfl
  · rw [he]
    exact (h part hpart).trans (List.prefix_append es [e]).isInfix
  · exact List.infix_rfl

end Nested

mutual

theorem Expr.nested_postorder : (e : Expr) → Nested e.postorder
  | .literal _ _ | .reference _ _ => Nested.nil.node rfl
  | .unary _ _ operand => operand.nested_postorder.node rfl
  | .binary _ _ left right => (left.nested_postorder.append right.nested_postorder).node rfl
  | .paren _ inner => inner.nested_postorder.node rfl
  | .element _ _ subscripts => (nested_subscriptPostorder subscripts).node rfl
  | .array _ entries => (nested_entryPostorder entries).node rfl
termination_by structural e => e

theorem nested_subscriptPostorder :
    (subscripts : List Expr) → Nested (subscriptPostorder subscripts)
  | [] => .nil
  | e :: rest => e.nested_postorder.append (nested_subscriptPostorder rest)
termination_by structural subscripts => subscripts

theorem Entry.nested_postorder : (entry : Entry) → Nested entry.postorder
  | .plain value => value.nested_postorder
  | .impliedDo _ body _ start stop stride =>
      (((nested_entryPostorder body).append start.nested_postorder).append
        stop.nested_postorder).append (nested_stridePostorder stride)
termination_by structural entry => entry

theorem nested_stridePostorder : (stride : Option Expr) → Nested (stridePostorder stride)
  | none => .nil
  | some stride => stride.nested_postorder
termination_by structural stride => stride

theorem nested_entryPostorder : (entries : List Entry) → Nested (entryPostorder entries)
  | [] => .nil
  | entry :: rest => entry.nested_postorder.append (nested_entryPostorder rest)
termination_by structural entries => entries

end

/-- Behind all that is within it comes the expression itself. -/
theorem Expr.exists_parts (e : Expr) : ∃ parts, e.postorder = parts ++ [e] := by
  cases e with
  | literal node value => exact ⟨[], rfl⟩
  | reference node name => exact ⟨[], rfl⟩
  | _ => exact ⟨_, rfl⟩

/-- The expressions within an expression within another are within that too. -/
theorem Expr.postorder_subset {inner e : Expr} (h : inner ∈ e.postorder) :
    inner.postorder ⊆ e.postorder :=
  (e.nested_postorder inner h).subset

/-! ## Program units -/

def Entity.expressions (entity : Entity) : List Expr :=
  entity.shape.elim [] Shape.bounds ++ entity.init.toList

/-- The selectors, the bounds of the first dimension attribute, then the entities. -/
def Declaration.expressions (declaration : Declaration) : List Expr :=
  declaration.typeSpec.kind.toList ++ declaration.typeSpec.length.toList ++
    declaration.dimension?.elim [] Shape.bounds ++
    declaration.entities.flatMap Entity.expressions

def Statement.expressions : Statement → List Expr
  | .assignment target value => [target, value]
  | .other => []

/-- The outermost expressions of a unit, in the order in which a check comes to them. -/
def ProgramUnit.expressions (program : ProgramUnit) : List Expr :=
  program.declarations.flatMap (·.value.expressions) ++
    program.statements.flatMap (·.value.expressions)

def ProgramUnit.postorder (program : ProgramUnit) : List Expr :=
  program.expressions.flatMap Expr.postorder

def ProgramUnit.ids (program : ProgramUnit) : List NodeId :=
  program.postorder.map Expr.id

theorem ProgramUnit.nested_postorder (program : ProgramUnit) : Nested program.postorder := by
  unfold ProgramUnit.postorder
  induction program.expressions with
  | nil => exact .nil
  | cons e es ih => exact e.nested_postorder.append ih

end FortranTyping

import FortranTyping.Proofs.Trees.Mapping

/-!
# Adding parentheses

A tree with additional parentheses: any number of them around any of its expressions, at the place
of the expression that they enclose. They change neither the value of an integer literal nor whether
an expression is an array constructor.
-/

namespace FortranTyping

/-- The identities of the new parentheses around each node, from the inside out. -/
abbrev Layers := NodeId → List NodeId

/-- The outermost of the new parentheses around a node, or the node if there are none. -/
def Layers.outermost (layers : Layers) (id : NodeId) : NodeId :=
  (layers id).getLastD id

def Expr.within (e : Expr) : List NodeId → Expr
  | [] => e
  | id :: ids => (Expr.paren ⟨id, e.span⟩ e).within ids

mutual

/-- The expression with new parentheses around itself and the expressions within it. -/
def Expr.wrap (layers : Layers) : Expr → Expr
  | .literal node value => (Expr.literal node value).within (layers node.id)
  | .unary node op operand => (Expr.unary node op (operand.wrap layers)).within (layers node.id)
  | .binary node op left right =>
      (Expr.binary node op (left.wrap layers) (right.wrap layers)).within (layers node.id)
  | .paren node inner => (Expr.paren node (inner.wrap layers)).within (layers node.id)
  | .reference node name => (Expr.reference node name).within (layers node.id)
  | .element node name subscripts =>
      (Expr.element node name (wrapSubscripts layers subscripts)).within (layers node.id)
  | .array node entries => (Expr.array node (wrapEntries layers entries)).within (layers node.id)
termination_by structural e => e

def wrapSubscripts (layers : Layers) : List Expr → List Expr
  | [] => []
  | e :: rest => e.wrap layers :: wrapSubscripts layers rest
termination_by structural subscripts => subscripts

def Entry.wrap (layers : Layers) : Entry → Entry
  | .plain value => .plain (value.wrap layers)
  | .impliedDo span body loopVariable start stop stride =>
      .impliedDo span (wrapEntries layers body) loopVariable (start.wrap layers)
        (stop.wrap layers) (wrapStride layers stride)
termination_by structural entry => entry

def wrapStride (layers : Layers) : Option Expr → Option Expr
  | none => none
  | some stride => some (stride.wrap layers)
termination_by structural stride => stride

def wrapEntries (layers : Layers) : List Entry → List Entry
  | [] => []
  | entry :: rest => entry.wrap layers :: wrapEntries layers rest
termination_by structural entries => entries

end

/-- The expression with new parentheses around those within it, but not around itself. -/
def Expr.wrapParts (layers : Layers) : Expr → Expr
  | .unary node op operand => .unary node op (operand.wrap layers)
  | .binary node op left right => .binary node op (left.wrap layers) (right.wrap layers)
  | .paren node inner => .paren node (inner.wrap layers)
  | .element node name subscripts => .element node name (wrapSubscripts layers subscripts)
  | .array node entries => .array node (wrapEntries layers entries)
  | e => e

theorem Expr.wrap_eq_within (layers : Layers) (e : Expr) :
    e.wrap layers = (e.wrapParts layers).within (layers e.id) := by
  cases e <;> rfl

theorem wrapStride_eq_map (layers : Layers) (stride : Option Expr) :
    wrapStride layers stride = stride.map (Expr.wrap layers) := by
  cases stride <;> rfl

def Designator.wrap (layers : Layers) (designator : Designator) : Designator :=
  { designator with subscripts := designator.subscripts.map (wrapSubscripts layers) }

/-- The unit with new parentheses around its expressions. -/
def ProgramUnit.wrap (layers : Layers) (program : ProgramUnit) : ProgramUnit :=
  program.map id (Expr.wrap layers)

/-! ## What parentheses do not change -/

namespace Expr

theorem span_within (ids : List NodeId) (e : Expr) : (e.within ids).span = e.span := by
  induction ids generalizing e with
  | nil => rfl
  | cons id ids ih => exact ih _

theorem id_within (ids : List NodeId) (e : Expr) : (e.within ids).id = ids.getLastD e.id := by
  induction ids generalizing e with
  | nil => rfl
  | cons id ids ih => rw [within, ih, List.getLastD_cons]; rfl

theorem bare_within (ids : List NodeId) (e : Expr) : (e.within ids).bare = e.bare := by
  induction ids generalizing e with
  | nil => rfl
  | cons id ids ih => exact ih _

theorem integerValue?_within (ids : List NodeId) (e : Expr) :
    (e.within ids).integerValue? = e.integerValue? := by
  induction ids generalizing e with
  | nil => rfl
  | cons id ids ih => exact ih _

variable (layers : Layers)

theorem node_wrapParts (e : Expr) : (e.wrapParts layers).node = e.node := by
  cases e <;> rfl

theorem id_wrapParts (e : Expr) : (e.wrapParts layers).id = e.id := by
  rw [id, node_wrapParts, id]

theorem span_wrap (e : Expr) : (e.wrap layers).span = e.span := by
  rw [wrap_eq_within, span_within, span, node_wrapParts, span]

theorem id_wrap (e : Expr) : (e.wrap layers).id = layers.outermost e.id := by
  rw [wrap_eq_within, id_within, id_wrapParts, Layers.outermost]

theorem node_wrap (e : Expr) : (e.wrap layers).node = ⟨layers.outermost e.id, e.span⟩ := by
  rw [← id_wrap, ← span_wrap]
  rfl

theorem integerValue?_wrap (e : Expr) : (e.wrap layers).integerValue? = e.integerValue? := by
  rw [wrap_eq_within, integerValue?_within]
  match e with
  | .literal _ _ | .reference _ _ | .element _ _ _ | .array _ _ | .binary _ _ _ _ => rfl
  | .unary _ op operand =>
      have h := integerValue?_wrap operand
      cases op <;> simp only [wrapParts, integerValue?, h]
  | .paren _ inner => exact integerValue?_wrap inner
termination_by structural e

theorem isArrayConstructor_wrap (e : Expr) :
    (e.wrap layers).isArrayConstructor = e.isArrayConstructor := by
  unfold isArrayConstructor
  rw [wrap_eq_within, bare_within]
  match e with
  | .paren _ inner => exact isArrayConstructor_wrap inner
  | .literal _ _ | .unary _ _ _ | .binary _ _ _ _ | .reference _ _ | .element _ _ _
  | .array _ _ => rfl
termination_by structural e

/-- An expression that is not wrapped itself is a reference if and only if it was one. -/
theorem designator?_wrap {e : Expr} (h : layers e.id = []) :
    (e.wrap layers).designator? = e.designator?.map (Designator.wrap layers) := by
  rw [wrap_eq_within, h]
  cases e <;> rfl

end Expr

end FortranTyping

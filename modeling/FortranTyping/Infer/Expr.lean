import FortranTyping.Infer.Constructor
import FortranTyping.Infer.Pass

/-!
# Inference for expressions

The walk over an expression: parts first, then the rule of the node itself. The names of the
enclosing implied-do loops are passed down, with their case folded; a reference to one of them is an
integer and is never looked up. Only an array constructor, which may stand in parentheses, pays
attention to the type that is expected of it.
-/

namespace FortranTyping

namespace Infer

/-- A reference to a variable, once its subscripts are typed. -/
def reference (ctx : Context) (loops : List String) (node : Node) (designator : Designator) :
    Infer Verdict := do
  if foldCase designator.name.value ∈ loops then
    return .clean .integer
  else
    log (ctx.resolver.events designator)
    return .reference ctx.options node designator (ctx.resolver.find designator)

def subscript (ctx : Context) (node : Node) (type : Ty) : Infer Unit :=
  report (Verdict.nonInteger ctx.options .subscript node type)

/-- Tells whether a bound or stride of a loop is an integer, and reports it if not. -/
def loopControl (ctx : Context) (node : Node) (type : Ty) : Infer Bool := do
  report (Verdict.nonInteger ctx.options .loopControl node type)
  return type == .integer

mutual

/-- The type of an expression. -/
def expr (ctx : Context) (loops : List String) (expected : Option Ty) : Expr → Infer Ty
  | e@(.literal node value) => visit e (return .literal node value)
  | e@(.unary node op operand) => visit e do
      let type ← expr ctx loops none operand
      return .unary ctx.options node op type
  | e@(.binary node op left right) => visit e do
      let leftType ← expr ctx loops none left
      let rightType ← expr ctx loops none right
      return .binary ctx.options node op leftType rightType
  | e@(.paren _ inner) => visit e do
      let type ← expr ctx loops expected inner
      return .clean type
  | e@(.reference node name) => visit e (reference ctx loops node ⟨name, none⟩)
  | e@(.element node name subscripts) => visit e do
      subscriptList ctx loops subscripts
      reference ctx loops node ⟨name, some subscripts⟩
  | e@(.array node entries) => visit e do
      let contributions ← entryList ctx loops node.id entries
      return constructorVerdict ctx.options node contributions expected
termination_by structural e => e

/-- Each subscript is reported before the next one is typed. -/
def subscriptList (ctx : Context) (loops : List String) : List Expr → Infer Unit
  | [] => return
  | e :: rest => do
      let type ← expr ctx loops none e
      subscript ctx e.node type
      subscriptList ctx loops rest
termination_by structural subscripts => subscripts

/-- What an entry adds to the constructor `owner`. All of an implied-do body belongs to the same
constructor; its loop variable is bound in the body only. -/
def entry (ctx : Context) (loops : List String) (owner : NodeId) : Entry → Infer Contribution
  | .plain value => do
      let type ← expr ctx loops none value
      return .ofElement value.node type
  | .impliedDo span body loopVariable start stop stride => do
      let contributions ← entryList ctx (foldCase loopVariable.value :: loops) owner body
      let startFits ← loopControl ctx start.node (← expr ctx loops none start)
      let stopFits ← loopControl ctx stop.node (← expr ctx loops none stop)
      let strideFits ← strideControl ctx loops stride
      let verdict := rangeVerdict ctx.options owner span (startFits && stopFits && strideFits)
        (Contribution.total? contributions) (loopTrips start stop stride)
      report verdict.reports
      return verdict.contribution
termination_by structural entry => entry

/-- An absent stride is the integer 1. -/
def strideControl (ctx : Context) (loops : List String) : Option Expr → Infer Bool
  | none => return true
  | some stride => do loopControl ctx stride.node (← expr ctx loops none stride)
termination_by structural stride => stride

def entryList (ctx : Context) (loops : List String) (owner : NodeId) :
    List Entry → Infer (List Contribution)
  | [] => return []
  | e :: rest => do
      let contribution ← entry ctx loops owner e
      let contributions ← entryList ctx loops owner rest
      return contribution :: contributions
termination_by structural entries => entries

end

end Infer

end FortranTyping

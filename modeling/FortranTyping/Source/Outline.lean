import FortranTyping.Source.Expr

/-!
# Outline of an expression

All nodes of a tree, each before its children, with implied-do ranges in their place.
-/

namespace FortranTyping

inductive OutlineItem where
  | node (node : Node)
  | impliedDo (span : Span)
  deriving DecidableEq

mutual

def Expr.outline : Expr → List OutlineItem
  | .literal node _ => [.node node]
  | .unary node _ operand => .node node :: operand.outline
  | .binary node _ left right => .node node :: (left.outline ++ right.outline)
  | .paren node inner => .node node :: inner.outline
  | .reference node _ => [.node node]
  | .element node _ subscripts => .node node :: outlineSubscripts subscripts
  | .array node entries => .node node :: outlineEntries entries
termination_by structural e => e

def outlineSubscripts : List Expr → List OutlineItem
  | [] => []
  | subscript :: subscripts => subscript.outline ++ outlineSubscripts subscripts
termination_by structural subscripts => subscripts

/-- The body of an implied-do comes before its controls. -/
def Entry.outline : Entry → List OutlineItem
  | .plain value => value.outline
  | .impliedDo span body _ start stop stride =>
      let strideOutline := match stride with
        | none => []
        | some stride => stride.outline
      .impliedDo span :: (outlineEntries body ++ start.outline ++ stop.outline ++ strideOutline)
termination_by structural entry => entry

def outlineEntries : List Entry → List OutlineItem
  | [] => []
  | entry :: entries => entry.outline ++ outlineEntries entries
termination_by structural entries => entries

end

end FortranTyping

import FortranTyping.Source.Expr

/-!
# Text of expressions

An expression in the notation of the language, with single blanks around binary operators and after
commas. No parentheses are added: those of the source are nodes of the tree.
-/

namespace FortranTyping

def Literal.text : Literal → String
  | integer text | real text => text
  | character content => s!"\"{content}\""
  | logical true => ".true."
  | logical false => ".false."
  | complex re im => s!"({re}, {im})"

def commaSeparated (parts : List String) : String :=
  ", ".intercalate parts

def UnaryOp.applied (op : UnaryOp) (operand : String) : String :=
  match op with
  | not => s!"{op.text} {operand}"
  | plus | minus => op.text ++ operand

mutual

def Expr.text : Expr → String
  | .literal _ value => value.text
  | .unary _ op operand => op.applied operand.text
  | .binary _ op left right => s!"{left.text} {op.text} {right.text}"
  | .paren _ inner => s!"({inner.text})"
  | .reference _ name => name.value
  | .element _ name subscripts => s!"{name.value}({commaSeparated (subscriptTexts subscripts)})"
  | .array _ entries => s!"[{commaSeparated (entryTexts entries)}]"
termination_by structural e => e

def subscriptTexts : List Expr → List String
  | [] => []
  | subscript :: subscripts => subscript.text :: subscriptTexts subscripts
termination_by structural subscripts => subscripts

def Entry.text : Entry → String
  | .plain value => value.text
  | .impliedDo _ body loopVariable start stop stride =>
      let loop := s!"{loopVariable.value} = {start.text}, {stop.text}"
      let controls := match stride with
        | none => [loop]
        | some stride => [loop, stride.text]
      s!"({commaSeparated (entryTexts body ++ controls)})"
termination_by structural entry => entry

def entryTexts : List Entry → List String
  | [] => []
  | entry :: entries => entry.text :: entryTexts entries
termination_by structural entries => entries

end

end FortranTyping

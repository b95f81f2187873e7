import FortranTyping.Source.Text
import FortranTyping.Source.Unit
import FortranTyping.Ty.Basic

/-!
# Events

The steps of a check that its log records, as data. The text of an event is made only when it is
asked for.
-/

namespace FortranTyping

inductive Level where
  | trace
  | debug
  | warn
  deriving DecidableEq, Repr

def Level.text : Level → String
  | trace => "TRACE"
  | debug => "DEBUG"
  | warn => "WARN"

inductive Event where
  | unitBegun (unit : ProgramUnit)
  | unitDone (unit : ProgramUnit) (types diagnostics : Nat)
  | declared (name : String) (type : Ty)
  /-- A declaration without effect, because its name is taken. -/
  | redeclared (name : String)
  | assigned (target : Expr) (type : Ty)
  | resolved (name : String) (found : Bool)
  | typed (expr : Expr) (type : Ty)
  /-- A type that was dropped, because the node has one already. -/
  | retyped (expr : NodeId)

namespace Event

def level : Event → Level
  | resolved _ _ | typed _ _ => .trace
  | retyped _ => .warn
  | _ => .debug

def text : Event → String
  | unitBegun unit =>
      s!"inferring types in {unit.kind.text} `{unit.name.value}` " ++
        s!"({unit.declarations.length} declarations, {unit.statements.length} statements)"
  | unitDone unit types diagnostics =>
      s!"typed {types} expressions in `{unit.name.value}`, {diagnostics} diagnostics"
  | declared name type => s!"declaration of `{name}` : {type.text}"
  | redeclared name => s!"`{name}` is declared more than once, keeping the first declaration"
  | assigned target type => s!"assignment to `{target.text}` : {type.text}"
  | resolved name true => s!"resolving `{name}`: found"
  | resolved name false => s!"resolving `{name}`: not found"
  | typed expr type => s!"{expr.id.text} `{expr.text}` : {type.text}"
  | retyped expr => s!"expression {expr.text} was typed twice, keeping the first type"

end Event

end FortranTyping

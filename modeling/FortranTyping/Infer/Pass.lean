import FortranTyping.Infer.Verdict
import FortranTyping.Scope
import FortranTyping.TypeMap

/-!
# Passes

A pass carries what checking has brought to light so far: the types of the nodes, the diagnostics
and the log, each in the order in which it came up. `Infer` is a computation that adds to it.
-/

namespace FortranTyping

/-- What a pass reads. -/
structure Context where
  resolver : Resolver
  options : Options

structure Pass where
  types : TypeMap
  diagnostics : List Diagnostic
  events : List Event

namespace Pass

def empty : Pass :=
  ⟨.empty, [], []⟩

def log (pass : Pass) (events : List Event) : Pass :=
  { pass with events := pass.events ++ events }

def report (pass : Pass) (diagnostics : List Diagnostic) : Pass :=
  { pass with diagnostics := pass.diagnostics ++ diagnostics }

/-- Enters the type of a node. A node that has one keeps it. -/
def record (pass : Pass) (e : Expr) (type : Ty) : Pass :=
  let inserted := pass.types.insert e.id type
  { pass.log (.typed e type :: if inserted.2 then [] else [.retyped e.id]) with
    types := inserted.1 }

end Pass

abbrev Infer := StateM Pass

namespace Infer

def log (events : List Event) : Infer Unit :=
  modify (·.log events)

def report (diagnostics : List Diagnostic) : Infer Unit :=
  modify (·.report diagnostics)

/-- Types a node by a rule, unless it has a type already. -/
def visit (e : Expr) (rule : Infer Verdict) : Infer Ty := fun pass =>
  match pass.types.get? e.id with
  | some type => (type, pass)
  | none =>
      let (verdict, pass) := rule.run pass
      (verdict.type, (pass.report verdict.reports).record e verdict.type)

end Infer

end FortranTyping

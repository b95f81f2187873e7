import FortranTyping.Infer.Expr

/-!
# Inference for program units

Declarations and assignments, and the check of a whole unit. A declared or assigned value is held
against the type of its variable, if that is known.
-/

namespace FortranTyping

namespace Infer

/-- The report about a value that its variable does not take. A constructor makes its own. -/
def valueReports (options : Options) (source : Expr) (expected inferred : Ty) : List Diagnostic :=
  if !source.isArrayConstructor && options.reports [inferred] && !expected.accepts inferred then
    [.of source.span (.mismatch source.id expected inferred)]
  else []

/-- A value that is stored into a variable of type `expected`. -/
def value (ctx : Context) (source : Expr) (expected : Ty) : Infer Unit := do
  if expected.isUnknown then
    let _ ← expr ctx [] none source
  else
    let inferred ← expr ctx [] (some expected) source
    report (valueReports ctx.options source expected inferred)

/-- Expressions of which only the types matter. -/
def each (ctx : Context) (es : List Expr) : Infer Unit :=
  es.forM fun e => do let _ ← expr ctx [] none e

/-- The type that an entity's initial value is held against, with the note that it has none. -/
def entityVerdict (options : Options) (declared : DeclaredEntity) : Verdict :=
  match declared.type options with
  | .ok type => .clean type
  | .error reason =>
      ⟨.unknown (some reason.text), options.skip declared.entity.name.span none reason⟩

def entity (ctx : Context) (declared : DeclaredEntity) : Infer Unit := do
  each ctx (declared.entity.shape.elim [] Shape.bounds)
  let verdict := entityVerdict ctx.options declared
  report verdict.reports
  log [.declared declared.name verdict.type]
  match declared.entity.init with
  | none => return
  | some init => value ctx init verdict.type

/-- The selectors of the type, the bounds of its dimension attribute, then the entities. -/
def declaration (ctx : Context) (declaration : Declaration) : Infer Unit := do
  each ctx (declaration.typeSpec.kind.toList ++ declaration.typeSpec.length.toList)
  each ctx (declaration.dimension?.elim [] Shape.bounds)
  declaration.declared.forM (entity ctx)

/-- Only an assignment to a variable or an element of one is checked. -/
def assignment (ctx : Context) (target source : Expr) : Infer Unit := do
  let expected ← expr ctx [] none target
  log [.assigned target expected]
  match target.designator? with
  | some _ => value ctx source expected
  | none =>
      let _ ← expr ctx [] none source

def statement (ctx : Context) : Statement → Infer Unit
  | .assignment target source => assignment ctx target source
  | .other => return

def unit (ctx : Context) (program : ProgramUnit) : Infer Unit := do
  log [.unitBegun program]
  program.declarations.forM fun located => declaration ctx located.value
  program.statements.forM fun located => statement ctx located.value
  modify fun pass => pass.log [.unitDone program pass.types.size pass.diagnostics.length]

end Infer

/-- The outcome of checking a unit with the declarations that `resolver` finds. -/
def ProgramUnit.check (program : ProgramUnit) (resolver : Resolver) (options : Options) : Pass :=
  ((Infer.unit ⟨resolver, options⟩ program).run .empty).2

end FortranTyping

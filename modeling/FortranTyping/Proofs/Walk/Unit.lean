import FortranTyping.Proofs.Walk.Memory
import Mathlib.Data.List.Nodup

/-!
# Checking units without memory

The steps of a whole unit, statement by statement. Statements share nothing but the resolver: the
check of a unit with distinct identities is the concatenation of the checks of its statements, each
from an empty pass.
-/

namespace FortranTyping

variable {ctx : Context}

theorem Follows.forM {α : Type} {f : α → Infer Unit} (steps : α → List Step)
    (h : ∀ x, Follows ctx (f x) () (steps x)) :
    (xs : List α) → Follows ctx (xs.forM f) () (xs.flatMap steps)
  | [] => .pure _
  | x :: xs => (h x).bind (.forM steps h xs)

namespace Infer

theorem follows_each (ctx : Context) (es : List Expr) :
    Follows ctx (each ctx es) () (eachSteps es) :=
  .forM (Expr.steps [] none) (fun e => (follows_expr ctx [] none e).returning fun _ => ()) es

theorem follows_value (ctx : Context) (source : Expr) (expected : Ty) :
    Follows ctx (value ctx source expected) () (valueSteps expected source) := by
  unfold value valueSteps
  split
  · exact (follows_expr ctx [] none source).returning _
  · exact (follows_expr ctx [] (some expected) source).bind (.report rfl rfl rfl)

/-- The report and the log entry about a declared type belong to one step. -/
theorem follows_declaredType (ctx : Context) (declared : DeclaredEntity) :
    Follows ctx (report (entityVerdict ctx.options declared).reports >>= fun _ =>
      log [.declared declared.name (entityVerdict ctx.options declared).type]) ()
      [.entity declared] := by
  intro pass _
  rw [run_bind, run_report, run_log]
  simp [Pass.follow, Pass.report, Pass.log, Step.typings, List.filterMap_cons, Step.diagnostics,
    Step.typing?, Step.reports, Step.events]

theorem follows_entity (ctx : Context) (declared : DeclaredEntity) :
    Follows ctx (entity ctx declared) () (declared.steps ctx) := by
  unfold entity DeclaredEntity.steps
  rw [List.append_assoc]
  refine (follows_each ctx _).bind ?_
  simp only
  rw [← bind_assoc]
  refine (follows_declaredType ctx declared).bind ?_
  cases declared.entity.init with
  | none => exact .pure _
  | some init => exact follows_value ctx init _

theorem follows_declaration (ctx : Context) (d : Declaration) :
    Follows ctx (declaration ctx d) () (d.steps ctx) := by
  unfold declaration Declaration.steps
  rw [List.append_assoc]
  exact (follows_each ctx _).bind ((follows_each ctx _).bind (.forM _ (follows_entity ctx) _))

theorem follows_assignment (ctx : Context) (target source : Expr) :
    Follows ctx (assignment ctx target source) ()
      ((Statement.assignment target source).steps ctx) := by
  simp only [assignment, Statement.steps, List.append_assoc]
  refine (follows_expr ctx [] none target).bind (.bind (.log rfl rfl rfl) ?_)
  cases target.designator? with
  | none => exact (follows_expr ctx [] none source).returning _
  | some _ => exact follows_value ctx source _

theorem follows_statement (ctx : Context) :
    (s : Statement) → Follows ctx (statement ctx s) () (s.steps ctx)
  | .assignment target source => follows_assignment ctx target source
  | .other => .pure _

/-- All statements of a unit, without the log entries before and behind them. -/
theorem follows_statements (ctx : Context) (program : ProgramUnit) :
    Follows ctx
      (program.declarations.forM (fun located => declaration ctx located.value) >>= fun _ =>
        program.statements.forM fun located => statement ctx located.value) ()
      (program.steps ctx) := by
  have hdeclarations := Follows.forM
    (fun located : Located Declaration => located.value.steps ctx)
    (fun located => follows_declaration ctx located.value)
  have hstatements := Follows.forM
    (fun located : Located Statement => located.value.steps ctx)
    (fun located => follows_statement ctx located.value)
  exact (hdeclarations _).bind (hstatements _)

end Infer

/-! ## Whole units -/

namespace ProgramUnit

variable {program : ProgramUnit}

theorem fresh_steps (ctx : Context) (events : List Event) (distinct : program.ids.Nodup) :
    Fresh (Pass.empty.log events) (program.steps ctx) := by
  refine ⟨?_, fun _ _ => rfl⟩
  rw [typed_steps]
  exact distinct

/-- The pass that a unit's steps make of an empty one, with the log entries around it. -/
theorem check_eq_follow (resolver : Resolver) (options : Options) (distinct : program.ids.Nodup) :
    program.check resolver options =
      let ctx : Context := ⟨resolver, options⟩
      let pass := (Pass.empty.log [.unitBegun program]).follow ctx (program.steps ctx)
      pass.log [.unitDone program pass.types.size pass.diagnostics.length] := by
  have hfresh := fresh_steps ⟨resolver, options⟩ [.unitBegun program] distinct
  unfold check Infer.unit
  rw [Infer.run_bind, Infer.run_log, ← bind_assoc, Infer.run_bind,
    Infer.follows_statements _ program _ hfresh]
  rfl

theorem check_entries (resolver : Resolver) (options : Options) (distinct : program.ids.Nodup) :
    (program.check resolver options).types.entries =
      Step.typings ⟨resolver, options⟩ (program.steps ⟨resolver, options⟩) := by
  rw [check_eq_follow resolver options distinct]
  rfl

theorem check_diagnostics (resolver : Resolver) (options : Options)
    (distinct : program.ids.Nodup) :
    (program.check resolver options).diagnostics =
      Step.diagnostics ⟨resolver, options⟩ (program.steps ⟨resolver, options⟩) := by
  rw [check_eq_follow resolver options distinct]
  rfl

end ProgramUnit

/-- A node of one byte, at the place that its identity gives. -/
def Node.ofIndex (index : Nat) : Node :=
  ⟨⟨index⟩, .ofWidth index 1⟩

/-! ## Statements by themselves -/

/-- The outcome of checking a declaration and nothing else. -/
def Declaration.checkAlone (ctx : Context) (declaration : Declaration) : Pass :=
  ((Infer.declaration ctx declaration).run .empty).2

/-- The outcome of checking a statement and nothing else. -/
def Statement.checkAlone (ctx : Context) (statement : Statement) : Pass :=
  ((Infer.statement ctx statement).run .empty).2

theorem Declaration.checkAlone_eq {declaration : Declaration}
    (distinct : ((declaration.expressions.flatMap Expr.postorder).map Expr.id).Nodup) :
    declaration.checkAlone ctx = Pass.empty.follow ctx (declaration.steps ctx) := by
  have hfresh : Fresh .empty (declaration.steps ctx) := by
    refine ⟨?_, fun _ _ => rfl⟩
    rwa [typed_steps]
  rw [checkAlone, Infer.follows_declaration ctx declaration _ hfresh]

theorem Statement.checkAlone_eq {statement : Statement}
    (distinct : ((statement.expressions.flatMap Expr.postorder).map Expr.id).Nodup) :
    statement.checkAlone ctx = Pass.empty.follow ctx (statement.steps ctx) := by
  have hfresh : Fresh .empty (statement.steps ctx) := by
    refine ⟨?_, fun _ _ => rfl⟩
    rwa [typed_steps]
  rw [checkAlone, Infer.follows_statement ctx statement _ hfresh]

namespace ProgramUnit

variable {program : ProgramUnit}

theorem checkAlone_declaration (distinct : program.ids.Nodup) {located : Located Declaration}
    (hmem : located ∈ program.declarations) :
    located.value.checkAlone ctx = Pass.empty.follow ctx (located.value.steps ctx) := by
  apply Declaration.checkAlone_eq
  simp only [ids, postorder, expressions, List.flatMap_append, List.map_append,
    List.flatMap_assoc, List.map_flatMap] at distinct
  have hdeclarations := (List.nodup_append.mp distinct).1
  rw [List.map_flatMap]
  exact (List.nodup_flatMap.mp hdeclarations).1 located hmem

theorem checkAlone_statement (distinct : program.ids.Nodup) {located : Located Statement}
    (hmem : located ∈ program.statements) :
    located.value.checkAlone ctx = Pass.empty.follow ctx (located.value.steps ctx) := by
  apply Statement.checkAlone_eq
  simp only [ids, postorder, expressions, List.flatMap_append, List.map_append,
    List.flatMap_assoc, List.map_flatMap] at distinct
  have hstatements := (List.nodup_append.mp distinct).2.1
  rw [List.map_flatMap]
  exact (List.nodup_flatMap.mp hstatements).1 located hmem

/-- The outcome of a check is that of a walk without memory: each node has the type of its verdict,
the diagnostics come in the order of the steps, and no statement is affected by another one. -/
structure WalkSpec (ctx : Context) (program : ProgramUnit) (pass : Pass) : Prop where
  typings : pass.types.entries = Step.typings ctx (program.steps ctx)
  found : ∀ loops expected e, .node loops expected e ∈ program.steps ctx →
    pass.types.get? e.id = some (e.verdict ctx loops expected).type
  diagnostics : pass.diagnostics = Step.diagnostics ctx (program.steps ctx)
  typings_apart : pass.types.entries =
    program.declarations.flatMap (fun located => (located.value.checkAlone ctx).types.entries) ++
      program.statements.flatMap fun located => (located.value.checkAlone ctx).types.entries
  diagnostics_apart : pass.diagnostics =
    program.declarations.flatMap (fun located => (located.value.checkAlone ctx).diagnostics) ++
      program.statements.flatMap fun located => (located.value.checkAlone ctx).diagnostics

/-- With distinct identities, the type map is the list of typings in the order of the steps. -/
theorem get?_of_mem_steps (resolver : Resolver) (options : Options)
    (distinct : program.ids.Nodup) {loops : List String} {expected : Option Ty} {e : Expr}
    (hmem : .node loops expected e ∈ program.steps ⟨resolver, options⟩) :
    (program.check resolver options).types.get? e.id =
      some (e.verdict ⟨resolver, options⟩ loops expected).type := by
  rw [check_eq_follow resolver options distinct]
  exact (fresh_steps _ _ distinct).get?_follow hmem

theorem check_walkSpec (resolver : Resolver) (options : Options) (distinct : program.ids.Nodup) :
    WalkSpec ⟨resolver, options⟩ program (program.check resolver options) := by
  refine ⟨check_entries resolver options distinct, ?_, check_diagnostics resolver options distinct,
    ?_, ?_⟩
  · intro loops expected e hmem
    exact get?_of_mem_steps resolver options distinct hmem
  · rw [check_entries resolver options distinct, steps, Step.typings_append]
    congr 1
    · rw [Step.typings, List.filterMap_flatMap]
      refine List.flatMap_congr fun located hmem => ?_
      rw [checkAlone_declaration distinct hmem]
      rfl
    · rw [Step.typings, List.filterMap_flatMap]
      refine List.flatMap_congr fun located hmem => ?_
      rw [checkAlone_statement distinct hmem]
      rfl
  · rw [check_diagnostics resolver options distinct, steps, Step.diagnostics_append]
    congr 1
    · rw [Step.diagnostics, List.flatMap_assoc]
      refine List.flatMap_congr fun located hmem => ?_
      rw [checkAlone_declaration distinct hmem]
      rfl
    · rw [Step.diagnostics, List.flatMap_assoc]
      refine List.flatMap_congr fun located hmem => ?_
      rw [checkAlone_statement distinct hmem]
      rfl

/-- The unit `x = [(i + 1, i = 1, 3), .not. x]`. -/
def rangeAndReference : ProgramUnit :=
  let name (text : String) : Located String := ⟨.ofWidth 0 1, text⟩
  let number (index : Nat) (text : String) : Expr := .literal (.ofIndex index) (.integer text)
  let sum : Expr := .binary (.ofIndex 3) .add (.reference (.ofIndex 1) (name "i")) (number 2 "1")
  let range : Entry := .impliedDo (.ofWidth 0 5) [.plain sum] (name "i") (number 4 "1")
    (number 5 "3") none
  let negation : Expr := .unary (.ofIndex 7) .not (.reference (.ofIndex 6) (name "x"))
  ⟨.mainProgram, name "p", [], [⟨.ofWidth 0 9, .assignment (.reference (.ofIndex 0) (name "x"))
    (.array (.ofIndex 8) [range, .plain negation])⟩]⟩

theorem rangeAndReference_walkSpec :
    rangeAndReference.ids.Nodup ∧
      WalkSpec ⟨.ofScope .empty, {}⟩ rangeAndReference
        (rangeAndReference.check (.ofScope .empty) {}) := by
  have distinct : rangeAndReference.ids.Nodup := by decide
  exact ⟨distinct, check_walkSpec _ _ distinct⟩

end ProgramUnit

end FortranTyping

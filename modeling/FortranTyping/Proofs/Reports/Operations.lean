import FortranTyping.Proofs.Reports.Findings
import FortranTyping.Proofs.Walk.Tasks

/-!
# Reports about operands, subscripts and loop controls

The types that a check has recorded in the end tell which operations, subscripts and loop controls
it has reported: those whose parts have known types that they do not take. Unknown parts are passed
over in silence.
-/

namespace FortranTyping

open scoped List

/-! ## Operations -/

/-- The report that a unary operation on a known type calls for. -/
def unaryFaults (types : TypeMap) : Expr → List Diagnostic
  | .unary node op operand =>
      match types.known? operand.id with
      | some ty => if op.allows ty then [] else [.of node.span (.unaryOperand node.id op ty)]
      | none => []
  | _ => []

/-- The report that a binary operation on two known types calls for. -/
def binaryFaults (types : TypeMap) : Expr → List Diagnostic
  | .binary node op left right =>
      match types.known? left.id, types.known? right.id with
      | some ty, some ty' =>
          if op.allows ty ty' then [] else [.of node.span (.binaryOperands node.id op ty ty')]
      | _, _ => []
  | _ => []

/-! ## Subscripts and loop controls -/

/-- The places where nothing but an integer will do. -/
inductive IntegerRole where
  | subscript
  /-- The start, stop or stride of an implied-do. -/
  | loopControl
  deriving DecidableEq

namespace IntegerRole

def finding : IntegerRole → NodeId → Ty → Finding
  | subscript => .subscript
  | loopControl => .loopControl

def kind : IntegerRole → FindingKind
  | subscript => .subscript
  | loopControl => .loopControl

/-- An expression in the role `own`, if that is the one in question. -/
def only (role own : IntegerRole) (e : Expr) : List Expr :=
  if own = role then [e] else []

end IntegerRole

mutual

/-- The expressions that play the role within an expression, each behind those within it. -/
def Expr.inRole (role : IntegerRole) : Expr → List Expr
  | .literal _ _ | .reference _ _ => []
  | .unary _ _ operand => operand.inRole role
  | .binary _ _ left right => left.inRole role ++ right.inRole role
  | .paren _ inner => inner.inRole role
  | .element _ _ subscripts => subscriptsInRole role subscripts
  | .array _ entries => entriesInRole role entries
termination_by structural e => e

def subscriptsInRole (role : IntegerRole) : List Expr → List Expr
  | [] => []
  | e :: rest => e.inRole role ++ role.only .subscript e ++ subscriptsInRole role rest
termination_by structural subscripts => subscripts

def Entry.inRole (role : IntegerRole) : Entry → List Expr
  | .plain value => value.inRole role
  | .impliedDo _ body _ start stop stride =>
      entriesInRole role body ++ (start.inRole role ++ role.only .loopControl start) ++
        (stop.inRole role ++ role.only .loopControl stop) ++ strideInRole role stride
termination_by structural entry => entry

def strideInRole (role : IntegerRole) : Option Expr → List Expr
  | none => []
  | some stride => stride.inRole role ++ role.only .loopControl stride
termination_by structural stride => stride

def entriesInRole (role : IntegerRole) : List Entry → List Expr
  | [] => []
  | entry :: rest => entry.inRole role ++ entriesInRole role rest
termination_by structural entries => entries

end

/-- The expressions of a unit that play the role. -/
def ProgramUnit.inRole (role : IntegerRole) (program : ProgramUnit) : List Expr :=
  program.expressions.flatMap (Expr.inRole role)

/-- The report that an expression of known type calls for if only an integer will do. -/
def integerFaults (role : IntegerRole) (types : TypeMap) (e : Expr) : List Diagnostic :=
  match types.known? e.id with
  | some ty => if ty = .integer then [] else [.of e.span (role.finding e.id ty)]
  | none => []

/-! ### Steps in a role -/

section

variable (role : IntegerRole)

def Step.inRole? : Step → Option Expr
  | subscript _ e => if IntegerRole.subscript = role then some e else none
  | loopControl _ e => if IntegerRole.loopControl = role then some e else none
  | _ => none

@[simp] theorem inRole_subscript (loops : List String) (e : Expr) :
    [Step.subscript loops e].filterMap (Step.inRole? role) = role.only .subscript e := by
  cases role <;> rfl

@[simp] theorem inRole_loopControl (loops : List String) (e : Expr) :
    [Step.loopControl loops e].filterMap (Step.inRole? role) = role.only .loopControl e := by
  cases role <;> rfl

mutual

theorem Expr.inRole_steps (loops : List String) (expected : Option Ty) :
    (e : Expr) → (e.steps loops expected).filterMap (Step.inRole? role) = e.inRole role
  | .literal _ _ => by simp [Expr.steps, Expr.inRole, Step.inRole?]
  | .unary _ _ operand => by simp [Expr.steps, Expr.inRole, Step.inRole?, operand.inRole_steps]
  | .binary _ _ left right => by
      simp [Expr.steps, Expr.inRole, Step.inRole?, left.inRole_steps, right.inRole_steps]
  | .paren _ inner => by simp [Expr.steps, Expr.inRole, Step.inRole?, inner.inRole_steps]
  | .reference _ _ => by simp [Expr.steps, Expr.inRole, Step.inRole?]
  | .element _ _ subscripts => by
      simp [Expr.steps, Expr.inRole, Step.inRole?, inRole_subscriptSteps loops subscripts]
  | .array node entries => by
      simp [Expr.steps, Expr.inRole, Step.inRole?, inRole_entrySteps loops node.id entries]
termination_by structural e => e

theorem inRole_subscriptSteps (loops : List String) :
    (subscripts : List Expr) → (subscriptSteps loops subscripts).filterMap (Step.inRole? role) =
      subscriptsInRole role subscripts
  | [] => rfl
  | e :: rest => by
      rw [subscriptSteps, subscriptsInRole, List.filterMap_append, List.filterMap_append,
        e.inRole_steps, inRole_subscript, inRole_subscriptSteps loops rest]
termination_by structural subscripts => subscripts

theorem Entry.inRole_steps (loops : List String) (owner : NodeId) :
    (entry : Entry) → (entry.steps loops owner).filterMap (Step.inRole? role) = entry.inRole role
  | .plain value => value.inRole_steps loops none
  | .impliedDo _ body loopVariable start stop stride => by
      have hbody := inRole_entrySteps (foldCase loopVariable.value :: loops) owner body
      have hstride := inRole_strideSteps loops stride
      simp only [Entry.steps, Entry.inRole, List.filterMap_append, hbody, start.inRole_steps,
        stop.inRole_steps, hstride, inRole_loopControl]
      simp [Step.inRole?]
termination_by structural entry => entry

theorem inRole_strideSteps (loops : List String) :
    (stride : Option Expr) → (strideSteps loops stride).filterMap (Step.inRole? role) =
      strideInRole role stride
  | none => rfl
  | some stride => by
      rw [strideSteps, strideInRole, List.filterMap_append, stride.inRole_steps,
        inRole_loopControl]
termination_by structural stride => stride

theorem inRole_entrySteps (loops : List String) (owner : NodeId) :
    (entries : List Entry) → (entrySteps loops owner entries).filterMap (Step.inRole? role) =
      entriesInRole role entries
  | [] => rfl
  | entry :: rest => by
      rw [entrySteps, entriesInRole, List.filterMap_append, entry.inRole_steps,
        inRole_entrySteps loops owner rest]
termination_by structural entries => entries

end

theorem Task.inRole_steps (task : Task) :
    task.steps.filterMap (Step.inRole? role) = task.expressions.flatMap (Expr.inRole role) := by
  cases task <;> simp [Task.steps, Task.expressions, Expr.inRole_steps, Step.inRole?]

theorem ProgramUnit.inRole_steps (ctx : Context) (program : ProgramUnit) :
    (program.steps ctx).filterMap (Step.inRole? role) = program.inRole role := by
  rw [ProgramUnit.inRole, ← program.tasks_expressions ctx, program.steps_eq_tasks ctx,
    List.filterMap_flatMap, List.flatMap_assoc]
  simp only [Task.inRole_steps]

/-! ### Roles in post-order -/

theorem IntegerRole.only_sublist (own : IntegerRole) (e : Expr) : role.only own e <+ [e] := by
  unfold only
  split
  · exact List.Sublist.refl _
  · exact List.nil_sublist _

section

variable {e : Expr} (h : e.inRole role ++ [e] <+ e.postorder)
include h

theorem inRole_sublist_of_append : e.inRole role <+ e.postorder :=
  (List.sublist_append_left _ _).trans h

theorem inRole_append_only (own : IntegerRole) :
    e.inRole role ++ role.only own e <+ e.postorder :=
  ((List.append_sublist_append_left _).mpr (role.only_sublist own e)).trans h

end

mutual

/-- What plays a role within an expression is a proper part of it, and plays it once. -/
theorem Expr.inRole_sublist : (e : Expr) → e.inRole role ++ [e] <+ e.postorder
  | .literal _ _ | .reference _ _ => List.Sublist.refl _
  | .unary _ _ operand =>
      (inRole_sublist_of_append role operand.inRole_sublist).append (List.Sublist.refl _)
  | .binary _ _ left right =>
      ((inRole_sublist_of_append role left.inRole_sublist).append
        (inRole_sublist_of_append role right.inRole_sublist)).append (List.Sublist.refl _)
  | .paren _ inner =>
      (inRole_sublist_of_append role inner.inRole_sublist).append (List.Sublist.refl _)
  | .element _ _ subscripts => (subscriptsInRole_sublist subscripts).append (List.Sublist.refl _)
  | .array _ entries => (entriesInRole_sublist entries).append (List.Sublist.refl _)
termination_by structural e => e

theorem subscriptsInRole_sublist :
    (subscripts : List Expr) → subscriptsInRole role subscripts <+ subscriptPostorder subscripts
  | [] => List.Sublist.refl _
  | e :: rest =>
      (inRole_append_only role e.inRole_sublist .subscript).append (subscriptsInRole_sublist rest)
termination_by structural subscripts => subscripts

theorem Entry.inRole_sublist : (entry : Entry) → entry.inRole role <+ entry.postorder
  | .plain value => inRole_sublist_of_append role value.inRole_sublist
  | .impliedDo _ body _ start stop stride =>
      (((entriesInRole_sublist body).append
        (inRole_append_only role start.inRole_sublist .loopControl)).append
          (inRole_append_only role stop.inRole_sublist .loopControl)).append
            (strideInRole_sublist stride)
termination_by structural entry => entry

theorem strideInRole_sublist :
    (stride : Option Expr) → strideInRole role stride <+ stridePostorder stride
  | none => List.Sublist.refl _
  | some stride => inRole_append_only role stride.inRole_sublist .loopControl
termination_by structural stride => stride

theorem entriesInRole_sublist :
    (entries : List Entry) → entriesInRole role entries <+ entryPostorder entries
  | [] => List.Sublist.refl _
  | entry :: rest => entry.inRole_sublist.append (entriesInRole_sublist rest)
termination_by structural entries => entries

end

theorem ProgramUnit.inRole_sublist (program : ProgramUnit) :
    program.inRole role <+ program.postorder := by
  unfold ProgramUnit.inRole ProgramUnit.postorder
  induction program.expressions with
  | nil => exact List.Sublist.refl _
  | cons e es ih => exact (inRole_sublist_of_append role (e.inRole_sublist role)).append ih

end

/-! ## Reports of rules -/

namespace Verdict

variable {options : Options}

theorem ofKind_nonInteger (role : IntegerRole) (node : Node) (ty : Ty) :
    ofKind role.kind (nonInteger options role.finding node ty) =
      nonInteger options role.finding node ty := by
  refine ofKind_eq_self fun d hd => ?_
  rw [mem_nonInteger hd]
  cases role <;> rfl

/-- A comparison is logical whatever is compared. -/
theorem relation_type (node : Node) (rel : Relation) (left right : Ty) :
    (binary options node (.relation rel) left right).type = .logical := by
  simp only [binary, BinaryOp.isRelation, if_pos]
  split <;> rfl

variable (hquiet : options.suppressCascades = true)
include hquiet

theorem unary_reports (node : Node) (op : UnaryOp) (operand : Ty) :
    (unary options node op operand).reports =
      if operand.isUnknown || op.allows operand then []
      else [.of node.span (.unaryOperand node.id op operand)] := by
  simp only [unary, reports_singleton hquiet]
  cases operand.isUnknown <;> cases op.allows operand <;> rfl

theorem binary_reports (node : Node) (op : BinaryOp) (left right : Ty) :
    (binary options node op left right).reports =
      if left.isUnknown || right.isUnknown || op.allows left right then []
      else [.of node.span (.binaryOperands node.id op left right)] := by
  simp only [binary, Options.reports, hquiet, List.any_cons, List.any_nil, Bool.or_false]
  cases left.isUnknown <;> cases right.isUnknown <;> cases op.allows left right <;>
    cases op.isRelation <;> rfl

theorem nonInteger_eq (role : IntegerRole) (node : Node) (ty : Ty) :
    nonInteger options role.finding node ty =
      if ty.isUnknown || decide (ty = .integer) then []
      else [.of node.span (role.finding node.id ty)] := by
  simp only [nonInteger, reports_singleton hquiet]
  by_cases hinteger : ty = .integer
  · simp [hinteger]
  · cases ty.isUnknown <;> simp [hinteger]

end Verdict

/-! ## Reports of recorded steps -/

section

variable {ctx : Context} {types : TypeMap} {steps : List Step}
  (hquiet : ctx.options.suppressCascades = true) (hrecorded : Recorded ctx types steps)
  (hsupported : Supported steps)
include hquiet hrecorded hsupported

theorem ofKind_unaryOperand {step : Step} (hstep : step ∈ steps) :
    ofKind .unaryOperand (step.reports ctx) = step.typed?.elim [] (unaryFaults types) := by
  cases step with
  | node loops expected e =>
      cases e with
      | unary node op operand =>
          have hparts := hrecorded.mono (hsupported _ hstep)
          have hoperand : Recorded ctx types (operand.steps loops none) :=
            hparts.mono (List.subset_append_left _ _)
          simp only [Step.reports, Step.typed?, Option.elim_some, Expr.verdict, unaryFaults,
            Verdict.unary_reports hquiet, hoperand.known?_self]
          cases (operand.verdict ctx loops none).type.isUnknown with
          | true => rfl
          | false =>
              simp only [Bool.false_or, Bool.false_eq_true, ite_false]
              cases op.allows (operand.verdict ctx loops none).type <;> rfl
      | _ => exact Step.ofKind_reports_eq_nil (by simp [Step.kinds, Expr.kinds])
  | _ => exact Step.ofKind_reports_eq_nil (by simp [Step.kinds])

theorem ofKind_binaryOperands {step : Step} (hstep : step ∈ steps) :
    ofKind .binaryOperands (step.reports ctx) = step.typed?.elim [] (binaryFaults types) := by
  cases step with
  | node loops expected e =>
      cases e with
      | binary node op left right =>
          have hparts := hrecorded.mono (hsupported _ hstep)
          have hoperands : Recorded ctx types (left.steps loops none ++ right.steps loops none) :=
            hparts.mono (List.subset_append_left _ _)
          have hleft := hoperands.mono (List.subset_append_left _ _)
          have hright := hoperands.mono (List.subset_append_right _ _)
          simp only [Step.reports, Step.typed?, Option.elim_some, Expr.verdict, binaryFaults,
            Verdict.binary_reports hquiet, hleft.known?_self, hright.known?_self]
          cases (left.verdict ctx loops none).type.isUnknown with
          | true => rfl
          | false =>
              cases (right.verdict ctx loops none).type.isUnknown with
              | true => rfl
              | false =>
                  simp only [Bool.false_or, Bool.false_eq_true, ite_false]
                  cases op.allows (left.verdict ctx loops none).type
                    (right.verdict ctx loops none).type <;> rfl
      | _ => exact Step.ofKind_reports_eq_nil (by simp [Step.kinds, Expr.kinds])
  | _ => exact Step.ofKind_reports_eq_nil (by simp [Step.kinds])

omit hsupported in
/-- The report about an expression in a role, in terms of recorded types. -/
theorem nonInteger_eq_integerFaults (role : IntegerRole) {loops : List String} {e : Expr}
    (he : e.steps loops none ⊆ steps) :
    Verdict.nonInteger ctx.options role.finding e.node (e.verdict ctx loops none).type =
      integerFaults role types e := by
  simp only [integerFaults, (hrecorded.mono he).known?_self, Verdict.nonInteger_eq hquiet]
  cases (e.verdict ctx loops none).type.isUnknown with
  | true => rfl
  | false =>
      simp only [Bool.false_or, decide_eq_true_eq, Bool.false_eq_true, ite_false]
      rfl

theorem ofKind_integer (role : IntegerRole) {step : Step} (hstep : step ∈ steps) :
    ofKind role.kind (step.reports ctx) =
      (step.inRole? role).elim [] (integerFaults role types) := by
  cases step with
  | subscript loops e =>
      cases role with
      | loopControl => exact Step.ofKind_reports_eq_nil (by simp [Step.kinds, IntegerRole.kind])
      | subscript =>
          exact (Verdict.ofKind_nonInteger .subscript _ _).trans
            (nonInteger_eq_integerFaults hquiet hrecorded .subscript (hsupported _ hstep))
  | loopControl loops e =>
      cases role with
      | subscript => exact Step.ofKind_reports_eq_nil (by simp [Step.kinds, IntegerRole.kind])
      | loopControl =>
          exact (Verdict.ofKind_nonInteger .loopControl _ _).trans
            (nonInteger_eq_integerFaults hquiet hrecorded .loopControl (hsupported _ hstep))
  | node loops expected e =>
      refine Step.ofKind_reports_eq_nil ?_
      cases role <;> cases e <;> simp [Step.kinds, Expr.kinds, IntegerRole.kind]
  | _ =>
      refine Step.ofKind_reports_eq_nil ?_
      cases role <;> simp [Step.kinds, IntegerRole.kind]

end

/-! ## Whole units -/

/-- What a check that keeps quiet about unknown types has reported about the operations, subscripts
and loop controls of a unit, by the types that it has recorded. -/
structure OperationSpec (program : ProgramUnit) (pass : Pass) : Prop where
  recorded : ∀ e ∈ program.postorder, (pass.types.get? e.id).isSome = true
  unary : ofKind .unaryOperand pass.diagnostics =
    program.postorder.flatMap (unaryFaults pass.types)
  binary : ofKind .binaryOperands pass.diagnostics =
    program.postorder.flatMap (binaryFaults pass.types)
  integers : ∀ role : IntegerRole, ofKind role.kind pass.diagnostics =
    (program.inRole role).flatMap (integerFaults role pass.types)
  /-- No expression plays a role twice. -/
  visited : ∀ role, program.inRole role <+ program.postorder
  relations : ∀ node rel left right, .binary node (.relation rel) left right ∈ program.postorder →
    pass.types.get? node.id = some .logical

namespace ProgramUnit

variable {program : ProgramUnit}

/-- The reports about operations, subscripts and loop controls are those that the recorded types
call for, each of them once. -/
theorem check_operationSpec (resolver : Resolver) {options : Options}
    (hquiet : options.suppressCascades = true) (distinct : program.ids.Nodup) :
    OperationSpec program (program.check resolver options) := by
  have hrecorded := check_recorded resolver options distinct
  have hsupported := program.supported_steps ⟨resolver, options⟩
  have htyped := program.typed_steps ⟨resolver, options⟩
  have hdiagnostics := check_diagnostics resolver options distinct
  have hnode : ∀ e ∈ program.postorder, ∃ loops expected,
      (program.check resolver options).types.get? e.id =
        some (e.verdict ⟨resolver, options⟩ loops expected).type := by
    intro e he
    have hstep : ∃ loops expected, .node loops expected e ∈ program.steps ⟨resolver, options⟩ :=
      exists_step he
    obtain ⟨loops, expected, hstep⟩ := hstep
    exact ⟨loops, expected, hrecorded loops expected e hstep⟩
  refine ⟨?_, ?_, ?_, ?_, fun role => program.inRole_sublist role, ?_⟩
  · intro e he
    obtain ⟨loops, expected, htype⟩ := hnode e he
    rw [htype]
    rfl
  · rw [hdiagnostics, ← htyped]
    exact Step.ofKind_diagnostics Step.typed? _ fun step hstep =>
      ofKind_unaryOperand hquiet hrecorded hsupported hstep
  · rw [hdiagnostics, ← htyped]
    exact Step.ofKind_diagnostics Step.typed? _ fun step hstep =>
      ofKind_binaryOperands hquiet hrecorded hsupported hstep
  · intro role
    rw [hdiagnostics, ← program.inRole_steps role ⟨resolver, options⟩]
    exact Step.ofKind_diagnostics (Step.inRole? role) _ fun step hstep =>
      ofKind_integer hquiet hrecorded hsupported role hstep
  · intro node rel left right hmem
    obtain ⟨loops, expected, htype⟩ := hnode _ hmem
    rw [Expr.verdict, Verdict.relation_type] at htype
    exact htype

/-- The unit `x(.not. 1 == 'a') = [(2, i = 1, 0.5)]`, whose comparison has an unknown operand and
stands where an integer is called for. -/
def comparedSubscript : ProgramUnit :=
  let name (text : String) : Located String := ⟨.ofWidth 0 1, text⟩
  let number (index : Nat) (text : String) : Expr := .literal (.ofIndex index) (.integer text)
  let comparison : Expr := .binary (.ofIndex 3) (.relation .eq)
    (.unary (.ofIndex 1) .not (number 0 "1")) (.literal (.ofIndex 2) (.character "a"))
  let range : Entry := .impliedDo (.ofWidth 0 5) [.plain (number 5 "2")] (name "i") (number 6 "1")
    (.literal (.ofIndex 7) (.real "0.5")) none
  ⟨.mainProgram, name "p", [], [⟨.ofWidth 0 9, .assignment
    (.element (.ofIndex 4) (name "x") [comparison]) (.array (.ofIndex 8) [range])⟩]⟩

theorem comparedSubscript_operationSpec :
    ({} : Options).suppressCascades = true ∧ comparedSubscript.ids.Nodup ∧
      OperationSpec comparedSubscript (comparedSubscript.check (.ofScope .empty) {}) := by
  have distinct : comparedSubscript.ids.Nodup := by decide
  exact ⟨rfl, distinct, check_operationSpec _ rfl distinct⟩

end ProgramUnit

end FortranTyping

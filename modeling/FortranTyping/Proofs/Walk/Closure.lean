import FortranTyping.Proofs.Constructor.Fold
import FortranTyping.Proofs.Walk.Steps

/-!
# Steps within steps

Among the steps of a unit, each node stands together with all steps of its parts, and a type that is
expected of a node is well-formed.
-/

namespace FortranTyping

/-! ## Well-formed verdicts -/

namespace Verdict

theorem literal_type_wellFormed (node : Node) (value : Literal) :
    (literal node value).type.WellFormed := by
  cases value <;> simp only [literal]
  · split <;> trivial
  all_goals trivial

theorem unary_type_wellFormed (options : Options) (node : Node) (op : UnaryOp) {operand : Ty}
    (h : operand.WellFormed) : (unary options node op operand).type.WellFormed := by
  unfold unary
  split
  · exact h
  · split <;> trivial

theorem binary_type_wellFormed (options : Options) (node : Node) (op : BinaryOp) {left : Ty}
    (right : Ty) (h : left.WellFormed) : (binary options node op left right).type.WellFormed := by
  simp only [binary]
  split
  · exact op.result_wellFormed right h
  · split <;> trivial

theorem reference_type_wellFormed (options : Options) (node : Node) (designator : Designator)
    (found : Option DeclaredEntity) : (reference options node designator found).type.WellFormed := by
  cases found with
  | none => trivial
  | some declared =>
      simp only [reference]
      cases htype : declared.type options with
      | error reason => trivial
      | ok ty =>
          have hwf := declared.type_wellFormed htype
          simp only
          split
          · exact hwf.element
          · exact hwf

theorem inScope_wellFormed (ctx : Context) (loops : List String) (node : Node)
    (designator : Designator) : (inScope ctx loops node designator).type.WellFormed := by
  unfold inScope
  split
  · trivial
  · exact reference_type_wellFormed ctx.options node designator _

end Verdict

theorem Expr.verdict_wellFormed (ctx : Context) (loops : List String) (expected : Option Ty) :
    (e : Expr) → (e.verdict ctx loops expected).type.WellFormed
  | .literal node value => Verdict.literal_type_wellFormed node value
  | .reference node name => Verdict.inScope_wellFormed ctx loops node ⟨name, none⟩
  | .element node name subscripts =>
      Verdict.inScope_wellFormed ctx loops node ⟨name, some subscripts⟩
  | .array node entries => by
      rw [verdict, constructorVerdict_type]
      exact builtType_wellFormed _ _ _
  | .unary node op operand =>
      Verdict.unary_type_wellFormed ctx.options node op (operand.verdict_wellFormed ctx loops none)
  | .binary node op left right =>
      Verdict.binary_type_wellFormed ctx.options node op _ (left.verdict_wellFormed ctx loops none)
  | .paren _ inner => inner.verdict_wellFormed ctx loops expected
termination_by structural e => e

theorem Infer.entityVerdict_wellFormed (options : Options) (declared : DeclaredEntity) :
    (entityVerdict options declared).type.WellFormed := by
  unfold entityVerdict
  cases h : declared.type options with
  | ok ty => exact declared.type_wellFormed h
  | error reason => trivial

/-! ## Closed lists of steps -/

/-- Each node stands with all steps of its parts, and only well-formed types are expected. -/
structure Closed (steps : List Step) : Prop where
  parts : ∀ loops expected e, .node loops expected e ∈ steps → e.steps loops expected ⊆ steps
  expected : ∀ loops ty e, .node loops (some ty) e ∈ steps → ty.WellFormed

namespace Closed

variable {steps rest : List Step}

theorem nil : Closed [] :=
  ⟨fun _ _ _ h => absurd h List.not_mem_nil, fun _ _ _ h => absurd h List.not_mem_nil⟩

theorem append (h : Closed steps) (hrest : Closed rest) : Closed (steps ++ rest) := by
  constructor
  · intro loops expected e hmem
    rcases List.mem_append.mp hmem with hmem | hmem
    · exact List.subset_append_of_subset_left rest (h.parts loops expected e hmem)
    · exact List.subset_append_of_subset_right steps (hrest.parts loops expected e hmem)
  · intro loops ty e hmem
    rcases List.mem_append.mp hmem with hmem | hmem
    · exact h.expected loops ty e hmem
    · exact hrest.expected loops ty e hmem

theorem flatMap {α : Type} {f : α → List Step} (h : ∀ x, Closed (f x)) :
    (xs : List α) → Closed (xs.flatMap f)
  | [] => nil
  | x :: xs => (h x).append (flatMap h xs)

/-- A step that does not type a node. -/
theorem singleton {step : Step} (h : step.typed? = none) : Closed [step] := by
  constructor
  · intro loops expected e hmem
    cases List.mem_singleton.mp hmem
    cases h
  · intro loops ty e hmem
    cases List.mem_singleton.mp hmem
    cases h

/-- A node behind its parts. -/
theorem node {loops : List String} {expected : Option Ty} {e : Expr} (h : Closed steps)
    (hsteps : e.steps loops expected = steps ++ [.node loops expected e])
    (hexpected : ∀ ty ∈ expected, ty.WellFormed) : Closed (e.steps loops expected) := by
  constructor
  · intro loops' expected' e' hmem
    rw [hsteps] at hmem
    rcases List.mem_append.mp hmem with hmem | hmem
    · rw [hsteps]
      exact List.subset_append_of_subset_left _ (h.parts loops' expected' e' hmem)
    · cases List.mem_singleton.mp hmem
      exact List.Subset.refl _
  · intro loops' ty e' hmem
    rw [hsteps] at hmem
    rcases List.mem_append.mp hmem with hmem | hmem
    · exact h.expected loops' ty e' hmem
    · cases List.mem_singleton.mp hmem
      exact hexpected ty rfl

end Closed

mutual

theorem Expr.closed_steps (loops : List String) {expected : Option Ty}
    (hexpected : ∀ ty ∈ expected, ty.WellFormed) : (e : Expr) → Closed (e.steps loops expected)
  | .literal _ _ | .reference _ _ => Closed.nil.node rfl hexpected
  | .unary _ _ operand => (operand.closed_steps loops (by simp)).node rfl hexpected
  | .binary _ _ left right =>
      ((left.closed_steps loops (by simp)).append (right.closed_steps loops (by simp))).node rfl
        hexpected
  | .paren _ inner => (inner.closed_steps loops hexpected).node rfl hexpected
  | .element _ _ subscripts => (closed_subscriptSteps loops subscripts).node rfl hexpected
  | .array node entries => (closed_entrySteps loops node.id entries).node rfl hexpected
termination_by structural e => e

theorem closed_subscriptSteps (loops : List String) :
    (subscripts : List Expr) → Closed (subscriptSteps loops subscripts)
  | [] => .nil
  | e :: rest =>
      ((e.closed_steps loops (by simp)).append (.singleton rfl)).append
        (closed_subscriptSteps loops rest)
termination_by structural subscripts => subscripts

theorem Entry.closed_steps (loops : List String) (owner : NodeId) :
    (entry : Entry) → Closed (entry.steps loops owner)
  | .plain value => value.closed_steps loops (by simp)
  | .impliedDo _ body _ start stop stride =>
      ((((closed_entrySteps _ owner body).append
        ((start.closed_steps loops (by simp)).append (.singleton rfl))).append
          ((stop.closed_steps loops (by simp)).append (.singleton rfl))).append
            (closed_strideSteps loops stride)).append (.singleton rfl)
termination_by structural entry => entry

theorem closed_strideSteps (loops : List String) :
    (stride : Option Expr) → Closed (strideSteps loops stride)
  | none => .nil
  | some stride => (stride.closed_steps loops (by simp)).append (.singleton rfl)
termination_by structural stride => stride

theorem closed_entrySteps (loops : List String) (owner : NodeId) :
    (entries : List Entry) → Closed (entrySteps loops owner entries)
  | [] => .nil
  | entry :: rest => (entry.closed_steps loops owner).append (closed_entrySteps loops owner rest)
termination_by structural entries => entries

end

/-! ## Units -/

theorem closed_eachSteps (es : List Expr) : Closed (eachSteps es) :=
  .flatMap (fun e => e.closed_steps [] (by simp)) es

theorem closed_valueSteps {expected : Ty} (h : expected.WellFormed) (source : Expr) :
    Closed (valueSteps expected source) := by
  unfold valueSteps
  split
  · exact source.closed_steps [] (by simp)
  · exact (source.closed_steps [] (by simpa using h)).append (.singleton rfl)

theorem DeclaredEntity.closed_steps (ctx : Context) (declared : DeclaredEntity) :
    Closed (declared.steps ctx) := by
  refine ((closed_eachSteps _).append (.singleton rfl)).append ?_
  cases declared.entity.init with
  | none => exact .nil
  | some init => exact closed_valueSteps (Infer.entityVerdict_wellFormed ctx.options declared) init

theorem Statement.closed_steps (ctx : Context) (statement : Statement) :
    Closed (statement.steps ctx) := by
  cases statement with
  | other => exact .nil
  | assignment target source =>
      refine ((target.closed_steps [] (by simp)).append (.singleton rfl)).append ?_
      cases target.designator? with
      | none => exact source.closed_steps [] (by simp)
      | some _ => exact closed_valueSteps (target.verdict_wellFormed ctx [] none) source

theorem ProgramUnit.closed_steps (ctx : Context) (program : ProgramUnit) :
    Closed (program.steps ctx) := by
  have hdeclaration (declaration : Declaration) : Closed (declaration.steps ctx) :=
    ((closed_eachSteps _).append (closed_eachSteps _)).append
      (.flatMap (fun declared => declared.closed_steps ctx) _)
  exact (Closed.flatMap (fun located : Located Declaration => hdeclaration located.value) _).append
    (.flatMap (fun located : Located Statement => located.value.closed_steps ctx) _)

end FortranTyping

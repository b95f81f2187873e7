import FortranTyping.Proofs.Walk.Unit

/-!
# The tasks of a unit

A check of a unit is a list of independent tasks, each about one of its outermost expressions. What
holds of the steps of every task holds of the whole check: the steps stand together with those that
they rest on, and the type map has the types that they take up.
-/

namespace FortranTyping

/-- A value that is stored into a variable of known type. -/
structure StoredValue where
  expected : Ty
  source : Expr

inductive Task where
  /-- An expression that is typed for itself. -/
  | expression (e : Expr)
  | target (e : Expr)
  /-- The declared type of an entity. -/
  | entity (declared : DeclaredEntity)
  | store (stored : StoredValue)

namespace Task

def steps : Task → List Step
  | expression e => e.steps [] none
  | target e => e.steps [] none ++ [.target e]
  | entity declared => [.entity declared]
  | store stored =>
      stored.source.steps [] (some stored.expected) ++ [.value stored.expected stored.source]

/-- The outermost expressions that a task visits. -/
def expressions : Task → List Expr
  | expression e | target e => [e]
  | entity _ => []
  | store stored => [stored.source]

def ids (task : Task) : List NodeId :=
  task.expressions.flatMap Expr.ids

@[simp] theorem steps_expression (e : Expr) : (expression e).steps = e.steps [] none := rfl

@[simp] theorem steps_target (e : Expr) : (target e).steps = e.steps [] none ++ [.target e] := rfl

@[simp] theorem steps_entity (declared : DeclaredEntity) :
    (entity declared).steps = [.entity declared] := rfl

@[simp] theorem expressions_expression (e : Expr) : (expression e).expressions = [e] := rfl

@[simp] theorem expressions_target (e : Expr) : (target e).expressions = [e] := rfl

@[simp] theorem expressions_entity (declared : DeclaredEntity) :
    (entity declared).expressions = [] := rfl

def stored? : Task → Option StoredValue
  | store stored => some stored
  | _ => none

/-- A variable of unknown type lends no expectation to its value. -/
def ofValue (expected : Ty) (source : Expr) : Task :=
  if expected.isUnknown then expression source else store ⟨expected, source⟩

@[simp] theorem ofValue_steps (expected : Ty) (source : Expr) :
    (ofValue expected source).steps = valueSteps expected source := by
  unfold ofValue valueSteps
  split <;> rfl

@[simp] theorem ofValue_expressions (expected : Ty) (source : Expr) :
    (ofValue expected source).expressions = [source] := by
  unfold ofValue
  split <;> rfl

theorem typed_steps (task : Task) :
    task.steps.filterMap Step.typed? = task.expressions.flatMap Expr.postorder := by
  cases task <;> simp [steps, expressions, Expr.typed_steps, Step.typed?]

end Task

def DeclaredEntity.tasks (ctx : Context) (declared : DeclaredEntity) : List Task :=
  (declared.entity.shape.elim [] Shape.bounds).map .expression ++ [.entity declared] ++
    declared.entity.init.toList.map
      (.ofValue (Infer.entityVerdict ctx.options declared).type)

def Declaration.tasks (ctx : Context) (declaration : Declaration) : List Task :=
  (declaration.typeSpec.kind.toList ++ declaration.typeSpec.length.toList ++
      declaration.dimension?.elim [] Shape.bounds).map .expression ++
    declaration.declared.flatMap (DeclaredEntity.tasks ctx)

def Statement.tasks (ctx : Context) : Statement → List Task
  | .assignment target source =>
      [.target target,
        match target.designator? with
        | some _ => .ofValue (target.verdict ctx [] none).type source
        | none => .expression source]
  | .other => []

def ProgramUnit.tasks (ctx : Context) (program : ProgramUnit) : List Task :=
  program.declarations.flatMap (·.value.tasks ctx) ++
    program.statements.flatMap (·.value.tasks ctx)

section

variable (ctx : Context)

theorem eachSteps_eq_tasks (es : List Expr) :
    eachSteps es = (es.map Task.expression).flatMap Task.steps := by
  rw [List.flatMap_map]
  rfl

theorem DeclaredEntity.steps_eq_tasks (declared : DeclaredEntity) :
    declared.steps ctx = (declared.tasks ctx).flatMap Task.steps := by
  cases hinit : declared.entity.init <;>
    simp [DeclaredEntity.steps, DeclaredEntity.tasks, hinit, eachSteps_eq_tasks]

theorem Declaration.steps_eq_tasks (declaration : Declaration) :
    declaration.steps ctx = (declaration.tasks ctx).flatMap Task.steps := by
  have hentities : DeclaredEntity.steps ctx = fun declared =>
      (declared.tasks ctx).flatMap Task.steps := funext (DeclaredEntity.steps_eq_tasks ctx)
  simp [Declaration.steps, Declaration.tasks, eachSteps_eq_tasks, List.flatMap_assoc, hentities]

theorem Statement.steps_eq_tasks (statement : Statement) :
    statement.steps ctx = (statement.tasks ctx).flatMap Task.steps := by
  cases statement with
  | other => rfl
  | assignment target source =>
      cases hdesignator : target.designator? <;>
        simp [Statement.steps, Statement.tasks, hdesignator]

theorem ProgramUnit.steps_eq_tasks (program : ProgramUnit) :
    program.steps ctx = (program.tasks ctx).flatMap Task.steps := by
  simp [ProgramUnit.steps, ProgramUnit.tasks, List.flatMap_assoc, Declaration.steps_eq_tasks,
    Statement.steps_eq_tasks]

theorem DeclaredEntity.tasks_expressions (declared : DeclaredEntity) :
    (declared.tasks ctx).flatMap Task.expressions = declared.entity.expressions := by
  cases hinit : declared.entity.init <;>
    simp [DeclaredEntity.tasks, Entity.expressions, hinit, List.flatMap_map]

theorem Declaration.tasks_expressions (declaration : Declaration) :
    (declaration.tasks ctx).flatMap Task.expressions = declaration.expressions := by
  simp [Declaration.tasks, Declaration.expressions, Declaration.declared, List.flatMap_map,
    List.flatMap_assoc, DeclaredEntity.tasks_expressions]

theorem Statement.tasks_expressions (statement : Statement) :
    (statement.tasks ctx).flatMap Task.expressions = statement.expressions := by
  cases statement with
  | other => rfl
  | assignment target source =>
      cases hdesignator : target.designator? <;>
        simp [Statement.tasks, Statement.expressions, hdesignator]

/-- The tasks visit the outermost expressions of the unit in their order. -/
theorem ProgramUnit.tasks_expressions (program : ProgramUnit) :
    (program.tasks ctx).flatMap Task.expressions = program.expressions := by
  simp [ProgramUnit.tasks, ProgramUnit.expressions, List.flatMap_assoc,
    Declaration.tasks_expressions, Statement.tasks_expressions]

end

/-! ## Nodes that steps type -/

def typedIds (steps : List Step) : List NodeId :=
  (steps.filterMap Step.typed?).map Expr.id

@[simp] theorem typedIds_append (steps rest : List Step) :
    typedIds (steps ++ rest) = typedIds steps ++ typedIds rest := by
  simp [typedIds]

@[simp] theorem Expr.typedIds_steps (loops : List String) (expected : Option Ty) (e : Expr) :
    typedIds (e.steps loops expected) = e.ids := by
  rw [typedIds, e.typed_steps]
  rfl

theorem typedIds_entrySteps (loops : List String) (owner : NodeId) (entries : List Entry) :
    typedIds (entrySteps loops owner entries) = (entryPostorder entries).map Expr.id := by
  rw [typedIds, typed_entrySteps]

@[simp] theorem Task.typedIds_steps (task : Task) : typedIds task.steps = task.ids := by
  rw [typedIds, typed_steps, List.map_flatMap]
  rfl

theorem ProgramUnit.typedIds_steps (ctx : Context) (program : ProgramUnit) :
    typedIds (program.steps ctx) = program.ids := by
  rw [typedIds, typed_steps]
  rfl

theorem mem_typedIds {steps : List Step} {loops : List String} {expected : Option Ty} {e : Expr}
    (h : .node loops expected e ∈ steps) : e.id ∈ typedIds steps :=
  List.mem_map_of_mem (List.mem_filterMap.mpr ⟨_, h, rfl⟩)

/-- No two of the steps type the same node. -/
def Distinct (steps : List Step) : Prop :=
  (typedIds steps).Nodup

namespace Distinct

variable {steps rest : List Step} (h : Distinct (steps ++ rest))
include h

theorem left : Distinct steps := by
  rw [Distinct, typedIds_append] at h
  exact h.of_append_left

theorem right : Distinct rest := by
  rw [Distinct, typedIds_append] at h
  exact h.of_append_right

theorem disjoint : List.Disjoint (typedIds steps) (typedIds rest) := by
  rw [Distinct, typedIds_append] at h
  exact List.disjoint_of_nodup_append h

omit h in
theorem of_mem_flatMap {α : Type} {f : α → List Step} {xs : List α}
    (h : Distinct (xs.flatMap f)) {x : α} (hx : x ∈ xs) : Distinct (f x) := by
  obtain ⟨before, after, rfl⟩ := List.append_of_mem hx
  rw [List.flatMap_append, List.flatMap_cons] at h
  exact h.right.left

end Distinct

theorem ProgramUnit.distinct_steps (ctx : Context) {program : ProgramUnit}
    (distinct : program.ids.Nodup) : Distinct (program.steps ctx) := by
  rw [Distinct, program.typedIds_steps]
  exact distinct

/-! ## What a step rests on -/

/-- The steps of all that a step takes up, itself included where it types a node. -/
def Step.support : Step → List Step
  | node loops expected e => e.steps loops expected
  | subscript loops e | loopControl loops e => e.steps loops none
  | range loops owner entry => entry.steps loops owner
  | entity _ => []
  | target e => e.steps [] none
  | value expected source => source.steps [] (some expected)

/-- The steps stand together with all that they rest on. -/
def Supported (steps : List Step) : Prop :=
  ∀ step ∈ steps, step.support ⊆ steps

namespace Supported

variable {steps rest : List Step}

theorem nil : Supported [] := by
  intro step hstep
  cases hstep

theorem append (h : Supported steps) (hrest : Supported rest) : Supported (steps ++ rest) := by
  intro step hstep
  rcases List.mem_append.mp hstep with hstep | hstep
  · exact List.subset_append_of_subset_left rest (h step hstep)
  · exact List.subset_append_of_subset_right steps (hrest step hstep)

theorem flatMap {α : Type} {f : α → List Step} (h : ∀ x, Supported (f x)) :
    (xs : List α) → Supported (xs.flatMap f)
  | [] => nil
  | x :: xs => (h x).append (flatMap h xs)

/-- One more step, which rests on those before it. -/
theorem snoc {step : Step} (h : Supported steps) (hstep : step.support ⊆ steps ++ [step]) :
    Supported (steps ++ [step]) := by
  intro step' hstep'
  rcases List.mem_append.mp hstep' with hstep' | hstep'
  · exact List.subset_append_of_subset_left _ (h step' hstep')
  · cases List.mem_singleton.mp hstep'
    exact hstep

end Supported

mutual

theorem Expr.supported_steps (loops : List String) (expected : Option Ty) :
    (e : Expr) → Supported (e.steps loops expected)
  | .literal _ _ | .reference _ _ => Supported.nil.snoc (List.Subset.refl _)
  | .unary _ _ operand => (operand.supported_steps loops none).snoc (List.Subset.refl _)
  | .binary _ _ left right =>
      ((left.supported_steps loops none).append (right.supported_steps loops none)).snoc
        (List.Subset.refl _)
  | .paren _ inner => (inner.supported_steps loops expected).snoc (List.Subset.refl _)
  | .element _ _ subscripts => (supported_subscriptSteps loops subscripts).snoc (List.Subset.refl _)
  | .array node entries =>
      (supported_entrySteps loops node.id entries).snoc (List.Subset.refl _)
termination_by structural e => e

theorem supported_subscriptSteps (loops : List String) :
    (subscripts : List Expr) → Supported (subscriptSteps loops subscripts)
  | [] => .nil
  | e :: rest =>
      ((e.supported_steps loops none).snoc (List.subset_append_left _ _)).append
        (supported_subscriptSteps loops rest)
termination_by structural subscripts => subscripts

theorem Entry.supported_steps (loops : List String) (owner : NodeId) :
    (entry : Entry) → Supported (entry.steps loops owner)
  | .plain value => value.supported_steps loops none
  | .impliedDo _ body _ start stop stride =>
      ((((supported_entrySteps _ owner body).append
        ((start.supported_steps loops none).snoc (List.subset_append_left _ _))).append
          ((stop.supported_steps loops none).snoc (List.subset_append_left _ _))).append
            (supported_strideSteps loops stride)).snoc (List.Subset.refl _)
termination_by structural entry => entry

theorem supported_strideSteps (loops : List String) :
    (stride : Option Expr) → Supported (strideSteps loops stride)
  | none => .nil
  | some stride => (stride.supported_steps loops none).snoc (List.subset_append_left _ _)
termination_by structural stride => stride

theorem supported_entrySteps (loops : List String) (owner : NodeId) :
    (entries : List Entry) → Supported (entrySteps loops owner entries)
  | [] => .nil
  | entry :: rest => (entry.supported_steps loops owner).append
      (supported_entrySteps loops owner rest)
termination_by structural entries => entries

end

/-- The steps of a node come behind those of its parts. -/
theorem Expr.exists_part_steps (loops : List String) (expected : Option Ty) (e : Expr) :
    ∃ parts, e.steps loops expected = parts ++ [.node loops expected e] ∧ Supported parts := by
  cases e with
  | literal node value => exact ⟨[], rfl, .nil⟩
  | reference node name => exact ⟨[], rfl, .nil⟩
  | unary node op operand => exact ⟨_, rfl, operand.supported_steps loops none⟩
  | binary node op left right =>
      exact ⟨_, rfl, (left.supported_steps loops none).append (right.supported_steps loops none)⟩
  | paren node inner => exact ⟨_, rfl, inner.supported_steps loops expected⟩
  | element node name subscripts => exact ⟨_, rfl, supported_subscriptSteps loops subscripts⟩
  | array node entries => exact ⟨_, rfl, supported_entrySteps loops node.id entries⟩

theorem Task.supported_steps (task : Task) : Supported task.steps := by
  cases task with
  | expression e => exact e.supported_steps [] none
  | target e => exact (e.supported_steps [] none).snoc (List.subset_append_left _ _)
  | entity declared => exact Supported.nil.snoc (List.nil_subset _)
  | store stored =>
      exact (stored.source.supported_steps [] _).snoc (List.subset_append_left _ _)

theorem ProgramUnit.supported_steps (ctx : Context) (program : ProgramUnit) :
    Supported (program.steps ctx) := by
  rw [program.steps_eq_tasks ctx]
  exact .flatMap Task.supported_steps _

/-! ## Recorded types -/

/-- The type of a node, if it has one that is known. -/
def TypeMap.known? (types : TypeMap) (id : NodeId) : Option Ty :=
  (types.get? id).filter fun ty => !ty.isUnknown

/-- The map has the types that the steps give to their nodes. -/
def Recorded (ctx : Context) (types : TypeMap) (steps : List Step) : Prop :=
  ∀ loops expected e, .node loops expected e ∈ steps →
    types.get? e.id = some (e.verdict ctx loops expected).type

theorem Fresh.recorded {ctx : Context} {pass : Pass} {steps : List Step} (h : Fresh pass steps) :
    Recorded ctx (pass.follow ctx steps).types steps :=
  fun _ _ _ hmem => h.get?_follow hmem

namespace Recorded

variable {ctx : Context} {types : TypeMap} {steps rest : List Step}

theorem mono (h : Recorded ctx types steps) (hrest : rest ⊆ steps) : Recorded ctx types rest := by
  intro loops expected e hmem
  exact h loops expected e (hrest hmem)

variable {loops : List String} {expected : Option Ty} {e : Expr}

/-- The type of an expression, all of whose steps are recorded. -/
theorem get?_self (h : Recorded ctx types (e.steps loops expected)) :
    types.get? e.id = some (e.verdict ctx loops expected).type :=
  h loops expected e (e.node_mem_steps loops expected)

theorem known?_self (h : Recorded ctx types (e.steps loops expected)) :
    types.known? e.id = if (e.verdict ctx loops expected).type.isUnknown then none
      else some (e.verdict ctx loops expected).type := by
  rw [TypeMap.known?, h.get?_self, Option.filter_some]
  cases (e.verdict ctx loops expected).type.isUnknown <;> rfl

end Recorded

theorem ProgramUnit.check_recorded {program : ProgramUnit} (resolver : Resolver)
    (options : Options) (distinct : program.ids.Nodup) :
    Recorded ⟨resolver, options⟩ (program.check resolver options).types
      (program.steps ⟨resolver, options⟩) := by
  intro loops expected e hmem
  exact get?_of_mem_steps resolver options distinct hmem

/-- The types of an expression in the unit and of all that it consists of. -/
theorem ProgramUnit.check_recorded_of_mem {program : ProgramUnit} (resolver : Resolver)
    (options : Options) (distinct : program.ids.Nodup) {e : Expr} (hmem : e ∈ program.postorder) :
    ∃ loops expected, Recorded ⟨resolver, options⟩ (program.check resolver options).types
      (e.steps loops expected) := by
  have hstep : ∃ loops expected, .node loops expected e ∈ program.steps ⟨resolver, options⟩ :=
    exists_step hmem
  obtain ⟨loops, expected, hstep⟩ := hstep
  have hsteps : e.steps loops expected ⊆ program.steps ⟨resolver, options⟩ :=
    program.supported_steps _ _ hstep
  exact ⟨loops, expected, (check_recorded resolver options distinct).mono hsteps⟩

end FortranTyping

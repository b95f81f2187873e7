import FortranTyping.Infer.Unit
import FortranTyping.Proofs.Walk.Postorder

/-!
# Steps of a check

What a check does to a tree, without its type map. The verdict on an expression is a recursion over
the expression alone, and the steps are listed by another one in the order in which they happen:
the parts of a node before the node, the report about a subscript or loop control behind the steps
of that part, and the note about an implied-do behind its controls.
-/

namespace FortranTyping

/-! ## Verdicts without memory -/

/-- The rule of a reference. A loop variable is an integer and is not looked up. -/
def Verdict.inScope (ctx : Context) (loops : List String) (node : Node) (designator : Designator) :
    Verdict :=
  if foldCase designator.name.value ∈ loops then .clean .integer
  else .reference ctx.options node designator (ctx.resolver.find designator)

mutual

/-- The type of an expression and the reports of its own rule. -/
def Expr.verdict (ctx : Context) (loops : List String) (expected : Option Ty) : Expr → Verdict
  | .literal node value => .literal node value
  | .unary node op operand => .unary ctx.options node op (operand.verdict ctx loops none).type
  | .binary node op left right =>
      .binary ctx.options node op (left.verdict ctx loops none).type
        (right.verdict ctx loops none).type
  | .paren _ inner => .clean (inner.verdict ctx loops expected).type
  | .reference node name => .inScope ctx loops node ⟨name, none⟩
  | .element node name subscripts => .inScope ctx loops node ⟨name, some subscripts⟩
  | .array node entries =>
      constructorVerdict ctx.options node (contributions ctx loops node.id entries) expected
termination_by structural e => e

/-- What an entry adds to the constructor `owner`, with the note about an implied-do. -/
def Entry.verdict (ctx : Context) (loops : List String) (owner : NodeId) : Entry → RangeVerdict
  | .plain value => ⟨.ofElement value.node (value.verdict ctx loops none).type, []⟩
  | .impliedDo span body loopVariable start stop stride =>
      let controlsFit := (start.verdict ctx loops none).type == .integer &&
        (stop.verdict ctx loops none).type == .integer && strideFits ctx loops stride
      let perTrip := Contribution.total?
        (contributions ctx (foldCase loopVariable.value :: loops) owner body)
      rangeVerdict ctx.options owner span controlsFit perTrip (loopTrips start stop stride)
termination_by structural entry => entry

def strideFits (ctx : Context) (loops : List String) : Option Expr → Bool
  | none => true
  | some stride => (stride.verdict ctx loops none).type == .integer
termination_by structural stride => stride

def contributions (ctx : Context) (loops : List String) (owner : NodeId) :
    List Entry → List Contribution
  | [] => []
  | entry :: rest =>
      (entry.verdict ctx loops owner).contribution :: contributions ctx loops owner rest
termination_by structural entries => entries

end

/-! ## Steps -/

/-- A single act of a check, with the loop variables in whose scope it happens. -/
inductive Step where
  /-- The rule of a node, all of whose parts are typed. -/
  | node (loops : List String) (expected : Option Ty) (e : Expr)
  | subscript (loops : List String) (e : Expr)
  | loopControl (loops : List String) (e : Expr)
  /-- The rule of an implied-do within the constructor `owner`. -/
  | range (loops : List String) (owner : NodeId) (entry : Entry)
  /-- The declared type of an entity. -/
  | entity (declared : DeclaredEntity)
  | target (e : Expr)
  /-- The comparison of a value with the type of its variable. -/
  | value (expected : Ty) (source : Expr)

mutual

def Expr.steps (loops : List String) (expected : Option Ty) : Expr → List Step
  | e@(.literal _ _) | e@(.reference _ _) => [.node loops expected e]
  | e@(.unary _ _ operand) => operand.steps loops none ++ [.node loops expected e]
  | e@(.binary _ _ left right) =>
      left.steps loops none ++ right.steps loops none ++ [.node loops expected e]
  | e@(.paren _ inner) => inner.steps loops expected ++ [.node loops expected e]
  | e@(.element _ _ subscripts) => subscriptSteps loops subscripts ++ [.node loops expected e]
  | e@(.array node entries) => entrySteps loops node.id entries ++ [.node loops expected e]
termination_by structural e => e

def subscriptSteps (loops : List String) : List Expr → List Step
  | [] => []
  | e :: rest => e.steps loops none ++ [.subscript loops e] ++ subscriptSteps loops rest
termination_by structural subscripts => subscripts

def Entry.steps (loops : List String) (owner : NodeId) : Entry → List Step
  | .plain value => value.steps loops none
  | entry@(.impliedDo _ body loopVariable start stop stride) =>
      entrySteps (foldCase loopVariable.value :: loops) owner body ++
        (start.steps loops none ++ [.loopControl loops start]) ++
        (stop.steps loops none ++ [.loopControl loops stop]) ++
        strideSteps loops stride ++ [.range loops owner entry]
termination_by structural entry => entry

def strideSteps (loops : List String) : Option Expr → List Step
  | none => []
  | some stride => stride.steps loops none ++ [.loopControl loops stride]
termination_by structural stride => stride

def entrySteps (loops : List String) (owner : NodeId) : List Entry → List Step
  | [] => []
  | entry :: rest => entry.steps loops owner ++ entrySteps loops owner rest
termination_by structural entries => entries

end

/-! ## Steps of a program unit -/

def eachSteps (es : List Expr) : List Step :=
  es.flatMap (Expr.steps [] none)

/-- A variable of unknown type lends no expectation to its value, and takes any. -/
def valueSteps (expected : Ty) (source : Expr) : List Step :=
  if expected.isUnknown then source.steps [] none
  else source.steps [] (some expected) ++ [.value expected source]

def DeclaredEntity.steps (ctx : Context) (declared : DeclaredEntity) : List Step :=
  eachSteps (declared.entity.shape.elim [] Shape.bounds) ++ [.entity declared] ++
    declared.entity.init.elim [] (valueSteps (Infer.entityVerdict ctx.options declared).type)

def Declaration.steps (ctx : Context) (declaration : Declaration) : List Step :=
  eachSteps (declaration.typeSpec.kind.toList ++ declaration.typeSpec.length.toList) ++
    eachSteps (declaration.dimension?.elim [] Shape.bounds) ++
    declaration.declared.flatMap (DeclaredEntity.steps ctx)

def Statement.steps (ctx : Context) : Statement → List Step
  | .assignment target source =>
      target.steps [] none ++ [.target target] ++
        match target.designator? with
        | some _ => valueSteps (target.verdict ctx [] none).type source
        | none => source.steps [] none
  | .other => []

def ProgramUnit.steps (ctx : Context) (program : ProgramUnit) : List Step :=
  program.declarations.flatMap (·.value.steps ctx) ++
    program.statements.flatMap (·.value.steps ctx)

/-! ## What a step brings up -/

/-- The search for the declaration that a reference means, where there is one. -/
def Expr.searches (ctx : Context) (loops : List String) (e : Expr) : List Event :=
  match e.designator? with
  | some designator =>
      if foldCase designator.name.value ∈ loops then [] else ctx.resolver.events designator
  | none => []

namespace Step

def typing? (ctx : Context) : Step → Option (NodeId × Ty)
  | node loops expected e => some (e.id, (e.verdict ctx loops expected).type)
  | _ => none

def reports (ctx : Context) : Step → List Diagnostic
  | node loops expected e => (e.verdict ctx loops expected).reports
  | subscript loops e =>
      Verdict.nonInteger ctx.options .subscript e.node (e.verdict ctx loops none).type
  | loopControl loops e =>
      Verdict.nonInteger ctx.options .loopControl e.node (e.verdict ctx loops none).type
  | range loops owner entry => (entry.verdict ctx loops owner).reports
  | entity declared => (Infer.entityVerdict ctx.options declared).reports
  | target _ => []
  | value expected source =>
      Infer.valueReports ctx.options source expected (source.verdict ctx [] (some expected)).type

def events (ctx : Context) : Step → List Event
  | node loops expected e =>
      e.searches ctx loops ++ [.typed e (e.verdict ctx loops expected).type]
  | entity declared => [.declared declared.name (Infer.entityVerdict ctx.options declared).type]
  | target e => [.assigned e (e.verdict ctx [] none).type]
  | _ => []

/-- The expression that a step gives a type. -/
def typed? : Step → Option Expr
  | node _ _ e => some e
  | _ => none

def typings (ctx : Context) (steps : List Step) : List (NodeId × Ty) :=
  steps.filterMap (typing? ctx)

def diagnostics (ctx : Context) (steps : List Step) : List Diagnostic :=
  steps.flatMap (reports ctx)

@[simp] theorem typings_nil (ctx : Context) : typings ctx [] = [] := rfl

@[simp] theorem typings_append (ctx : Context) (steps rest : List Step) :
    typings ctx (steps ++ rest) = typings ctx steps ++ typings ctx rest :=
  List.filterMap_append

@[simp] theorem diagnostics_nil (ctx : Context) : diagnostics ctx [] = [] := rfl

@[simp] theorem diagnostics_append (ctx : Context) (steps rest : List Step) :
    diagnostics ctx (steps ++ rest) = diagnostics ctx steps ++ diagnostics ctx rest :=
  List.flatMap_append

end Step

/-- A pass that goes on by some steps. -/
def Pass.follow (ctx : Context) (pass : Pass) (steps : List Step) : Pass where
  types := ⟨pass.types.entries ++ Step.typings ctx steps⟩
  diagnostics := pass.diagnostics ++ Step.diagnostics ctx steps
  events := pass.events ++ steps.flatMap (Step.events ctx)

namespace Pass

@[simp] theorem follow_nil (ctx : Context) (pass : Pass) : pass.follow ctx [] = pass := by
  simp [follow]

theorem follow_append (ctx : Context) (pass : Pass) (steps rest : List Step) :
    pass.follow ctx (steps ++ rest) = (pass.follow ctx steps).follow ctx rest := by
  simp [follow, List.append_assoc]

end Pass

/-! ## Parts -/

theorem contributions_eq_map (ctx : Context) (loops : List String) (owner : NodeId)
    (entries : List Entry) :
    contributions ctx loops owner entries =
      entries.map fun entry => (entry.verdict ctx loops owner).contribution := by
  induction entries with
  | nil => rfl
  | cons entry rest ih => rw [contributions, ih, List.map_cons]

/-- Whatever its body, a range adds integers to the constructor if its controls are integers. -/
theorem Entry.range_contribution (ctx : Context) (loops : List String) (owner : NodeId)
    (span : Span) (body : List Entry) (loopVariable : Located String) (start stop : Expr)
    (stride : Option Expr) :
    ∃ count, ((Entry.impliedDo span body loopVariable start stop stride).verdict ctx loops
      owner).contribution = ⟨owner, span,
        if (start.verdict ctx loops none).type == .integer &&
          (stop.verdict ctx loops none).type == .integer && strideFits ctx loops stride
        then .integer else .unknown none, count⟩ := by
  simp only [Entry.verdict, rangeVerdict]
  split
  · cases loopTrips start stop stride <;> exact ⟨_, rfl⟩
  · exact ⟨none, rfl⟩

theorem entrySteps_eq_flatMap (loops : List String) (owner : NodeId) (entries : List Entry) :
    entrySteps loops owner entries = entries.flatMap (Entry.steps loops owner) := by
  induction entries with
  | nil => rfl
  | cons entry rest ih => rw [entrySteps, ih, List.flatMap_cons]

theorem Expr.node_mem_steps (loops : List String) (expected : Option Ty) (e : Expr) :
    .node loops expected e ∈ e.steps loops expected := by
  cases e <;> simp [Expr.steps]

/-- Parentheses add nothing but types. -/
theorem Expr.steps_bare (ctx : Context) (loops : List String) (expected : Option Ty) :
    (e : Expr) → ∃ rest, e.steps loops expected = e.bare.steps loops expected ++ rest ∧
      Step.diagnostics ctx rest = []
  | .paren node inner => by
      obtain ⟨rest, hsteps, hrest⟩ := inner.steps_bare ctx loops expected
      refine ⟨rest ++ [.node loops expected (.paren node inner)], ?_, ?_⟩
      · rw [Expr.steps, hsteps, Expr.bare, List.append_assoc]
      · rw [Step.diagnostics_append, hrest]
        rfl
  | .literal _ _ | .unary _ _ _ | .binary _ _ _ _ | .reference _ _ | .element _ _ _
  | .array _ _ => ⟨[], (List.append_nil _).symm, rfl⟩

theorem Expr.isArrayConstructor_of_bare {source : Expr} {node : Node} {entries : List Entry}
    (h : source.bare = .array node entries) : source.isArrayConstructor = true := by
  simp [isArrayConstructor, h]

/-- Every step of a constructor that is stored into a variable, in order: its parts, itself, and
parentheses around it. -/
theorem Expr.storedSteps_of_bare (ctx : Context) {source : Expr} {node : Node}
    {entries : List Entry} (hsource : source.bare = .array node entries) (expected : Ty) :
    ∃ rest, source.steps [] (some expected) ++ [.value expected source] =
        entrySteps [] node.id entries ++
          ([.node [] (some expected) (.array node entries)] ++ rest) ∧
      Step.diagnostics ctx rest = [] := by
  obtain ⟨rest, hsteps, hrest⟩ := source.steps_bare ctx [] (some expected)
  refine ⟨rest ++ [.value expected source], ?_, ?_⟩
  · rw [hsteps, hsource]
    simp [Expr.steps]
  · rw [Step.diagnostics_append, hrest]
    simp [Step.diagnostics, Step.reports, Infer.valueReports, isArrayConstructor_of_bare hsource]

/-! ## Steps and post-order -/

mutual

/-- Each expression within another is typed by one step, in post-order. -/
theorem Expr.typed_steps (loops : List String) (expected : Option Ty) :
    (e : Expr) → (e.steps loops expected).filterMap Step.typed? = e.postorder
  | .literal _ _ => by simp [Expr.steps, Expr.postorder, Step.typed?]
  | .unary _ _ operand => by
      simp [Expr.steps, Expr.postorder, Step.typed?, operand.typed_steps]
  | .binary _ _ left right => by
      simp [Expr.steps, Expr.postorder, Step.typed?, left.typed_steps, right.typed_steps]
  | .paren _ inner => by simp [Expr.steps, Expr.postorder, Step.typed?, inner.typed_steps]
  | .reference _ _ => by simp [Expr.steps, Expr.postorder, Step.typed?]
  | .element _ _ subscripts => by
      simp [Expr.steps, Expr.postorder, Step.typed?, typed_subscriptSteps loops subscripts]
  | .array node entries => by
      simp [Expr.steps, Expr.postorder, Step.typed?, typed_entrySteps loops node.id entries]
termination_by structural e => e

theorem typed_subscriptSteps (loops : List String) :
    (subscripts : List Expr) →
      (subscriptSteps loops subscripts).filterMap Step.typed? = subscriptPostorder subscripts
  | [] => rfl
  | e :: rest => by
      simp [subscriptSteps, subscriptPostorder, List.filterMap_cons, Step.typed?, e.typed_steps,
        typed_subscriptSteps loops rest]
termination_by structural subscripts => subscripts

theorem Entry.typed_steps (loops : List String) (owner : NodeId) :
    (entry : Entry) → (entry.steps loops owner).filterMap Step.typed? = entry.postorder
  | .plain value => by simp [Entry.steps, Entry.postorder, value.typed_steps]
  | .impliedDo _ body loopVariable start stop stride => by
      simp [Entry.steps, Entry.postorder, List.filterMap_cons, Step.typed?, start.typed_steps,
        stop.typed_steps, typed_entrySteps (foldCase loopVariable.value :: loops) owner body,
        typed_strideSteps loops stride]
termination_by structural entry => entry

theorem typed_strideSteps (loops : List String) :
    (stride : Option Expr) →
      (strideSteps loops stride).filterMap Step.typed? = stridePostorder stride
  | none => rfl
  | some stride => by simp [strideSteps, stridePostorder, Step.typed?, stride.typed_steps]
termination_by structural stride => stride

theorem typed_entrySteps (loops : List String) (owner : NodeId) :
    (entries : List Entry) →
      (entrySteps loops owner entries).filterMap Step.typed? = entryPostorder entries
  | [] => rfl
  | entry :: rest => by
      simp [entrySteps, entryPostorder, entry.typed_steps, typed_entrySteps loops owner rest]
termination_by structural entries => entries

end

theorem typed_eachSteps (es : List Expr) :
    (eachSteps es).filterMap Step.typed? = es.flatMap Expr.postorder := by
  simp [eachSteps, List.filterMap_flatMap, Expr.typed_steps]

theorem typed_valueSteps (expected : Ty) (source : Expr) :
    (valueSteps expected source).filterMap Step.typed? = source.postorder := by
  unfold valueSteps
  split <;> simp [Expr.typed_steps, Step.typed?]

theorem DeclaredEntity.typed_steps (ctx : Context) (declared : DeclaredEntity) :
    (declared.steps ctx).filterMap Step.typed? =
      declared.entity.expressions.flatMap Expr.postorder := by
  cases hinit : declared.entity.init with
  | none => simp [DeclaredEntity.steps, Entity.expressions, hinit, typed_eachSteps, Step.typed?]
  | some init =>
      simp [DeclaredEntity.steps, Entity.expressions, hinit, typed_eachSteps, typed_valueSteps,
        List.filterMap_cons, Step.typed?]

theorem Declaration.typed_steps (ctx : Context) (declaration : Declaration) :
    (declaration.steps ctx).filterMap Step.typed? =
      declaration.expressions.flatMap Expr.postorder := by
  simp [Declaration.steps, Declaration.expressions, Declaration.declared, typed_eachSteps,
    List.filterMap_flatMap, List.flatMap_map, List.flatMap_assoc, DeclaredEntity.typed_steps]

theorem Statement.typed_steps (ctx : Context) (statement : Statement) :
    (statement.steps ctx).filterMap Step.typed? =
      statement.expressions.flatMap Expr.postorder := by
  cases statement with
  | other => rfl
  | assignment target source =>
      cases hdesignator : target.designator? with
      | none =>
          simp [Statement.steps, Statement.expressions, hdesignator, Expr.typed_steps,
            List.filterMap_cons, Step.typed?]
      | some designator =>
          simp [Statement.steps, Statement.expressions, hdesignator, Expr.typed_steps,
            typed_valueSteps, List.filterMap_cons, Step.typed?]

/-- A check types the expressions of a unit in post-order, each of them in one step. -/
theorem ProgramUnit.typed_steps (ctx : Context) (program : ProgramUnit) :
    (program.steps ctx).filterMap Step.typed? = program.postorder := by
  simp [ProgramUnit.steps, ProgramUnit.postorder, ProgramUnit.expressions,
    List.filterMap_flatMap, List.flatMap_assoc, Declaration.typed_steps, Statement.typed_steps]

namespace Step

/-- An expression that is typed has a step of its own. -/
theorem exists_node {steps : List Step} {e : Expr} (h : e ∈ steps.filterMap typed?) :
    ∃ loops expected, .node loops expected e ∈ steps := by
  obtain ⟨step, hstep, htyped⟩ := List.mem_filterMap.mp h
  cases step with
  | node loops expected e' =>
      cases htyped
      exact ⟨loops, expected, hstep⟩
  | _ => cases htyped

theorem typings_ids (ctx : Context) (steps : List Step) :
    (typings ctx steps).map Prod.fst = (steps.filterMap typed?).map Expr.id := by
  induction steps with
  | nil => rfl
  | cons step steps ih =>
      cases step <;> simpa [typings, List.filterMap_cons, typing?, typed?] using ih

end Step

theorem mem_postorder_of_mem_steps {loops loops' : List String} {expected expected' : Option Ty}
    {e part : Expr} (h : .node loops' expected' part ∈ e.steps loops expected) :
    part ∈ e.postorder := by
  rw [← e.typed_steps loops expected]
  exact List.mem_filterMap.mpr ⟨_, h, rfl⟩

theorem ProgramUnit.exists_step {ctx : Context} {program : ProgramUnit} {e : Expr}
    (h : e ∈ program.postorder) : ∃ loops expected, .node loops expected e ∈ program.steps ctx := by
  rw [← program.typed_steps ctx] at h
  exact Step.exists_node h

end FortranTyping

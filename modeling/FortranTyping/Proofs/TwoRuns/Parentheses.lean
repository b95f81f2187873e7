import FortranTyping.Proofs.Loops.References
import FortranTyping.Proofs.TwoRuns.Wrapped
import FortranTyping.Proofs.Walk.Order
import FortranTyping.Proofs.Walk.Tasks

/-!
# The transparency of parentheses

A unit beside itself with additional parentheses. The walk over the second one takes the same steps,
and behind the step of a wrapped expression those of the parentheses around it: they get the type of
what they enclose and have nothing to report. What is reported about an expression may name the
outermost of its parentheses instead. All this is so when the same references are looked up; a
resolver that looks at the subscripts of a reference can let the parentheses show.
-/

namespace FortranTyping

section

variable {layers : Layers} {ctx : Context}

/-! ## Steps -/

theorem Expr.typings_within (ctx : Context) (loops : List String) (expected : Option Ty)
    (ids : List NodeId) (e : Expr) :
    Step.typings ctx ((e.within ids).steps loops expected) =
      Step.typings ctx (e.steps loops expected) ++
        ids.map (·, (e.verdict ctx loops expected).type) := by
  induction ids generalizing e with
  | nil => simp [within]
  | cons id ids ih =>
      rw [within, ih, Expr.steps, Step.typings_append, List.append_assoc]
      rfl

theorem Expr.diagnostics_within (ctx : Context) (loops : List String) (expected : Option Ty)
    (ids : List NodeId) (e : Expr) :
    Step.diagnostics ctx ((e.within ids).steps loops expected) =
      Step.diagnostics ctx (e.steps loops expected) := by
  induction ids generalizing e with
  | nil => rfl
  | cons id ids ih =>
      rw [within, ih, Expr.steps, Step.diagnostics_append]
      exact List.append_nil _

/-- What the second run records for a node of the first one. -/
def Layers.around (layers : Layers) (typing : NodeId × Ty) : List (NodeId × Ty) :=
  typing :: (layers typing.1).map (·, typing.2)

/-- The second run types what the first one does, and behind each node the parentheses around it. -/
structure Layers.Steps (layers : Layers) (ctx : Context) (steps steps' : List Step) :
    Prop where
  typings : Step.typings ctx steps' =
    (Step.typings (ctx.through layers) steps).flatMap layers.around
  diagnostics :
    layers.Diagnostics (Step.diagnostics (ctx.through layers) steps) (Step.diagnostics ctx steps')

namespace Layers.Steps

variable {steps steps' rest rest' : List Step}

theorem nil : layers.Steps ctx [] [] :=
  ⟨rfl, .nil⟩

theorem append (h : layers.Steps ctx steps steps') (hrest : layers.Steps ctx rest rest') :
    layers.Steps ctx (steps ++ rest) (steps' ++ rest') where
  typings := by
    rw [Step.typings_append, Step.typings_append, List.flatMap_append, h.typings, hrest.typings]
  diagnostics := by
    rw [Step.diagnostics_append, Step.diagnostics_append]
    exact h.diagnostics.append hrest.diagnostics

theorem flatMap {α β : Type} {f : α → List Step} {g : β → List Step} (change : α → β)
    (h : ∀ x, layers.Steps ctx (f x) (g (change x))) :
    (xs : List α) → layers.Steps ctx (xs.flatMap f) ((xs.map change).flatMap g)
  | [] => .nil
  | x :: xs => (h x).append (flatMap change h xs)

/-- A step of each run that is nothing but a report. -/
theorem report {step step' : Step} (htyping : step.typing? (ctx.through layers) = none)
    (htyping' : step'.typing? ctx = none)
    (h : layers.Diagnostics (step.reports (ctx.through layers)) (step'.reports ctx)) :
    layers.Steps ctx [step] [step'] where
  typings := by simp [Step.typings, htyping, htyping']
  diagnostics := by simpa [Step.diagnostics] using h

/-- The step of an expression, in the second run with those of the parentheses around it. -/
theorem node {loops : List String} {expected : Option Ty} {e : Expr}
    (h : layers.Steps ctx steps steps')
    (he : e.steps loops expected = steps ++ [.node loops expected e])
    (hparts : (e.wrapParts layers).steps loops expected =
      steps' ++ [.node loops expected (e.wrapParts layers)])
    (hverdict : layers.likeness.Verdicts (e.verdict (ctx.through layers) loops expected)
      ((e.wrapParts layers).verdict ctx loops expected)) :
    layers.Steps ctx (e.steps loops expected) ((e.wrap layers).steps loops expected) where
  typings := by
    have htype : ((e.wrapParts layers).verdict ctx loops expected).type =
        (e.verdict (ctx.through layers) loops expected).type := hverdict.type.symm
    rw [e.wrap_eq_within, Expr.typings_within, hparts, he, Step.typings_append, Step.typings_append,
      List.flatMap_append, h.typings]
    simp [Step.typings, Step.typing?, htype, Layers.around, e.id_wrapParts]
  diagnostics := by
    rw [e.wrap_eq_within, Expr.diagnostics_within, hparts, he, Step.diagnostics_append,
      Step.diagnostics_append]
    refine h.diagnostics.append ?_
    simp only [Step.diagnostics, List.flatMap_singleton, Step.reports]
    exact hverdict.reports

end Layers.Steps

/-- The check of the type of an expression by a finding about it. -/
theorem nonInteger_wrap (ctx : Context) (loops : List String) (e : Expr)
    {finding : NodeId → Ty → Finding} (hfinding : ∀ id ty,
      (finding id ty).mapExpr layers.outermost = finding (layers.outermost id) ty) :
    layers.Diagnostics
      (Verdict.nonInteger ctx.options finding e.node
        (e.verdict (ctx.through layers) loops none).type)
      (Verdict.nonInteger ctx.options finding (e.wrap layers).node
        ((e.wrap layers).verdict ctx loops none).type) := by
  rw [type_wrap (e.verdict_wrapParts loops none), e.node_wrap]
  unfold Verdict.nonInteger
  split
  · exact .singleton e.span (hfinding e.id _).symm
  · exact .nil

theorem subscript_wrap (loops : List String) (e : Expr) :
    layers.Steps ctx [.subscript loops e] [.subscript loops (e.wrap layers)] :=
  .report rfl rfl (nonInteger_wrap ctx loops e fun _ _ => rfl)

theorem loopControl_wrap (loops : List String) (e : Expr) :
    layers.Steps ctx [.loopControl loops e] [.loopControl loops (e.wrap layers)] :=
  .report rfl rfl (nonInteger_wrap ctx loops e fun _ _ => rfl)

theorem range_wrap (loops : List String) (owner : NodeId) (entry : Entry) :
    layers.Steps ctx [.range loops owner entry] [.range loops owner (entry.wrap layers)] := by
  refine .report rfl rfl ?_
  simp only [Step.reports]
  rw [(entry.verdict_wrap loops owner).reports]
  exact .refl _

mutual

theorem Expr.steps_wrap (loops : List String) (expected : Option Ty) :
    (e : Expr) → layers.Steps ctx (e.steps loops expected) ((e.wrap layers).steps loops expected)
  | .literal _ _ | .reference _ _ =>
      Layers.Steps.nil.node rfl rfl (Expr.verdict_wrapParts loops expected _)
  | .unary _ _ operand =>
      (operand.steps_wrap loops none).node rfl rfl (Expr.verdict_wrapParts loops expected _)
  | .binary _ _ left right =>
      ((left.steps_wrap loops none).append (right.steps_wrap loops none)).node rfl rfl
        (Expr.verdict_wrapParts loops expected _)
  | .paren _ inner =>
      (inner.steps_wrap loops expected).node rfl rfl (Expr.verdict_wrapParts loops expected _)
  | .element _ _ subscripts =>
      (steps_wrapSubscripts loops subscripts).node rfl rfl
        (Expr.verdict_wrapParts loops expected _)
  | .array node entries =>
      (steps_wrapEntries loops node.id entries).node rfl rfl
        (Expr.verdict_wrapParts loops expected _)
termination_by structural e => e

theorem steps_wrapSubscripts (loops : List String) :
    (subscripts : List Expr) → layers.Steps ctx (subscriptSteps loops subscripts)
      (subscriptSteps loops (wrapSubscripts layers subscripts))
  | [] => .nil
  | e :: rest =>
      ((e.steps_wrap loops none).append (subscript_wrap loops e)).append
        (steps_wrapSubscripts loops rest)
termination_by structural subscripts => subscripts

theorem Entry.steps_wrap (loops : List String) (owner : NodeId) :
    (entry : Entry) →
      layers.Steps ctx (entry.steps loops owner) ((entry.wrap layers).steps loops owner)
  | .plain value => value.steps_wrap loops none
  | .impliedDo span body loopVariable start stop stride =>
      ((((steps_wrapEntries _ owner body).append
        ((start.steps_wrap loops none).append (loopControl_wrap loops start))).append
          ((stop.steps_wrap loops none).append (loopControl_wrap loops stop))).append
            (steps_wrapStride loops stride)).append
              (range_wrap loops owner (.impliedDo span body loopVariable start stop stride))
termination_by structural entry => entry

theorem steps_wrapStride (loops : List String) :
    (stride : Option Expr) → layers.Steps ctx (strideSteps loops stride)
      (strideSteps loops (wrapStride layers stride))
  | none => .nil
  | some stride => (stride.steps_wrap loops none).append (loopControl_wrap loops stride)
termination_by structural stride => stride

theorem steps_wrapEntries (loops : List String) (owner : NodeId) :
    (entries : List Entry) → layers.Steps ctx (entrySteps loops owner entries)
      (entrySteps loops owner (wrapEntries layers entries))
  | [] => .nil
  | entry :: rest => (entry.steps_wrap loops owner).append (steps_wrapEntries loops owner rest)
termination_by structural entries => entries

end

/-! ## Tasks -/

theorem valueReports_wrap (options : Options) (expected ty : Ty) (source : Expr) :
    layers.Diagnostics (Infer.valueReports options source expected ty)
      (Infer.valueReports options (source.wrap layers) expected ty) := by
  simp only [Infer.valueReports, source.isArrayConstructor_wrap, source.span_wrap, source.id_wrap]
  split
  · exact .singleton source.span rfl
  · exact .nil

def Task.wrap (layers : Layers) : Task → Task
  | expression e => expression (e.wrap layers)
  | target e => target (e.wrap layers)
  | entity declared => entity (declared.map id (Expr.wrap layers))
  | store stored => store ⟨stored.expected, stored.source.wrap layers⟩

theorem Task.wrap_ofValue (layers : Layers) (expected : Ty) (source : Expr) :
    (ofValue expected source).wrap layers = ofValue expected (source.wrap layers) := by
  unfold ofValue
  split <;> rfl

theorem Task.map_wrap_expression (layers : Layers) (es : List Expr) :
    (es.map expression).map (Task.wrap layers) = (es.map (Expr.wrap layers)).map expression := by
  rw [List.map_map, List.map_map]
  rfl

theorem Task.steps_wrap (task : Task) :
    layers.Steps ctx task.steps (task.wrap layers).steps := by
  cases task with
  | expression e => exact e.steps_wrap [] none
  | target e => exact (e.steps_wrap [] none).append (.report rfl rfl .nil)
  | entity declared =>
      refine .report rfl rfl ?_
      have hverdict := Infer.entityVerdict_map (Expr.integerValue?_wrap layers) id declared
        ctx.options
      simp only [Step.reports, Context.options_through, hverdict]
      exact .refl _
  | store stored =>
      obtain ⟨expected, source⟩ := stored
      have htype : ((source.wrap layers).verdict ctx [] (some expected)).type = _ :=
        type_wrap (source.verdict_wrapParts [] (some expected))
      refine (source.steps_wrap [] (some expected)).append (.report rfl rfl ?_)
      simp only [Step.reports, Context.options_through, htype]
      exact valueReports_wrap ctx.options expected _ source

theorem DeclaredEntity.tasks_wrap (declared : DeclaredEntity) :
    (declared.map id (Expr.wrap layers)).tasks ctx =
      (declared.tasks (ctx.through layers)).map (Task.wrap layers) := by
  have hbounds := Shape.elim_bounds_mapExprs (Expr.wrap layers) declared.entity.shape
  have hverdict := Infer.entityVerdict_map (Expr.integerValue?_wrap layers) id declared ctx.options
  have hinit (expected : Ty) :
      (declared.entity.init.map (Expr.wrap layers)).toList.map (Task.ofValue expected) =
        (declared.entity.init.toList.map (Task.ofValue expected)).map (Task.wrap layers) := by
    cases declared.entity.init with
    | none => rfl
    | some init => exact congrArg (fun task => [task]) (Task.wrap_ofValue layers expected init).symm
  unfold DeclaredEntity.tasks
  rw [Context.options_through, hverdict, List.map_append, List.map_append,
    Task.map_wrap_expression, ← hbounds, ← hinit]
  rfl

theorem Declaration.tasks_wrap (declaration : Declaration) :
    (declaration.map id (Expr.wrap layers)).tasks ctx =
      (declaration.tasks (ctx.through layers)).map (Task.wrap layers) := by
  have hentities : declaration.declared.flatMap
      (fun declared => (declared.map id (Expr.wrap layers)).tasks ctx) =
        (declaration.declared.flatMap (DeclaredEntity.tasks (ctx.through layers))).map
          (Task.wrap layers) := by
    rw [List.map_flatMap]
    exact List.flatMap_congr fun declared _ => declared.tasks_wrap
  have hselectors : (declaration.map id (Expr.wrap layers)).typeSpec.kind.toList ++
      (declaration.map id (Expr.wrap layers)).typeSpec.length.toList =
        (declaration.typeSpec.kind.toList ++ declaration.typeSpec.length.toList).map
          (Expr.wrap layers) := by
    simp [Declaration.map, TypeSpec.mapExprs, Option.toList_map]
  unfold Declaration.tasks
  rw [Declaration.dimension?_map, Shape.elim_bounds_mapExprs, Declaration.declared_map, hselectors,
    List.flatMap_map, hentities, ← List.map_append, ← Task.map_wrap_expression, ← List.map_append]

theorem Statement.tasks_wrap (statement : Statement)
    (htarget : ∀ target source, statement = .assignment target source → layers target.id = []) :
    (statement.mapExprs (Expr.wrap layers)).tasks ctx =
      (statement.tasks (ctx.through layers)).map (Task.wrap layers) := by
  cases statement with
  | other => rfl
  | assignment target source =>
      have htype : ((target.wrap layers).verdict ctx [] none).type = _ :=
        type_wrap (target.verdict_wrapParts [] none)
      simp only [Statement.mapExprs, Statement.tasks,
        target.designator?_wrap layers (htarget target source rfl)]
      cases target.designator? with
      | none => rfl
      | some designator =>
          simp only [Option.map_some, htype, ← Task.wrap_ofValue]
          rfl

end

/-! ## Units -/

/-- There are no new parentheses around what the statement assigns to. -/
def Statement.bareTarget (layers : Layers) : Statement → Bool
  | .assignment target _ => (layers target.id).isEmpty
  | .other => true

namespace ProgramUnit

variable {layers : Layers} {program : ProgramUnit}

/-- The new parentheses have identities of their own, and there are none around the target of an
assignment. -/
structure Wrappable (layers : Layers) (program : ProgramUnit) : Prop where
  distinct : (program.wrap layers).ids.Nodup
  targets : ∀ located ∈ program.statements, ∀ target source,
    located.value = .assignment target source → layers target.id = []

theorem wrappable_iff : Wrappable layers program ↔
    (program.wrap layers).ids.Nodup ∧
      ∀ located ∈ program.statements, located.value.bareTarget layers = true := by
  constructor
  · intro h
    refine ⟨h.distinct, fun located hlocated => ?_⟩
    cases hstatement : located.value with
    | other => rfl
    | assignment target source =>
        exact List.isEmpty_iff.mpr (h.targets located hlocated target source hstatement)
  · rintro ⟨distinct, htargets⟩
    refine ⟨distinct, fun located hlocated target source hassignment => ?_⟩
    have htarget := htargets located hlocated
    rw [hassignment] at htarget
    exact List.isEmpty_iff.mp htarget

instance (layers : Layers) (program : ProgramUnit) : Decidable (Wrappable layers program) :=
  decidable_of_iff _ wrappable_iff.symm

section

variable (h : Wrappable layers program)
include h

theorem tasks_wrap (ctx : Context) : (program.wrap layers).tasks ctx =
    (program.tasks (ctx.through layers)).map (Task.wrap layers) := by
  simp only [tasks, wrap, map, List.map_append, List.flatMap_map, List.map_flatMap]
  congr 1
  · exact List.flatMap_congr fun located _ => located.value.tasks_wrap
  · refine List.flatMap_congr fun located hlocated => ?_
    exact located.value.tasks_wrap (h.targets located hlocated)

theorem steps_wrap (ctx : Context) : layers.Steps ctx (program.steps (ctx.through layers))
    ((program.wrap layers).steps ctx) := by
  rw [steps_eq_tasks, steps_eq_tasks, tasks_wrap h]
  exact .flatMap (Task.wrap layers) (fun task => task.steps_wrap) _

theorem ids_wrap : (program.wrap layers).ids = program.ids.flatMap fun id => id :: layers id := by
  have hids (ctx : Context) (program : ProgramUnit) :
      program.ids = (Step.typings ctx (program.steps ctx)).map Prod.fst := by
    rw [Step.typings_ids, typed_steps, ids]
  -- the identities are those of the steps, in whatever scope these are taken
  let ctx : Context := ⟨.ofScope .empty, {}⟩
  rw [hids ctx, (steps_wrap h ctx).typings, hids (ctx.through layers) program, List.map_flatMap,
    List.flatMap_map]
  refine List.flatMap_congr fun typing _ => ?_
  simp [Layers.around, Function.comp_def]

theorem distinct_of_wrap : program.ids.Nodup := by
  have hwrapped := h.distinct
  rw [ids_wrap h] at hwrapped
  refine (List.nodup_flatMap.mp hwrapped).2.imp ?_
  rintro id _ hdisjoint rfl
  exact hdisjoint (List.mem_cons_self ..) (List.mem_cons_self ..)

end

/-- With additional parentheses every node keeps its type and the parentheses get the type of what
they enclose, each behind it. The diagnostics stay the same, but for those that name the outermost
of the parentheses around their expression instead. -/
structure TransparencySpec (layers : Layers) (program : ProgramUnit) (pass pass' : Pass) :
    Prop where
  typings : pass'.types.entries = pass.types.entries.flatMap layers.around
  found : ∀ e ∈ program.postorder, ∃ type, pass.types.get? e.id = some type ∧
    pass'.types.get? e.id = some type ∧ ∀ id ∈ layers e.id, pass'.types.get? id = some type
  diagnostics : layers.Diagnostics pass.diagnostics pass'.diagnostics

/-- With distinct identities, what the second list of typings has is what is found. -/
theorem found_of_typings (h : Wrappable layers program) {pass pass' : Pass}
    (hids : pass.types.ids = program.ids) (hids' : pass'.types.ids = (program.wrap layers).ids)
    (htypings : pass'.types.entries = pass.types.entries.flatMap layers.around) {e : Expr}
    (he : e ∈ program.postorder) :
    ∃ type, pass.types.get? e.id = some type ∧ pass'.types.get? e.id = some type ∧
      ∀ id ∈ layers e.id, pass'.types.get? id = some type := by
  have hmem : e.id ∈ pass.types.ids := by
    rw [hids]
    exact List.mem_map_of_mem he
  obtain ⟨⟨id, type⟩, htyping, rfl : id = e.id⟩ := List.mem_map.mp hmem
  have haround : ∀ typing ∈ layers.around (e.id, type),
      pass'.types.get? typing.1 = some typing.2 := by
    intro typing htyping'
    refine TypeMap.get?_of_mem (hids' ▸ h.distinct) ?_
    rw [htypings]
    exact List.mem_flatMap.mpr ⟨_, htyping, htyping'⟩
  refine ⟨type, TypeMap.get?_of_mem (hids ▸ distinct_of_wrap h) htyping,
    haround (e.id, type) (List.mem_cons_self ..), ?_⟩
  intro id hid
  exact haround (id, type) (List.mem_cons_of_mem _ (List.mem_map_of_mem hid))

/-- Parentheses do not show in a check, if the same references are looked up. -/
theorem check_through (h : Wrappable layers program) (resolver : Resolver) (options : Options) :
    TransparencySpec layers program (program.check (resolver.through layers) options)
      ((program.wrap layers).check resolver options) := by
  have distinct := distinct_of_wrap h
  have hsteps := steps_wrap h ⟨resolver, options⟩
  have htypings : ((program.wrap layers).check resolver options).types.entries =
      (program.check (resolver.through layers) options).types.entries.flatMap layers.around := by
    rw [check_entries _ options distinct, check_entries resolver options h.distinct]
    exact hsteps.typings
  have hids := check_ids (resolver.through layers) options distinct
  have hids' := check_ids resolver options h.distinct
  refine ⟨htypings, fun e he => found_of_typings h hids hids' htypings he, ?_⟩
  rw [check_diagnostics _ options distinct, check_diagnostics resolver options h.distinct]
  exact hsteps.diagnostics

/-- Parentheses show in a check if and only if they show in the type of a free reference. -/
theorem transparencySpec_iff (h : Wrappable layers program) (resolver resolver' : Resolver)
    (options : Options) :
    TransparencySpec layers program (program.check resolver options)
        ((program.wrap layers).check resolver' options) ↔
      program.TypedAlike options resolver (resolver'.through layers) := by
  have distinct := distinct_of_wrap h
  have hthrough := check_through h resolver' options
  constructor
  · intro hspec e designator hfree
    obtain ⟨type, htype, hwrapped, -⟩ := hspec.found e hfree.1
    obtain ⟨type', htype', hwrapped', -⟩ := hthrough.found e hfree.1
    rw [check_get?_of_free resolver options distinct hfree, Option.some.injEq] at htype
    rw [check_get?_of_free _ options distinct hfree, Option.some.injEq] at htype'
    rw [htype, htype']
    exact Option.some.inj (hwrapped.symm.trans hwrapped')
  · intro halike
    obtain ⟨htypes, hdiagnostics⟩ := check_congr distinct halike
    exact ⟨htypes ▸ hthrough.typings, htypes ▸ hthrough.found,
      hdiagnostics ▸ hthrough.diagnostics⟩

/-- A resolver that goes by the name of a reference does not see the parentheses. -/
theorem typedAlike_of_names (options : Options) {resolver : Resolver}
    (h : ∀ designator designator', designator.name = designator'.name →
      resolver.find designator = resolver.find designator') :
    program.TypedAlike options resolver (resolver.through layers) := by
  intro e designator _
  rw [h designator (designator.wrap layers) rfl]
  rfl

/-- The two units' own declarations are of the same types. -/
theorem typedAlike_ownScope (options : Options) :
    program.TypedAlike options (.ofScope program.ownScope)
      ((Resolver.ofScope (program.wrap layers).ownScope).through layers) := by
  intro e designator _
  have hfound : ((Resolver.ofScope (program.wrap layers).ownScope).through layers).find designator =
      (program.ownScope.get? designator.name.value).map (.map id (Expr.wrap layers)) :=
    program.get?_ownScope_map (fun _ => rfl) (Expr.wrap layers) designator.name.value
  rw [hfound, Verdict.reference_map_wrap]
  rfl

/-- When the new parentheses do not show in the checks of both units. -/
structure TransparencyLaws (layers : Layers) (program : ProgramUnit) (options : Options) :
    Prop where
  /-- Exactly if what is found gives every free reference the same type with and without the new
  parentheses in its subscripts. -/
  exact : ∀ resolver resolver',
    TransparencySpec layers program (program.check resolver options)
        ((program.wrap layers).check resolver' options) ↔
      program.TypedAlike options resolver (resolver'.through layers)
  /-- Always for a resolver that goes by names. -/
  names : ∀ resolver : Resolver,
    (∀ designator designator', designator.name = designator'.name →
      resolver.find designator = resolver.find designator') →
        TransparencySpec layers program (program.check resolver options)
          ((program.wrap layers).check resolver options)
  /-- Always for the declarations of each unit itself. -/
  own : TransparencySpec layers program (program.check (.ofScope program.ownScope) options)
    ((program.wrap layers).check (.ofScope (program.wrap layers).ownScope) options)

theorem check_transparencyLaws (h : Wrappable layers program) (options : Options) :
    TransparencyLaws layers program options where
  exact resolver resolver' := transparencySpec_iff h resolver resolver' options
  names resolver hnames :=
    (transparencySpec_iff h resolver resolver options).mpr (typedAlike_of_names options hnames)
  own := (transparencySpec_iff h _ _ options).mpr (typedAlike_ownScope options)

/-- The unit `character(3) :: s(2) = [("ab", i = 1, 2)]; s(1) = 4`. -/
def filledText : ProgramUnit :=
  let name (text : String) : Located String := ⟨.ofWidth 0 1, text⟩
  let number (index : Nat) (text : String) : Expr := .literal (.ofIndex index) (.integer text)
  let range : Entry := .impliedDo (.ofWidth 0 5) [.plain (.literal (.ofIndex 2) (.character "ab"))]
    (name "i") (number 3 "1") (number 4 "2") none
  let declaration : Declaration :=
    ⟨⟨⟨.ofWidth 0 1, .character⟩, none, some (number 0 "3")⟩, [],
      [⟨name "s", some [⟨none, some (number 1 "2")⟩], some (.array (.ofIndex 5) [range])⟩]⟩
  ⟨.mainProgram, name "p", [⟨.ofWidth 0 9, declaration⟩],
    [⟨.ofWidth 0 9, .assignment (.element (.ofIndex 7) (name "s") [number 6 "1"]) (number 8 "4")⟩]⟩

/-- Two pairs of parentheses around all but the target of the assignment: around the length, the
bound, the controls of the range, the constructor, the subscript and the values. -/
def twoAroundEach : Layers := fun id =>
  if id.index = 7 then [] else [⟨2 * id.index + 10⟩, ⟨2 * id.index + 11⟩]

theorem filledText_transparencyLaws :
    Wrappable twoAroundEach filledText ∧ TransparencyLaws twoAroundEach filledText {} ∧
      TransparencySpec twoAroundEach filledText
        (filledText.check (.ofScope filledText.ownScope) {})
        ((filledText.wrap twoAroundEach).check
          (.ofScope (filledText.wrap twoAroundEach).ownScope) {}) := by
  have h : Wrappable twoAroundEach filledText := by decide
  have hlaws := check_transparencyLaws h {}
  exact ⟨h, hlaws, hlaws.own⟩

/-- The unit `integer, dimension(2), dimension(3) :: a; a(1) = .true.`. -/
def storedFlag : ProgramUnit :=
  let name (text : String) : Located String := ⟨.ofWidth 0 1, text⟩
  let number (index : Nat) (text : String) : Expr := .literal (.ofIndex index) (.integer text)
  let dimension (bound : Expr) : Attribute := .dimension [⟨none, some bound⟩]
  let declaration : Declaration := ⟨⟨⟨.ofWidth 0 1, .integer⟩, none, none⟩,
    [dimension (number 0 "2"), dimension (number 1 "3")], [⟨name "a", none, none⟩]⟩
  ⟨.mainProgram, name "p", [⟨.ofWidth 0 9, declaration⟩],
    [⟨.ofWidth 0 9, .assignment (.element (.ofIndex 5) (name "a") [number 3 "1"])
      (.literal (.ofIndex 6) (.logical true))⟩]⟩

/-- Parentheses around the bound of the second attribute and around the subscript. -/
def boundAndSubscript : Layers := fun id =>
  if id.index = 1 then [⟨2⟩] else if id.index = 3 then [⟨4⟩] else []

/-- Finds the unit's own declarations, but none for a name with a subscript in parentheses. -/
def bareSubscript (program : ProgramUnit) : Resolver where
  find designator :=
    match designator.subscripts with
    | some [.paren _ _] => none
    | _ => program.ownScope.get? designator.name.value
  events _ := []

/-- Such a resolver loses the type of the element, and with it the report about its value. And
whatever the resolver, the bound of the second attribute is not visited. -/
theorem storedFlag_not_transparent :
    let wrapped := storedFlag.wrap boundAndSubscript
    let pass := storedFlag.check (bareSubscript storedFlag) {}
    let pass' := wrapped.check (bareSubscript storedFlag) {}
    Wrappable boundAndSubscript storedFlag ∧
      ¬TransparencySpec boundAndSubscript storedFlag pass pass' ∧
      pass.types.get? ⟨5⟩ = some .integer ∧
      pass.diagnostics = [.of (Node.ofIndex 6).span (.mismatch ⟨6⟩ .integer .logical)] ∧
      pass'.types.get? ⟨5⟩ = some (.unknown (some "unresolved variable `a`")) ∧
      pass'.diagnostics = [] ∧
      ∀ resolver options, (wrapped.check resolver options).types.get? ⟨2⟩ = none := by
  intro wrapped pass pass'
  have h : Wrappable boundAndSubscript storedFlag := by decide
  have hreports : pass.diagnostics =
      [.of (Node.ofIndex 6).span (.mismatch ⟨6⟩ .integer .logical)] := by decide +kernel
  have hreports' : pass'.diagnostics = [] := by decide +kernel
  refine ⟨h, fun hspec => ?_, by decide +kernel, hreports, by decide +kernel, hreports', ?_⟩
  · have hdiagnostics := hspec.diagnostics
    rw [hreports, hreports'] at hdiagnostics
    cases hdiagnostics
  · intro resolver options
    rw [TypeMap.get?_eq_none_iff, check_ids resolver options h.distinct]
    decide

end ProgramUnit

end FortranTyping

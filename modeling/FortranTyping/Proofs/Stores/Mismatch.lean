import FortranTyping.Proofs.Stores.Value

/-!
# Initial and assigned values

The values of a unit that are held against a variable of known type are the initial values of
entities that have a type and the values that are assigned to references of known type. Mismatches
are reported about these alone.
-/

namespace FortranTyping

open scoped List

/-! ## Stored values -/

def DeclaredEntity.storedValue? (options : Options) (declared : DeclaredEntity) :
    Option StoredValue :=
  match declared.type options, declared.entity.init with
  | .ok expected, some source => some ⟨expected, source⟩
  | _, _ => none

def Statement.storedValue? (types : TypeMap) : Statement → Option StoredValue
  | .assignment target source =>
      if target.designator?.isSome then
        (types.known? target.id).map fun expected => ⟨expected, source⟩
      else none
  | .other => none

/-- The values of a unit that are stored into variables of known type, by the types of the nodes. -/
def ProgramUnit.storedValues (options : Options) (types : TypeMap) (program : ProgramUnit) :
    List StoredValue :=
  (program.specifications.flatMap Declaration.declared).filterMap
      (DeclaredEntity.storedValue? options) ++
    program.statements.filterMap fun located => located.value.storedValue? types

section

variable {ctx : Context} {types : TypeMap}

theorem Task.stored?_expressions (es : List Expr) :
    (es.map Task.expression).filterMap Task.stored? = [] := by
  simp [Task.stored?]

theorem DeclaredEntity.stored_tasks (declared : DeclaredEntity) :
    (declared.tasks ctx).filterMap Task.stored? = (declared.storedValue? ctx.options).toList := by
  unfold DeclaredEntity.tasks DeclaredEntity.storedValue? Infer.entityVerdict
  rw [List.filterMap_append, List.filterMap_append, Task.stored?_expressions]
  cases hinit : declared.entity.init with
  | none => cases declared.type ctx.options <;> simp [Task.stored?]
  | some init =>
      cases htype : declared.type ctx.options with
      | error reason => simp [Task.stored?, Task.ofValue, Ty.isUnknown]
      | ok expected =>
          have hknown := (declared.type_known htype).1
          simp [List.filterMap_cons, Task.stored?, Task.ofValue, Verdict.clean, hknown]

theorem Declaration.stored_tasks (declaration : Declaration) :
    (declaration.tasks ctx).filterMap Task.stored? =
      declaration.declared.filterMap (DeclaredEntity.storedValue? ctx.options) := by
  rw [Declaration.tasks, List.filterMap_append, Task.stored?_expressions, List.nil_append,
    List.filterMap_flatMap, List.filterMap_eq_flatMap_toList]
  simp only [DeclaredEntity.stored_tasks]

theorem Statement.stored_tasks {statement : Statement}
    (h : Recorded ctx types (statement.steps ctx)) :
    (statement.tasks ctx).filterMap Task.stored? = (statement.storedValue? types).toList := by
  cases statement with
  | other => rfl
  | assignment target source =>
      have htarget : Recorded ctx types (target.steps [] none) := by
        refine h.mono ?_
        rw [Statement.steps, List.append_assoc]
        exact List.subset_append_left _ _
      cases hdesignator : target.designator? with
      | none => simp [Statement.tasks, storedValue?, hdesignator, Task.stored?]
      | some designator =>
          simp only [Statement.tasks, storedValue?, hdesignator, Option.isSome_some, ite_true,
            htarget.known?_self]
          cases hunknown : (target.verdict ctx [] none).type.isUnknown <;>
            simp [List.filterMap_cons, Task.stored?, Task.ofValue, hunknown]

/-- The tasks in which a value is held against a variable. -/
theorem ProgramUnit.stored_tasks {program : ProgramUnit}
    (h : Recorded ctx types (program.steps ctx)) :
    (program.tasks ctx).filterMap Task.stored? = program.storedValues ctx.options types := by
  have hstatements : ∀ located ∈ program.statements,
      (located.value.tasks ctx).filterMap Task.stored? =
        (located.value.storedValue? types).toList := by
    intro located hmem
    refine Statement.stored_tasks (h.mono fun step hstep => ?_)
    exact List.mem_append_right _ (List.mem_flatMap.mpr ⟨located, hmem, hstep⟩)
  unfold ProgramUnit.tasks ProgramUnit.storedValues ProgramUnit.specifications
  rw [List.filterMap_append, List.filterMap_flatMap, List.filterMap_flatMap,
    List.flatMap_congr hstatements, ← List.filterMap_eq_flatMap_toList, List.filterMap_flatMap,
    List.flatMap_map]
  simp only [Declaration.stored_tasks]

theorem Task.eq_store_of_stored? {task : Task} {stored : StoredValue}
    (h : task.stored? = some stored) : task = .store stored := by
  cases task with
  | store stored' => exact congrArg Task.store (Option.some.inj h)
  | _ => cases h

/-- Only the tasks in which a value is stored report mismatches. -/
theorem Task.mismatches_of_not_stored {task : Task} (h : task.stored? = none) :
    ofKind .mismatch (Step.diagnostics ctx task.steps) = [] := by
  cases task with
  | expression e => exact (e.storeless_steps [] (.inl rfl)).ofKind_eq_nil ctx
  | target e =>
      exact ((e.storeless_steps [] (.inl rfl)).snoc (by simp [Step.kinds])).ofKind_eq_nil ctx
  | entity declared => exact (Storeless.nil.snoc (by simp [Step.kinds])).ofKind_eq_nil ctx
  | store stored => cases h

end

/-! ## Whole units -/

/-- What a pass says about a stored value of type `actual`. -/
structure StoredValue.CheckSpec (stored : StoredValue) (actual : Ty) (pass : Pass) : Prop where
  recorded : pass.types.get? stored.source.id = some actual
  /-- A value that is no constructor is reported once, if its type is known and not accepted. -/
  plain : stored.source.isArrayConstructor = false →
    about stored.source.ids (ofKind .mismatch pass.diagnostics) =
      if actual.isUnknown || stored.expected.accepts actual then []
      else [.of stored.source.span (.mismatch stored.source.id stored.expected actual)]
  /-- A constructor is reported as a whole at most once, under its parentheses. -/
  whole : stored.source.isArrayConstructor = true →
    about stored.source.ids (ofKind .mismatch pass.diagnostics) <+
      [.of stored.source.bare.span (.mismatch stored.source.bare.id stored.expected actual)]
  /-- If it is accepted, neither the constructor nor an entry of it is reported. -/
  accepted : stored.source.isArrayConstructor = true → stored.expected.accepts actual = true →
    ∀ id ∈ stored.source.bare.subjects, ¬Names (ofKind .mismatch pass.diagnostics) id ∧
      ¬Names (ofKind .constructorElement pass.diagnostics) id
  /-- If its type is known and not accepted, the constructor or an entry of it is reported. -/
  refused : stored.source.isArrayConstructor = true → actual.isUnknown = false →
    stored.expected.accepts actual = false →
      ∃ id ∈ stored.source.bare.subjects, Names (ofKind .mismatch pass.diagnostics) id ∨
        Names (ofKind .constructorElement pass.diagnostics) id

/-- What a pass that keeps quiet about unknown types says about the stored values of a unit. -/
structure MismatchSpec (options : Options) (program : ProgramUnit) (pass : Pass) : Prop where
  checked : ∀ stored ∈ program.storedValues options pass.types,
    ∃ actual, stored.CheckSpec actual pass
  /-- There are no mismatches but those about stored values. -/
  all : ofKind .mismatch pass.diagnostics =
    (program.storedValues options pass.types).flatMap fun stored =>
      about stored.source.ids (ofKind .mismatch pass.diagnostics)

section

variable {ctx : Context} {tasks : List Task} (distinct : Distinct (tasks.flatMap Task.steps))
  {stored : StoredValue} (hmem : .store stored ∈ tasks)
include distinct hmem

namespace StoredValue

/-- What is reported about the nodes of a stored value comes from its own check. -/
theorem about_tasks (ctx : Context) {kind : FindingKind} (hkind : kind ≠ .skipped)
    {ids : List NodeId} (hids : ids ⊆ stored.source.ids) :
    about ids (ofKind kind (Step.diagnostics ctx (tasks.flatMap Task.steps))) =
      about ids (ofKind kind (Step.diagnostics ctx (Task.store stored).steps)) := by
  refine about_flatMap Task.supported_steps hkind distinct hmem ?_
  rw [typedIds_steps]
  exact hids

theorem names_tasks_iff (ctx : Context) {kind : FindingKind} (hkind : kind ≠ .skipped)
    {id : NodeId} (hid : id ∈ stored.source.ids) :
    Names (ofKind kind (Step.diagnostics ctx (tasks.flatMap Task.steps))) id ↔
      Names (ofKind kind (Step.diagnostics ctx (Task.store stored).steps)) id := by
  have hids : [id] ⊆ stored.source.ids := List.cons_subset.mpr ⟨hid, List.nil_subset _⟩
  rw [names_iff, names_iff, about_tasks distinct hmem ctx hkind hids]

/-- The mismatches about a stored value are all that its check reports. -/
theorem about_mismatches (ctx : Context) :
    about stored.source.ids (ofKind .mismatch (Step.diagnostics ctx (tasks.flatMap Task.steps))) =
      ofKind .mismatch (Step.diagnostics ctx (Task.store stored).steps) := by
  rw [about_tasks distinct hmem ctx (by decide) (List.Subset.refl _), ← typedIds_steps]
  exact (Task.store stored).supported_steps.about_eq_self (by decide)

/-- The check of a value among the tasks of a unit. -/
theorem checkSpec (hquiet : ctx.options.suppressCascades = true) {pass : Pass}
    (hdiagnostics : pass.diagnostics = Step.diagnostics ctx (tasks.flatMap Task.steps))
    (hrecorded : pass.types.get? stored.source.id = some (stored.inferred ctx)) :
    stored.CheckSpec (stored.inferred ctx) pass := by
  have hmismatches := about_mismatches distinct hmem ctx
  have hown := distinct.of_mem_flatMap hmem
  refine ⟨hrecorded, ?_, ?_, ?_, ?_⟩
  · intro hplain
    rw [hdiagnostics, hmismatches]
    exact mismatches_of_plain hquiet hplain
  · intro harray
    obtain ⟨node, entries, hsource⟩ := Expr.exists_of_isArrayConstructor harray
    rw [hdiagnostics, hmismatches, hsource]
    exact mismatches_of_bare hsource
  · intro harray haccepts id hid
    obtain ⟨node, entries, hsource⟩ := Expr.exists_of_isArrayConstructor harray
    have hids := stored.source.bare_subjects_subset hid
    rw [hsource] at hid
    rw [hdiagnostics, names_tasks_iff distinct hmem ctx (by decide) hids,
      names_tasks_iff distinct hmem ctx (by decide) hids]
    exact ⟨not_names_of_accepts hsource hown haccepts (.inl rfl) hid,
      not_names_of_accepts hsource hown haccepts (.inr rfl) hid⟩
  · intro harray hknown hrefused
    obtain ⟨node, entries, hsource⟩ := Expr.exists_of_isArrayConstructor harray
    obtain ⟨id, hid, kind, hkind, hnames⟩ := names_of_refused hsource hknown hrefused
    rw [← hsource] at hid
    have hids := stored.source.bare_subjects_subset hid
    refine ⟨id, hid, ?_⟩
    rw [hdiagnostics, names_tasks_iff distinct hmem ctx (by decide) hids,
      names_tasks_iff distinct hmem ctx (by decide) hids]
    rcases hkind with rfl | rfl
    · exact .inl hnames
    · exact .inr hnames

end StoredValue

end

section

variable {ctx : Context}

/-- All mismatches that tasks report are about the values that they store. -/
theorem tasks_mismatches {tasks : List Task} (distinct : Distinct (tasks.flatMap Task.steps)) :
    let mismatches := ofKind .mismatch (Step.diagnostics ctx (tasks.flatMap Task.steps))
    mismatches = (tasks.filterMap Task.stored?).flatMap fun stored =>
      about stored.source.ids mismatches := by
  have hblocks : ∀ task ∈ tasks, ofKind .mismatch (Step.diagnostics ctx task.steps) =
      (task.stored?.toList).flatMap fun stored => about stored.source.ids
        (ofKind .mismatch (Step.diagnostics ctx (tasks.flatMap Task.steps))) := by
    intro task hmem
    cases hstored : task.stored? with
    | none =>
        rw [Task.mismatches_of_not_stored hstored]
        rfl
    | some stored =>
        cases Task.eq_store_of_stored? hstored
        rw [Option.toList_some, List.flatMap_singleton,
          StoredValue.about_mismatches distinct hmem ctx]
  simp only
  rw [List.filterMap_eq_flatMap_toList, List.flatMap_assoc, ← List.flatMap_congr hblocks,
    Step.diagnostics, List.flatMap_assoc, ofKind_flatMap]
  rfl

end

namespace ProgramUnit

variable {program : ProgramUnit}

/-- The check of initial and assigned values is exact: each of them that is refused is reported, and
no mismatch comes from anywhere else. -/
theorem check_mismatchSpec (resolver : Resolver) {options : Options}
    (hquiet : options.suppressCascades = true) (distinct : program.ids.Nodup) :
    MismatchSpec options program (program.check resolver options) := by
  have hrecorded := check_recorded resolver options distinct
  have hstored := stored_tasks hrecorded
  have hdistinct : Distinct ((program.tasks ⟨resolver, options⟩).flatMap Task.steps) := by
    rw [← program.steps_eq_tasks]
    exact ProgramUnit.distinct_steps _ distinct
  have hdiagnostics := check_diagnostics resolver options distinct
  rw [program.steps_eq_tasks] at hdiagnostics
  refine ⟨?_, ?_⟩
  · intro stored hmem
    rw [← hstored] at hmem
    obtain ⟨task, htask, hsome⟩ := List.mem_filterMap.mp hmem
    cases Task.eq_store_of_stored? hsome
    have hsource : Recorded ⟨resolver, options⟩ (program.check resolver options).types
        (stored.source.steps [] (some stored.expected)) := by
      rw [program.steps_eq_tasks] at hrecorded
      refine hrecorded.mono fun step hstep => ?_
      exact List.mem_flatMap.mpr ⟨_, htask, List.mem_append_left _ hstep⟩
    exact ⟨_, StoredValue.checkSpec hdistinct htask hquiet hdiagnostics hsource.get?_self⟩
  · rw [hdiagnostics, ← hstored]
    exact tasks_mismatches hdistinct

/-- The unit `integer :: k = 0.5, a(2) = ([1, 0.5])`, none of whose initial values is accepted. -/
def refusedValues : ProgramUnit :=
  let name (text : String) : Located String := ⟨.ofWidth 0 1, text⟩
  let number (index : Nat) (text : String) : Expr := .literal (.ofIndex index) (.integer text)
  let half (index : Nat) : Expr := .literal (.ofIndex index) (.real "0.5")
  let pair : Expr := .paren (.ofIndex 5)
    (.array (.ofIndex 4) [.plain (number 2 "1"), .plain (half 3)])
  ⟨.mainProgram, name "p", [⟨.ofWidth 0 9, ⟨⟨⟨.ofWidth 0 7, .integer⟩, none, none⟩, [],
    [⟨name "k", none, some (half 0)⟩,
      ⟨name "a", some [⟨none, some (number 1 "2")⟩], some pair⟩]⟩⟩], []⟩

theorem refusedValues_mismatchSpec :
    ({} : Options).suppressCascades = true ∧ refusedValues.ids.Nodup ∧
      MismatchSpec {} refusedValues (refusedValues.check (.ofScope .empty) {}) := by
  have distinct : refusedValues.ids.Nodup := by decide
  exact ⟨rfl, distinct, check_mismatchSpec _ rfl distinct⟩

end ProgramUnit

end FortranTyping

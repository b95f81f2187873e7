import FortranTyping.Proofs.Declarations.References
import FortranTyping.Proofs.Declarations.Types
import FortranTyping.Proofs.Stores.Concatenation
import FortranTyping.Proofs.Stores.Mismatch
import FortranTyping.Proofs.TwoRuns.Regrouping

/-!
# Capacities

A concatenation that is stored into a character variable is refused if and only if all its
characters together are more than the declared length has room for. One whose length is lost fits
every variable.
-/

namespace FortranTyping

/-! ## Stores into declared entities -/

/-- The type is declared as `character(len=value)`. -/
structure TypeSpec.HasLength (spec : TypeSpec) (value : Int) : Prop where
  keyword : spec.keyword.value = .character
  length : ∃ e, spec.length = some e ∧ e.integerValue? = some value

/-- A negative length leaves no room. -/
theorem TypeSpec.HasLength.elementType {spec : TypeSpec} {value : Int} (h : spec.HasLength value)
    (options : Options) : spec.elementType options = .character (some value.toNat) := by
  obtain ⟨e, hlength, hvalue⟩ := h.length
  have hcapacity : (value.toNat : Int) = max 0 value := by omega
  exact TypeSpec.hasElement_iff.mp (.character h.keyword hlength hvalue hcapacity)

theorem TypeSpec.elementType_of_character {spec : TypeSpec} (h : spec.keyword.value = .character)
    (options : Options) : ∃ capacity, spec.elementType options = .character capacity := by
  unfold elementType
  rw [h]
  cases spec.length with
  | none => exact ⟨_, rfl⟩
  | some length => exact ⟨_, rfl⟩

/-- The unit stores a value into a scalar entity, or into an element of an array. -/
inductive ProgramUnit.Stores (resolver : Resolver) (program : ProgramUnit)
    (declared : DeclaredEntity) (source : Expr) : Prop where
  | initial (hmem : declared ∈ program.declared) (hscalar : declared.shape? = none)
      (hinit : declared.entity.init = some source)
  | assigned {target : Expr} {designator : Designator}
      (hmem : .assignment target source ∈ program.statements.map Located.value)
      (htarget : target.designator? = some designator)
      (hfound : resolver.find designator = some declared) (hscalar : declared.shape? = none)
  | element {target : Expr} {designator : Designator} {shape : Shape} {size : Nat}
      (hmem : .assignment target source ∈ program.statements.map Located.value)
      (htarget : target.designator? = some designator)
      (hfound : resolver.find designator = some declared)
      (hsubscripted : designator.isSubscripted = true) (hshape : declared.shape? = some shape)
      (hsize : shape.size = .ok size)

namespace DeclaredEntity

variable (options : Options) {declared : DeclaredEntity}

theorem expectedType_of_scalar (h : declared.shape? = none) :
    declared.expectedType options = declared.declaration.typeSpec.elementType options := by
  simp [expectedType, Infer.entityVerdict, type, h, Verdict.clean]

theorem expectedType_of_shape {shape : Shape} {size : Nat} (hshape : declared.shape? = some shape)
    (hsize : shape.size = .ok size) :
    declared.expectedType options =
      .array (declared.declaration.typeSpec.elementType options) size := by
  have hscalar := declared.declaration.typeSpec.elementType_isScalar options
  simp [expectedType, Infer.entityVerdict, type, hshape, hsize, Except.map, Verdict.clean,
    Ty.arrayOf_of_isScalar size hscalar]

end DeclaredEntity

namespace ProgramUnit

variable {resolver : Resolver} {program : ProgramUnit} {declared : DeclaredEntity} {source : Expr}

theorem ofValue_mem_tasks_of_assignment (options : Options) {target : Expr}
    {designator : Designator}
    (hmem : .assignment target source ∈ program.statements.map Located.value)
    (htarget : target.designator? = some designator)
    (hfound : resolver.find designator = some declared) :
    .ofValue (if designator.isSubscripted then (declared.expectedType options).element
        else declared.expectedType options) source ∈ program.tasks ⟨resolver, options⟩ := by
  obtain ⟨located, hlocated, hvalue⟩ := List.mem_map.mp hmem
  have hverdict : (target.verdict ⟨resolver, options⟩ [] none).type =
      if designator.isSubscripted then (declared.expectedType options).element
      else declared.expectedType options := by
    rw [target.verdict_of_designator _ _ _ htarget, Verdict.inScope, if_neg List.not_mem_nil]
    simp only [hfound, Verdict.reference_type]
  refine List.mem_append_right _ (List.mem_flatMap.mpr ⟨located, hlocated, ?_⟩)
  rw [hvalue, ← hverdict, Statement.tasks, htarget]
  exact List.mem_cons_of_mem _ (List.mem_singleton_self _)

/-- The value is held against the declared type of a single element. -/
theorem Stores.mem_tasks (h : program.Stores resolver declared source) (options : Options) :
    .store ⟨declared.declaration.typeSpec.elementType options, source⟩ ∈
      program.tasks ⟨resolver, options⟩ := by
  have hscalar := declared.declaration.typeSpec.elementType_isScalar options
  have hstore : Task.ofValue (declared.declaration.typeSpec.elementType options) source =
      .store ⟨declared.declaration.typeSpec.elementType options, source⟩ := by
    simp [Task.ofValue, Ty.isUnknown_of_isScalar hscalar]
  rw [← hstore]
  cases h with
  | initial hmem hshape hinit =>
      have htask := ofValue_mem_tasks ⟨resolver, options⟩ hmem hinit
      rwa [DeclaredEntity.expectedType_of_scalar options hshape] at htask
  | assigned hmem htarget hfound hshape =>
      have htask := ofValue_mem_tasks_of_assignment options hmem htarget hfound
      rwa [DeclaredEntity.expectedType_of_scalar options hshape,
        Ty.element_of_isScalar hscalar, ite_self] at htask
  | element hmem htarget hfound hsubscripted hshape hsize =>
      have htask := ofValue_mem_tasks_of_assignment options hmem htarget hfound
      rwa [DeclaredEntity.expectedType_of_shape options hshape hsize, if_pos hsubscripted] at htask

end ProgramUnit

/-! ## Whole units -/

/-- What is said about concatenations when one is visited by itself, and in the check of a unit. -/
structure CapacitySpec (ctx : Context) (program : ProgramUnit) (pass : Pass) : Prop where
  visited : ∀ (tree : Concatenation) loops expected start, tree.expr.Unvisited start →
    let run := (Infer.expr ctx loops expected tree.expr).run start
    tree.Measured run.2.types →
      run.2.types.get? tree.expr.id = some run.1 ∧
        ∃ ds, run.2.diagnostics = start.diagnostics ++ ds ∧ tree.TypedSpec run.2.types ds
  checked : ∀ tree : Concatenation, tree.expr ∈ program.postorder → tree.Measured pass.types →
    tree.TypedSpec pass.types pass.diagnostics
  /-- A value is reported if and only if it is longer than its variable, and then once. -/
  sized : ∀ (tree : Concatenation) declared, program.Stores ctx.resolver declared tree.expr →
    tree.Measured pass.types → ∀ value, declared.declaration.typeSpec.HasLength value →
      ∀ n, tree.total? = some n → n < Count.limit →
        about tree.expr.ids (ofKind .mismatch pass.diagnostics) =
          if max 0 value < n then
            [.of tree.expr.span (.mismatch tree.expr.id (.character (some value.toNat))
              (.character (some n)))]
          else []
  /-- A value of unknown length fits every character variable. -/
  unsized : ∀ (tree : Concatenation) declared, program.Stores ctx.resolver declared tree.expr →
    tree.Measured pass.types → declared.declaration.typeSpec.keyword.value = .character →
      tree.LosesLength → about tree.expr.ids (ofKind .mismatch pass.diagnostics) = []

theorem Infer.run_concatenation (ctx : Context) {tree : Concatenation} (loops : List String)
    (expected : Option Ty) {start : Pass} (hstart : tree.expr.Unvisited start) :
    let run := (expr ctx loops expected tree.expr).run start
    tree.Measured run.2.types →
      run.2.types.get? tree.expr.id = some run.1 ∧
        ∃ ds, run.2.diagnostics = start.diagnostics ++ ds ∧ tree.TypedSpec run.2.types ds := by
  intro run hoperands
  have hfresh := tree.expr.fresh_steps hstart.distinct hstart.untyped loops expected
  have hrun : run = ((tree.expr.verdict ctx loops expected).type,
      start.follow ctx (tree.expr.steps loops expected)) :=
    run_expr hstart.distinct hstart.untyped ctx loops expected
  rw [hrun] at hoperands ⊢
  have hrecorded : Recorded ctx _ (tree.expr.steps loops expected) := hfresh.recorded
  exact ⟨hrecorded.get?_self, _, rfl,
    Concatenation.typedSpec hrecorded hfresh.distinct (List.Subset.refl _) hoperands⟩

namespace ProgramUnit

section

variable {resolver : Resolver} {program : ProgramUnit} {tree : Concatenation} (options : Options)
  (distinct : program.ids.Nodup) (hoperands : tree.Measured (program.check resolver options).types)
include distinct hoperands

theorem check_typedSpec (hmem : tree.expr ∈ program.postorder) :
    tree.TypedSpec (program.check resolver options).types
      (program.check resolver options).diagnostics := by
  obtain ⟨loops, expected, hstep⟩ : ∃ loops expected,
      .node loops expected tree.expr ∈ program.steps ⟨resolver, options⟩ := exists_step hmem
  have hsteps : tree.expr.steps loops expected ⊆ program.steps ⟨resolver, options⟩ :=
    program.supported_steps _ _ hstep
  rw [check_diagnostics resolver options distinct]
  exact Concatenation.typedSpec (check_recorded resolver options distinct)
    (distinct_steps _ distinct) hsteps hoperands

/-- Whether a stored concatenation is reported depends on the length that the rules give to it. -/
theorem about_concatenation {declared : DeclaredEntity}
    (hstores : program.Stores resolver declared tree.expr) :
    about tree.expr.ids (ofKind .mismatch (program.check resolver options).diagnostics) =
      if (declared.declaration.typeSpec.elementType options).accepts (.character tree.length?) then
        []
      else [.of tree.expr.span (.mismatch tree.expr.id
        (declared.declaration.typeSpec.elementType options) (.character tree.length?))] := by
  let ctx : Context := ⟨resolver, options⟩
  let stored : StoredValue := ⟨declared.declaration.typeSpec.elementType options, tree.expr⟩
  have hmem : .store stored ∈ program.tasks ctx := hstores.mem_tasks options
  have hrecorded := check_recorded resolver options distinct
  have hdistinct := distinct_steps ctx distinct
  have hdiagnostics := check_diagnostics resolver options distinct
  rw [program.steps_eq_tasks] at hrecorded hdistinct hdiagnostics
  have hsource : Recorded ctx (program.check resolver options).types
      (tree.expr.steps [] (some stored.expected)) := by
    refine hrecorded.mono fun step hstep => ?_
    exact List.mem_flatMap.mpr ⟨_, hmem, List.mem_append_left _ hstep⟩
  have hinferred : stored.inferred ctx = .character tree.length? :=
    Concatenation.verdict_type hsource hoperands
  have hscalar : (stored.inferred ctx).isScalar = true := hinferred ▸ rfl
  have hmismatches := stored.mismatches_of_isScalar hscalar
  rw [hinferred] at hmismatches
  rw [hdiagnostics, ← hmismatches]
  exact StoredValue.about_mismatches hdistinct hmem ctx

end

/-- The lengths of concatenations are exact or lost, and only exact ones are held against the
declared length. -/
theorem check_capacitySpec (resolver : Resolver) (options : Options) {program : ProgramUnit}
    (distinct : program.ids.Nodup) :
    CapacitySpec ⟨resolver, options⟩ program (program.check resolver options) where
  visited tree loops expected start hstart := Infer.run_concatenation _ loops expected hstart
  checked tree hmem hoperands := check_typedSpec options distinct hoperands hmem
  sized := by
    intro tree declared hstores hoperands value hlength n htotal hlimit
    rw [about_concatenation options distinct hoperands hstores, hlength.elementType,
      Concatenation.length?_of_total? htotal hlimit]
    by_cases hlong : max 0 value < n
    · have hrefused : ¬n ≤ value.toNat := by omega
      simp [Ty.accepts, hlong, hrefused]
    · have hfits : n ≤ value.toNat := by omega
      simp [Ty.accepts, hlong, hfits]
  unsized := by
    intro tree declared hstores hoperands hkeyword hlost
    obtain ⟨capacity, htype⟩ := TypeSpec.elementType_of_character hkeyword options
    rw [about_concatenation options distinct hoperands hstores, htype,
      Concatenation.length?_of_losesLength hlost]
    cases capacity <;> rfl

def textOperand (index : Nat) (content : String) : Concatenation :=
  .single ⟨.literal (.ofIndex index) (.character content), some content.length⟩

/-- The initial value `'ab' // ('c' // 'd')`. -/
def initialText : Concatenation :=
  .join (.ofIndex 5) (textOperand 1 "ab")
    (.paren (.ofIndex 4) (.join (.ofIndex 3) (textOperand 0 "c") (textOperand 2 "d")))

/-- The assigned value `t // 'x'`, where the length of `t` is not known. -/
def assignedText : Concatenation :=
  .join (.ofIndex 10) (.single ⟨.reference (.ofIndex 8) ⟨.ofWidth 0 1, "t"⟩, none⟩)
    (textOperand 9 "x")

/-- The unit `character(3) :: s = 'ab' // ('c' // 'd'); character(k) :: t; s = t // 'x'`. -/
def joinedText : ProgramUnit :=
  let name (text : String) : Located String := ⟨.ofWidth 0 1, text⟩
  let declaration (length : Expr) (entity : Entity) : Located Declaration :=
    ⟨.ofWidth 0 9, ⟨⟨⟨.ofWidth 0 9, .character⟩, none, some length⟩, [], [entity]⟩⟩
  ⟨.mainProgram, name "p",
    [declaration (.literal (.ofIndex 6) (.integer "3")) ⟨name "s", none, some initialText.expr⟩,
      declaration (.reference (.ofIndex 7) (name "k")) ⟨name "t", none, none⟩],
    [⟨.ofWidth 0 9, .assignment (.reference (.ofIndex 11) (name "s")) assignedText.expr⟩]⟩

/-- The four characters do not fit into `s`, and it is not known how many the assigned ones are. -/
theorem joinedText_capacitySpec :
    let resolver : Resolver := ⟨fun designator =>
      joinedText.declared.find? fun declared => declared.name = designator.name.value, fun _ => []⟩
    let pass := joinedText.check resolver {}
    joinedText.ids.Nodup ∧ CapacitySpec ⟨resolver, {}⟩ joinedText pass ∧
      about initialText.expr.ids (ofKind .mismatch pass.diagnostics) =
        [.of (.ofWidth 5 1) (.mismatch ⟨5⟩ (.character (some 3)) (.character (some 4)))] ∧
      about assignedText.expr.ids (ofKind .mismatch pass.diagnostics) = [] := by
  intro resolver pass
  have distinct : joinedText.ids.Nodup := by decide
  have hspec : CapacitySpec ⟨resolver, {}⟩ joinedText pass := check_capacitySpec _ _ distinct
  have hinitial : joinedText.Stores resolver joinedText.declared[0] initialText.expr :=
    .initial List.mem_cons_self rfl rfl
  have hassigned : joinedText.Stores resolver joinedText.declared[0] assignedText.expr :=
    .assigned List.mem_cons_self rfl rfl rfl
  have hinitialOperands : initialText.Measured pass.types :=
    List.forall_mem_cons.mpr ⟨.literal _ _, List.forall_mem_cons.mpr ⟨.literal _ _,
      List.forall_mem_singleton.mpr (.literal _ _)⟩⟩
  have hassignedOperands : assignedText.Measured pass.types :=
    List.forall_mem_cons.mpr ⟨.recorded (by decide), List.forall_mem_singleton.mpr (.literal _ _)⟩
  have hlength : joinedText.declared[0].declaration.typeSpec.HasLength 3 :=
    ⟨rfl, _, rfl, by decide⟩
  refine ⟨distinct, hspec, ?_, ?_⟩
  · exact hspec.sized initialText _ hinitial hinitialOperands 3 hlength 4 rfl (by decide)
  · exact hspec.unsized assignedText _ hassigned hassignedOperands rfl
      (.inl ⟨_, List.mem_cons_self, rfl⟩)

end ProgramUnit

end FortranTyping

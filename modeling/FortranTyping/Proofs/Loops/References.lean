import FortranTyping.Proofs.Loops.Scopes
import FortranTyping.Proofs.Reports.Findings
import FortranTyping.Proofs.Ty.WellFormed

/-!
# Bound and free references

A reference to a loop variable is an integer in the scope of its loop, whatever declarations there
are. All other references are free, and a check asks for the declarations of these alone: it has the
same outcome with any two resolvers that give these the same types.
-/

namespace FortranTyping

/-! ## What is found -/

theorem head?_toList_ofList (c : Char) (cs : List Char) :
    (String.ofList (c :: cs)).toList.head? = some c :=
  congrArg List.head? String.toList_ofList

theorem head?_toList_append {s : String} (t : String) {c : Char} (h : s.toList.head? = some c) :
    (s ++ t).toList.head? = some c := by
  rw [String.toList_append, List.head?_append, h, Option.some_or]

namespace SkipReason

theorem head?_text (reason : SkipReason) : ∃ c, reason.text.toList.head? = some c ∧ c ≠ 'u' := by
  cases reason with
  | nonLiteralBound => exact ⟨'a', head?_toList_ofList _ _, by decide⟩
  | rank dimensions =>
      refine ⟨'a', ?_, by decide⟩
      exact head?_toList_append _ (head?_toList_append _ (head?_toList_ofList _ _))
  | deferredShape => exact ⟨'d', head?_toList_ofList _ _, by decide⟩
  | nonLiteralLoopBound => exact ⟨'i', head?_toList_ofList _ _, by decide⟩
  | zeroStride => exact ⟨'i', head?_toList_ofList _ _, by decide⟩

/-- No reason to leave a declaration unchecked reads as if it were missing. The first character
tells them apart. -/
theorem text_ne (reason : SkipReason) (name : String) :
    s!"unresolved variable `{name}`" ≠ reason.text := by
  intro h
  obtain ⟨c, hfirst, hc⟩ := reason.head?_text
  have hunresolved : s!"unresolved variable `{name}`".toList.head? = some 'u' :=
    head?_toList_append _ (head?_toList_append _ (head?_toList_ofList _ _))
  rw [h, hfirst, Option.some.injEq] at hunresolved
  exact hc hunresolved

end SkipReason

namespace Verdict

variable {options : Options} {node : Node} {designator : Designator}

theorem reference_none_type_ne (declared : DeclaredEntity) :
    (reference options node designator none).type ≠
      (reference options node designator (some declared)).type := by
  intro h
  cases htype : declared.type options with
  | error reason =>
      simp only [reference, htype, clean, Ty.unknown.injEq, Option.some.injEq] at h
      exact reason.text_ne _ h
  | ok type =>
      obtain ⟨htype', helement⟩ := declared.type_known htype
      have hknown :
          (if designator.isSubscripted then type.element else type).isUnknown = false := by
        split
        · exact helement
        · exact htype'
      simp only [reference, htype, clean] at h
      rw [← h] at hknown
      cases hknown

/-- The type of a reference tells what there is to report about it. -/
theorem reference_eq_of_type {found found' : Option DeclaredEntity}
    (h : (reference options node designator found).type =
      (reference options node designator found').type) :
    reference options node designator found = reference options node designator found' := by
  have hreports (declared : DeclaredEntity) :
      (reference options node designator (some declared)).reports = [] := by
    simp only [reference]
    cases declared.type options <;> rfl
  cases found with
  | none =>
      cases found' with
      | none => rfl
      | some declared => exact absurd h (reference_none_type_ne declared)
  | some declared =>
      cases found' with
      | none => exact absurd h.symm (reference_none_type_ne declared)
      | some declared' =>
          rw [Verdict.mk.injEq]
          exact ⟨h, (hreports declared).trans (hreports declared').symm⟩

end Verdict

/-! ## Resolvers that agree -/

/-- What the two resolvers find gives each reference that is looked up the same type. -/
def Agree (options : Options) (resolver resolver' : Resolver) (steps : List Step) : Prop :=
  ∀ loops expected e, .node loops expected e ∈ steps → ∀ designator,
    e.designator? = some designator → foldCase designator.name.value ∉ loops →
      (Verdict.reference options e.node designator (resolver.find designator)).type =
        (Verdict.reference options e.node designator (resolver'.find designator)).type

namespace Agree

variable {options : Options} {resolver resolver' : Resolver} {steps rest : List Step}

theorem mono (h : Agree options resolver resolver' steps) (hrest : rest ⊆ steps) :
    Agree options resolver resolver' rest := by
  intro loops expected e hmem
  exact h loops expected e (hrest hmem)

theorem left (h : Agree options resolver resolver' (steps ++ rest)) :
    Agree options resolver resolver' steps :=
  h.mono (List.subset_append_left _ _)

theorem right (h : Agree options resolver resolver' (steps ++ rest)) :
    Agree options resolver resolver' rest :=
  h.mono (List.subset_append_right _ _)

/-- The rule of a reference. -/
theorem inScope_congr (h : Agree options resolver resolver' steps) {loops : List String}
    {expected : Option Ty} {e : Expr} (hmem : .node loops expected e ∈ steps)
    {designator : Designator} (hdesignator : e.designator? = some designator) :
    Verdict.inScope ⟨resolver, options⟩ loops e.node designator =
      Verdict.inScope ⟨resolver', options⟩ loops e.node designator := by
  unfold Verdict.inScope
  by_cases hbound : foldCase designator.name.value ∈ loops
  · rw [if_pos hbound, if_pos hbound]
  · rw [if_neg hbound, if_neg hbound]
    exact Verdict.reference_eq_of_type (h loops expected e hmem designator hdesignator hbound)

end Agree

section

variable {resolver resolver' : Resolver} {options : Options}

mutual

theorem Expr.verdict_congr (loops : List String) (expected : Option Ty) :
    (e : Expr) → Agree options resolver resolver' (e.steps loops expected) →
      e.verdict ⟨resolver, options⟩ loops expected = e.verdict ⟨resolver', options⟩ loops expected
  | .literal _ _, _ => rfl
  | .unary _ _ operand, h => by
      simp only [Expr.verdict, operand.verdict_congr loops none h.left]
  | .binary _ _ left right, h => by
      simp only [Expr.verdict, left.verdict_congr loops none h.left.left,
        right.verdict_congr loops none h.left.right]
  | .paren _ inner, h => by simp only [Expr.verdict, inner.verdict_congr loops expected h.left]
  | .reference _ _, h => h.inScope_congr (Expr.node_mem_steps ..) rfl
  | .element _ _ _, h => h.inScope_congr (Expr.node_mem_steps ..) rfl
  | .array node entries, h => by
      simp only [Expr.verdict, contributions_congr loops node.id entries h.left]
termination_by structural e => e

theorem Entry.verdict_congr (loops : List String) (owner : NodeId) :
    (entry : Entry) → Agree options resolver resolver' (entry.steps loops owner) →
      entry.verdict ⟨resolver, options⟩ loops owner = entry.verdict ⟨resolver', options⟩ loops owner
  | .plain value, h => by simp only [Entry.verdict, value.verdict_congr loops none h]
  | .impliedDo _ body _ start stop stride, h => by
      have hcontrols := h.left
      simp only [Entry.verdict, contributions_congr _ owner body hcontrols.left.left.left,
        start.verdict_congr loops none hcontrols.left.left.right.left,
        stop.verdict_congr loops none hcontrols.left.right.left,
        strideFits_congr loops stride hcontrols.right]
termination_by structural entry => entry

theorem strideFits_congr (loops : List String) :
    (stride : Option Expr) → Agree options resolver resolver' (strideSteps loops stride) →
      strideFits ⟨resolver, options⟩ loops stride = strideFits ⟨resolver', options⟩ loops stride
  | none, _ => rfl
  | some stride, h => by simp only [strideFits, stride.verdict_congr loops none h.left]
termination_by structural stride => stride

theorem contributions_congr (loops : List String) (owner : NodeId) :
    (entries : List Entry) → Agree options resolver resolver' (entrySteps loops owner entries) →
      contributions ⟨resolver, options⟩ loops owner entries =
        contributions ⟨resolver', options⟩ loops owner entries
  | [], _ => rfl
  | entry :: rest, h => by
      simp only [contributions, entry.verdict_congr loops owner h.left,
        contributions_congr loops owner rest h.right]
termination_by structural entries => entries

end

variable {steps : List Step}

namespace Step

theorem typing?_congr {step : Step} (h : Agree options resolver resolver' step.support) :
    step.typing? ⟨resolver, options⟩ = step.typing? ⟨resolver', options⟩ := by
  cases step with
  | node loops expected e => simp only [typing?, e.verdict_congr loops expected h]
  | _ => rfl

theorem reports_congr {step : Step} (h : Agree options resolver resolver' step.support) :
    step.reports ⟨resolver, options⟩ = step.reports ⟨resolver', options⟩ := by
  cases step with
  | node loops expected e => simp only [reports, e.verdict_congr loops expected h]
  | subscript loops e => simp only [reports, e.verdict_congr loops none h]
  | loopControl loops e => simp only [reports, e.verdict_congr loops none h]
  | range loops owner entry => simp only [reports, entry.verdict_congr loops owner h]
  | entity declared => rfl
  | target e => rfl
  | value expected source =>
      simp only [reports, source.verdict_congr [] (some expected) h]

theorem typings_congr (hsupported : Supported steps) (h : Agree options resolver resolver' steps) :
    typings ⟨resolver, options⟩ steps = typings ⟨resolver', options⟩ steps :=
  List.filterMap_congr fun step hstep => typing?_congr (h.mono (hsupported step hstep))

theorem diagnostics_congr (hsupported : Supported steps)
    (h : Agree options resolver resolver' steps) :
    diagnostics ⟨resolver, options⟩ steps = diagnostics ⟨resolver', options⟩ steps :=
  List.flatMap_congr fun step hstep => reports_congr (h.mono (hsupported step hstep))

end Step

/-- The steps depend on the declarations only where a target is looked up. -/
theorem Statement.steps_congr {statement : Statement}
    (h : Agree options resolver resolver' (statement.steps ⟨resolver, options⟩)) :
    statement.steps ⟨resolver, options⟩ = statement.steps ⟨resolver', options⟩ := by
  cases statement with
  | other => rfl
  | assignment target source =>
      simp only [steps, target.verdict_congr [] none h.left.left]

theorem ProgramUnit.steps_congr {program : ProgramUnit}
    (h : Agree options resolver resolver' (program.steps ⟨resolver, options⟩)) :
    program.steps ⟨resolver, options⟩ = program.steps ⟨resolver', options⟩ := by
  unfold ProgramUnit.steps at h ⊢
  congr 1
  refine List.flatMap_congr fun located hmem => Statement.steps_congr (h.right.mono ?_)
  exact fun step hstep => List.mem_flatMap.mpr ⟨located, hmem, hstep⟩

end

/-! ## References by their scope -/

/-- The rule of an expression that is a reference. -/
theorem Expr.verdict_of_designator (ctx : Context) (loops : List String) (expected : Option Ty)
    {e : Expr} {designator : Designator} (h : e.designator? = some designator) :
    e.verdict ctx loops expected = .inScope ctx loops e.node designator := by
  cases e with
  | reference node name =>
      cases h
      rfl
  | element node name subscripts =>
      cases h
      rfl
  | _ => cases h

theorem Expr.kinds_of_not_designator (expected : Option Ty) {e : Expr} (h : e.designator? = none) :
    .unresolved ∉ e.kinds expected := by
  cases e with
  | array node entries => cases expected <;> simp [kinds]
  | reference node name => cases h
  | element node name subscripts => cases h
  | _ => simp [kinds]

/-- The report that a free reference without a declaration calls for. -/
def unresolvedFaults (resolver : Resolver) (scopes : List LoopScope) (e : Expr) :
    List Diagnostic :=
  match e.designator? with
  | some designator =>
      if Binds scopes e.id designator.name.value ∨ (resolver.find designator).isSome then []
      else [.of designator.name.span (.unresolved e.id designator.name.value)]
  | none => []

section

variable {ctx : Context} {scopes : List LoopScope} {steps : List Step}
  (hscoped : Scoped [] scopes steps)
include hscoped

theorem Scoped.mem_loops_iff {loops : List String} {expected : Option Ty} {e : Expr}
    (hstep : .node loops expected e ∈ steps) (name : String) :
    foldCase name ∈ loops ↔ Binds scopes e.id name := by
  simpa using hscoped.inScope_iff loops expected e hstep name

theorem inScope_reports (hunresolved : ctx.options.reportUnresolved = true) {loops : List String}
    {expected : Option Ty} {e : Expr} (hstep : .node loops expected e ∈ steps)
    {designator : Designator} (hdesignator : e.designator? = some designator) :
    (Verdict.inScope ctx loops e.node designator).reports =
      unresolvedFaults ctx.resolver scopes e := by
  have hbound := hscoped.mem_loops_iff hstep designator.name.value
  simp only [unresolvedFaults, hdesignator, ← hbound, Verdict.inScope]
  by_cases hmem : foldCase designator.name.value ∈ loops
  · simp [hmem, Verdict.clean]
  · cases hfind : ctx.resolver.find designator with
    | none =>
        simp only [hmem, Verdict.reference, hunresolved, ite_true, ite_false, Option.isSome_none,
          Bool.false_eq_true, or_self]
        rfl
    | some declared =>
        cases htype : declared.type ctx.options <;>
          simp [hmem, Verdict.reference, htype, Verdict.clean]

theorem ofKind_unresolved (hunresolved : ctx.options.reportUnresolved = true) {step : Step}
    (hstep : step ∈ steps) :
    ofKind .unresolved (step.reports ctx) =
      step.typed?.elim [] (unresolvedFaults ctx.resolver scopes) := by
  cases step with
  | node loops expected e =>
      cases hdesignator : e.designator? with
      | none =>
          rw [Step.ofKind_reports_eq_nil (e.kinds_of_not_designator expected hdesignator)]
          simp [Step.typed?, unresolvedFaults, hdesignator]
      | some designator =>
          simp only [Step.reports, Step.typed?, Option.elim_some,
            e.verdict_of_designator ctx loops expected hdesignator,
            ← inScope_reports hscoped hunresolved hstep hdesignator]
          exact ofKind_eq_self fun d hd => by rw [Verdict.mem_inScope_reports hd]; rfl
  | _ => exact Step.ofKind_reports_eq_nil (by simp [Step.kinds])

end

/-! ## Whole units -/

/-- A reference in the unit that no loop binds. -/
def ProgramUnit.Free (program : ProgramUnit) (e : Expr) (designator : Designator) : Prop :=
  e ∈ program.postorder ∧ e.designator? = some designator ∧
    ¬Binds program.loops e.id designator.name.value

/-- What the two resolvers find gives each free reference of the unit the same type. -/
def ProgramUnit.TypedAlike (options : Options) (program : ProgramUnit)
    (resolver resolver' : Resolver) : Prop :=
  ∀ e designator, program.Free e designator →
    (Verdict.reference options e.node designator (resolver.find designator)).type =
      (Verdict.reference options e.node designator (resolver'.find designator)).type

/-- How checks of a unit treat its references. -/
structure ScopeSpec (options : Options) (program : ProgramUnit) : Prop where
  /-- A bound reference is an integer, whatever is declared. -/
  bound : ∀ resolver, ∀ e ∈ program.postorder, ∀ designator, e.designator? = some designator →
    Binds program.loops e.id designator.name.value →
      (program.check resolver options).types.get? e.id = some .integer
  /-- Only the declarations of free references matter. -/
  free : ∀ resolver resolver' : Resolver,
    (∀ e designator, program.Free e designator →
      resolver.find designator = resolver'.find designator) →
        (program.check resolver options).types = (program.check resolver' options).types ∧
          (program.check resolver options).diagnostics =
            (program.check resolver' options).diagnostics
  /-- The free references without a declaration are reported in the order in which they are visited,
  and nothing else is reported as unresolved. -/
  unresolved : options.reportUnresolved = true → ∀ resolver,
    ofKind .unresolved (program.check resolver options).diagnostics =
      program.postorder.flatMap (unresolvedFaults resolver program.loops)

namespace ProgramUnit

variable {program : ProgramUnit}

section

variable {resolver resolver' : Resolver} {options : Options} (distinct : program.ids.Nodup)
  (h : program.TypedAlike options resolver resolver')
include distinct h

theorem agree_steps (ctx : Context) : Agree options resolver resolver' (program.steps ctx) := by
  intro loops expected e hstep designator hdesignator hfree
  have hmem : e ∈ program.postorder := by
    rw [← program.typed_steps ctx]
    exact List.mem_filterMap.mpr ⟨_, hstep, rfl⟩
  rw [(program.scoped_steps ctx distinct).mem_loops_iff hstep] at hfree
  exact h e designator ⟨hmem, hdesignator, hfree⟩

/-- A check cannot tell such resolvers apart. -/
theorem check_congr :
    (program.check resolver options).types = (program.check resolver' options).types ∧
      (program.check resolver options).diagnostics =
        (program.check resolver' options).diagnostics := by
  -- the steps themselves are the same, since the types of the targets are
  have hagree := agree_steps distinct h ⟨resolver, options⟩
  have hsupported := program.supported_steps ⟨resolver, options⟩
  have htypes : (program.check resolver options).types.entries =
      (program.check resolver' options).types.entries := by
    rw [check_entries resolver options distinct, check_entries resolver' options distinct,
      ← steps_congr hagree, Step.typings_congr hsupported hagree]
  refine ⟨congrArg TypeMap.mk htypes, ?_⟩
  rw [check_diagnostics resolver options distinct, check_diagnostics resolver' options distinct,
    ← steps_congr hagree, Step.diagnostics_congr hsupported hagree]

end

/-- A free reference has the type of what the resolver finds for it. -/
theorem check_get?_of_free (resolver : Resolver) (options : Options)
    (distinct : program.ids.Nodup) {e : Expr} {designator : Designator}
    (hfree : program.Free e designator) :
    (program.check resolver options).types.get? e.id =
      some (Verdict.reference options e.node designator (resolver.find designator)).type := by
  obtain ⟨hmem, hdesignator, hunbound⟩ := hfree
  obtain ⟨loops, expected, hstep⟩ :
      ∃ loops expected, .node loops expected e ∈ program.steps ⟨resolver, options⟩ :=
    exists_step hmem
  have hloops := (program.scoped_steps ⟨resolver, options⟩ distinct).mem_loops_iff hstep
    designator.name.value
  rw [check_recorded resolver options distinct loops expected e hstep,
    e.verdict_of_designator _ loops expected hdesignator, Verdict.inScope,
    if_neg (hloops.not.mpr hunbound)]

/-- Bound references are integers, and the free ones are all that a check looks up. -/
theorem check_scopeSpec (options : Options) (distinct : program.ids.Nodup) :
    ScopeSpec options program := by
  refine ⟨?_, ?_, ?_⟩
  · intro resolver e hmem designator hdesignator hbinds
    have hstep : ∃ loops expected, .node loops expected e ∈ program.steps ⟨resolver, options⟩ :=
      exists_step hmem
    obtain ⟨loops, expected, hstep⟩ := hstep
    have hbound := (program.scoped_steps ⟨resolver, options⟩ distinct).mem_loops_iff hstep
      designator.name.value
    rw [check_recorded resolver options distinct loops expected e hstep,
      e.verdict_of_designator _ loops expected hdesignator, Verdict.inScope,
      if_pos (hbound.mpr hbinds)]
    rfl
  · intro resolver resolver' hfind
    refine check_congr distinct fun e designator hfree => ?_
    rw [hfind e designator hfree]
  · intro hunresolved resolver
    rw [check_diagnostics resolver options distinct, ← program.typed_steps ⟨resolver, options⟩]
    exact Step.ofKind_diagnostics Step.typed? _ fun step hstep =>
      ofKind_unresolved (program.scoped_steps _ distinct) hunresolved hstep

/-- The unit `x = [((I + a(i), j = i, n), i = 1, i)]`. The last `i` is free, and so are `n`, `a` and
`x`; the three others are bound by the outer loop. -/
def nestedLoops : ProgramUnit :=
  let name (text : String) : Located String := ⟨.ofWidth 0 1, text⟩
  let ref (index : Nat) (text : String) : Expr := .reference (.ofIndex index) (name text)
  let sum : Expr := .binary (.ofIndex 4) .add (ref 1 "I")
    (.element (.ofIndex 3) (name "a") [ref 2 "i"])
  let inner : Entry := .impliedDo (.ofWidth 0 2) [.plain sum] (name "j") (ref 5 "i")
    (ref 6 "n") none
  let outer : Entry := .impliedDo (.ofWidth 0 3) [inner] (name "i")
    (.literal (.ofIndex 7) (.integer "1")) (ref 8 "i") none
  ⟨.mainProgram, name "p", [], [⟨.ofWidth 0 9, .assignment (ref 0 "x")
    (.array (.ofIndex 9) [outer])⟩]⟩

theorem nestedLoops_scopeSpec :
    nestedLoops.ids.Nodup ∧ ScopeSpec { reportUnresolved := true } nestedLoops := by
  have distinct : nestedLoops.ids.Nodup := by decide
  exact ⟨distinct, check_scopeSpec _ distinct⟩

end ProgramUnit

end FortranTyping

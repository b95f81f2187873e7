import FortranTyping.Proofs.Walk.Tasks

/-!
# Scopes of loop variables

An implied-do binds its variable in its body, at whatever depth, and not in its own controls. The
names in whose scope a node is typed are those that the loops around it bind there.
-/

namespace FortranTyping

/-! ## Loops and what they bind -/

/-- An implied-do: its variable and the nodes of its body. -/
structure LoopScope where
  loopVariable : String
  body : List NodeId

mutual

/-- The loops of an entry, without those of the constructors within it. -/
def Entry.loops : Entry → List LoopScope
  | .plain _ => []
  | .impliedDo _ body loopVariable _ _ _ =>
      ⟨loopVariable.value, (entryPostorder body).map Expr.id⟩ :: entryLoops body
termination_by structural entry => entry

def entryLoops : List Entry → List LoopScope
  | [] => []
  | entry :: rest => entry.loops ++ entryLoops rest
termination_by structural entries => entries

end

def Expr.loops : Expr → List LoopScope
  | .array _ entries => entryLoops entries
  | _ => []

/-- The loops of all constructors in a unit. -/
def ProgramUnit.loops (program : ProgramUnit) : List LoopScope :=
  program.postorder.flatMap Expr.loops

/-- One of the loops binds the name at the node `id`. -/
def Binds (scopes : List LoopScope) (id : NodeId) (name : String) : Prop :=
  ∃ scope ∈ scopes, id ∈ scope.body ∧ SameName scope.loopVariable name

instance (scopes : List LoopScope) (id : NodeId) (name : String) :
    Decidable (Binds scopes id name) :=
  inferInstanceAs (Decidable (∃ scope ∈ scopes, _))

namespace Binds

variable {scopes scopes' : List LoopScope} {id : NodeId} {name : String}

theorem append_iff : Binds (scopes ++ scopes') id name ↔
    Binds scopes id name ∨ Binds scopes' id name := by
  simp only [Binds, List.mem_append, or_and_right, exists_or]

theorem cons_iff {scope : LoopScope} : Binds (scope :: scopes) id name ↔
    (id ∈ scope.body ∧ SameName scope.loopVariable name) ∨ Binds scopes id name := by
  simp only [Binds, List.exists_mem_cons_iff]

theorem mono (h : Binds scopes id name) (hscopes : scopes ⊆ scopes') : Binds scopes' id name := by
  obtain ⟨scope, hmem, hbinds⟩ := h
  exact ⟨scope, hscopes hmem, hbinds⟩

end Binds

/-! ## Names in scope -/

/-- The steps stand within loops over the names `loops` and contain the loops `scopes`. A name is in
scope at a node if and only if it is one of the former or bound there by one of the latter. -/
structure Scoped (loops : List String) (scopes : List LoopScope) (steps : List Step) : Prop where
  inside : ∀ scope ∈ scopes, scope.body ⊆ typedIds steps
  inScope_iff : ∀ loops' expected e, .node loops' expected e ∈ steps → ∀ name,
    foldCase name ∈ loops' ↔ foldCase name ∈ loops ∨ Binds scopes e.id name

namespace Scoped

variable {loops : List String} {scopes scopes' : List LoopScope} {steps rest : List Step}

theorem nil : Scoped loops [] [] :=
  ⟨fun _ h => absurd h List.not_mem_nil, fun _ _ _ h => absurd h List.not_mem_nil⟩

/-- A step that does not type a node. -/
theorem untyped {step : Step} (h : step.typed? = none) : Scoped loops [] [step] := by
  refine ⟨fun _ h => absurd h List.not_mem_nil, ?_⟩
  intro loops' expected e hmem
  cases List.mem_singleton.mp hmem
  cases h

theorem leaf (expected : Option Ty) (e : Expr) : Scoped loops [] [.node loops expected e] := by
  refine ⟨fun _ h => absurd h List.not_mem_nil, ?_⟩
  intro loops' expected' e' hmem name
  cases List.mem_singleton.mp hmem
  simp [Binds]

/-- No loop binds a name outside the steps in which its body lies. -/
theorem not_binds (h : Scoped loops scopes steps) {id : NodeId} (hid : id ∉ typedIds steps)
    (name : String) : ¬Binds scopes id name := by
  rintro ⟨scope, hscope, hbody, -⟩
  exact hid (h.inside scope hscope hbody)

theorem append (h : Scoped loops scopes steps) (hrest : Scoped loops scopes' rest)
    (distinct : Distinct (steps ++ rest)) : Scoped loops (scopes ++ scopes') (steps ++ rest) := by
  constructor
  · intro scope hscope
    rw [typedIds_append]
    rcases List.mem_append.mp hscope with hscope | hscope
    · exact List.subset_append_of_subset_left _ (h.inside scope hscope)
    · exact List.subset_append_of_subset_right _ (hrest.inside scope hscope)
  · intro loops' expected e hmem name
    rw [Binds.append_iff]
    -- with distinct nodes, a node of one half lies in no body of the other
    rcases List.mem_append.mp hmem with hmem | hmem
    · have hnone := hrest.not_binds (distinct.disjoint (mem_typedIds hmem)) name
      rw [h.inScope_iff loops' expected e hmem name, or_iff_left hnone]
    · have hnone := h.not_binds (fun hid => distinct.disjoint hid (mem_typedIds hmem)) name
      rw [hrest.inScope_iff loops' expected e hmem name, or_iff_right hnone]

/-- The body of a loop, seen from outside. -/
theorem bind {name : String} (h : Scoped (foldCase name :: loops) scopes steps) :
    Scoped loops (⟨name, typedIds steps⟩ :: scopes) steps := by
  constructor
  · intro scope hscope
    rcases List.mem_cons.mp hscope with rfl | hscope
    · exact List.Subset.refl _
    · exact h.inside scope hscope
  · intro loops' expected e hmem name'
    have hbody : e.id ∈ typedIds steps := mem_typedIds hmem
    rw [h.inScope_iff loops' expected e hmem name', List.mem_cons, Binds.cons_iff, SameName,
      eq_comm (a := foldCase name')]
    tauto

theorem congr (h : Scoped loops scopes steps)
    (hscopes : ∀ scope, scope ∈ scopes' ↔ scope ∈ scopes) : Scoped loops scopes' steps := by
  refine ⟨fun scope hscope => h.inside scope ((hscopes scope).mp hscope), ?_⟩
  intro loops' expected e hmem name
  have hbinds : Binds scopes' e.id name ↔ Binds scopes e.id name :=
    ⟨fun hb => hb.mono fun scope => (hscopes scope).mp,
      fun hb => hb.mono fun scope => (hscopes scope).mpr⟩
  rw [h.inScope_iff loops' expected e hmem name, hbinds]

end Scoped

/-! ## Loops of expressions -/

/-- The loops of entries and of all constructors within them. -/
def loopsIn (entries : List Entry) : List LoopScope :=
  (entryPostorder entries).flatMap Expr.loops ++ entryLoops entries

/-- An expression adds its own loops to those of its parts. -/
theorem Scoped.node {loops : List String} {scopes : List LoopScope} {steps : List Step}
    {expected : Option Ty} {e : Expr} (h : Scoped loops scopes steps)
    (hsteps : e.steps loops expected = steps ++ [.node loops expected e])
    (distinct : Distinct (e.steps loops expected))
    (hscopes : e.postorder.flatMap Expr.loops = scopes) :
    Scoped loops (e.postorder.flatMap Expr.loops) (e.steps loops expected) := by
  rw [hsteps] at distinct ⊢
  rw [hscopes, ← List.append_nil scopes]
  exact h.append (.leaf expected e) distinct

mutual

theorem Expr.scoped_steps (loops : List String) (expected : Option Ty) :
    (e : Expr) → Distinct (e.steps loops expected) →
      Scoped loops (e.postorder.flatMap Expr.loops) (e.steps loops expected)
  | .literal _ _, distinct => Scoped.nil.node rfl distinct rfl
  | .reference _ _, distinct => Scoped.nil.node rfl distinct rfl
  | .unary _ _ operand, distinct =>
      (operand.scoped_steps loops none distinct.left).node rfl distinct
        (by simp [Expr.postorder, Expr.loops])
  | .binary _ _ left right, distinct =>
      ((left.scoped_steps loops none distinct.left.left).append
        (right.scoped_steps loops none distinct.left.right) distinct.left).node rfl distinct
          (by simp [Expr.postorder, Expr.loops])
  | .paren _ inner, distinct =>
      (inner.scoped_steps loops expected distinct.left).node rfl distinct
        (by simp [Expr.postorder, Expr.loops])
  | .element _ _ subscripts, distinct =>
      (scoped_subscriptSteps loops subscripts distinct.left).node rfl distinct
        (by simp [Expr.postorder, Expr.loops])
  | .array node entries, distinct =>
      (scoped_entrySteps loops node.id entries distinct.left).node rfl distinct
        (by simp [Expr.postorder, Expr.loops, loopsIn])
termination_by structural e => e

theorem scoped_subscriptSteps (loops : List String) :
    (subscripts : List Expr) → Distinct (subscriptSteps loops subscripts) →
      Scoped loops ((subscriptPostorder subscripts).flatMap Expr.loops)
        (subscriptSteps loops subscripts)
  | [], _ => .nil
  | e :: rest, distinct => by
      have he := (e.scoped_steps loops none distinct.left.left).append (.untyped rfl) distinct.left
      have hrest := scoped_subscriptSteps loops rest distinct.right
      simpa [subscriptSteps, subscriptPostorder] using he.append hrest distinct
termination_by structural subscripts => subscripts

theorem Entry.scoped_steps (loops : List String) (owner : NodeId) :
    (entry : Entry) → Distinct (entry.steps loops owner) →
      Scoped loops (entry.postorder.flatMap Expr.loops ++ entry.loops) (entry.steps loops owner)
  | .plain value, distinct => by
      simpa [Entry.steps, Entry.postorder, Entry.loops] using
        value.scoped_steps loops none distinct
  | .impliedDo _ body loopVariable start stop stride, distinct => by
      -- the variable is bound over the steps of the body alone
      have hcontrols := distinct.left
      have hbody := (scoped_entrySteps _ owner body hcontrols.left.left.left).bind
      have hstart := (start.scoped_steps loops none hcontrols.left.left.right.left).append
        (.untyped rfl) hcontrols.left.left.right
      have hstop := (stop.scoped_steps loops none hcontrols.left.right.left).append
        (.untyped rfl) hcontrols.left.right
      have hstride := scoped_strideSteps loops stride hcontrols.right
      have hall := (((hbody.append hstart hcontrols.left.left).append hstop hcontrols.left).append
        hstride hcontrols).append (.untyped rfl) distinct
      refine hall.congr fun scope => ?_
      rw [typedIds_entrySteps]
      simp only [Entry.postorder, Entry.loops, loopsIn, List.flatMap_append, List.mem_append,
        List.mem_cons, List.append_nil]
      tauto
termination_by structural entry => entry

theorem scoped_strideSteps (loops : List String) :
    (stride : Option Expr) → Distinct (strideSteps loops stride) →
      Scoped loops ((stridePostorder stride).flatMap Expr.loops) (strideSteps loops stride)
  | none, _ => .nil
  | some stride, distinct => by
      have hstride := (stride.scoped_steps loops none distinct.left).append (.untyped rfl) distinct
      simpa [strideSteps, stridePostorder] using hstride
termination_by structural stride => stride

theorem scoped_entrySteps (loops : List String) (owner : NodeId) :
    (entries : List Entry) → Distinct (entrySteps loops owner entries) →
      Scoped loops (loopsIn entries) (entrySteps loops owner entries)
  | [], _ => .nil
  | entry :: rest, distinct => by
      have hentry := entry.scoped_steps loops owner distinct.left
      have hrest := scoped_entrySteps loops owner rest distinct.right
      refine (hentry.append hrest distinct).congr fun scope => ?_
      simp only [loopsIn, entryPostorder, entryLoops, List.flatMap_append, List.mem_append]
      tauto
termination_by structural entries => entries

end

/-! ## Whole units -/

theorem Task.scoped_steps (task : Task) (distinct : Distinct task.steps) :
    Scoped [] (task.expressions.flatMap fun e => e.postorder.flatMap Expr.loops) task.steps := by
  cases task with
  | expression e => simpa using e.scoped_steps [] none distinct
  | target e => simpa using (e.scoped_steps [] none distinct.left).append (.untyped rfl) distinct
  | entity declared => exact .untyped rfl
  | store stored =>
      simpa [steps, expressions] using
        (stored.source.scoped_steps [] _ distinct.left).append (.untyped rfl) distinct

theorem scoped_tasks : (tasks : List Task) → Distinct (tasks.flatMap Task.steps) →
    Scoped [] ((tasks.flatMap Task.expressions).flatMap fun e => e.postorder.flatMap Expr.loops)
      (tasks.flatMap Task.steps)
  | [], _ => .nil
  | task :: tasks, distinct => by
      have htask := task.scoped_steps distinct.left
      have htasks := scoped_tasks tasks distinct.right
      simpa using htask.append htasks distinct

/-- The names in whose scope a node of the unit is typed are those that its loops bind there. -/
theorem ProgramUnit.scoped_steps (ctx : Context) {program : ProgramUnit}
    (distinct : program.ids.Nodup) : Scoped [] program.loops (program.steps ctx) := by
  have hdistinct := ProgramUnit.distinct_steps ctx distinct
  rw [program.steps_eq_tasks] at hdistinct ⊢
  rw [ProgramUnit.loops, ProgramUnit.postorder, List.flatMap_assoc,
    ← program.tasks_expressions ctx]
  exact scoped_tasks _ hdistinct

end FortranTyping

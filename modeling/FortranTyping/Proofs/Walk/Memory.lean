import FortranTyping.Proofs.Walk.Steps

/-!
# Checking without memory

The walk over a tree keeps a type map, and a node that has a type already is not visited again.
Where no two nodes share an identity this memory has no effect: the walk brings up exactly what its
steps do, from any pass in which none of the nodes is typed.
-/

namespace FortranTyping

/-! ## Looking up types -/

namespace TypeMap

theorem get?_eq_none_iff (types : TypeMap) (id : NodeId) :
    types.get? id = none ↔ id ∉ types.ids := by
  simp only [get?, ids, Option.map_eq_none_iff, List.find?_eq_none, List.mem_map, beq_iff_eq]
  constructor
  · rintro h ⟨entry, hmem, hid⟩
    exact h entry hmem hid
  · intro h entry hmem hid
    exact h ⟨entry, hmem, hid⟩

theorem get?_append (entries rest : List (NodeId × Ty)) (id : NodeId) :
    get? ⟨entries ++ rest⟩ id = (get? ⟨entries⟩ id).or (get? ⟨rest⟩ id) := by
  simp only [get?, List.find?_append, Option.map_or]

theorem insert_of_get?_eq_none {types : TypeMap} {id : NodeId} (ty : Ty)
    (h : types.get? id = none) :
    types.insert id ty = (⟨types.entries ++ [(id, ty)]⟩, true) := by
  simp [insert, contains, h]

/-- With distinct identities, an entry of the map is the one that is found. -/
theorem get?_of_mem {types : TypeMap} (distinct : types.ids.Nodup) {id : NodeId} {ty : Ty}
    (h : (id, ty) ∈ types.entries) : types.get? id = some ty := by
  obtain ⟨entries⟩ := types
  simp only [ids, get?] at *
  induction entries with
  | nil => simp at h
  | cons entry entries ih =>
      simp only [List.map_cons, List.nodup_cons] at distinct
      rcases List.mem_cons.mp h with rfl | h
      · simp
      · have hne : entry.1 ≠ id := by
          intro he
          exact distinct.1 (he ▸ List.mem_map_of_mem h)
        simpa [hne] using ih distinct.2 h

end TypeMap

/-! ## Fresh steps -/

/-- The nodes that the steps are to type are distinct, and have no type so far. -/
structure Fresh (pass : Pass) (steps : List Step) : Prop where
  distinct : ((steps.filterMap Step.typed?).map Expr.id).Nodup
  untyped : ∀ e ∈ steps.filterMap Step.typed?, pass.types.get? e.id = none

theorem Pass.record_of_untyped {pass : Pass} {e : Expr} (ty : Ty)
    (h : pass.types.get? e.id = none) :
    pass.record e ty =
      { pass with
        types := ⟨pass.types.entries ++ [(e.id, ty)]⟩
        events := pass.events ++ [.typed e ty] } := by
  simp [record, log, TypeMap.insert_of_get?_eq_none ty h]

theorem Pass.ids_follow (ctx : Context) (pass : Pass) (steps : List Step) :
    (pass.follow ctx steps).types.ids =
      pass.types.ids ++ (steps.filterMap Step.typed?).map Expr.id := by
  simp [follow, TypeMap.ids, Step.typings_ids]

namespace Fresh

variable {ctx : Context} {pass : Pass} {steps rest : List Step}

theorem left (h : Fresh pass (steps ++ rest)) : Fresh pass steps := by
  obtain ⟨distinct, untyped⟩ := h
  simp only [List.filterMap_append, List.map_append] at distinct untyped
  exact ⟨(List.nodup_append.mp distinct).1, fun e he => untyped e (List.mem_append_left _ he)⟩

/-- What is still to come stays fresh while the first steps are taken. -/
theorem right (ctx : Context) (h : Fresh pass (steps ++ rest)) :
    Fresh (pass.follow ctx steps) rest := by
  obtain ⟨distinct, untyped⟩ := h
  simp only [List.filterMap_append, List.map_append] at distinct untyped
  obtain ⟨_, hrest, hdisjoint⟩ := List.nodup_append.mp distinct
  refine ⟨hrest, ?_⟩
  intro e he
  have hpass := untyped e (List.mem_append_right _ he)
  rw [TypeMap.get?_eq_none_iff] at hpass ⊢
  rw [Pass.ids_follow, List.mem_append, not_or]
  exact ⟨hpass, fun hmem => hdisjoint _ hmem _ (List.mem_map_of_mem he) rfl⟩

/-- Each node keeps the type of its verdict. -/
theorem get?_follow (h : Fresh pass steps) {loops : List String} {expected : Option Ty} {e : Expr}
    (hmem : .node loops expected e ∈ steps) :
    (pass.follow ctx steps).types.get? e.id = some (e.verdict ctx loops expected).type := by
  have huntyped : pass.types.get? e.id = none := h.untyped e (List.mem_filterMap.mpr ⟨_, hmem, rfl⟩)
  rw [Pass.follow, TypeMap.get?_append, huntyped, Option.none_or]
  apply TypeMap.get?_of_mem
  · rw [TypeMap.ids, Step.typings_ids]
    exact h.distinct
  · exact List.mem_filterMap.mpr ⟨_, hmem, rfl⟩

end Fresh

/-! ## Computations that follow steps -/

namespace Infer

theorem run_bind {α β : Type} (x : Infer α) (f : α → Infer β) (pass : Pass) :
    (x >>= f).run pass = (f (x.run pass).1).run (x.run pass).2 := rfl

theorem run_report (ds : List Diagnostic) (pass : Pass) :
    (report ds).run pass = ((), pass.report ds) := rfl

theorem run_log (events : List Event) (pass : Pass) :
    (log events).run pass = ((), pass.log events) := rfl

theorem run_visit_of_typed {e : Expr} {pass : Pass} (rule : Infer Verdict) {type : Ty}
    (h : pass.types.get? e.id = some type) : (visit e rule).run pass = (type, pass) := by
  simp only [visit, StateT.run, h]

theorem run_visit_of_untyped {e : Expr} {pass : Pass} (rule : Infer Verdict)
    (h : pass.types.get? e.id = none) :
    (visit e rule).run pass = ((rule.run pass).1.type,
      ((rule.run pass).2.report (rule.run pass).1.reports).record e (rule.run pass).1.type) := by
  simp only [visit, StateT.run, h]
  rfl

end Infer

/-- From every pass in which they are fresh, `x` takes the steps and returns `a`. -/
def Follows (ctx : Context) {α : Type} (x : Infer α) (a : α) (steps : List Step) : Prop :=
  ∀ pass, Fresh pass steps → x.run pass = (a, pass.follow ctx steps)

namespace Follows

variable {ctx : Context} {α β : Type}

theorem pure (a : α) : Follows ctx (Pure.pure a) a [] := by
  intro pass _
  rw [Pass.follow_nil]
  rfl

theorem bind {x : Infer α} {f : α → Infer β} {a : α} {b : β} {steps rest : List Step}
    (hx : Follows ctx x a steps) (hf : Follows ctx (f a) b rest) :
    Follows ctx (x >>= f) b (steps ++ rest) := by
  intro pass fresh
  rw [Infer.run_bind, hx pass fresh.left, Pass.follow_append]
  exact hf _ (fresh.right ctx)

theorem returning {x : Infer α} {a : α} {steps : List Step} (f : α → β)
    (hx : Follows ctx x a steps) : Follows ctx (x >>= fun a => Pure.pure (f a)) (f a) steps := by
  intro pass fresh
  rw [Infer.run_bind, hx pass fresh]
  rfl

/-- A step that is nothing but a report. -/
theorem report {step : Step} {ds : List Diagnostic} (hreports : step.reports ctx = ds)
    (htyping : step.typing? ctx = none) (hevents : step.events ctx = []) :
    Follows ctx (Infer.report ds) () [step] := by
  intro pass _
  rw [Infer.run_report]
  simp [Pass.report, Pass.follow, Step.typings, Step.diagnostics, hreports, htyping, hevents]

/-- A step that is nothing but events. -/
theorem log {step : Step} {events : List Event} (hevents : step.events ctx = events)
    (htyping : step.typing? ctx = none) (hreports : step.reports ctx = []) :
    Follows ctx (Infer.log events) () [step] := by
  intro pass _
  rw [Infer.run_log]
  simp [Pass.log, Pass.follow, Step.typings, Step.diagnostics, hreports, htyping, hevents]

/-- A visit to a node types it after its parts. The rule has logged no more than the search for the
node's own declaration. -/
theorem visit_of_run (steps : List Step) {e : Expr} {rule : Infer Verdict} {loops : List String}
    {expected : Option Ty}
    (h : ∀ pass, Fresh pass steps → rule.run pass =
      (e.verdict ctx loops expected, (pass.follow ctx steps).log (e.searches ctx loops))) :
    Follows ctx (Infer.visit e rule) (e.verdict ctx loops expected).type
      (steps ++ [.node loops expected e]) := by
  intro pass fresh
  have huntyped : pass.types.get? e.id = none :=
    fresh.untyped e (by simp [Step.typed?])
  have hstill : (pass.follow ctx steps).types.get? e.id = none :=
    (fresh.right ctx).untyped e (by simp [Step.typed?])
  rw [Pass.follow_append, Infer.run_visit_of_untyped rule huntyped, h pass fresh.left,
    Pass.record_of_untyped]
  · simp [Pass.report, Pass.log, Pass.follow, Step.typings, Step.diagnostics, Step.typing?,
      Step.reports, Step.events]
  · exact hstill

theorem visit {e : Expr} {rule : Infer Verdict} {steps : List Step} {loops : List String}
    {expected : Option Ty} (hrule : Follows ctx rule (e.verdict ctx loops expected) steps)
    (hsearches : e.searches ctx loops = []) :
    Follows ctx (Infer.visit e rule) (e.verdict ctx loops expected).type
      (steps ++ [.node loops expected e]) := by
  apply visit_of_run steps
  intro pass fresh
  rw [hrule pass fresh, hsearches]
  simp [Pass.log]

end Follows

/-! ## The walk over an expression -/

namespace Infer

theorem run_reference (ctx : Context) (loops : List String) (node : Node)
    (designator : Designator) (pass : Pass) :
    (reference ctx loops node designator).run pass =
      (Verdict.inScope ctx loops node designator,
        pass.log (if foldCase designator.name.value ∈ loops then []
          else ctx.resolver.events designator)) := by
  unfold reference Verdict.inScope
  split
  · simp only [StateT.run_pure, Pass.log, List.append_nil]
    rfl
  · rfl

theorem follows_subscript (ctx : Context) (loops : List String) (e : Expr) :
    Follows ctx (subscript ctx e.node (e.verdict ctx loops none).type) ()
      [.subscript loops e] :=
  .report rfl rfl rfl

theorem follows_loopControl (ctx : Context) (loops : List String) (e : Expr) :
    Follows ctx (loopControl ctx e.node (e.verdict ctx loops none).type)
      ((e.verdict ctx loops none).type == .integer) [.loopControl loops e] := by
  have hreport : Follows ctx
      (report (Verdict.nonInteger ctx.options .loopControl e.node (e.verdict ctx loops none).type))
      () [.loopControl loops e] := .report rfl rfl rfl
  exact hreport.bind (.pure _)

mutual

theorem follows_expr (ctx : Context) (loops : List String) (expected : Option Ty) :
    (e : Expr) → Follows ctx (expr ctx loops expected e) (e.verdict ctx loops expected).type
      (e.steps loops expected)
  | .literal _ _ => .visit (.pure _) rfl
  | .unary _ _ operand => .visit ((follows_expr ctx loops none operand).returning _) rfl
  | .binary _ _ left right =>
      .visit ((follows_expr ctx loops none left).bind
        ((follows_expr ctx loops none right).returning _)) rfl
  | .paren _ inner => .visit ((follows_expr ctx loops expected inner).returning _) rfl
  | .reference node name => by
      apply Follows.visit_of_run []
      intro pass _
      rw [Pass.follow_nil]
      exact run_reference ctx loops node ⟨name, none⟩ pass
  | .element node name subscripts => by
      apply Follows.visit_of_run (subscriptSteps loops subscripts)
      intro pass fresh
      rw [run_bind, follows_subscriptList ctx loops subscripts pass fresh]
      exact run_reference ctx loops node ⟨name, some subscripts⟩ _
  | .array node entries =>
      .visit ((follows_entryList ctx loops node.id entries).returning _) rfl
termination_by structural e => e

theorem follows_subscriptList (ctx : Context) (loops : List String) :
    (subscripts : List Expr) →
      Follows ctx (subscriptList ctx loops subscripts) () (subscriptSteps loops subscripts)
  | [] => .pure _
  | e :: rest => by
      rw [subscriptSteps, List.append_assoc]
      exact (follows_expr ctx loops none e).bind
        ((follows_subscript ctx loops e).bind (follows_subscriptList ctx loops rest))
termination_by structural subscripts => subscripts

theorem follows_entry (ctx : Context) (loops : List String) (owner : NodeId) :
    (e : Entry) → Follows ctx (entry ctx loops owner e)
      (e.verdict ctx loops owner).contribution (e.steps loops owner)
  | .plain value => (follows_expr ctx loops none value).returning _
  | .impliedDo span body loopVariable start stop stride => by
      simp only [Entry.steps, List.append_assoc]
      refine (follows_entryList ctx _ owner body).bind ?_
      refine (follows_expr ctx loops none start).bind ?_
      refine (follows_loopControl ctx loops start).bind ?_
      refine (follows_expr ctx loops none stop).bind ?_
      refine (follows_loopControl ctx loops stop).bind ?_
      refine (follows_strideControl ctx loops stride).bind ?_
      exact (Follows.report rfl rfl rfl).returning _
termination_by structural entry => entry

theorem follows_strideControl (ctx : Context) (loops : List String) :
    (stride : Option Expr) → Follows ctx (strideControl ctx loops stride)
      (strideFits ctx loops stride) (strideSteps loops stride)
  | none => .pure _
  | some stride => (follows_expr ctx loops none stride).bind (follows_loopControl ctx loops stride)
termination_by structural stride => stride

theorem follows_entryList (ctx : Context) (loops : List String) (owner : NodeId) :
    (entries : List Entry) → Follows ctx (entryList ctx loops owner entries)
      (contributions ctx loops owner entries) (entrySteps loops owner entries)
  | [] => .pure _
  | e :: rest => (follows_entry ctx loops owner e).bind
      ((follows_entryList ctx loops owner rest).returning _)
termination_by structural entries => entries

end

end Infer

/-! ## A single expression -/

section

variable {e : Expr} {pass : Pass} (distinct : e.ids.Nodup)
  (untyped : ∀ id ∈ e.ids, pass.types.get? id = none)
include distinct untyped

theorem Expr.fresh_steps (loops : List String) (expected : Option Ty) :
    Fresh pass (e.steps loops expected) := by
  refine ⟨?_, ?_⟩
  · rw [e.typed_steps]
    exact distinct
  · rw [e.typed_steps]
    exact fun part hpart => untyped part.id (List.mem_map_of_mem hpart)

/-- From any pass in which none of its nodes is typed, an expression gets the type of its verdict
by its steps. -/
theorem Infer.run_expr (ctx : Context) (loops : List String) (expected : Option Ty) :
    (Infer.expr ctx loops expected e).run pass =
      ((e.verdict ctx loops expected).type, pass.follow ctx (e.steps loops expected)) :=
  follows_expr ctx loops expected e pass (e.fresh_steps distinct untyped loops expected)

end

end FortranTyping

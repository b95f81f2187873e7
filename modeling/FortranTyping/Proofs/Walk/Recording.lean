import FortranTyping.Proofs.Walk.Growth
import FortranTyping.Proofs.Walk.Inserts
import FortranTyping.Proofs.Walk.Unit

/-!
# Recorded answers

The type that a query answers with is the one that is recorded for its node, from any pass, as long
as no node has the identity of one within it. Then the type map takes all types that the query brings
up, even if nodes on different branches share their identities.
-/

namespace FortranTyping

/-! ## Identities along branches -/

/-- Each of the expressions has an identity that nothing within it has. What comes last of the
identities within an expression is its own. -/
def DistinctBranches (es : List Expr) : Prop :=
  ∀ e ∈ es, e.id ∉ e.ids.dropLast

instance (es : List Expr) : Decidable (DistinctBranches es) :=
  inferInstanceAs (Decidable (∀ e ∈ es, _))

namespace DistinctBranches

variable {es rest : List Expr}

theorem left (h : DistinctBranches (es ++ rest)) : DistinctBranches es :=
  fun e he => h e (List.mem_append_left rest he)

theorem right (h : DistinctBranches (es ++ rest)) : DistinctBranches rest :=
  fun e he => h e (List.mem_append_right es he)

theorem not_mem {e : Expr} (h : DistinctBranches e.postorder) (he : e.postorder = es ++ [e]) :
    e.id ∉ es.map Expr.id := by
  have hself := h e (he ▸ List.mem_append_right es List.mem_cons_self)
  rwa [Expr.ids, he, List.map_append, List.map_singleton, List.dropLast_concat] at hself

end DistinctBranches

/-! ## Acts -/

/-- What inference does to a pass, its reports apart. Where identities are repeated, the type that a
rule brings up depends on more than the node, and so it is part of the act. -/
inductive Act where
  /-- The search for the declaration that a reference means. -/
  | search (designator : Designator)
  /-- The rule of a node, which gives it a type. -/
  | typing (e : Expr) (ty : Ty)

namespace Act

def typing? : Act → Option (NodeId × Ty)
  | search _ => none
  | typing e ty => some (e.id, ty)

def events (ctx : Context) : Act → List Event
  | search designator => ctx.resolver.events designator
  | typing e ty => [.typed e ty]

end Act

/-- The pass becomes another one by acts in turn, and the type map accepts every type. -/
inductive Pass.Accepts (ctx : Context) (pass : Pass) : List Act → Pass → Prop where
  | refl : Accepts ctx pass [] pass
  | report {acts : List Act} {pass' : Pass} (h : Accepts ctx pass acts pass')
      (ds : List Diagnostic) : Accepts ctx pass acts (pass'.report ds)
  | search {acts : List Act} {pass' : Pass} (h : Accepts ctx pass acts pass')
      (designator : Designator) :
      Accepts ctx pass (acts ++ [.search designator])
        (pass'.log (ctx.resolver.events designator))
  | typing {acts : List Act} {pass' : Pass} {e : Expr} {ty : Ty}
      (h : Accepts ctx pass acts pass') (haccepted : (pass'.types.insert e.id ty).2 = true) :
      Accepts ctx pass (acts ++ [.typing e ty]) (pass'.record e ty)

theorem Pass.record_of_accepted {pass : Pass} {e : Expr} {ty : Ty}
    (haccepted : (pass.types.insert e.id ty).2 = true) :
    pass.record e ty =
      { pass with
        types := ⟨pass.types.entries ++ [(e.id, ty)]⟩
        events := pass.events ++ [.typed e ty] } := by
  rw [TypeMap.insert_accepted_iff, ← TypeMap.get?_eq_none_iff] at haccepted
  exact record_of_untyped ty haccepted

namespace Pass.Accepts

variable {ctx : Context} {pass pass' pass'' : Pass} {acts acts' : List Act}

theorem trans (h : pass.Accepts ctx acts pass') (h' : pass'.Accepts ctx acts' pass'') :
    pass.Accepts ctx (acts ++ acts') pass'' := by
  induction h' with
  | refl => rwa [List.append_nil]
  | report _ ds ih => exact ih.report ds
  | search _ designator ih =>
      rw [← List.append_assoc]
      exact ih.search designator
  | typing _ haccepted ih =>
      rw [← List.append_assoc]
      exact ih.typing haccepted

/-- The type map gains the types of all rules. -/
theorem entries (h : pass.Accepts ctx acts pass') :
    pass'.types.entries = pass.types.entries ++ acts.filterMap Act.typing? := by
  induction h with
  | refl => exact (List.append_nil _).symm
  | report _ _ ih => exact ih
  | search _ _ ih => simp [Act.typing?, log, ih]
  | typing _ haccepted ih => simp [Act.typing?, record_of_accepted haccepted, ih]

/-- The log gains a line for every rule, and none about a type that is dropped. -/
theorem events (h : pass.Accepts ctx acts pass') :
    pass'.events = pass.events ++ acts.flatMap (Act.events ctx) := by
  induction h with
  | refl => exact (List.append_nil _).symm
  | report _ _ ih => exact ih
  | search _ _ ih => simp [Act.events, log, ih]
  | typing _ haccepted ih => simp [Act.events, record_of_accepted haccepted, ih]

theorem get?_eq_none (h : pass.Accepts ctx acts pass') {id : NodeId}
    (hpass : pass.types.get? id = none) (hacts : ∀ e ty, .typing e ty ∈ acts → e.id ≠ id) :
    pass'.types.get? id = none := by
  rw [TypeMap.get?_eq_none_iff] at hpass ⊢
  rw [TypeMap.ids, h.entries, List.map_append, List.mem_append, not_or]
  refine ⟨hpass, fun hmem => ?_⟩
  obtain ⟨typing, htyping, hid⟩ := List.mem_map.mp hmem
  obtain ⟨act, hact, htyping⟩ := List.mem_filterMap.mp htyping
  cases act with
  | search designator => cases htyping
  | typing e ty =>
      cases htyping
      exact hacts e ty hact hid

end Pass.Accepts

/-! ## Computations that are accepted -/

namespace Infer

variable {ctx : Context} {α β : Type}

/-- From any pass, the computation types none but these expressions, and every type is accepted. -/
def Enters (ctx : Context) (x : Infer α) (es : List Expr) : Prop :=
  ∀ pass : Pass, ∃ acts, pass.Accepts ctx acts (x.run pass).2 ∧ ∀ e ty, .typing e ty ∈ acts → e ∈ es

namespace Enters

theorem pure (a : α) : Enters ctx (Pure.pure a : Infer α) [] :=
  fun _ => ⟨[], .refl, fun _ _ hmem => by cases hmem⟩

theorem report (ds : List Diagnostic) : Enters ctx (Infer.report ds) [] :=
  fun _ => ⟨[], .report .refl ds, fun _ _ hmem => by cases hmem⟩

theorem search (designator : Designator) :
    Enters ctx (Infer.log (ctx.resolver.events designator)) [] :=
  fun _ => ⟨[.search designator], .search .refl designator, fun _ _ hmem => by
    cases List.mem_singleton.mp hmem⟩

theorem bind {x : Infer α} {f : α → Infer β} {es rest : List Expr} (hx : Enters ctx x es)
    (hf : ∀ a, Enters ctx (f a) rest) : Enters ctx (x >>= f) (es ++ rest) := by
  intro pass
  obtain ⟨acts, haccepts, hmem⟩ := hx pass
  obtain ⟨acts', haccepts', hmem'⟩ := hf (x.run pass).1 (x.run pass).2
  refine ⟨acts ++ acts', haccepts.trans haccepts', fun e ty h => ?_⟩
  rcases List.mem_append.mp h with h | h
  · exact List.mem_append_left rest (hmem e ty h)
  · exact List.mem_append_right es (hmem' e ty h)

/-- A node that is none of those typed is still free behind the computation. -/
theorem get?_eq_none {x : Infer α} {es : List Expr} (hx : Enters ctx x es) {id : NodeId}
    (hid : id ∉ es.map Expr.id) {pass : Pass} (hpass : pass.types.get? id = none) :
    (x.run pass).2.types.get? id = none := by
  obtain ⟨acts, haccepts, hmem⟩ := hx pass
  refine haccepts.get?_eq_none hpass fun e ty hact heq => ?_
  exact hid (heq ▸ List.mem_map_of_mem (hmem e ty hact))

end Enters

/-- From any pass, the computation types no more than what is within the expression, and its answer is
the type that is then recorded for the expression. -/
structure Types (ctx : Context) (x : Infer Ty) (e : Expr) : Prop where
  enters : Enters ctx x e.postorder
  recorded : ∀ pass : Pass, (x.run pass).2.types.get? e.id = some (x.run pass).1

/-- A rule that types nothing but the parts of a node leaves the node itself to be typed. -/
theorem Types.visit {e : Expr} {rule : Infer Verdict} {parts : List Expr}
    (he : e.postorder = parts ++ [e]) (distinct : DistinctBranches e.postorder)
    (hrule : Enters ctx rule parts) : Types ctx (Infer.visit e rule) e where
  enters := by
    intro pass
    cases htyped : pass.types.get? e.id with
    | some ty =>
        rw [run_visit_of_typed rule htyped]
        exact ⟨[], .refl, fun _ _ hmem => by cases hmem⟩
    | none =>
        obtain ⟨acts, haccepts, hparts⟩ := hrule pass
        have hfree := hrule.get?_eq_none (distinct.not_mem he) htyped
        rw [TypeMap.get?_eq_none_iff] at hfree
        rw [run_visit_of_untyped rule htyped]
        refine ⟨_, (haccepts.report _).typing ((TypeMap.insert_accepted_iff _ _ _).mpr hfree), ?_⟩
        intro part ty hmem
        rw [he]
        rcases List.mem_append.mp hmem with hmem | hmem
        · exact List.mem_append_left [e] (hparts part ty hmem)
        · cases List.mem_singleton.mp hmem
          exact List.mem_append_right parts List.mem_cons_self
  recorded := by
    intro pass
    cases htyped : pass.types.get? e.id with
    | some ty =>
        rw [run_visit_of_typed rule htyped]
        exact htyped
    | none =>
        rw [run_visit_of_untyped rule htyped]
        exact TypeMap.get?_insert_self _ (hrule.get?_eq_none (distinct.not_mem he) htyped)

/-- Visits leave no node typed that is still to be visited further up its branch. -/
theorem Visits.enters {x : Infer α} {es : List Expr} (h : Visits ctx x es)
    (distinct : DistinctBranches es) : Enters ctx x es := by
  induction h with
  | pure a => exact .pure a
  | report ds => exact .report ds
  | search designator => exact .search designator
  | bind _ _ ihx ihf => exact (ihx distinct.left).bind fun a => ihf a distinct.right
  | visit he _ ih => exact (Types.visit he distinct (ih (he ▸ distinct).left)).enters

theorem VisitsNode.types {x : Infer Ty} {e : Expr} (h : VisitsNode ctx x e)
    (distinct : DistinctBranches e.postorder) : Types ctx x e := by
  obtain ⟨he, hrule⟩ := h
  exact .visit he distinct (hrule.enters (he ▸ distinct).left)

end Infer

/-! ## Queries -/

/-- How a query from any pass, within any loops, goes about the type map. -/
structure RecordSpec (ctx : Context) (loops : List String) (pass : Pass) (query : Query) : Prop where
  /-- The answer is what is then recorded. -/
  recorded : ((Infer.query ctx loops query).run pass).2.types.get? query.e.id =
    some ((Infer.query ctx loops query).run pass).1
  /-- The log tells which searches were made and which rules applied, all of them to nodes within the
  expression. The type map has accepted the types of all these rules, and has them now. -/
  accepted : ∃ acts, pass.Accepts ctx acts ((Infer.query ctx loops query).run pass).2 ∧
    (∀ e ty, .typing e ty ∈ acts → e ∈ query.e.postorder) ∧
    ((Infer.query ctx loops query).run pass).2.events =
      pass.events ++ acts.flatMap (Act.events ctx) ∧
    ((Infer.query ctx loops query).run pass).2.types.entries =
      pass.types.entries ++ acts.filterMap Act.typing?
  /-- No type was dropped: where the log says so anew, the resolver does. -/
  kept : ∀ id, .retyped id ∈ ((Infer.query ctx loops query).run pass).2.events →
    .retyped id ∈ pass.events ∨ ∃ designator, .retyped id ∈ ctx.resolver.events designator

theorem Act.retyped_mem_events {ctx : Context} {act : Act} {id : NodeId}
    (h : .retyped id ∈ act.events ctx) :
    ∃ designator, .retyped id ∈ ctx.resolver.events designator := by
  cases act with
  | search designator => exact ⟨designator, h⟩
  | typing e ty => cases List.mem_singleton.mp h

/-- Where identities are distinct along every branch, a query records its answer and no type is
dropped. -/
theorem Infer.query_recordSpec (ctx : Context) (loops : List String) (pass : Pass) (query : Query)
    (distinct : DistinctBranches query.e.postorder) : RecordSpec ctx loops pass query := by
  have htypes := (visitsNode_expr ctx loops query.expected query.e).types distinct
  obtain ⟨acts, haccepts, hwithin⟩ := htypes.enters pass
  refine ⟨htypes.recorded pass, ⟨acts, haccepts, hwithin, haccepts.events, haccepts.entries⟩, ?_⟩
  intro id hid
  rw [Infer.query, haccepts.events, List.mem_append, List.mem_flatMap] at hid
  rcases hid with hid | ⟨act, -, hid⟩
  · exact .inl hid
  · exact .inr (Act.retyped_mem_events hid)

/-- The sum `1 + ((1))`, of which both numbers have the same identity. -/
def sharedNumbers : Query :=
  let one : Expr := .literal (.ofIndex 0) (.integer "1")
  ⟨.binary (.ofIndex 3) .add one (.paren (.ofIndex 2) (.paren (.ofIndex 1) one)), none⟩

/-- The inner parentheses have a type from elsewhere. -/
theorem sharedNumbers_recordSpec :
    DistinctBranches sharedNumbers.e.postorder ∧
      RecordSpec ⟨.ofScope .empty, {}⟩ ["i"]
        { Pass.empty with types := ⟨[(⟨1⟩, .real)]⟩ } sharedNumbers := by
  have distinct : DistinctBranches sharedNumbers.e.postorder := by decide
  exact ⟨distinct, Infer.query_recordSpec _ _ _ _ distinct⟩

end FortranTyping

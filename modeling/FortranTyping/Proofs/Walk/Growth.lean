import FortranTyping.Proofs.Walk.Memory
import FortranTyping.Proofs.Walk.Traversal

/-!
# Growing passes

Inference adds to a pass and takes nothing back, whatever identities the nodes have. The first type
of a node is final: a later query about it, with whatever parts and whatever type expected, has that
type for an answer and leaves no trace.
-/

namespace FortranTyping

/-! ## Passes that go on -/

/-- All that the first pass has brought up comes first in the second, in the same order. -/
structure Pass.Extends (pass pass' : Pass) : Prop where
  types : pass.types.entries <+: pass'.types.entries
  diagnostics : pass.diagnostics <+: pass'.diagnostics
  events : pass.events <+: pass'.events

namespace Pass

theorem Extends.refl (pass : Pass) : pass.Extends pass :=
  ⟨List.prefix_refl _, List.prefix_refl _, List.prefix_refl _⟩

theorem Extends.trans {pass pass' pass'' : Pass} (h : pass.Extends pass')
    (h' : pass'.Extends pass'') : pass.Extends pass'' :=
  ⟨h.types.trans h'.types, h.diagnostics.trans h'.diagnostics, h.events.trans h'.events⟩

theorem extends_log (pass : Pass) (events : List Event) : pass.Extends (pass.log events) :=
  ⟨List.prefix_refl _, List.prefix_refl _, List.prefix_append _ _⟩

theorem extends_report (pass : Pass) (ds : List Diagnostic) : pass.Extends (pass.report ds) :=
  ⟨List.prefix_refl _, List.prefix_append _ _, List.prefix_refl _⟩

/-- A type that is dropped is no different from one that is entered. -/
theorem extends_record (pass : Pass) (e : Expr) (ty : Ty) : pass.Extends (pass.record e ty) := by
  refine ⟨?_, List.prefix_refl _, List.prefix_append _ _⟩
  simp only [record, TypeMap.insert]
  split
  · exact List.prefix_refl _
  · exact List.prefix_append _ _

/-- The first entry of a node stays the first one. -/
theorem Extends.get? {pass pass' : Pass} (h : pass.Extends pass') {id : NodeId} {ty : Ty}
    (hty : pass.types.get? id = some ty) : pass'.types.get? id = some ty := by
  obtain ⟨rest, hrest⟩ := h.types
  have hentries : pass'.types = ⟨pass.types.entries ++ rest⟩ := congrArg TypeMap.mk hrest.symm
  rw [hentries, TypeMap.get?_append, hty, Option.some_or]

end Pass

/-! ## Computations that only add -/

namespace Infer

def Grows {α : Type} (x : Infer α) : Prop :=
  ∀ pass : Pass, pass.Extends (x.run pass).2

namespace Grows

variable {α β : Type}

theorem pure (a : α) : Grows (Pure.pure a : Infer α) :=
  Pass.Extends.refl

theorem bind {x : Infer α} {f : α → Infer β} (hx : Grows x) (hf : ∀ a, Grows (f a)) :
    Grows (x >>= f) := by
  intro pass
  rw [run_bind]
  exact (hx pass).trans (hf _ _)

theorem report (ds : List Diagnostic) : Grows (Infer.report ds) :=
  fun pass => pass.extends_report ds

theorem log (events : List Event) : Grows (Infer.log events) :=
  fun pass => pass.extends_log events

/-- The rule of a node may type anything, even the node itself: its verdict comes behind. -/
theorem visit (e : Expr) {rule : Infer Verdict} (h : Grows rule) : Grows (Infer.visit e rule) := by
  intro pass
  cases htyped : pass.types.get? e.id with
  | some ty =>
      rw [run_visit_of_typed rule htyped]
      exact .refl pass
  | none =>
      rw [run_visit_of_untyped rule htyped]
      exact (h pass).trans ((Pass.extends_report _ _).trans (Pass.extends_record _ _ _))

end Grows

/-- Whatever the order of the visits, each of them only adds. -/
theorem Visits.grows {ctx : Context} {α : Type} {x : Infer α} {es : List Expr}
    (h : Visits ctx x es) : Grows x := by
  induction h with
  | pure a => exact .pure a
  | report ds => exact .report ds
  | search designator => exact .log _
  | bind _ _ ihx ihf => exact ihx.bind ihf
  | visit _ _ ih => exact .visit _ ih

theorem grows_expr (ctx : Context) (loops : List String) (expected : Option Ty) (e : Expr) :
    Grows (expr ctx loops expected e) :=
  (visitsNode_expr ctx loops expected e).visits.grows

/-- A node that has a type is not looked into again. -/
theorem run_expr_of_typed (ctx : Context) (loops : List String) (expected : Option Ty) {e : Expr}
    {pass : Pass} {ty : Ty} (h : pass.types.get? e.id = some ty) :
    (expr ctx loops expected e).run pass = (ty, pass) := by
  cases e <;> exact run_visit_of_typed _ h

end Infer

/-! ## Sequences of queries -/

/-- An expression to be typed, and the type that is expected of it. -/
structure Query where
  e : Expr
  expected : Option Ty

def Infer.query (ctx : Context) (loops : List String) (query : Query) : Infer Ty :=
  expr ctx loops query.expected query.e

/-- What becomes of a pass by queries in turn, all of them within the same loops. -/
def Pass.after (ctx : Context) (loops : List String) (pass : Pass) (queries : List Query) : Pass :=
  queries.foldl (fun pass query => ((Infer.query ctx loops query).run pass).2) pass

theorem Pass.extends_after (ctx : Context) (loops : List String) (pass : Pass)
    (queries : List Query) : pass.Extends (pass.after ctx loops queries) := by
  induction queries generalizing pass with
  | nil => exact .refl pass
  | cons query queries ih =>
      exact (Infer.grows_expr ctx loops query.expected query.e pass).trans (ih _)

/-- How a sequence of queries treats what earlier ones have found, from any pass. -/
structure FinalSpec (ctx : Context) (loops : List String) (start : Pass) (queries : List Query) :
    Prop where
  /-- What there was after the first few queries is still there, and in its place. -/
  kept : ∀ earlier, earlier <+: queries →
    (start.after ctx loops earlier).Extends (start.after ctx loops queries)
  final : ∀ earlier, earlier <+: queries → ∀ id ty,
    (start.after ctx loops earlier).types.get? id = some ty →
      (start.after ctx loops queries).types.get? id = some ty
  /-- A query about a node that has a type answers with this type and changes nothing. -/
  repeated : ∀ query ty, (start.after ctx loops queries).types.get? query.e.id = some ty →
    (Infer.query ctx loops query).run (start.after ctx loops queries) =
      (ty, start.after ctx loops queries)

theorem Infer.query_finalSpec (ctx : Context) (loops : List String) (start : Pass)
    (queries : List Query) : FinalSpec ctx loops start queries := by
  have hkept : ∀ earlier, earlier <+: queries →
      (start.after ctx loops earlier).Extends (start.after ctx loops queries) := by
    rintro earlier ⟨later, rfl⟩
    rw [Pass.after, Pass.after, List.foldl_append]
    exact Pass.extends_after ctx loops _ later
  refine ⟨hkept, ?_, ?_⟩
  · intro earlier hprefix id ty hty
    exact (hkept earlier hprefix).get? hty
  · intro query ty hty
    exact run_expr_of_typed ctx loops query.expected hty

end FortranTyping

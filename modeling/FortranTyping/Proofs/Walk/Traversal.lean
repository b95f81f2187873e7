import FortranTyping.Infer.Expr
import FortranTyping.Proofs.Walk.Postorder

/-!
# Traversals

How the inference of an expression is put together: a visit to each node, whose rule visits the parts
first. What holds of single acts and is kept by sequences and visits then holds of inference, from any
pass.
-/

namespace FortranTyping.Infer

/-- The computation is made of reports, searches and visits, and the visits go to these expressions in
turn. The values it returns are left open. -/
inductive Visits (ctx : Context) : {α : Type} → Infer α → List Expr → Prop where
  | pure {α : Type} (a : α) : Visits ctx (Pure.pure a : Infer α) []
  | report (ds : List Diagnostic) : Visits ctx (Infer.report ds) []
  | search (designator : Designator) :
      Visits ctx (Infer.log (ctx.resolver.events designator)) []
  | bind {α β : Type} {x : Infer α} {f : α → Infer β} {es rest : List Expr}
      (hx : Visits ctx x es) (hf : ∀ a, Visits ctx (f a) rest) : Visits ctx (x >>= f) (es ++ rest)
  | visit {e : Expr} {rule : Infer Verdict} {parts : List Expr}
      (he : e.postorder = parts ++ [e]) (hrule : Visits ctx rule parts) :
      Visits ctx (Infer.visit e rule) e.postorder

/-- The computation is a visit to the expression, by a rule that visits its parts. -/
inductive VisitsNode (ctx : Context) : Infer Ty → Expr → Prop where
  | visit {e : Expr} {rule : Infer Verdict} {parts : List Expr}
      (he : e.postorder = parts ++ [e]) (hrule : Visits ctx rule parts) :
      VisitsNode ctx (Infer.visit e rule) e

theorem VisitsNode.visits {ctx : Context} {x : Infer Ty} {e : Expr} (h : VisitsNode ctx x e) :
    Visits ctx x e.postorder := by
  obtain ⟨he, hrule⟩ := h
  exact .visit he hrule

section

variable {ctx : Context}

/-- What comes last need not visit anything. -/
theorem Visits.andThen {α β : Type} {x : Infer α} {f : α → Infer β} {es : List Expr}
    (hx : Visits ctx x es) (hf : ∀ a, Visits ctx (f a) []) : Visits ctx (x >>= f) es := by
  rw [← List.append_nil es]
  exact hx.bind hf

theorem visits_reference (loops : List String) (node : Node) (designator : Designator) :
    Visits ctx (reference ctx loops node designator) [] := by
  unfold reference
  split
  · exact .pure _
  · exact (Visits.search designator).andThen fun _ => .pure _

theorem visits_loopControl (node : Node) (ty : Ty) : Visits ctx (loopControl ctx node ty) [] :=
  (Visits.report _).andThen fun _ => .pure _

end

mutual

theorem visitsNode_expr (ctx : Context) (loops : List String) (expected : Option Ty) :
    (e : Expr) → VisitsNode ctx (expr ctx loops expected e) e
  | .literal _ _ => .visit rfl (.pure _)
  | .unary _ _ operand =>
      .visit rfl ((visitsNode_expr ctx loops none operand).visits.andThen fun _ => .pure _)
  | .binary _ _ left right =>
      .visit rfl ((visitsNode_expr ctx loops none left).visits.bind fun _ =>
        (visitsNode_expr ctx loops none right).visits.andThen fun _ => .pure _)
  | .paren _ inner =>
      .visit rfl ((visitsNode_expr ctx loops expected inner).visits.andThen fun _ => .pure _)
  | .reference node name => .visit rfl (visits_reference loops node ⟨name, none⟩)
  | .element node name subscripts =>
      .visit rfl ((visits_subscriptList ctx loops subscripts).andThen fun _ =>
        visits_reference loops node ⟨name, some subscripts⟩)
  | .array node entries =>
      .visit rfl ((visits_entryList ctx loops node.id entries).andThen fun _ => .pure _)
termination_by structural e => e

theorem visits_subscriptList (ctx : Context) (loops : List String) :
    (subscripts : List Expr) →
      Visits ctx (subscriptList ctx loops subscripts) (subscriptPostorder subscripts)
  | [] => .pure _
  | e :: rest =>
      (visitsNode_expr ctx loops none e).visits.bind fun _ => (Visits.report _).bind fun _ =>
        visits_subscriptList ctx loops rest
termination_by structural subscripts => subscripts

theorem visits_entry (ctx : Context) (loops : List String) (owner : NodeId) :
    (e : Entry) → Visits ctx (entry ctx loops owner e) e.postorder
  | .plain value => (visitsNode_expr ctx loops none value).visits.andThen fun _ => .pure _
  | .impliedDo _ body loopVariable start stop stride => by
      have hbody := visits_entryList ctx (foldCase loopVariable.value :: loops) owner body
      have hstart := (visitsNode_expr ctx loops none start).visits
      have hstop := (visitsNode_expr ctx loops none stop).visits
      have hstride := visits_strideControl ctx loops stride
      simp only [Entry.postorder, List.append_assoc]
      refine hbody.bind fun _ => ?_
      refine hstart.bind fun _ => (visits_loopControl start.node _).bind fun _ => ?_
      refine hstop.bind fun _ => (visits_loopControl stop.node _).bind fun _ => ?_
      exact hstride.andThen fun _ => (Visits.report _).andThen fun _ => .pure _
termination_by structural entry => entry

theorem visits_strideControl (ctx : Context) (loops : List String) :
    (stride : Option Expr) → Visits ctx (strideControl ctx loops stride) (stridePostorder stride)
  | none => .pure _
  | some stride =>
      (visitsNode_expr ctx loops none stride).visits.andThen fun _ => visits_loopControl _ _
termination_by structural stride => stride

theorem visits_entryList (ctx : Context) (loops : List String) (owner : NodeId) :
    (entries : List Entry) →
      Visits ctx (entryList ctx loops owner entries) (entryPostorder entries)
  | [] => .pure _
  | e :: rest =>
      (visits_entry ctx loops owner e).bind fun _ =>
        (visits_entryList ctx loops owner rest).andThen fun _ => .pure _
termination_by structural entries => entries

end

end FortranTyping.Infer

import FortranTyping.Proofs.Trees.Parentheses
import FortranTyping.Proofs.TwoRuns.Constructors
import FortranTyping.Proofs.Walk.Steps

/-!
# Verdicts within parentheses

A tree beside itself with additional parentheses. If the same references are looked up for both, the
verdicts on all nodes are the same, but for reports that name the outermost parentheses around an
expression instead of the expression.
-/

namespace FortranTyping

/-- The finding with the expression that it names changed by `f`. -/
def Finding.mapExpr (f : NodeId → NodeId) : Finding → Finding
  | mismatch expr expected actual => mismatch (f expr) expected actual
  | binaryOperands expr op left right => binaryOperands (f expr) op left right
  | unaryOperand expr op operand => unaryOperand (f expr) op operand
  | constructorElement expr base element => constructorElement (f expr) base element
  | loopControl expr type => loopControl (f expr) type
  | subscript expr type => subscript (f expr) type
  | literalRange expr literal kind => literalRange (f expr) literal kind
  | unresolved expr name => unresolved (f expr) name
  | skipped expr reason => skipped (expr.map f) reason

def Diagnostic.mapExpr (f : NodeId → NodeId) (d : Diagnostic) : Diagnostic :=
  { d with finding := d.finding.mapExpr f }

def Contribution.mapExpr (f : NodeId → NodeId) (c : Contribution) : Contribution :=
  { c with expr := f c.expr }

namespace Layers

/-- The same diagnostics in the same order, each of which may name the outermost parentheses around
its expression. -/
def Diagnostics (layers : Layers) : List Diagnostic → List Diagnostic → Prop :=
  List.Forall₂ fun d d' => d' = d ∨ d' = d.mapExpr layers.outermost

/-- Types are the same, causes included. -/
def likeness (layers : Layers) : Likeness where
  type := Eq
  expected := Eq
  reports := layers.Diagnostics

/-- Reports about an entry may name the outermost parentheses around it. -/
def Alike (layers : Layers) (c c' : Contribution) : Prop :=
  c' = c ∨ c' = c.mapExpr layers.outermost

structure Entries (layers : Layers) (v v' : RangeVerdict) : Prop where
  contribution : layers.Alike v.contribution v'.contribution
  reports : v.reports = v'.reports

variable {layers : Layers}

theorem Diagnostics.refl (ds : List Diagnostic) : layers.Diagnostics ds ds :=
  List.forall₂_same.mpr fun _ _ => .inl rfl

theorem Diagnostics.append {ds ds' es es' : List Diagnostic} (h : layers.Diagnostics ds ds')
    (hrest : layers.Diagnostics es es') : layers.Diagnostics (ds ++ es) (ds' ++ es') :=
  List.rel_append h hrest

/-- One report in each run, which names the outermost parentheses in the second one. -/
theorem Diagnostics.singleton (span : Span) {finding finding' : Finding}
    (h : finding' = finding.mapExpr layers.outermost) :
    layers.Diagnostics [.of span finding] [.of span finding'] := by
  refine .cons (.inr ?_) .nil
  subst h
  cases finding <;> rfl

theorem verdicts_of_eq {v v' : Verdict} (h : v = v') : layers.likeness.Verdicts v v' := by
  subst h
  exact ⟨rfl, .refl _⟩

theorem entrywise (layers : Layers) : layers.likeness.Entrywise layers.Alike where
  nil := .nil
  append := .append
  isEmpty h := by cases h <;> rfl
  refl _ := rfl
  withoutCause h := congrArg Ty.withoutCause h
  unify := congrArg₂ Ty.unify
  arrayOf size := congrArg (Ty.arrayOf · size)
  type := by rintro c _ (rfl | rfl) <;> rfl
  count := by rintro c _ (rfl | rfl) <;> rfl
  element := by
    rintro c _ base _ (rfl | rfl) rfl
    · exact .refl _
    · exact .singleton c.span rfl
  mismatch := by
    rintro node expected built _ rfl
    exact .refl _

end Layers

/-! ## Resolvers -/

/-- The resolver that is asked about references as they are written with the new parentheses. A
reference is put to a resolver as a whole, so what is found may hang on the parentheses in its
subscripts. -/
def Resolver.through (layers : Layers) (resolver : Resolver) : Resolver where
  find designator := resolver.find (designator.wrap layers)
  events designator := resolver.events (designator.wrap layers)

def Context.through (layers : Layers) (ctx : Context) : Context :=
  { ctx with resolver := ctx.resolver.through layers }

@[simp]
theorem Context.options_through (layers : Layers) (ctx : Context) :
    (ctx.through layers).options = ctx.options :=
  rfl

/-! ## Verdicts -/

theorem Expr.verdict_within (ctx : Context) (loops : List String) (expected : Option Ty)
    (ids : List NodeId) (e : Expr) :
    ((e.within ids).verdict ctx loops expected).type = (e.verdict ctx loops expected).type := by
  induction ids generalizing e with
  | nil => rfl
  | cons id ids ih => exact ih _

section

variable {layers : Layers} {ctx : Context}

/-- The parentheses around an expression have its type. -/
theorem type_wrap {loops : List String} {expected : Option Ty} {e : Expr}
    (h : layers.likeness.Verdicts (e.verdict (ctx.through layers) loops expected)
      ((e.wrapParts layers).verdict ctx loops expected)) :
    ((e.wrap layers).verdict ctx loops expected).type =
      (e.verdict (ctx.through layers) loops expected).type := by
  rw [e.wrap_eq_within, Expr.verdict_within]
  exact h.type.symm

theorem Verdict.reference_wrap (options : Options) (node : Node) (designator : Designator)
    (found : Option DeclaredEntity) :
    Verdict.reference options node (designator.wrap layers) found =
      Verdict.reference options node designator found := by
  have hsubscripted : (designator.wrap layers).isSubscripted = designator.isSubscripted := by
    simp [Designator.isSubscripted, Designator.wrap]
  cases found with
  | none => rfl
  | some declared => simp only [Verdict.reference, hsubscripted]

/-- New parentheses in a declaration do not change what it gives to a reference. -/
theorem Verdict.reference_map_wrap (options : Options) (node : Node) (designator : Designator)
    (found : Option DeclaredEntity) :
    Verdict.reference options node designator (found.map (.map id (Expr.wrap layers))) =
      Verdict.reference options node designator found := by
  cases found with
  | none => rfl
  | some declared =>
      have htype := declared.type_map (Expr.integerValue?_wrap layers) id options
      simp only [Option.map_some, Verdict.reference, htype]

theorem Verdict.inScope_wrap (loops : List String) (node : Node) (designator : Designator) :
    Verdict.inScope (ctx.through layers) loops node designator =
      Verdict.inScope ctx loops node (designator.wrap layers) := by
  unfold Verdict.inScope
  rw [Verdict.reference_wrap]
  rfl

-- The induction is on the first tree. The rule of a node meets the types of its parts and the nodes
-- of the entries and controls, and parentheses around a part show in the latter alone.
mutual

theorem Expr.verdict_wrapParts (loops : List String) (expected : Option Ty) :
    (e : Expr) → layers.likeness.Verdicts (e.verdict (ctx.through layers) loops expected)
      ((e.wrapParts layers).verdict ctx loops expected)
  | .literal node value => Layers.verdicts_of_eq rfl
  | .unary node op operand => by
      have htype := type_wrap (operand.verdict_wrapParts loops none)
      exact Layers.verdicts_of_eq
        (by simp only [Expr.wrapParts, Expr.verdict, Context.options_through, htype])
  | .binary node op left right => by
      have hleft := type_wrap (left.verdict_wrapParts loops none)
      have hright := type_wrap (right.verdict_wrapParts loops none)
      exact Layers.verdicts_of_eq
        (by simp only [Expr.wrapParts, Expr.verdict, Context.options_through, hleft, hright])
  | .paren node inner => by
      have htype := type_wrap (inner.verdict_wrapParts loops expected)
      exact Layers.verdicts_of_eq (by simp only [Expr.wrapParts, Expr.verdict, htype])
  | .reference node name => Layers.verdicts_of_eq (Verdict.inScope_wrap loops node ⟨name, none⟩)
  | .element node name subscripts =>
      Layers.verdicts_of_eq (Verdict.inScope_wrap loops node ⟨name, some subscripts⟩)
  | .array node entries => by
      have hentries := contributions_wrap loops node.id entries
      simp only [Expr.wrapParts, Expr.verdict, Context.options_through]
      exact layers.entrywise.constructorVerdict hentries ctx.options node expected
termination_by structural e => e

theorem Entry.verdict_wrap (loops : List String) (owner : NodeId) :
    (entry : Entry) → layers.Entries (entry.verdict (ctx.through layers) loops owner)
      ((entry.wrap layers).verdict ctx loops owner)
  | .plain value => by
      have htype := type_wrap (value.verdict_wrapParts loops none)
      simp only [Entry.wrap, Entry.verdict, htype, value.node_wrap]
      exact ⟨.inr rfl, rfl⟩
  | .impliedDo span body loopVariable start stop stride => by
      have hbody := layers.entrywise.total?_eq
        (contributions_wrap (foldCase loopVariable.value :: loops) owner body)
      have hstart := type_wrap (start.verdict_wrapParts loops none)
      have hstop := type_wrap (stop.verdict_wrapParts loops none)
      have hstride := strideFits_wrap loops stride
      have htrips := loopTrips_map (Expr.integerValue?_wrap layers) start stop stride
      rw [← wrapStride_eq_map] at htrips
      simp only [Entry.wrap, Entry.verdict, Context.options_through, hbody, hstart, hstop, hstride,
        htrips]
      exact ⟨.inl rfl, rfl⟩
termination_by structural entry => entry

theorem strideFits_wrap (loops : List String) :
    (stride : Option Expr) → strideFits ctx loops (wrapStride layers stride) =
      strideFits (ctx.through layers) loops stride
  | none => rfl
  | some stride => by
      have htype := type_wrap (stride.verdict_wrapParts loops none)
      simp only [wrapStride, strideFits, htype]
termination_by structural stride => stride

theorem contributions_wrap (loops : List String) (owner : NodeId) :
    (entries : List Entry) →
      List.Forall₂ layers.Alike (contributions (ctx.through layers) loops owner entries)
        (contributions ctx loops owner (wrapEntries layers entries))
  | [] => .nil
  | entry :: rest =>
      .cons (entry.verdict_wrap loops owner).contribution (contributions_wrap loops owner rest)
termination_by structural entries => entries

end

end

end FortranTyping

import FortranTyping.Proofs.Walk.Steps

/-!
# What a step may report

Each step of a check makes reports of few kinds, and about few nodes. The diagnostics of a kind are
the reports of the steps that may make them, in the order of these steps.
-/

namespace FortranTyping

/-! ## Kinds -/

inductive FindingKind where
  | mismatch
  | binaryOperands
  | unaryOperand
  | constructorElement
  | loopControl
  | subscript
  | literalRange
  | unresolved
  | skipped
  deriving DecidableEq

def Finding.kind : Finding → FindingKind
  | mismatch _ _ _ => .mismatch
  | binaryOperands _ _ _ _ => .binaryOperands
  | unaryOperand _ _ _ => .unaryOperand
  | constructorElement _ _ _ => .constructorElement
  | loopControl _ _ => .loopControl
  | subscript _ _ => .subscript
  | literalRange _ _ _ => .literalRange
  | unresolved _ _ => .unresolved
  | skipped _ _ => .skipped

/-- Only notes about what is skipped need not name an expression. -/
theorem Finding.exists_expr {finding : Finding} (h : finding.kind ≠ .skipped) :
    ∃ id, finding.expr? = some id := by
  cases finding with
  | skipped expr reason => exact absurd rfl h
  | _ => exact ⟨_, rfl⟩

/-- The diagnostics of a kind, in their order. -/
def ofKind (kind : FindingKind) (ds : List Diagnostic) : List Diagnostic :=
  ds.filter fun d => d.finding.kind = kind

section

variable (kind : FindingKind)

@[simp] theorem ofKind_nil : ofKind kind [] = [] := rfl

@[simp] theorem ofKind_append (ds ds' : List Diagnostic) :
    ofKind kind (ds ++ ds') = ofKind kind ds ++ ofKind kind ds' :=
  List.filter_append ..

theorem ofKind_flatMap {α : Type} (f : α → List Diagnostic) (xs : List α) :
    ofKind kind (xs.flatMap f) = xs.flatMap fun x => ofKind kind (f x) :=
  List.filter_flatMap ..

variable {kind} {ds : List Diagnostic}

theorem mem_ofKind {d : Diagnostic} : d ∈ ofKind kind ds ↔ d ∈ ds ∧ d.finding.kind = kind := by
  simp [ofKind]

theorem ofKind_eq_nil (h : ∀ d ∈ ds, d.finding.kind ≠ kind) : ofKind kind ds = [] := by
  simpa [ofKind] using h

theorem ofKind_eq_self (h : ∀ d ∈ ds, d.finding.kind = kind) : ofKind kind ds = ds := by
  simpa [ofKind] using h

end

/-! ## Subjects -/

/-- One of the diagnostics is about the node `id`. -/
def Names (ds : List Diagnostic) (id : NodeId) : Prop :=
  ∃ d ∈ ds, d.finding.expr? = some id

theorem Names.of_eq_singleton {ds : List Diagnostic} {span : Span} {finding : Finding}
    {id : NodeId} (h : ds = [.of span finding]) (hid : finding.expr? = some id) : Names ds id :=
  ⟨_, h ▸ List.mem_singleton.mpr rfl, hid⟩

/-! ## Reports of rules -/

theorem Options.reports_of_known (options : Options) {inputs : List Ty}
    (h : ∀ ty ∈ inputs, ty.isUnknown = false) : options.reports inputs = true := by
  have hnone : inputs.any Ty.isUnknown = false := by simpa using h
  simp [reports, hnone]

/-- Faults of a single type are reported where it is known. -/
theorem reports_singleton {options : Options} (hquiet : options.suppressCascades = true) (ty : Ty) :
    options.reports [ty] = !ty.isUnknown := by
  simp [Options.reports, hquiet]

namespace Verdict

variable {options : Options} {d : Diagnostic}

theorem mem_literal_reports {node : Node} {value : Literal}
    (h : d ∈ (literal node value).reports) :
    ∃ text kind, value = .integer text ∧ d.finding = .literalRange node.id text kind := by
  cases value with
  | integer text =>
      simp only [literal] at h
      cases hkind : IntegerLiteral.overflowedKind? text with
      | none => simp [hkind, clean] at h
      | some kind =>
          simp only [hkind, List.mem_singleton] at h
          exact ⟨text, kind, rfl, h ▸ rfl⟩
  | _ => cases h

theorem mem_unary_reports {node : Node} {op : UnaryOp} {operand : Ty}
    (h : d ∈ (unary options node op operand).reports) :
    d.finding = .unaryOperand node.id op operand := by
  unfold unary at h
  split at h
  · cases h
  · split at h
    · exact List.mem_singleton.mp h ▸ rfl
    · cases h

theorem mem_binary_reports {node : Node} {op : BinaryOp} {left right : Ty}
    (h : d ∈ (binary options node op left right).reports) :
    d.finding = .binaryOperands node.id op left right := by
  unfold binary at h
  simp only at h
  split at h
  · cases h
  · split at h <;> exact List.mem_singleton.mp h ▸ rfl

theorem mem_nonInteger {finding : NodeId → Ty → Finding} {node : Node} {ty : Ty}
    (h : d ∈ nonInteger options finding node ty) : d.finding = finding node.id ty := by
  unfold nonInteger at h
  split at h
  · exact List.mem_singleton.mp h ▸ rfl
  · cases h

theorem mem_inScope_reports {ctx : Context} {loops : List String} {node : Node}
    {designator : Designator} (h : d ∈ (inScope ctx loops node designator).reports) :
    d.finding = .unresolved node.id designator.name.value := by
  unfold inScope at h
  split at h
  · cases h
  · cases hfind : ctx.resolver.find designator with
    | none =>
        simp only [hfind, reference] at h
        split at h
        · exact List.mem_singleton.mp h ▸ rfl
        · cases h
    | some declared =>
        simp only [hfind, reference] at h
        cases htype : declared.type ctx.options <;> simp [htype, clean] at h

end Verdict

section

variable {options : Options} {d : Diagnostic}

theorem mem_skip {span : Span} {expr : Option NodeId} {reason : SkipReason}
    (h : d ∈ options.skip span expr reason) : d.finding = .skipped expr reason := by
  unfold Options.skip at h
  split at h
  · exact List.mem_singleton.mp h ▸ rfl
  · cases h

theorem mem_entityVerdict_reports {declared : DeclaredEntity}
    (h : d ∈ (Infer.entityVerdict options declared).reports) :
    ∃ reason, d.finding = .skipped none reason := by
  unfold Infer.entityVerdict at h
  split at h
  · cases h
  · exact ⟨_, mem_skip h⟩

theorem mem_rangeVerdict_reports {owner : NodeId} {span : Span} {wellFormed : Bool}
    {perTrip : Option Nat} {trips : Except SkipReason Nat}
    (h : d ∈ (rangeVerdict options owner span wellFormed perTrip trips).reports) :
    ∃ reason, d.finding = .skipped (some owner) reason := by
  unfold rangeVerdict at h
  split at h
  · split at h
    · exact ⟨_, mem_skip h⟩
    · cases h
  · cases h

theorem mem_valueReports {source : Expr} {expected inferred : Ty}
    (h : d ∈ Infer.valueReports options source expected inferred) :
    d.finding = .mismatch source.id expected inferred := by
  unfold Infer.valueReports at h
  split at h
  · exact List.mem_singleton.mp h ▸ rfl
  · cases h

variable {cs : List Contribution}

theorem mem_unifyEntries {report : Bool} {base : Ty}
    (h : d ∈ (unifyEntries options report base cs).2) :
    ∃ c ∈ cs, ∃ before, d.finding = .constructorElement c.expr before c.type := by
  induction cs generalizing report base with
  | nil => cases h
  | cons c cs ih =>
      simp only [unifyEntries] at h
      split at h
      · exact ⟨c, List.mem_cons_self, base, List.mem_singleton.mp h ▸ rfl⟩
      · obtain ⟨c', hc', hd⟩ := ih h
        exact ⟨c', List.mem_cons_of_mem c hc', hd⟩

theorem mem_unifiedType {report : Bool} (h : d ∈ (unifiedType options report cs).2) :
    ∃ c ∈ cs, ∃ before, d.finding = .constructorElement c.expr before c.type := by
  cases cs with
  | nil => cases h
  | cons c cs =>
      obtain ⟨c', hc', hd⟩ := mem_unifyEntries h
      exact ⟨c', List.mem_cons_of_mem c hc', hd⟩

theorem mem_misfits {base : Ty} (h : d ∈ misfits options base cs) :
    ∃ c ∈ cs, d.finding = .constructorElement c.expr base c.type := by
  obtain ⟨c, hc, rfl⟩ := List.mem_map.mp h
  exact ⟨c, (List.mem_filter.mp hc).1, rfl⟩

theorem mem_storeReports {node : Node} {expected built : Ty}
    (h : d ∈ storeReports options node cs expected built) :
    d.finding = .mismatch node.id expected built ∨
      ∃ c ∈ cs, ∃ base, d.finding = .constructorElement c.expr base c.type := by
  unfold storeReports at h
  split at h
  · cases h
  · cases expected with
    | array base size =>
        simp only at h
        split at h
        · obtain ⟨c, hc, hd⟩ := mem_misfits h
          exact .inr ⟨c, hc, base, hd⟩
        · split at h
          · exact .inl (List.mem_singleton.mp h ▸ rfl)
          · cases h
    | _ =>
        simp only [List.isEmpty_nil, Bool.not_true, Bool.false_eq_true, ite_false] at h
        split at h
        · exact .inl (List.mem_singleton.mp h ▸ rfl)
        · cases h

/-- A constructor reports its entries, or itself where a type is expected of it. -/
theorem mem_constructorVerdict_reports {node : Node} {expected : Option Ty}
    (h : d ∈ (constructorVerdict options node cs expected).reports) :
    (∃ ty ∈ expected, d.finding =
        .mismatch node.id ty (constructorVerdict options node cs expected).type) ∨
      ∃ c ∈ cs, ∃ base, d.finding = .constructorElement c.expr base c.type := by
  rcases List.mem_append.mp h with h | h
  · exact .inr (mem_unifiedType h)
  · cases expected with
    | none => cases h
    | some ty =>
        rcases mem_storeReports h with hd | hd
        · exact .inl ⟨ty, rfl, hd⟩
        · exact .inr hd

end

/-! ## Reports of steps -/

/-- The node that a report about an entry of the constructor `owner` names. -/
def Entry.handle (owner : NodeId) : Entry → NodeId
  | .plain value => value.id
  | .impliedDo _ _ _ _ _ _ => owner

theorem Entry.contribution_expr (ctx : Context) (loops : List String) (owner : NodeId)
    (entry : Entry) : (entry.verdict ctx loops owner).contribution.expr = entry.handle owner := by
  cases entry with
  | plain value => rfl
  | impliedDo span body loopVariable start stop stride =>
      obtain ⟨count, hcount⟩ :=
        Entry.range_contribution ctx loops owner span body loopVariable start stop stride
      rw [hcount]
      rfl

/-- A note about an entry is about a range, and names the constructor. -/
theorem Entry.mem_verdict_reports {ctx : Context} {loops : List String} {owner : NodeId}
    {entry : Entry} {d : Diagnostic} (h : d ∈ (entry.verdict ctx loops owner).reports) :
    ∃ reason, d.finding = .skipped (some owner) reason := by
  cases entry with
  | plain value => cases h
  | impliedDo span body loopVariable start stop stride => exact mem_rangeVerdict_reports h

/-- A report about an entry names the constructor or the element. -/
theorem Entry.handle_mem (owner : NodeId) {entries : List Entry} {entry : Entry}
    (h : entry ∈ entries) : entry.handle owner ∈ owner :: (entryPostorder entries).map Expr.id := by
  cases entry with
  | impliedDo span body loopVariable start stop stride => exact List.mem_cons_self
  | plain value =>
      refine List.mem_cons_of_mem owner ?_
      induction entries with
      | nil => cases h
      | cons entry rest ih =>
          rw [entryPostorder, List.map_append]
          rcases List.mem_cons.mp h with rfl | h
          · exact List.mem_append_left _ value.id_mem_ids
          · exact List.mem_append_right _ (ih h)

theorem contributions_expr_mem {ctx : Context} {loops : List String} {owner : NodeId}
    {entries : List Entry} {c : Contribution} (h : c ∈ contributions ctx loops owner entries) :
    c.expr ∈ owner :: (entryPostorder entries).map Expr.id := by
  rw [contributions_eq_map] at h
  obtain ⟨entry, hentry, rfl⟩ := List.mem_map.mp h
  rw [entry.contribution_expr]
  exact Entry.handle_mem owner hentry

/-- The kinds of what the rule of an expression reports. -/
def Expr.kinds (expected : Option Ty) : Expr → List FindingKind
  | .literal _ _ => [.literalRange]
  | .unary _ _ _ => [.unaryOperand]
  | .binary _ _ _ _ => [.binaryOperands]
  | .paren _ _ => []
  | .reference _ _ | .element _ _ _ => [.unresolved]
  | .array _ _ => .constructorElement :: if expected.isSome then [.mismatch] else []

/-- The nodes that the rule of an expression reports. -/
def Expr.subjects : Expr → List NodeId
  | .array node entries => node.id :: entries.map (Entry.handle node.id)
  | e => [e.id]

namespace Step

def kinds : Step → List FindingKind
  | node _ expected e => e.kinds expected
  | subscript _ _ => [.subscript]
  | loopControl _ _ => [.loopControl]
  | range _ _ _ | entity _ => [.skipped]
  | target _ => []
  | value _ _ => [.mismatch]

def subjects : Step → List NodeId
  | node _ _ e => e.subjects
  | subscript _ e | loopControl _ e => [e.id]
  | range _ owner _ => [owner]
  | entity _ | target _ => []
  | value _ source => [source.id]

/-- A diagnostic of one of the kinds, about one of the nodes or none at all. -/
def Admits (step : Step) (d : Diagnostic) : Prop :=
  d.finding.kind ∈ step.kinds ∧ ∀ id, d.finding.expr? = some id → id ∈ step.subjects

theorem admits_node {ctx : Context} {loops : List String} {expected : Option Ty} {e : Expr}
    {d : Diagnostic} (h : d ∈ (e.verdict ctx loops expected).reports) :
    (node loops expected e).Admits d := by
  unfold Admits
  cases e with
  | literal node value =>
      obtain ⟨text, kind, -, hd⟩ := Verdict.mem_literal_reports h
      simp [hd, Finding.kind, Finding.expr?, kinds, Expr.kinds, subjects, Expr.subjects, Expr.id,
        Expr.node]
  | unary node op operand =>
      have hd := Verdict.mem_unary_reports h
      simp [hd, Finding.kind, Finding.expr?, kinds, Expr.kinds, subjects, Expr.subjects, Expr.id,
        Expr.node]
  | binary node op left right =>
      have hd := Verdict.mem_binary_reports h
      simp [hd, Finding.kind, Finding.expr?, kinds, Expr.kinds, subjects, Expr.subjects, Expr.id,
        Expr.node]
  | paren node inner => cases h
  | reference node name =>
      have hd := Verdict.mem_inScope_reports h
      simp [hd, Finding.kind, Finding.expr?, kinds, Expr.kinds, subjects, Expr.subjects, Expr.id,
        Expr.node]
  | element node name subscripts =>
      have hd := Verdict.mem_inScope_reports h
      simp [hd, Finding.kind, Finding.expr?, kinds, Expr.kinds, subjects, Expr.subjects, Expr.id,
        Expr.node]
  | array node entries =>
      rcases mem_constructorVerdict_reports h with ⟨ty, rfl, hd⟩ | ⟨c, hc, base, hd⟩
      · simp [hd, Finding.kind, Finding.expr?, kinds, Expr.kinds, subjects, Expr.subjects]
      · rw [contributions_eq_map] at hc
        obtain ⟨entry, hentry, rfl⟩ := List.mem_map.mp hc
        refine ⟨by simp [hd, Finding.kind, kinds, Expr.kinds], ?_⟩
        simp only [hd, Finding.expr?, Option.some.injEq, forall_eq', Entry.contribution_expr]
        exact List.mem_cons_of_mem _ (List.mem_map_of_mem hentry)

/-- What a step reports is of its kinds and about its subjects. -/
theorem admits {ctx : Context} {step : Step} {d : Diagnostic} (h : d ∈ step.reports ctx) :
    step.Admits d := by
  cases step with
  | node loops expected e => exact admits_node h
  | subscript loops e =>
      have hd := Verdict.mem_nonInteger h
      simp [Admits, hd, Finding.kind, Finding.expr?, kinds, subjects, Expr.id]
  | loopControl loops e =>
      have hd := Verdict.mem_nonInteger h
      simp [Admits, hd, Finding.kind, Finding.expr?, kinds, subjects, Expr.id]
  | range loops owner entry =>
      obtain ⟨reason, hd⟩ := entry.mem_verdict_reports h
      simp [Admits, hd, Finding.kind, Finding.expr?, kinds, subjects]
  | entity declared =>
      obtain ⟨reason, hd⟩ := mem_entityVerdict_reports h
      simp [Admits, hd, Finding.kind, Finding.expr?, kinds]
  | target e => cases h
  | value expected source =>
      have hd := mem_valueReports h
      simp [Admits, hd, Finding.kind, Finding.expr?, kinds, subjects]

variable {ctx : Context} {kind : FindingKind}

theorem ofKind_reports_eq_nil {step : Step} (h : kind ∉ step.kinds) :
    ofKind kind (step.reports ctx) = [] := by
  refine ofKind_eq_nil fun d hd hkind => ?_
  exact h (hkind ▸ (admits hd).1)

theorem ofKind_diagnostics_eq_nil {steps : List Step} (h : ∀ step ∈ steps, kind ∉ step.kinds) :
    ofKind kind (diagnostics ctx steps) = [] := by
  rw [diagnostics, ofKind_flatMap, List.flatMap_eq_nil_iff]
  exact fun step hstep => ofKind_reports_eq_nil (h step hstep)

/-- Where the reports of a kind belong to some of the steps, so do the diagnostics of this kind. -/
theorem ofKind_diagnostics {α : Type} {steps : List Step} (listed : Step → Option α)
    (faults : α → List Diagnostic)
    (h : ∀ step ∈ steps, ofKind kind (step.reports ctx) = (listed step).elim [] faults) :
    ofKind kind (diagnostics ctx steps) = (steps.filterMap listed).flatMap faults := by
  rw [diagnostics, ofKind_flatMap]
  induction steps with
  | nil => rfl
  | cons step steps ih =>
      obtain ⟨hstep, hsteps⟩ := List.forall_mem_cons.mp h
      rw [List.flatMap_cons, ih hsteps, List.filterMap_cons, hstep]
      cases listed step <;> simp

end Step

end FortranTyping

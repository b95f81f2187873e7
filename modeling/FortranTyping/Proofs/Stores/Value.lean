import FortranTyping.Proofs.Constructor.Fold
import FortranTyping.Proofs.Reports.Locality

/-!
# The check of a stored value

A value that does not fit its variable is reported once: as a whole if it is not a constructor, and
else by the constructor itself, as a whole or entry by entry. Nothing within a value that is stored
is held against the type of the variable.
-/

namespace FortranTyping

open scoped List

/-! ## Steps that store nothing -/

/-- None of the steps holds a value against the type of a variable. -/
def Storeless (steps : List Step) : Prop :=
  ∀ step ∈ steps, .mismatch ∉ step.kinds

namespace Storeless

variable {steps rest : List Step}

theorem nil : Storeless [] := by
  intro step hstep
  cases hstep

theorem append (h : Storeless steps) (hrest : Storeless rest) : Storeless (steps ++ rest) := by
  intro step hstep
  rcases List.mem_append.mp hstep with hstep | hstep
  · exact h step hstep
  · exact hrest step hstep

theorem snoc {step : Step} (h : Storeless steps) (hstep : .mismatch ∉ step.kinds) :
    Storeless (steps ++ [step]) := by
  refine h.append fun step' hstep' => ?_
  cases List.mem_singleton.mp hstep'
  exact hstep

theorem ofKind_eq_nil (h : Storeless steps) (ctx : Context) :
    ofKind .mismatch (Step.diagnostics ctx steps) = [] :=
  Step.ofKind_diagnostics_eq_nil h

end Storeless

mutual

/-- Only a constructor pays attention to the type that is expected of it. -/
theorem Expr.storeless_steps (loops : List String) {expected : Option Ty} :
    (e : Expr) → expected = none ∨ e.isArrayConstructor = false →
      Storeless (e.steps loops expected)
  | .literal _ _, _ | .reference _ _, _ => Storeless.nil.snoc (by simp [Step.kinds, Expr.kinds])
  | .unary _ _ operand, _ =>
      (operand.storeless_steps loops (.inl rfl)).snoc (by simp [Step.kinds, Expr.kinds])
  | .binary _ _ left right, _ =>
      ((left.storeless_steps loops (.inl rfl)).append
        (right.storeless_steps loops (.inl rfl))).snoc (by simp [Step.kinds, Expr.kinds])
  | .paren _ inner, h =>
      (inner.storeless_steps loops h).snoc (by simp [Step.kinds, Expr.kinds])
  | .element _ _ subscripts, _ =>
      (storeless_subscriptSteps loops subscripts).snoc (by simp [Step.kinds, Expr.kinds])
  | .array node entries, h => by
      obtain rfl : expected = none := h.resolve_right (by simp [Expr.isArrayConstructor, Expr.bare])
      exact (storeless_entrySteps loops node.id entries).snoc (by simp [Step.kinds, Expr.kinds])
termination_by structural e => e

theorem storeless_subscriptSteps (loops : List String) :
    (subscripts : List Expr) → Storeless (subscriptSteps loops subscripts)
  | [] => .nil
  | e :: rest =>
      ((e.storeless_steps loops (.inl rfl)).snoc (by simp [Step.kinds])).append
        (storeless_subscriptSteps loops rest)
termination_by structural subscripts => subscripts

theorem Entry.storeless_steps (loops : List String) (owner : NodeId) :
    (entry : Entry) → Storeless (entry.steps loops owner)
  | .plain value => value.storeless_steps loops (.inl rfl)
  | .impliedDo _ body _ start stop stride =>
      ((((storeless_entrySteps _ owner body).append
        ((start.storeless_steps loops (.inl rfl)).snoc (by simp [Step.kinds]))).append
          ((stop.storeless_steps loops (.inl rfl)).snoc (by simp [Step.kinds]))).append
            (storeless_strideSteps loops stride)).snoc (by simp [Step.kinds])
termination_by structural entry => entry

theorem storeless_strideSteps (loops : List String) :
    (stride : Option Expr) → Storeless (strideSteps loops stride)
  | none => .nil
  | some stride => (stride.storeless_steps loops (.inl rfl)).snoc (by simp [Step.kinds])
termination_by structural stride => stride

theorem storeless_entrySteps (loops : List String) (owner : NodeId) :
    (entries : List Entry) → Storeless (entrySteps loops owner entries)
  | [] => .nil
  | entry :: rest =>
      (entry.storeless_steps loops owner).append (storeless_entrySteps loops owner rest)
termination_by structural entries => entries

end

/-! ## The rule of a stored constructor -/

section

variable {options : Options} {cs : List Contribution}

/-- Entries that unify are not reported as breaks. -/
theorem unifyEntries_of_known (report : Bool) {base : Ty}
    (h : ((cs.map Contribution.type).foldl Ty.unify base).isUnknown = false) :
    (unifyEntries options report base cs).2 = [] := by
  induction cs generalizing report base with
  | nil => rfl
  | cons c cs ih =>
      have hunified : (base.unify c.type).isUnknown = false := by
        by_contra hbroken
        rw [Bool.not_eq_false] at hbroken
        have hall := Ty.foldl_unify_isUnknown (cs.map Contribution.type) hbroken
        exact Bool.false_ne_true (h.symm.trans hall)
      simpa [unifyEntries, hunified] using ih report h

theorem unifiedType_of_known (report : Bool)
    (h : ∀ ty ∈ Ty.unifyAll (cs.map Contribution.type), ty.isUnknown = false) :
    (unifiedType options report cs).2 = [] := by
  cases cs with
  | nil => rfl
  | cons c cs => exact unifyEntries_of_known report (h _ rfl)

variable (options) (node : Node) (cs) {expected built : Ty}

theorem storeReports_of_accepts (h : expected.accepts built = true) :
    storeReports options node cs expected built = [] := by
  unfold storeReports
  exact if_pos h

/-- A constructor that the variable does not take is reported entry by entry or as a whole. -/
theorem storeReports_of_refused (h : expected.accepts built = false) :
    (∃ base, storeReports options node cs expected built = misfits options base cs ∧
        misfits options base cs ≠ []) ∨
      storeReports options node cs expected built =
        if options.reports [built] then [.of node.span (.mismatch node.id expected built)]
        else [] := by
  unfold storeReports
  rw [if_neg (by simp [h])]
  cases expected with
  | array base size =>
      by_cases hmisfits : misfits options base cs = []
      · right
        simp [hmisfits]
      · left
        exact ⟨base, by simp [hmisfits], hmisfits⟩
  | _ => exact .inr rfl

/-- There is at most one report about the whole. -/
theorem storeReports_mismatches :
    ofKind .mismatch (storeReports options node cs expected built) <+
      [.of node.span (.mismatch node.id expected built)] := by
  cases haccepts : expected.accepts built with
  | true =>
      rw [storeReports_of_accepts options cs node haccepts]
      exact List.nil_sublist _
  | false =>
      rcases storeReports_of_refused options cs node haccepts with
        ⟨base, hmisfits, -⟩ | hwhole
      · rw [hmisfits, ofKind_eq_nil]
        · exact List.nil_sublist _
        · intro d hd
          obtain ⟨c, -, hd⟩ := mem_misfits hd
          simp [hd, Finding.kind]
      · rw [hwhole]
        split
        · exact List.filter_sublist
        · exact List.nil_sublist _

variable (expected) in
theorem constructorVerdict_mismatches :
    ofKind .mismatch (constructorVerdict options node cs (some expected)).reports <+
      [.of node.span (.mismatch node.id expected
        (constructorVerdict options node cs (some expected)).type)] := by
  have hunified : ∀ report, ofKind .mismatch (unifiedType options report cs).2 = [] := by
    intro report
    refine ofKind_eq_nil fun d hd => ?_
    obtain ⟨c, -, before, hd⟩ := mem_unifiedType hd
    simp [hd, Finding.kind]
  simp only [constructorVerdict, ofKind_append, hunified, List.nil_append, Option.elim_some]
  exact storeReports_mismatches options cs node

/-- A constructor that the variable takes reports nothing. -/
theorem constructorVerdict_reports_of_accepts
    (hbuilt : (constructorVerdict options node cs (some expected)).type = built)
    (h : expected.accepts built = true) :
    (constructorVerdict options node cs (some expected)).reports = [] := by
  have hknown := Ty.known_of_accepts h
  rw [← hbuilt, constructorVerdict_type] at hknown
  have hunified : ∀ report, (unifiedType options report cs).2 = [] := fun report =>
    unifiedType_of_known report fun ty hty =>
      Ty.isUnknown_of_isScalar (isScalar_of_builtType hknown ty hty)
  have hstore := storeReports_of_accepts options cs node h
  rw [← hbuilt] at hstore
  simp only [constructorVerdict, hunified, List.nil_append, Option.elim_some]
  exact hstore

/-- A constructor of known type that the variable does not take reports something. -/
theorem constructorVerdict_reports_ne_nil
    (hbuilt : (constructorVerdict options node cs (some expected)).type = built)
    (hknown : built.isUnknown = false) (h : expected.accepts built = false) :
    (constructorVerdict options node cs (some expected)).reports ≠ [] := by
  have hreports : options.reports [built] = true := options.reports_of_known (by simpa using hknown)
  have hstore : storeReports options node cs expected built ≠ [] := by
    rcases storeReports_of_refused options cs node h with
      ⟨base, hmisfits, hsome⟩ | hwhole
    · rw [hmisfits]
      exact hsome
    · rw [hwhole, if_pos hreports]
      exact List.cons_ne_nil _ _
  rw [← hbuilt] at hstore
  simp only [constructorVerdict, Option.elim_some]
  exact List.append_ne_nil_of_right_ne_nil _ hstore

end

/-! ## Reports about a stored value -/

theorem valueReports_of_plain {options : Options} (hquiet : options.suppressCascades = true)
    {source : Expr} (h : source.isArrayConstructor = false) (expected actual : Ty) :
    Infer.valueReports options source expected actual =
      if actual.isUnknown || expected.accepts actual then []
      else [.of source.span (.mismatch source.id expected actual)] := by
  simp only [Infer.valueReports, h, reports_singleton hquiet]
  cases actual.isUnknown <;> cases expected.accepts actual <;> rfl

theorem Expr.verdict_bare_type (ctx : Context) (loops : List String) (expected : Option Ty) :
    (e : Expr) → (e.verdict ctx loops expected).type = (e.bare.verdict ctx loops expected).type
  | .paren _ inner => inner.verdict_bare_type ctx loops expected
  | .literal _ _ | .unary _ _ _ | .binary _ _ _ _ | .reference _ _ | .element _ _ _
  | .array _ _ => rfl

theorem Expr.exists_of_isArrayConstructor {source : Expr} (h : source.isArrayConstructor = true) :
    ∃ node entries, source.bare = .array node entries := by
  unfold isArrayConstructor at h
  split at h
  · exact ⟨_, _, ‹_›⟩
  · cases h

/-- A constructor is an array or unknown, under its parentheses too. -/
theorem Expr.isArrayConstructor_of_isScalar {ctx : Context} {loops : List String}
    {expected : Option Ty} {e : Expr} (h : (e.verdict ctx loops expected).type.isScalar = true) :
    e.isArrayConstructor = false := by
  by_contra hconstructor
  obtain ⟨node, entries, hbare⟩ :=
    Expr.exists_of_isArrayConstructor (eq_true_of_ne_false hconstructor)
  rw [e.verdict_bare_type, hbare, verdict, constructorVerdict_type] at h
  obtain ⟨whole, n, hbuilt, -, -⟩ := builtType_of_known (Ty.isUnknown_of_isScalar h)
  rw [hbuilt] at h
  cases h

/-- A scalar has no entries of its own to report. -/
theorem Expr.kinds_of_isScalar {ctx : Context} {loops : List String} {expected : Option Ty}
    {e : Expr} (h : (e.verdict ctx loops expected).type.isScalar = true) :
    .constructorElement ∉ e.kinds expected := by
  cases e with
  | array node entries => cases Expr.isArrayConstructor_of_isScalar h
  | _ => simp [kinds]

namespace StoredValue

/-- The type of the value, as the variable asks for it. -/
def inferred (ctx : Context) (stored : StoredValue) : Ty :=
  (stored.source.verdict ctx [] (some stored.expected)).type

variable {ctx : Context} {stored : StoredValue}

theorem typedIds_steps : typedIds (Task.store stored).steps = stored.source.ids := by
  simp [Task.ids, Task.expressions]

/-- The mismatches about a value that is no constructor are those of its own check. -/
theorem mismatches_eq_valueReports (h : stored.source.isArrayConstructor = false) :
    ofKind .mismatch (Step.diagnostics ctx (Task.store stored).steps) =
      Infer.valueReports ctx.options stored.source stored.expected (stored.inferred ctx) := by
  have hsource : ofKind .mismatch (Step.diagnostics ctx
      (stored.source.steps [] (some stored.expected))) = [] :=
    (stored.source.storeless_steps [] (.inr h)).ofKind_eq_nil ctx
  have hvalue : Step.diagnostics ctx [.value stored.expected stored.source] =
      Infer.valueReports ctx.options stored.source stored.expected (stored.inferred ctx) := by
    simp [Step.diagnostics, Step.reports, inferred]
  rw [Task.steps, Step.diagnostics_append, ofKind_append, hsource, List.nil_append, hvalue,
    ofKind_eq_self fun d hd => by rw [mem_valueReports hd]; rfl]

/-- A value that is no constructor is reported once if its type is known and not accepted. -/
theorem mismatches_of_plain (hquiet : ctx.options.suppressCascades = true)
    (h : stored.source.isArrayConstructor = false) :
    ofKind .mismatch (Step.diagnostics ctx (Task.store stored).steps) =
      if (stored.inferred ctx).isUnknown || stored.expected.accepts (stored.inferred ctx) then []
      else [.of stored.source.span (.mismatch stored.source.id stored.expected
        (stored.inferred ctx))] := by
  rw [mismatches_eq_valueReports h, valueReports_of_plain hquiet h]

/-- A scalar is reported unless it is accepted, even where unknown types are. -/
theorem mismatches_of_isScalar (h : (stored.inferred ctx).isScalar = true) :
    ofKind .mismatch (Step.diagnostics ctx (Task.store stored).steps) =
      if stored.expected.accepts (stored.inferred ctx) then []
      else [.of stored.source.span (.mismatch stored.source.id stored.expected
        (stored.inferred ctx))] := by
  have hplain := Expr.isArrayConstructor_of_isScalar h
  have hreports : ctx.options.reports [stored.inferred ctx] = true :=
    ctx.options.reports_of_known (by simpa using Ty.isUnknown_of_isScalar h)
  rw [mismatches_eq_valueReports hplain]
  simp only [Infer.valueReports, hplain, hreports]
  cases stored.expected.accepts (stored.inferred ctx) <;> rfl

variable {node : Node} {entries : List Entry} (hsource : stored.source.bare = .array node entries)
include hsource

theorem inferred_of_bare : stored.inferred ctx =
    ((Expr.array node entries).verdict ctx [] (some stored.expected)).type := by
  rw [inferred, Expr.verdict_bare_type, hsource]

/-- The reports of all that is within a constructor, then its own. -/
theorem diagnostics_of_bare :
    Step.diagnostics ctx (Task.store stored).steps =
      Step.diagnostics ctx (entrySteps [] node.id entries) ++
        ((Expr.array node entries).verdict ctx [] (some stored.expected)).reports := by
  obtain ⟨rest, hsteps, hrest⟩ := Expr.storedSteps_of_bare ctx hsource stored.expected
  rw [Task.steps, hsteps, Step.diagnostics_append, Step.diagnostics_append, hrest, List.append_nil]
  simp [Step.diagnostics, Step.reports]

theorem mismatches_of_bare :
    ofKind .mismatch (Step.diagnostics ctx (Task.store stored).steps) <+
      [.of node.span (.mismatch node.id stored.expected (stored.inferred ctx))] := by
  have hentries := (storeless_entrySteps [] node.id entries).ofKind_eq_nil ctx
  rw [diagnostics_of_bare hsource, ofKind_append, hentries, List.nil_append,
    inferred_of_bare hsource]
  exact constructorVerdict_mismatches _ _ _ _

/-- The elements of a constructor that the variable takes are scalars. -/
theorem isScalar_of_accepts (h : stored.expected.accepts (stored.inferred ctx) = true)
    {value : Expr} (hmem : .plain value ∈ entries) :
    (value.verdict ctx [] none).type.isScalar = true := by
  have hknown := Ty.known_of_accepts h
  have htypes : (value.verdict ctx [] none).type ∈
      (contributions ctx [] node.id entries).map Contribution.type := by
    rw [contributions_eq_map, List.map_map]
    exact List.mem_map.mpr ⟨.plain value, hmem, rfl⟩
  rw [inferred_of_bare hsource, Expr.verdict, constructorVerdict_type] at hknown
  exact Ty.isScalar_of_unifyAll (isScalar_of_builtType hknown) htypes

/-- Within a constructor that the variable takes, no entry is reported as one. -/
theorem entries_not_names (distinct : Distinct (Task.store stored).steps)
    (h : stored.expected.accepts (stored.inferred ctx) = true) {id : NodeId}
    (hid : id ∈ (Expr.array node entries).subjects) :
    ¬Names (ofKind .constructorElement
      (Step.diagnostics ctx (entrySteps [] node.id entries))) id := by
  obtain ⟨rest, hsteps, -⟩ := Expr.storedSteps_of_bare ctx hsource stored.expected
  rw [Task.steps, hsteps] at distinct
  have howner : ¬Names (ofKind .constructorElement
      (Step.diagnostics ctx (entrySteps [] node.id entries))) node.id := by
    rintro ⟨d, hd, hexpr⟩
    have hwithin := (supported_entrySteps [] node.id entries).mem_typedIds (by decide) hd hexpr
    exact distinct.disjoint hwithin (mem_typedIds List.mem_cons_self)
  rcases List.mem_cons.mp hid with rfl | hid
  · exact howner
  · obtain ⟨entry, hentry, rfl⟩ := List.mem_map.mp hid
    cases entry with
    | impliedDo span body loopVariable start stop stride => exact howner
    | plain value =>
        -- the steps of the other entries type other nodes, and an element does not report itself
        have hblocks := distinct.left
        rw [entrySteps_eq_flatMap] at hblocks ⊢
        have hvalue : [value.id] ⊆ typedIds ((Entry.plain value).steps [] node.id) := by
          simp [Entry.steps, value.id_mem_ids]
        rw [Entry.handle, names_iff, about_flatMap (Entry.supported_steps [] node.id) (by decide)
          hblocks hentry hvalue, ← names_iff]
        exact Expr.not_names_self (by decide)
          (Expr.kinds_of_isScalar (isScalar_of_accepts hsource h hentry))
          (hblocks.of_mem_flatMap hentry)

/-- Nothing is reported about a constructor that the variable takes, nor about its entries. -/
theorem not_names_of_accepts (distinct : Distinct (Task.store stored).steps)
    (h : stored.expected.accepts (stored.inferred ctx) = true) {kind : FindingKind}
    (hkind : kind = .mismatch ∨ kind = .constructorElement) {id : NodeId}
    (hid : id ∈ (Expr.array node entries).subjects) :
    ¬Names (ofKind kind (Step.diagnostics ctx (Task.store stored).steps)) id := by
  have hown := constructorVerdict_reports_of_accepts _ _ _ (inferred_of_bare hsource).symm h
  rw [diagnostics_of_bare hsource, Expr.verdict, hown, List.append_nil]
  rcases hkind with rfl | rfl
  · rw [(storeless_entrySteps [] node.id entries).ofKind_eq_nil ctx]
    rintro ⟨d, hd, -⟩
    cases hd
  · exact entries_not_names hsource distinct h hid

/-- A constructor of known type that the variable does not take is reported, or an entry of it. -/
theorem names_of_refused (hknown : (stored.inferred ctx).isUnknown = false)
    (h : stored.expected.accepts (stored.inferred ctx) = false) :
    ∃ id ∈ (Expr.array node entries).subjects, ∃ kind,
      (kind = .mismatch ∨ kind = .constructorElement) ∧
        Names (ofKind kind (Step.diagnostics ctx (Task.store stored).steps)) id := by
  have hsome : ((Expr.array node entries).verdict ctx [] (some stored.expected)).reports ≠ [] :=
    constructorVerdict_reports_ne_nil _ _ _ (inferred_of_bare hsource).symm hknown h
  obtain ⟨d, hd⟩ := List.exists_mem_of_ne_nil _ hsome
  obtain ⟨hkinds, hsubjects⟩ := Step.admits_node hd
  have hkind : d.finding.kind = .mismatch ∨ d.finding.kind = .constructorElement := by
    simpa [Step.kinds, Expr.kinds, or_comm] using hkinds
  have hskipped : d.finding.kind ≠ .skipped := by
    rcases hkind with hkind | hkind <;> simp [hkind]
  obtain ⟨id, hid⟩ := Finding.exists_expr hskipped
  refine ⟨id, hsubjects id hid, d.finding.kind, hkind, d, ?_, hid⟩
  rw [diagnostics_of_bare hsource]
  exact mem_ofKind.mpr ⟨List.mem_append_right _ hd, rfl⟩

end StoredValue

end FortranTyping

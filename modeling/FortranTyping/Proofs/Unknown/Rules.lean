import FortranTyping.Proofs.Constructor.Fold
import FortranTyping.Proofs.Reports.Findings

/-!
# Rules that leave a type unknown

Where the rule of a node gives an unknown type, it has reported so, or a part of the node is unknown
already. The exceptions are declarations without a type, empty constructors, constructors of arrays
and constructors without a size.
-/

namespace FortranTyping

namespace Verdict

variable {options : Options}

theorem literal_known (node : Node) (value : Literal) :
    (literal node value).type.isUnknown = false := by
  cases value with
  | integer text =>
      simp only [literal]
      split <;> rfl
  | _ => rfl

theorem unary_isUnknown (node : Node) (op : UnaryOp) {operand : Ty}
    (h : (unary options node op operand).type.isUnknown = true) :
    operand.isUnknown = true ∨ Names (unary options node op operand).reports node.id := by
  cases hknown : operand.isUnknown with
  | true => exact .inl rfl
  | false =>
      right
      have hreports : options.reports [operand] = true :=
        options.reports_of_known (by simpa using hknown)
      by_cases hallows : op.allows operand = true
      · rw [unary, if_pos hallows] at h
        exact absurd (hknown.symm.trans h) Bool.false_ne_true
      · have heq : unary options node op operand =
            fault node.span (.unaryOperand node.id op operand) := by
          rw [unary, if_neg hallows, if_pos hreports]
        exact .of_eq_singleton (congrArg Verdict.reports heq) rfl

theorem binary_isUnknown (node : Node) (op : BinaryOp) {left right : Ty}
    (h : (binary options node op left right).type.isUnknown = true) :
    left.isUnknown = true ∨ right.isUnknown = true ∨
      Names (binary options node op left right).reports node.id := by
  cases hleft : left.isUnknown with
  | true => exact .inl rfl
  | false =>
      cases hright : right.isUnknown with
      | true => exact .inr (.inl rfl)
      | false =>
          right; right
          have hreports : options.reports [left, right] = true :=
            options.reports_of_known (by simp [hleft, hright])
          cases hallows : op.allows left right with
          | true =>
              cases hrelation : op.isRelation with
              | true =>
                  cases op with
                  | relation rel =>
                      simp [binary, hallows, clean, BinaryOp.result, Ty.isUnknown] at h
                  | _ => cases hrelation
              | false => simp_all [binary, BinaryOp.allows, clean]
          | false =>
              simp only [binary, hallows, hreports, Bool.not_true, Bool.or_self, Bool.false_eq_true,
                ite_false]
              split <;> exact .of_eq_singleton rfl rfl

/-- A reference is unknown if it is reported, or if the declaration that it means has no type. -/
theorem inScope_isUnknown {ctx : Context} (hunresolved : ctx.options.reportUnresolved = true)
    (loops : List String) (node : Node) (designator : Designator)
    (h : (inScope ctx loops node designator).type.isUnknown = true) :
    Names (inScope ctx loops node designator).reports node.id ∨
      ∃ declared reason, ctx.resolver.find designator = some declared ∧
        declared.type ctx.options = .error reason := by
  unfold inScope at h ⊢
  split at h
  · cases h
  · rename_i hfree
    rw [if_neg hfree]
    cases hfind : ctx.resolver.find designator with
    | none =>
        left
        simp only [reference, hunresolved, ite_true]
        exact .of_eq_singleton rfl rfl
    | some declared =>
        cases htype : declared.type ctx.options with
        | error reason => exact .inr ⟨declared, reason, rfl, htype⟩
        | ok ty =>
            obtain ⟨hty, helement⟩ := declared.type_known htype
            simp only [hfind, reference, htype, clean] at h
            split at h
            · exact absurd (helement.symm.trans h) Bool.false_ne_true
            · exact absurd (hty.symm.trans h) Bool.false_ne_true

/-- A bound or stride that is not an integer is reported, unless it is unknown. -/
theorem nonInteger_names (options : Options) (finding : NodeId → Ty → Finding)
    (hfinding : ∀ id ty, (finding id ty).expr? = some id) (node : Node) {ty : Ty}
    (hknown : ty.isUnknown = false) (h : ty ≠ .integer) :
    Names (nonInteger options finding node ty) node.id := by
  have hreports : options.reports [ty] = true := options.reports_of_known (by simpa using hknown)
  rw [nonInteger, if_pos ⟨h, hreports⟩]
  exact .of_eq_singleton rfl (hfinding _ _)

end Verdict

/-! ## Constructors -/

variable (options : Options)

/-- Where known types do not unify, the first break is reported. -/
theorem unifyEntries_names {base : Ty} {cs : List Contribution} (hbase : base.isUnknown = false)
    (hcs : ∀ c ∈ cs, c.type.isUnknown = false)
    (h : ((cs.map Contribution.type).foldl Ty.unify base).isUnknown = true) :
    ∃ c ∈ cs, Names (unifyEntries options true base cs).2 c.expr := by
  induction cs generalizing base with
  | nil => exact absurd (hbase.symm.trans h) Bool.false_ne_true
  | cons c cs ih =>
      obtain ⟨hc, hrest⟩ := List.forall_mem_cons.mp hcs
      have hreports : options.reports [base, c.type] = true :=
        options.reports_of_known (by simp [hbase, hc])
      cases hunified : (base.unify c.type).isUnknown with
      | true =>
          refine ⟨c, List.mem_cons_self, ?_⟩
          simp only [unifyEntries, hunified, hreports, Bool.and_true, ite_true]
          exact .of_eq_singleton rfl rfl
      | false =>
          obtain ⟨c', hc', hnames⟩ := ih hunified hrest h
          refine ⟨c', List.mem_cons_of_mem c hc', ?_⟩
          simpa [unifyEntries, hunified] using hnames

/-- Entries that do not make up a scalar cannot all fit where a scalar is expected of each. -/
theorem exists_misfit {base whole : Ty} (hbase : base.isScalar = true) {cs : List Contribution}
    (hwhole : Ty.unifyAll (cs.map Contribution.type) = some whole)
    (h : whole.isScalar = false) : ∃ c ∈ cs, base.accepts c.type = false := by
  by_contra hnone
  have hall : ∀ c ∈ cs, base.accepts c.type = true := by simpa using hnone
  cases cs with
  | nil => cases hwhole
  | cons c cs =>
      cases hwhole
      obtain ⟨hc, hcs⟩ := List.forall_mem_cons.mp hall
      have hscalar := Ty.isScalar_foldl_unify_of_accepts hbase hc (List.forall_mem_map.mpr hcs)
      exact absurd (h.symm.trans hscalar) Bool.false_ne_true

theorem storeReports_names (node : Node) (base : Ty) (size : Nat) {built : Ty}
    (hbuilt : built.isUnknown = true) {cs : List Contribution} {c : Contribution} (hc : c ∈ cs)
    (hknown : c.type.isUnknown = false) (hmisfit : base.accepts c.type = false) :
    Names (storeReports options node cs (.array base size) built) c.expr := by
  have hreports : options.reports [c.type] = true :=
    options.reports_of_known (by simpa using hknown)
  have hmem : Diagnostic.of c.span (.constructorElement c.expr base c.type) ∈
      misfits options base cs :=
    List.mem_map_of_mem (List.mem_filter.mpr ⟨hc, by simp [hmisfit, hreports]⟩)
  have hsome : (misfits options base cs).isEmpty = false := by
    cases hmisfits : misfits options base cs with
    | nil => simp [hmisfits] at hmem
    | cons => rfl
  refine ⟨.of c.span (.constructorElement c.expr base c.type), ?_, rfl⟩
  rw [storeReports, Ty.accepts_eq_false_of_right _ hbuilt]
  simpa [hsome] using hmem

/-- A constructor of known entries whose number is known. -/
theorem constructorVerdict_isUnknown_of_known (node : Node) {cs : List Contribution}
    {expected : Option Ty} (hexpected : ∀ ty ∈ expected, ty.WellFormed)
    (hcs : ∀ c ∈ cs, c.type.isUnknown = false) {whole : Ty}
    (hwhole : Ty.unifyAll (cs.map Contribution.type) = some whole)
    (hscalar : whole.isScalar = false)
    (h : (constructorVerdict options node cs expected).type.isUnknown = true) :
    (∃ c ∈ cs, Names (constructorVerdict options node cs expected).reports c.expr) ∨
      expected.any Ty.isArray = false ∧ ∃ base size, whole = .array base size := by
  cases harray : expected.any Ty.isArray with
  | true =>
      left
      match expected, harray with
      | some (.array base size), _ =>
          obtain ⟨c, hc, hmisfit⟩ := exists_misfit (hexpected _ rfl) hwhole hscalar
          rw [constructorVerdict_type] at h
          obtain ⟨d, hd, hid⟩ := storeReports_names options node base size h hc (hcs c hc) hmisfit
          refine ⟨c, hc, d, ?_, hid⟩
          simp only [constructorVerdict, unifiedType_fst, Option.elim_some]
          exact List.mem_append_right _ hd
  | false =>
      cases whole with
      | array base size => exact .inr ⟨rfl, base, size, rfl⟩
      | unknown cause =>
          left
          cases cs with
          | nil => cases hwhole
          | cons c cs =>
              obtain ⟨hc, hrest⟩ := List.forall_mem_cons.mp hcs
              have hbroken :
                  ((cs.map Contribution.type).foldl Ty.unify c.type).isUnknown = true := by
                rw [Option.some.inj hwhole]
                rfl
              obtain ⟨c', hc', d, hd, hid⟩ := unifyEntries_names options hc hrest hbroken
              refine ⟨c', List.mem_cons_of_mem c hc', d, ?_, hid⟩
              simp only [constructorVerdict, unifiedType, harray, Bool.not_false]
              exact List.mem_append_left _ hd
      | _ => cases hscalar

/-- The ways in which a constructor comes to be unknown. -/
theorem constructorVerdict_isUnknown (node : Node) (cs : List Contribution) {expected : Option Ty}
    (hexpected : ∀ ty ∈ expected, ty.WellFormed)
    (h : (constructorVerdict options node cs expected).type.isUnknown = true) :
    cs = [] ∨ (∃ c ∈ cs, c.type.isUnknown = true) ∨ Contribution.total? cs = none ∨
      (∃ c ∈ cs, Names (constructorVerdict options node cs expected).reports c.expr) ∨
      expected.any Ty.isArray = false ∧
        ∃ base size, Ty.unifyAll (cs.map Contribution.type) = some (.array base size) := by
  by_cases hunknown : ∃ c ∈ cs, c.type.isUnknown = true
  · exact .inr (.inl hunknown)
  · have hcs : ∀ c ∈ cs, c.type.isUnknown = false := by simpa using hunknown
    cases hwhole : Ty.unifyAll (cs.map Contribution.type) with
    | none =>
        cases cs with
        | nil => exact .inl rfl
        | cons => cases hwhole
    | some whole =>
        right; right
        cases hsize : Contribution.total? cs with
        | none => exact .inl rfl
        | some size =>
            right
            have hscalar : whole.isScalar = false := by
              rw [constructorVerdict_type, hwhole, hsize] at h
              simp only [builtType, Ty.arrayOf] at h
              cases hscalar : whole.isScalar with
              | true => simp [hscalar, Ty.isUnknown] at h
              | false => rfl
            rcases constructorVerdict_isUnknown_of_known options node hexpected hcs hwhole hscalar h
              with hnames | ⟨harray, base, size, rfl⟩
            · exact .inl hnames
            · exact .inr ⟨harray, base, size, rfl⟩

end FortranTyping

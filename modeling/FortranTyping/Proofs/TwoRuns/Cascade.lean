import FortranTyping.Proofs.Constructor.Fold
import FortranTyping.Proofs.TwoRuns.Coupling

/-!
# Suppressing cascades

A check that says nothing about what is built from unknown types, beside one that does. Both give
the same types up to causes, and the quiet one reports exactly those diagnostics of the loud one in
which every type is known.
-/

namespace FortranTyping

/-- The types that a finding carries. -/
def Finding.types : Finding → List Ty
  | mismatch _ expected actual => [expected, actual]
  | binaryOperands _ _ left right => [left, right]
  | unaryOperand _ _ operand => [operand]
  | constructorElement _ base element => [base, element]
  | loopControl _ type | subscript _ type => [type]
  | literalRange _ _ _ | unresolved _ _ | skipped _ _ => []

def Diagnostic.mentionsUnknown (d : Diagnostic) : Bool :=
  d.finding.types.any Ty.isUnknown

/-- The diagnostics in which every type is known. -/
def firsthand (ds : List Diagnostic) : List Diagnostic :=
  ds.filter fun d => !d.mentionsUnknown

@[simp] theorem firsthand_nil : firsthand [] = [] := rfl

theorem firsthand_append (ds es : List Diagnostic) :
    firsthand (ds ++ es) = firsthand ds ++ firsthand es :=
  List.filter_append ..

@[simp] theorem firsthand_singleton (span : Span) (finding : Finding) :
    firsthand [.of span finding] =
      if finding.types.any Ty.isUnknown = true then [] else [.of span finding] := by
  simp only [firsthand, Diagnostic.mentionsUnknown, Diagnostic.of, List.filter_cons,
    List.filter_nil]
  cases finding.types.any Ty.isUnknown <;> rfl

theorem firsthand_of_known {span : Span} {finding : Finding}
    (h : finding.types.any Ty.isUnknown = false) :
    firsthand [.of span finding] = [.of span finding] := by
  simp [h]

theorem firsthand_of_unknown {span : Span} {finding : Finding}
    (h : finding.types.any Ty.isUnknown = true) : firsthand [.of span finding] = [] := by
  simp [h]

namespace Options

def quiet (options : Options) : Options :=
  { options with suppressCascades := true }

def loud (options : Options) : Options :=
  { options with suppressCascades := false }

theorem quiet_reports (options : Options) (inputs : List Ty) :
    options.quiet.reports inputs = !inputs.any Ty.isUnknown := by
  simp [reports, quiet]

theorem quiet_skip (options : Options) (span : Span) (expr : Option NodeId)
    (reason : SkipReason) :
    options.quiet.skip span expr reason = firsthand (options.loud.skip span expr reason) := by
  by_cases h : options.reportSkipped = true <;> simp [skip, quiet, loud, h, Finding.types]

theorem loud_reports (options : Options) (inputs : List Ty) :
    options.loud.reports inputs = true := by
  simp [reports, loud]

end Options

/-- The first run is the quiet one. -/
def quietLikeness : Likeness where
  type a a' := a.WellFormed ∧ a.withoutCause = a'.withoutCause
  expected a a' := a = a' ∧ a.WellFormed ∧ a.isUnknown = false
  reports ds ds' := ds = firsthand ds'

namespace quietLikeness

theorem of_unknown {a a' : Ty} (h : a.isUnknown = true) (h' : a'.isUnknown = true) :
    quietLikeness.type a a' :=
  ⟨Ty.wellFormed_of_isUnknown h, Ty.withoutCause_eq_of_isUnknown h h'⟩

theorem of_wellFormed {a : Ty} (h : a.WellFormed) : quietLikeness.type a a :=
  ⟨h, rfl⟩

theorem clean {a a' : Ty} (h : quietLikeness.type a a') :
    quietLikeness.Verdicts (.clean a) (.clean a') :=
  ⟨h, rfl⟩

/-- A fault of known types is reported by both runs. -/
theorem fault {span : Span} {finding : Finding}
    (h : finding.types.any Ty.isUnknown = false) :
    quietLikeness.Verdicts (.fault span finding) (.fault span finding) :=
  ⟨of_wellFormed trivial, (firsthand_of_known h).symm⟩

theorem suppressed_fault {a : Ty} {span : Span} {finding : Finding} (ha : a.isUnknown = true)
    (h : finding.types.any Ty.isUnknown = true) :
    quietLikeness.Verdicts (.clean a) (.fault span finding) :=
  ⟨of_unknown ha rfl, (firsthand_of_unknown h).symm⟩

end quietLikeness

/-! ## Rules -/

variable (options : Options)

theorem quiet_literal (node : Node) (value : Literal) :
    quietLikeness.Verdicts (.literal node value) (.literal node value) := by
  cases value with
  | integer text =>
      simp only [Verdict.literal]
      split <;> exact ⟨⟨trivial, rfl⟩, rfl⟩
  | _ => exact ⟨⟨trivial, rfl⟩, rfl⟩

theorem quiet_unary (node : Node) (op : UnaryOp) {a a' : Ty} (h : quietLikeness.type a a') :
    quietLikeness.Verdicts (.unary options.quiet node op a) (.unary options.loud node op a') := by
  simp only [Verdict.unary, Options.quiet_reports, Options.loud_reports]
  cases hknown : a.isUnknown with
  | false =>
      cases Ty.eq_of_known h.2 hknown
      simp only [List.any_cons, List.any_nil, hknown, Bool.or_false, Bool.not_false, ite_true]
      split
      · exact quietLikeness.clean h
      · exact quietLikeness.fault (by simp [Finding.types, hknown])
  | true =>
      have hknown' := Ty.isUnknown_congr h.2 ▸ hknown
      rw [op.allows_eq_false hknown, op.allows_eq_false hknown']
      simp only [List.any_cons, hknown, Bool.true_or, Bool.not_true, Bool.false_eq_true, ite_false,
        ite_true]
      exact quietLikeness.suppressed_fault rfl (by simp [Finding.types, hknown'])

theorem quiet_binary (node : Node) (op : BinaryOp) {a a' b b' : Ty}
    (ha : quietLikeness.type a a') (hb : quietLikeness.type b b') :
    quietLikeness.Verdicts (.binary options.quiet node op a b)
      (.binary options.loud node op a' b') := by
  simp only [Verdict.binary, Options.quiet_reports, Options.loud_reports]
  by_cases hknown : a.isUnknown = false ∧ b.isUnknown = false
  · obtain ⟨haknown, hbknown⟩ := hknown
    cases Ty.eq_of_known ha.2 haknown
    cases Ty.eq_of_known hb.2 hbknown
    have htypes : (Finding.binaryOperands node.id op a b).types.any Ty.isUnknown = false := by
      simp [Finding.types, haknown, hbknown]
    simp only [List.any_cons, List.any_nil, haknown, hbknown, Bool.or_false, Bool.not_false,
      Bool.not_true]
    split
    · exact quietLikeness.clean (quietLikeness.of_wellFormed (op.result_wellFormed b ha.1))
    · split
      · exact ⟨quietLikeness.of_wellFormed trivial, (firsthand_of_known htypes).symm⟩
      · exact quietLikeness.fault htypes
  · have hsome : a.isUnknown = true ∨ b.isUnknown = true := by
      cases hcase : a.isUnknown <;> simp_all
    have hsome' : a'.isUnknown = true ∨ b'.isUnknown = true := by
      rwa [← Ty.isUnknown_congr ha.2, ← Ty.isUnknown_congr hb.2]
    have hallows := op.allows_eq_false hsome
    have hallows' := op.allows_eq_false hsome'
    have htypes : (Finding.binaryOperands node.id op a' b').types.any Ty.isUnknown = true := by
      simpa [Finding.types] using hsome'
    have hany : [a, b].any Ty.isUnknown = true := by simpa using hsome
    simp only [hallows, hallows', hany, Bool.not_true, Bool.not_false, Bool.or_true, Bool.or_false,
      Bool.false_eq_true, ite_true, ite_false]
    split
    · rename_i hrelation
      cases op with
      | relation => exact ⟨quietLikeness.of_wellFormed trivial, (firsthand_of_unknown htypes).symm⟩
      | _ => cases hrelation
    · rename_i hrelation
      exact quietLikeness.suppressed_fault
        (BinaryOp.result_isUnknown (by simpa using hrelation) hallows) htypes

/-- Declared types do not depend on what is suppressed. -/
theorem quiet_entity (declared : DeclaredEntity) :
    quietLikeness.Verdicts (Infer.entityVerdict options.quiet declared)
      (Infer.entityVerdict options.loud declared) := by
  have htype : declared.type options.quiet = declared.type options.loud := rfl
  unfold Infer.entityVerdict
  rw [htype]
  cases h : declared.type options.loud with
  | ok type => exact quietLikeness.clean (quietLikeness.of_wellFormed (declared.type_wellFormed h))
  | error reason => exact ⟨quietLikeness.of_wellFormed trivial, options.quiet_skip _ _ _⟩

theorem quiet_reference (node : Node) (designator : Designator)
    (found : Option DeclaredEntity) :
    quietLikeness.Verdicts (.reference options.quiet node designator found)
      (.reference options.loud node designator found) := by
  cases found with
  | none =>
      refine ⟨quietLikeness.of_wellFormed trivial, ?_⟩
      by_cases h : options.reportUnresolved = true
      · simp [Verdict.reference, Options.quiet, Options.loud, h, quietLikeness, Finding.types]
      · simp [Verdict.reference, Options.quiet, Options.loud, h, quietLikeness]
  | some declared =>
      have htype : declared.type options.quiet = declared.type options.loud := rfl
      simp only [Verdict.reference, htype]
      cases h : declared.type options.loud with
      | error reason => exact quietLikeness.clean (quietLikeness.of_wellFormed trivial)
      | ok type =>
          have hwf := declared.type_wellFormed h
          simp only
          split
          · exact quietLikeness.clean (quietLikeness.of_wellFormed hwf.element)
          · exact quietLikeness.clean (quietLikeness.of_wellFormed hwf)

/-- A single check of one type, by a finding that carries it. -/
theorem quiet_nonInteger (finding : NodeId → Ty → Finding)
    (htypes : ∀ id ty, (finding id ty).types = [ty]) (node : Node) {a a' : Ty}
    (h : quietLikeness.type a a') :
    Verdict.nonInteger options.quiet finding node a =
      firsthand (Verdict.nonInteger options.loud finding node a') := by
  simp only [Verdict.nonInteger, Options.quiet_reports, Options.loud_reports]
  cases hknown : a.isUnknown with
  | false =>
      cases Ty.eq_of_known h.2 hknown
      by_cases hinteger : a = .integer
      · simp [hinteger]
      · simp [hinteger, hknown, htypes]
  | true =>
      have hknown' := Ty.isUnknown_congr h.2 ▸ hknown
      by_cases hinteger : a' = .integer
      · simp [hinteger, hknown]
      · simp [hinteger, hknown, htypes, hknown']

theorem quiet_range (owner : NodeId) (span : Span) (wellFormed : Bool) (perTrip : Option Nat)
    (trips : Except SkipReason Nat) :
    (rangeVerdict options.quiet owner span wellFormed perTrip trips).reports =
      firsthand (rangeVerdict options.loud owner span wellFormed perTrip trips).reports := by
  cases wellFormed with
  | false => rfl
  | true =>
      cases trips with
      | ok trips => rfl
      | error reason => exact options.quiet_skip span (some owner) reason

theorem quiet_value (source : Expr) {expected a a' : Ty} (hexpected : expected.isUnknown = false)
    (h : quietLikeness.type a a') :
    Infer.valueReports options.quiet source expected a =
      firsthand (Infer.valueReports options.loud source expected a') := by
  simp only [Infer.valueReports, Options.quiet_reports, Options.loud_reports]
  cases hknown : a.isUnknown with
  | false =>
      cases Ty.eq_of_known h.2 hknown
      simp only [List.any_cons, List.any_nil, hknown, Bool.or_false, Bool.not_false]
      split
      · simp [Finding.types, hknown, hexpected]
      · rfl
  | true =>
      have hknown' := Ty.isUnknown_congr h.2 ▸ hknown
      simp only [List.any_cons, hknown, Bool.true_or, Bool.not_true, Bool.and_false, Bool.false_and,
        Bool.false_eq_true, ite_false]
      split
      · simp [Finding.types, hknown']
      · rfl

/-! ## Constructors -/

/-- Only the first break can be reported, and the quiet run reports it if both of its types are
known. Where one is not, the types unified so far stay unknown to the end. -/
theorem quiet_unifyEntries {cs cs' : List Contribution}
    (hcs : List.Forall₂ quietLikeness.Contributions cs cs') (report : Bool) {base base' : Ty}
    (hbase : base.withoutCause = base'.withoutCause) :
    (unifyEntries options.quiet report base cs).2 =
      firsthand (unifyEntries options.loud report base' cs').2 := by
  induction hcs generalizing report base base' with
  | nil => rfl
  | @cons c c' cs cs' hc hcs ih =>
      cases report with
      | false => rw [unifyEntries_unreported, unifyEntries_unreported, firsthand_nil]
      | true =>
          have hunified := Ty.unify_congr hbase hc.type.2
          have hunknown := Ty.isUnknown_congr hunified
          simp only [unifyEntries, Options.quiet_reports, Options.loud_reports, Bool.true_and,
            Bool.and_true, ← hunknown]
          cases hbroken : (base.unify c.type).isUnknown with
          | false => simpa using ih true hunified
          | true =>
              by_cases hknown : base.isUnknown = false ∧ c.type.isUnknown = false
              · obtain ⟨hbaseKnown, htypeKnown⟩ := hknown
                cases Ty.eq_of_known hbase hbaseKnown
                have htype := Ty.eq_of_known hc.type.2 htypeKnown
                simp [hbaseKnown, htypeKnown, Finding.types, ← htype, hc.expr, hc.span]
              · have hany : [base, c.type].any Ty.isUnknown = true := by
                  cases hcase : base.isUnknown <;> simp_all
                have hany' : [base', c'.type].any Ty.isUnknown = true := by
                  simpa [Ty.isUnknown_congr hbase, Ty.isUnknown_congr hc.type.2] using hany
                have hquiet := unifyEntries_of_isUnknown options.quiet rfl true hbroken cs
                simpa [hany, Finding.types, hany'] using hquiet

theorem types_alike {cs cs' : List Contribution}
    (hcs : List.Forall₂ quietLikeness.Contributions cs cs') :
    List.Forall₂ (fun ty ty' : Ty => ty.withoutCause = ty'.withoutCause)
      (cs.map Contribution.type) (cs'.map Contribution.type) := by
  induction hcs with
  | nil => exact .nil
  | cons hc _ ih => exact .cons hc.type.2 ih

theorem quiet_unifiedType {cs cs' : List Contribution}
    (hcs : List.Forall₂ quietLikeness.Contributions cs cs') (report : Bool) :
    (unifiedType options.quiet report cs).2 =
      firsthand (unifiedType options.loud report cs').2 := by
  cases hcs with
  | nil => rfl
  | cons hc hcs => exact quiet_unifyEntries options hcs report hc.type.2

theorem quiet_misfits {cs cs' : List Contribution}
    (hcs : List.Forall₂ quietLikeness.Contributions cs cs') {base : Ty}
    (hbase : base.isUnknown = false) :
    misfits options.quiet base cs = firsthand (misfits options.loud base cs') := by
  induction hcs with
  | nil => rfl
  | @cons c c' cs cs' hc _ ih =>
      rw [misfits_cons, misfits_cons, firsthand_append, ih]
      congr 1
      simp only [Options.quiet_reports, Options.loud_reports,
        ← Ty.accepts_congr base hc.type.2, ← hc.expr, ← hc.span]
      cases hknown : c.type.isUnknown with
      | false =>
          rw [← Ty.eq_of_known hc.type.2 hknown]
          cases base.accepts c.type <;> simp [hknown, hbase, Finding.types]
      | true =>
          have hknown' := Ty.isUnknown_congr hc.type.2 ▸ hknown
          cases base.accepts c.type <;> simp [hknown, hknown', Finding.types]

/-- If all that a loud run says about the entries is about unknown types, the whole is unknown. -/
theorem built_isUnknown_of_misfits {cs : List Contribution} {base : Ty}
    (hbase : base.isUnknown = false) (hsome : misfits options base cs ≠ [])
    (hnone : firsthand (misfits options base cs) = []) (size : Option Nat)
    (expected : Option Ty) :
    (builtType (Ty.unifyAll (cs.map Contribution.type)) size expected).isUnknown = true := by
  obtain ⟨d, hd⟩ := List.exists_mem_of_ne_nil _ hsome
  have hmentions : d.mentionsUnknown = true := by
    simpa using List.filter_eq_nil_iff.mp hnone d hd
  simp only [misfits, List.mem_map, List.mem_filter] at hd
  obtain ⟨c, ⟨hmem, -⟩, rfl⟩ := hd
  have hunknown : c.type.isUnknown = true := by
    simpa [Diagnostic.mentionsUnknown, Diagnostic.of, Finding.types, hbase] using hmentions
  exact builtType_isUnknown hmem hunknown size expected

theorem quiet_whole (node : Node) {expected built built' : Ty}
    (hexpected : expected.isUnknown = false) (h : built.withoutCause = built'.withoutCause) :
    (if options.quiet.reports [built] then
        [Diagnostic.of node.span (.mismatch node.id expected built)] else []) =
      firsthand (if options.loud.reports [built'] then
        [.of node.span (.mismatch node.id expected built')] else []) := by
  simp only [Options.quiet_reports, Options.loud_reports]
  cases hknown : built.isUnknown with
  | false =>
      cases Ty.eq_of_known h hknown
      simp [Finding.types, hknown, hexpected]
  | true =>
      have hknown' := Ty.isUnknown_congr h ▸ hknown
      simp [Finding.types, hknown, hknown']

/-- What is said about the entries hides what would be said about the whole. A loud run that speaks
of unknown entries only has nothing to hide, because the whole is unknown too. -/
theorem quiet_storeReports (node : Node) {cs cs' : List Contribution}
    (hcs : List.Forall₂ quietLikeness.Contributions cs cs') {expected : Ty}
    (hwf : expected.WellFormed) (hexpected : expected.isUnknown = false) (size : Option Nat) :
    storeReports options.quiet node cs expected
        (builtType (Ty.unifyAll (cs.map Contribution.type)) size (some expected)) =
      firsthand (storeReports options.loud node cs' expected
        (builtType (Ty.unifyAll (cs'.map Contribution.type)) size (some expected))) := by
  have hbuilt := builtType_congr (types_alike hcs) size (some expected)
  have hwhole := quiet_whole options node hexpected hbuilt
  unfold storeReports
  rw [← Ty.accepts_congr expected hbuilt]
  cases expected.accepts (builtType (Ty.unifyAll (cs.map Contribution.type)) size
      (some expected)) with
  | true => rfl
  | false =>
      cases expected with
      | array base n =>
          have hmisfits := quiet_misfits options hcs hwf.base_known
          simp only [Bool.false_eq_true, ite_false, hmisfits]
          by_cases hsome : misfits options.loud base cs' = []
          · simpa [hsome] using hwhole
          · by_cases hnone : firsthand (misfits options.loud base cs') = []
            · have hunknown := built_isUnknown_of_misfits options.loud hwf.base_known hsome hnone
                size (some (.array base n))
              rw [← Ty.isUnknown_congr hbuilt] at hunknown
              simp [hsome, hnone, Options.quiet_reports, hunknown]
            · simp [hsome, hnone]
      | _ => simpa using hwhole

theorem quiet_constructor (node : Node) {cs cs' : List Contribution}
    {expected expected' : Option Ty} (hcs : List.Forall₂ quietLikeness.Contributions cs cs')
    (hexpected : Option.Rel quietLikeness.expected expected expected') :
    quietLikeness.Verdicts (constructorVerdict options.quiet node cs expected)
      (constructorVerdict options.loud node cs' expected') := by
  have hsame : expected = expected' := by
    cases hexpected with
    | none => rfl
    | some h => exact congrArg some h.1
  subst hsame
  have hsize := Likeness.total?_eq hcs
  refine ⟨?_, ?_⟩
  · rw [constructorVerdict_type, constructorVerdict_type, hsize]
    exact ⟨builtType_wellFormed _ _ _, builtType_congr (types_alike hcs) _ _⟩
  · have hunified := quiet_unifiedType options hcs (!expected.any Ty.isArray)
    simp only [quietLikeness, constructorVerdict, unifiedType_fst, hsize, firsthand_append,
      hunified]
    cases hexpected with
    | none => rfl
    | some h =>
        simp only [Option.elim_some, quiet_storeReports options node hcs h.2.1 h.2.2]

/-! ## Units -/

theorem quiet_coupling (resolver : Resolver) :
    Coupling quietLikeness ⟨resolver, options.quiet⟩ ⟨resolver, options.loud⟩ where
  nil := rfl
  append hds hes := by
    simp only [quietLikeness] at *
    rw [hds, hes, firsthand_append]
  integer := quietLikeness.of_wellFormed trivial
  unknown _ := quietLikeness.of_wellFormed trivial
  isUnknown_eq h := Ty.isUnknown_congr h.2
  isInteger_eq := by
    rintro a a' ⟨-, h⟩
    rcases (Ty.withoutCause_eq_iff a a').mp h with rfl | ⟨ha, ha'⟩
    · rfl
    · cases a <;> cases a' <;> simp_all [Ty.isUnknown]
  expected_of_known h hknown := ⟨Ty.eq_of_known h.2 hknown, h.1, hknown⟩
  literal := quiet_literal
  unary node op _ _ h := quiet_unary options node op h
  binary node op _ _ _ _ ha hb := quiet_binary options node op ha hb
  reference node designator := quiet_reference options node designator _
  subscript node _ _ h := quiet_nonInteger options .subscript (fun _ _ => rfl) node h
  loopControl node _ _ h := quiet_nonInteger options .loopControl (fun _ _ => rfl) node h
  range := quiet_range options
  constructor node _ _ _ _ hcs hexpected := quiet_constructor options node hcs hexpected
  value := by
    rintro source expected _ a a' ⟨rfl, -, hknown⟩ h
    exact quiet_value options source hknown h
  entity := quiet_entity options

/-- Suppressing cascades removes the diagnostics that mention an unknown type, and nothing else. The
types are the same up to causes, node by node. -/
theorem ProgramUnit.check_quiet (program : ProgramUnit) (resolver : Resolver) (options : Options) :
    let quiet := program.check resolver { options with suppressCascades := true }
    let loud := program.check resolver { options with suppressCascades := false }
    quiet.types.entries.map (Prod.map id Ty.withoutCause) =
        loud.types.entries.map (Prod.map id Ty.withoutCause) ∧
      quiet.diagnostics = loud.diagnostics.filter fun d => !d.mentionsUnknown := by
  have h := (quiet_coupling options resolver).check program
  refine ⟨?_, h.reports⟩
  rw [← List.forall₂_eq_eq_eq, List.forall₂_map_left_iff, List.forall₂_map_right_iff]
  exact h.types.imp fun _ _ halike => Prod.ext halike.1 halike.2.2

end FortranTyping

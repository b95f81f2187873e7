import FortranTyping.Proofs.Reports.Findings
import FortranTyping.Proofs.TwoRuns.Coupling

/-!
# Reporting switches

References without a declaration and things left unchecked are reported on demand. The two switches
have no effect on types, and none on other reports: to switch off a kind of report is to strike out
the reports of this kind.
-/

namespace FortranTyping

namespace Options

/-- The same options with both switches set anew. -/
def switched (options : Options) (unresolved skipped : Bool) : Options :=
  { options with reportUnresolved := unresolved, reportSkipped := skipped }

/-- Whether the switches let reports of a kind through. -/
def shows (options : Options) : FindingKind → Bool
  | .unresolved => options.reportUnresolved
  | .skipped => options.reportSkipped
  | _ => true

/-- The diagnostics that the switches let through. -/
def shown (options : Options) (ds : List Diagnostic) : List Diagnostic :=
  ds.filter fun d => options.shows d.finding.kind

theorem shown_append (options : Options) (ds ds' : List Diagnostic) :
    options.shown (ds ++ ds') = options.shown ds ++ options.shown ds' :=
  List.filter_append ..

theorem shown_eq_self {options : Options} {ds : List Diagnostic}
    (h : ∀ d ∈ ds, options.shows d.finding.kind = true) : options.shown ds = ds :=
  List.filter_eq_self.mpr h

theorem shown_singleton (options : Options) (span : Span) (finding : Finding) :
    options.shown [.of span finding] =
      if options.shows finding.kind then [.of span finding] else [] := by
  simp only [shown, List.filter_cons, List.filter_nil, Diagnostic.of]

end Options

/-! ## Rules -/

/-- The second run has both switches on. Types are the same to the letter, causes included. -/
def switchLikeness (options : Options) : Likeness where
  type := Eq
  expected := Eq
  reports ds ds' := ds = options.shown ds'

variable (options : Options)

/-- A rule that does not look at the switches makes no reports of their kinds. -/
theorem switchLikeness.verdicts {options : Options} {v : Verdict}
    (h : ∀ d ∈ v.reports, options.shows d.finding.kind = true) :
    (switchLikeness options).Verdicts v v :=
  ⟨rfl, (Options.shown_eq_self h).symm⟩

theorem switched_skip (span : Span) (expr : Option NodeId) (reason : SkipReason) :
    options.skip span expr reason =
      options.shown ((options.switched true true).skip span expr reason) := by
  cases h : options.reportSkipped <;>
    simp [Options.skip, Options.switched, h, Options.shown_singleton, Finding.kind, Options.shows]

theorem switched_unifyEntries (unresolved skipped report : Bool) (base : Ty)
    (cs : List Contribution) :
    unifyEntries (options.switched unresolved skipped) report base cs =
      unifyEntries options report base cs := by
  induction cs generalizing report base with
  | nil => rfl
  | cons c cs ih =>
      have hreports : (options.switched unresolved skipped).reports [base, c.type] =
          options.reports [base, c.type] := rfl
      simp only [unifyEntries, ih, hreports]

theorem switched_constructorVerdict (unresolved skipped : Bool) (node : Node)
    (cs : List Contribution) (expected : Option Ty) :
    constructorVerdict (options.switched unresolved skipped) node cs expected =
      constructorVerdict options node cs expected := by
  have hunified (report : Bool) : unifiedType (options.switched unresolved skipped) report cs =
      unifiedType options report cs := by
    cases cs with
    | nil => rfl
    | cons c cs => simp only [unifiedType, switched_unifyEntries]
  unfold constructorVerdict
  rw [hunified]
  rfl

theorem switched_reference (node : Node) (designator : Designator) (found : Option DeclaredEntity) :
    (switchLikeness options).Verdicts (.reference options node designator found)
      (.reference (options.switched true true) node designator found) := by
  cases found with
  | none =>
      refine ⟨rfl, ?_⟩
      cases h : options.reportUnresolved <;>
        simp [switchLikeness, Verdict.reference, Options.switched, h, Options.shown_singleton,
          Finding.kind, Options.shows]
  | some declared =>
      have htype : declared.type (options.switched true true) = declared.type options := rfl
      simp only [Verdict.reference, htype]
      cases declared.type options <;> exact ⟨rfl, rfl⟩

theorem switched_entity (declared : DeclaredEntity) :
    (switchLikeness options).Verdicts (Infer.entityVerdict options declared)
      (Infer.entityVerdict (options.switched true true) declared) := by
  have htype : declared.type (options.switched true true) = declared.type options := rfl
  unfold Infer.entityVerdict
  rw [htype]
  cases declared.type options with
  | ok type => exact ⟨rfl, rfl⟩
  | error reason => exact ⟨rfl, switched_skip options _ _ _⟩

theorem switched_range (owner : NodeId) (span : Span) (wellFormed : Bool) (perTrip : Option Nat)
    (trips : Except SkipReason Nat) :
    (rangeVerdict options owner span wellFormed perTrip trips).reports =
      options.shown (rangeVerdict (options.switched true true) owner span wellFormed perTrip
        trips).reports := by
  cases wellFormed with
  | false => rfl
  | true =>
      cases trips with
      | ok trips => rfl
      | error reason => exact switched_skip options span (some owner) reason

theorem switched_constructor (node : Node) {cs cs' : List Contribution}
    {expected expected' : Option Ty}
    (hcs : List.Forall₂ (switchLikeness options).Contributions cs cs')
    (hexpected : Option.Rel (switchLikeness options).expected expected expected') :
    (switchLikeness options).Verdicts (constructorVerdict options node cs expected)
      (constructorVerdict (options.switched true true) node cs' expected') := by
  have hcs : cs = cs' := by
    refine List.forall₂_eq_eq_eq ▸ hcs.imp ?_
    rintro ⟨⟩ ⟨⟩ ⟨rfl, rfl, rfl, rfl⟩
    rfl
  have hexpected : expected = expected' := by
    cases hexpected with
    | none => rfl
    | some h => exact congrArg some h
  subst hcs hexpected
  rw [switched_constructorVerdict]
  refine switchLikeness.verdicts fun d hd => ?_
  rcases mem_constructorVerdict_reports hd with ⟨ty, -, hd⟩ | ⟨c, -, base, hd⟩ <;> rw [hd] <;> rfl

/-! ## Units -/

theorem switch_coupling (resolver : Resolver) :
    Coupling (switchLikeness options) ⟨resolver, options⟩
      ⟨resolver, options.switched true true⟩ where
  nil := rfl
  append := by
    rintro ds ds' es es' rfl rfl
    exact (options.shown_append ds' es').symm
  integer := rfl
  unknown _ := rfl
  isUnknown_eq := by
    rintro a _ rfl
    rfl
  isInteger_eq := by
    rintro a _ rfl
    rfl
  expected_of_known h _ := h
  literal node value := switchLikeness.verdicts fun d hd => by
    obtain ⟨text, kind, -, hd⟩ := Verdict.mem_literal_reports hd
    rw [hd]
    rfl
  unary := by
    rintro node op a _ rfl
    exact switchLikeness.verdicts fun d hd => by rw [Verdict.mem_unary_reports hd]; rfl
  binary := by
    rintro node op a _ b _ rfl rfl
    exact switchLikeness.verdicts fun d hd => by rw [Verdict.mem_binary_reports hd]; rfl
  reference node designator := switched_reference options node designator _
  subscript := by
    rintro node a _ rfl
    exact (Options.shown_eq_self fun d hd => by rw [Verdict.mem_nonInteger hd]; rfl).symm
  loopControl := by
    rintro node a _ rfl
    exact (Options.shown_eq_self fun d hd => by rw [Verdict.mem_nonInteger hd]; rfl).symm
  range := switched_range options
  constructor node _ _ _ _ hcs hexpected := switched_constructor options node hcs hexpected
  value := by
    rintro source expected _ a _ rfl rfl
    exact (Options.shown_eq_self fun d hd => by rw [mem_valueReports hd]; rfl).symm
  entity := switched_entity options

/-- All diagnostics but those of a kind. -/
def without (kind : FindingKind) (ds : List Diagnostic) : List Diagnostic :=
  ds.filter fun d => d.finding.kind ≠ kind

/-- Switches that let through one kind less. -/
theorem Options.shown_eq_without {options options' : Options} {kind : FindingKind}
    (h : ∀ kind', options.shows kind' = (decide (kind' ≠ kind) && options'.shows kind'))
    (ds : List Diagnostic) : options.shown ds = without kind (options'.shown ds) := by
  simp only [shown, without, List.filter_filter, h]

/-- What the two switches make of the checks of a unit. -/
structure SwitchSpec (resolver : Resolver) (options : Options) (program : ProgramUnit) : Prop where
  types : ∀ unresolved skipped unresolved' skipped',
    (program.check resolver (options.switched unresolved skipped)).types =
      (program.check resolver (options.switched unresolved' skipped')).types
  unresolved : ∀ skipped,
    (program.check resolver (options.switched false skipped)).diagnostics =
      without .unresolved (program.check resolver (options.switched true skipped)).diagnostics
  skipped : ∀ unresolved,
    (program.check resolver (options.switched unresolved false)).diagnostics =
      without .skipped (program.check resolver (options.switched unresolved true)).diagnostics

namespace ProgramUnit

variable (program : ProgramUnit) (resolver : Resolver)

/-- Every setting of the switches compares with the one that reports all. -/
theorem check_switched (unresolved skipped : Bool) :
    (program.check resolver (options.switched unresolved skipped)).types =
        (program.check resolver (options.switched true true)).types ∧
      (program.check resolver (options.switched unresolved skipped)).diagnostics =
        (options.switched unresolved skipped).shown
          (program.check resolver (options.switched true true)).diagnostics := by
  have h := (switch_coupling (options.switched unresolved skipped) resolver).check program
  refine ⟨congrArg TypeMap.mk ?_, h.reports⟩
  rw [← List.forall₂_eq_eq_eq]
  exact h.types.imp fun _ _ halike => Prod.ext halike.1 halike.2

theorem check_switchSpec : SwitchSpec resolver options program := by
  have hcheck := check_switched options program resolver
  refine ⟨?_, ?_, ?_⟩
  · intro unresolved skipped unresolved' skipped'
    rw [(hcheck unresolved skipped).1, (hcheck unresolved' skipped').1]
  · intro skipped
    rw [(hcheck false skipped).2, (hcheck true skipped).2]
    exact Options.shown_eq_without (by rintro ⟨⟩ <;> simp [Options.shows, Options.switched]) _
  · intro unresolved
    rw [(hcheck unresolved false).2, (hcheck unresolved true).2]
    exact Options.shown_eq_without (by rintro ⟨⟩ <;> simp [Options.shows, Options.switched]) _

end ProgramUnit

end FortranTyping

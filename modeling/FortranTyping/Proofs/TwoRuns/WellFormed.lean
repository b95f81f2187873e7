import FortranTyping.Proofs.Reports.Findings
import FortranTyping.Proofs.TwoRuns.Cascade
import FortranTyping.Proofs.Ty.Unification
import FortranTyping.Proofs.Walk.Closure
import FortranTyping.Proofs.Walk.Growth
import FortranTyping.Proofs.Walk.Unit

/-!
# Well-formed passes

No rule brings up an array of arrays or of unknowns, neither as a type nor within a report, as long
as nobody expects one. The walk is followed as a run beside itself: two runs are alike if they are
the same and all their types are well-formed, and every rule keeps this. It holds for repeated
identities too.
-/

namespace FortranTyping

/-- Every type that the finding carries is well-formed. -/
def Finding.WellFormed (finding : Finding) : Prop :=
  ∀ ty ∈ finding.types, ty.WellFormed

/-- Every type that was recorded or is part of a diagnostic is well-formed. -/
structure Pass.WellFormed (pass : Pass) : Prop where
  types : ∀ typing ∈ pass.types.entries, typing.2.WellFormed
  diagnostics : ∀ d ∈ pass.diagnostics, d.finding.WellFormed

theorem Pass.empty_wellFormed : Pass.empty.WellFormed :=
  ⟨List.forall_mem_nil _, List.forall_mem_nil _⟩

structure Verdict.WellFormed (verdict : Verdict) : Prop where
  type : verdict.type.WellFormed
  reports : ∀ d ∈ verdict.reports, d.finding.WellFormed

/-! ## Rules -/

theorem Finding.wellFormed_of_types_eq_nil {finding : Finding} (h : finding.types = []) :
    finding.WellFormed := by
  simp [WellFormed, h]

theorem Finding.mismatch_wellFormed (id : NodeId) {expected actual : Ty}
    (hexpected : expected.WellFormed) (hactual : actual.WellFormed) :
    (mismatch id expected actual).WellFormed := by
  simp [WellFormed, types, hexpected, hactual]

theorem Finding.constructorElement_wellFormed (id : NodeId) {base element : Ty}
    (hbase : base.WellFormed) (helement : element.WellFormed) :
    (constructorElement id base element).WellFormed := by
  simp [WellFormed, types, hbase, helement]

namespace Verdict

variable (options : Options)

theorem literal_wellFormed (node : Node) (value : Literal) : (literal node value).WellFormed := by
  refine ⟨literal_type_wellFormed node value, fun d hd => ?_⟩
  obtain ⟨text, kind, -, hfinding⟩ := mem_literal_reports hd
  exact Finding.wellFormed_of_types_eq_nil (hfinding ▸ rfl)

theorem unary_wellFormed (node : Node) (op : UnaryOp) {operand : Ty} (h : operand.WellFormed) :
    (unary options node op operand).WellFormed := by
  refine ⟨unary_type_wellFormed options node op h, fun d hd => ?_⟩
  rw [mem_unary_reports hd]
  simp [Finding.WellFormed, Finding.types, h]

theorem binary_wellFormed (node : Node) (op : BinaryOp) {left right : Ty} (hleft : left.WellFormed)
    (hright : right.WellFormed) : (binary options node op left right).WellFormed := by
  refine ⟨binary_type_wellFormed options node op right hleft, fun d hd => ?_⟩
  rw [mem_binary_reports hd]
  simp [Finding.WellFormed, Finding.types, hleft, hright]

theorem reference_wellFormed (node : Node) (designator : Designator)
    (found : Option DeclaredEntity) : (reference options node designator found).WellFormed := by
  refine ⟨reference_type_wellFormed options node designator found, fun d hd => ?_⟩
  cases found with
  | none =>
      simp only [reference] at hd
      split at hd
      · exact Finding.wellFormed_of_types_eq_nil (List.mem_singleton.mp hd ▸ rfl)
      · cases hd
  | some declared =>
      simp only [reference] at hd
      split at hd <;> cases hd

theorem nonInteger_wellFormed {finding : NodeId → Ty → Finding}
    (htypes : ∀ id ty, (finding id ty).types = [ty]) (node : Node) {ty : Ty} (h : ty.WellFormed) :
    ∀ d ∈ nonInteger options finding node ty, d.finding.WellFormed := by
  intro d hd
  rw [mem_nonInteger hd]
  simp [Finding.WellFormed, htypes, h]

end Verdict

section

variable (options : Options)

theorem entityVerdict_wellFormed (declared : DeclaredEntity) :
    (Infer.entityVerdict options declared).WellFormed := by
  refine ⟨Infer.entityVerdict_wellFormed options declared, fun d hd => ?_⟩
  obtain ⟨reason, hfinding⟩ := mem_entityVerdict_reports hd
  exact Finding.wellFormed_of_types_eq_nil (hfinding ▸ rfl)

theorem rangeVerdict_wellFormed (owner : NodeId) (span : Span) (fits : Bool) (perTrip : Option Nat)
    (trips : Except SkipReason Nat) :
    ∀ d ∈ (rangeVerdict options owner span fits perTrip trips).reports, d.finding.WellFormed := by
  intro d hd
  obtain ⟨reason, hfinding⟩ := mem_rangeVerdict_reports hd
  exact Finding.wellFormed_of_types_eq_nil (hfinding ▸ rfl)

theorem valueReports_wellFormed (source : Expr) {expected inferred : Ty}
    (hexpected : expected.WellFormed) (hinferred : inferred.WellFormed) :
    ∀ d ∈ Infer.valueReports options source expected inferred, d.finding.WellFormed := by
  intro d hd
  rw [mem_valueReports hd]
  exact Finding.mismatch_wellFormed source.id hexpected hinferred

/-! ## Constructors -/

variable {cs : List Contribution} (hcs : ∀ c ∈ cs, c.type.WellFormed)
include hcs

/-- The type unified so far is well-formed before every entry. -/
theorem unifyEntries_wellFormed (report : Bool) {base : Ty} (hbase : base.WellFormed) :
    ∀ d ∈ (unifyEntries options report base cs).2, d.finding.WellFormed := by
  induction cs generalizing report base with
  | nil => exact List.forall_mem_nil _
  | cons c cs ih =>
      obtain ⟨hc, hcs⟩ := List.forall_mem_cons.mp hcs
      intro d hd
      simp only [unifyEntries] at hd
      split at hd
      · cases List.mem_singleton.mp hd
        exact Finding.constructorElement_wellFormed c.expr hbase hc
      · exact ih hcs report (hc.unify base) d hd

theorem unifiedType_wellFormed (report : Bool) :
    ∀ d ∈ (unifiedType options report cs).2, d.finding.WellFormed := by
  cases cs with
  | nil => exact List.forall_mem_nil _
  | cons c cs =>
      obtain ⟨hc, hcs⟩ := List.forall_mem_cons.mp hcs
      exact unifyEntries_wellFormed options hcs report hc

theorem misfits_wellFormed {base : Ty} (hbase : base.WellFormed) :
    ∀ d ∈ misfits options base cs, d.finding.WellFormed := by
  intro d hd
  obtain ⟨c, hc, hfinding⟩ := mem_misfits hd
  rw [hfinding]
  exact Finding.constructorElement_wellFormed c.expr hbase (hcs c hc)

theorem storeReports_wellFormed (node : Node) {expected built : Ty}
    (hexpected : expected.WellFormed) (hbuilt : built.WellFormed) :
    ∀ d ∈ storeReports options node cs expected built, d.finding.WellFormed := by
  have hmismatch := Finding.mismatch_wellFormed node.id hexpected hbuilt
  intro d hd
  unfold storeReports at hd
  split at hd
  · cases hd
  · cases expected with
    | array base size =>
        simp only at hd
        split at hd
        · exact misfits_wellFormed options hcs hexpected.element d hd
        · split at hd
          · exact List.mem_singleton.mp hd ▸ hmismatch
          · cases hd
    | _ =>
        simp only [List.isEmpty_nil, Bool.not_true, Bool.false_eq_true, ite_false] at hd
        split at hd
        · exact List.mem_singleton.mp hd ▸ hmismatch
        · cases hd

theorem constructorVerdict_wellFormed (node : Node) {expected : Option Ty}
    (hexpected : ∀ ty ∈ expected, ty.WellFormed) :
    (constructorVerdict options node cs expected).WellFormed := by
  have hbuilt (base : Option Ty) (size : Option Nat) := builtType_wellFormed base size expected
  refine ⟨hbuilt _ _, fun d hd => ?_⟩
  rcases List.mem_append.mp hd with hd | hd
  · exact unifiedType_wellFormed options hcs _ d hd
  · cases expected with
    | none => cases hd
    | some ty => exact storeReports_wellFormed options hcs node (hexpected ty rfl) (hbuilt _ _) d hd

end

/-! ## A run beside itself -/

def flatLikeness : Likeness where
  type a a' := a = a' ∧ a.WellFormed
  expected a a' := a = a' ∧ a.WellFormed
  reports ds ds' := ds = ds' ∧ ∀ d ∈ ds, d.finding.WellFormed

namespace flatLikeness

theorem verdicts {verdict : Verdict} (h : verdict.WellFormed) :
    flatLikeness.Verdicts verdict verdict :=
  ⟨⟨rfl, h.type⟩, rfl, h.reports⟩

theorem passes {pass : Pass} (h : pass.WellFormed) : flatLikeness.Passes pass pass :=
  ⟨List.forall₂_same.mpr fun typing hmem => ⟨rfl, rfl, h.types typing hmem⟩, rfl, h.diagnostics⟩

theorem wellFormed_of_passes {pass pass' : Pass} (h : flatLikeness.Passes pass pass') :
    pass.WellFormed := by
  have htypes := h.types.imp fun _ _ halike => And.intro halike.2.2 halike.1
  exact ⟨((List.forall₂_and_left _ _).mp htypes).1, h.reports.2⟩

/-- Entries that are alike are the same, and of well-formed types. -/
theorem contributions {cs cs' : List Contribution}
    (h : List.Forall₂ flatLikeness.Contributions cs cs') :
    cs = cs' ∧ ∀ c ∈ cs, c.type.WellFormed := by
  induction h with
  | nil => exact ⟨rfl, List.forall_mem_nil _⟩
  | @cons c c' cs cs' hc _ ih =>
      have hsame : c = c' := by
        obtain ⟨hexpr, hspan, ⟨htype, -⟩, hcount⟩ := hc
        cases c
        cases c'
        simp_all
      exact ⟨congrArg₂ List.cons hsame ih.1, List.forall_mem_cons.mpr ⟨hc.type.2, ih.2⟩⟩

end flatLikeness

theorem flat_coupling (ctx : Context) : Coupling flatLikeness ctx ctx where
  nil := ⟨rfl, List.forall_mem_nil _⟩
  append := by
    rintro ds _ es _ ⟨rfl, hds⟩ ⟨rfl, hes⟩
    exact ⟨rfl, List.forall_mem_append.mpr ⟨hds, hes⟩⟩
  integer := ⟨rfl, trivial⟩
  unknown _ := ⟨rfl, trivial⟩
  isUnknown_eq h := congrArg Ty.isUnknown h.1
  isInteger_eq h := congrArg (· == Ty.integer) h.1
  expected_of_known h _ := h
  literal node value := flatLikeness.verdicts (Verdict.literal_wellFormed node value)
  unary := by
    rintro node op a _ ⟨rfl, h⟩
    exact flatLikeness.verdicts (Verdict.unary_wellFormed ctx.options node op h)
  binary := by
    rintro node op a _ b _ ⟨rfl, ha⟩ ⟨rfl, hb⟩
    exact flatLikeness.verdicts (Verdict.binary_wellFormed ctx.options node op ha hb)
  reference node designator :=
    flatLikeness.verdicts (Verdict.reference_wellFormed ctx.options node designator _)
  subscript := by
    rintro node a _ ⟨rfl, h⟩
    exact ⟨rfl, Verdict.nonInteger_wellFormed ctx.options (fun _ _ => rfl) node h⟩
  loopControl := by
    rintro node a _ ⟨rfl, h⟩
    exact ⟨rfl, Verdict.nonInteger_wellFormed ctx.options (fun _ _ => rfl) node h⟩
  range owner span fits perTrip trips :=
    ⟨rfl, rangeVerdict_wellFormed ctx.options owner span fits perTrip trips⟩
  constructor := by
    intro node cs cs' expected expected' hcs hexpected
    obtain ⟨rfl, hwf⟩ := flatLikeness.contributions hcs
    cases hexpected with
    | none =>
        exact flatLikeness.verdicts (constructorVerdict_wellFormed ctx.options hwf node (by simp))
    | some h =>
        obtain ⟨rfl, hexpected⟩ := h
        exact flatLikeness.verdicts
          (constructorVerdict_wellFormed ctx.options hwf node (by simpa using hexpected))
  value := by
    rintro source expected _ a _ ⟨rfl, hexpected⟩ ⟨rfl, ha⟩
    exact ⟨rfl, valueReports_wellFormed ctx.options source hexpected ha⟩
  entity declared := flatLikeness.verdicts (entityVerdict_wellFormed ctx.options declared)

/-! ## Passes -/

variable (ctx : Context) (loops : List String)

theorem ProgramUnit.check_wellFormed (program : ProgramUnit) :
    (program.check ctx.resolver ctx.options).WellFormed :=
  flatLikeness.wellFormed_of_passes ((flat_coupling ctx).check program)

theorem Infer.query_wellFormed {query : Query} (hexpected : ∀ ty ∈ query.expected, ty.WellFormed)
    {pass : Pass} (h : pass.WellFormed) :
    ((Infer.query ctx loops query).run pass).1.WellFormed ∧
      ((Infer.query ctx loops query).run pass).2.WellFormed := by
  have hsame : Option.Rel flatLikeness.expected query.expected query.expected := by
    cases hquery : query.expected with
    | none => exact .none
    | some ty => exact .some ⟨rfl, hexpected ty hquery⟩
  have hrun := (flat_coupling ctx).toRenaming.runs_expr loops hsame query.e
  rw [query.e.mapNames_id] at hrun
  obtain ⟨htype, hpass⟩ := hrun pass pass (flatLikeness.passes h)
  exact ⟨htype.2, flatLikeness.wellFormed_of_passes hpass⟩

theorem Pass.WellFormed.after {queries : List Query}
    (hexpected : ∀ query ∈ queries, ∀ ty ∈ query.expected, ty.WellFormed) {start : Pass}
    (h : start.WellFormed) : (start.after ctx loops queries).WellFormed := by
  induction queries generalizing start with
  | nil => exact h
  | cons query queries ih =>
      obtain ⟨hquery, hqueries⟩ := List.forall_mem_cons.mp hexpected
      exact ih hqueries (Infer.query_wellFormed ctx loops hquery h).2

/-- What a unit and queries in turn bring up, from an empty pass, that of a unit or any other pass
whose types are well-formed. -/
structure FlatSpec (program : ProgramUnit) (queries : List Query) : Prop where
  empty : Pass.empty.WellFormed
  unit : (program.check ctx.resolver ctx.options).WellFormed
  kept : ∀ start : Pass, start.WellFormed → ∀ earlier, earlier <+: queries →
    (start.after ctx loops earlier).WellFormed
  answers : ∀ start : Pass, start.WellFormed → ∀ earlier query, earlier ++ [query] <+: queries →
    ((Infer.query ctx loops query).run (start.after ctx loops earlier)).1.WellFormed

/-- Only well-formed types come up where only well-formed types are expected. -/
theorem Infer.flatSpec (program : ProgramUnit) (queries : List Query)
    (hexpected : ∀ query ∈ queries, ∀ ty ∈ query.expected, ty.WellFormed) :
    FlatSpec ctx loops program queries := by
  have hearly {earlier : List Query} (h : earlier <+: queries) :
      ∀ query ∈ earlier, ∀ ty ∈ query.expected, ty.WellFormed :=
    fun query hmem => hexpected query (h.subset hmem)
  refine ⟨Pass.empty_wellFormed, ProgramUnit.check_wellFormed ctx program, ?_, ?_⟩
  · intro start hstart earlier h
    exact hstart.after ctx loops (hearly h)
  · intro start hstart earlier query h
    have hearlier := hstart.after ctx loops (hearly ((List.prefix_append _ _).trans h))
    exact (Infer.query_wellFormed ctx loops (hearly h query (by simp)) hearlier).1

/-- The array constructor `['a', 1]` where real numbers are expected, and then in parentheses. -/
def mixedQueries : List Query :=
  let mixed : Expr := .array (.ofIndex 2) [.plain (.literal (.ofIndex 0) (.character "a")),
    .plain (.literal (.ofIndex 1) (.integer "1"))]
  [⟨mixed, some (.array .real 2)⟩, ⟨.paren (.ofIndex 3) mixed, some (.unknown none)⟩]

theorem mixedQueries_flatSpec :
    (∀ query ∈ mixedQueries, ∀ ty ∈ query.expected, ty.WellFormed) ∧
      FlatSpec ⟨.ofScope .empty, {}⟩ [] ⟨.mainProgram, ⟨.ofWidth 0 1, "p"⟩, [], []⟩
        mixedQueries := by
  have hexpected : ∀ query ∈ mixedQueries, ∀ ty ∈ query.expected, ty.WellFormed := by
    simp [mixedQueries, Ty.WellFormed, Ty.isScalar]
  exact ⟨hexpected, Infer.flatSpec _ _ _ _ hexpected⟩

end FortranTyping

import FortranTyping.Proofs.TwoRuns.Constructors
import FortranTyping.Proofs.Walk.Unit

/-!
# The case of names

Two units that differ in the case of names alone, each checked with its own declarations. Whatever
is found, shadowed, declared twice or missing in one of them is so in the other: their nodes get the
same types up to causes, and their diagnostics are the same up to causes and the case of the name
that could not be resolved.
-/

namespace FortranTyping

/-- The finding without causes, and with its name in lower case. -/
def Finding.folded : Finding → Finding
  | mismatch expr expected actual => mismatch expr expected.withoutCause actual.withoutCause
  | binaryOperands expr op left right =>
      binaryOperands expr op left.withoutCause right.withoutCause
  | unaryOperand expr op operand => unaryOperand expr op operand.withoutCause
  | constructorElement expr base element =>
      constructorElement expr base.withoutCause element.withoutCause
  | loopControl expr type => loopControl expr type.withoutCause
  | subscript expr type => subscript expr type.withoutCause
  | literalRange expr literal kind => literalRange expr literal kind
  | unresolved expr name => unresolved expr (foldCase name)
  | skipped expr reason => skipped expr reason

def Diagnostic.folded (d : Diagnostic) : Diagnostic :=
  { d with finding := d.finding.folded }

theorem Diagnostic.folded_of (span : Span) (finding : Finding) :
    (Diagnostic.of span finding).folded = .of span finding.folded := by
  cases finding <;> rfl

/-- One report in each run. -/
theorem folded_singleton {span : Span} {finding finding' : Finding}
    (h : finding.folded = finding'.folded) :
    [Diagnostic.of span finding].map Diagnostic.folded =
      [Diagnostic.of span finding'].map Diagnostic.folded := by
  simp only [List.map_cons, List.map_nil, Diagnostic.folded_of, h]

def spellingLikeness : Likeness where
  type a a' := a.withoutCause = a'.withoutCause
  expected := Eq
  reports ds ds' := ds.map Diagnostic.folded = ds'.map Diagnostic.folded

/-! ## Rules -/

variable (options : Options)

theorem spelling_unary (node : Node) (op : UnaryOp) {a a' : Ty} (h : spellingLikeness.type a a') :
    spellingLikeness.Verdicts (.unary options node op a) (.unary options node op a') := by
  rcases (Ty.withoutCause_eq_iff a a').mp h with rfl | ⟨ha, ha'⟩
  · exact ⟨rfl, rfl⟩
  · simp only [Verdict.unary, op.allows_eq_false ha, op.allows_eq_false ha',
      options.reports_congr h, Bool.false_eq_true, ite_false]
    split
    · exact ⟨rfl, folded_singleton (congrArg (Finding.unaryOperand node.id op) h)⟩
    · exact ⟨rfl, rfl⟩

theorem spelling_binary (node : Node) (op : BinaryOp) {a a' b b' : Ty}
    (ha : spellingLikeness.type a a') (hb : spellingLikeness.type b b') :
    spellingLikeness.Verdicts (.binary options node op a b) (.binary options node op a' b') := by
  have hfolded : (Finding.binaryOperands node.id op a b).folded =
      (Finding.binaryOperands node.id op a' b').folded :=
    congrArg₂ (Finding.binaryOperands node.id op) ha hb
  by_cases hsome : a.isUnknown = true ∨ b.isUnknown = true
  · have hsome' : a'.isUnknown = true ∨ b'.isUnknown = true := by
      rwa [← Ty.isUnknown_congr ha, ← Ty.isUnknown_congr hb]
    simp only [Verdict.binary, op.allows_eq_false hsome, op.allows_eq_false hsome',
      options.reports_congr₂ ha hb]
    cases hrelation : op.isRelation with
    | true =>
        have hlogical (c c' : Ty) : op.result c c' = .logical := by
          cases op <;> first | rfl | cases hrelation
        split
        · refine ⟨?_, rfl⟩
          simp only [Verdict.clean, hlogical]
          rfl
        · exact ⟨rfl, folded_singleton hfolded⟩
    | false =>
        have hunknown := BinaryOp.result_isUnknown hrelation (op.allows_eq_false hsome)
        have hunknown' := BinaryOp.result_isUnknown hrelation (op.allows_eq_false hsome')
        split
        · exact ⟨Ty.withoutCause_eq_of_isUnknown hunknown hunknown', rfl⟩
        · exact ⟨rfl, folded_singleton hfolded⟩
  · obtain ⟨haknown, hbknown⟩ : a.isUnknown = false ∧ b.isUnknown = false := by simpa using hsome
    rw [Ty.eq_of_known ha haknown, Ty.eq_of_known hb hbknown]
    exact ⟨rfl, rfl⟩

/-- A single check of one type, by a finding that carries it. -/
theorem spelling_nonInteger (finding : NodeId → Ty → Finding)
    (hfinding : ∀ id ty, (finding id ty).folded = finding id ty.withoutCause) (node : Node)
    {a a' : Ty} (h : spellingLikeness.type a a') :
    spellingLikeness.reports (Verdict.nonInteger options finding node a)
      (Verdict.nonInteger options finding node a') := by
  rcases (Ty.withoutCause_eq_iff a a').mp h with rfl | ⟨ha, ha'⟩
  · rfl
  · have hinteger : a ≠ .integer := by rintro rfl; cases ha
    have hinteger' : a' ≠ .integer := by rintro rfl; cases ha'
    simp only [Verdict.nonInteger, hinteger, hinteger', options.reports_congr h, ne_eq,
      not_false_eq_true, true_and]
    split
    · exact folded_singleton (by rw [hfinding, hfinding, h])
    · rfl

theorem spelling_value (source : Expr) (expected : Ty) {a a' : Ty}
    (h : spellingLikeness.type a a') :
    spellingLikeness.reports (Infer.valueReports options source expected a)
      (Infer.valueReports options source expected a') := by
  simp only [Infer.valueReports, options.reports_congr h, Ty.accepts_congr expected h]
  split
  · exact folded_singleton (congrArg (Finding.mismatch source.id expected.withoutCause) h)
  · rfl

/-! ## Constructors -/

theorem spelling_entrywise : spellingLikeness.Entrywise spellingLikeness.Contributions where
  nil := rfl
  append hds hes := by
    simp only [spellingLikeness, List.map_append] at *
    rw [hds, hes]
  isEmpty h := by
    rw [← List.isEmpty_map, h, List.isEmpty_map]
  refl _ := rfl
  withoutCause h := h
  unify := Ty.unify_congr
  arrayOf := Ty.arrayOf_congr
  type hc := hc.type
  count hc := hc.count
  element := by
    intro c c' base base' hc hbase
    rw [hc.expr, hc.span]
    exact folded_singleton (congrArg₂ (Finding.constructorElement c'.expr) hbase hc.type)
  mismatch node expected _ _ hbuilt :=
    folded_singleton (congrArg (Finding.mismatch node.id expected.withoutCause) hbuilt)

/-! ## References -/

/-- A declaration that is found under both spellings of a name gives it the same type. -/
theorem spelling_reference (node : Node) {designator designator' : Designator}
    (hspan : designator.name.span = designator'.name.span)
    (hname : SameName designator.name.value designator'.name.value)
    (hsubscripted : designator.isSubscripted = designator'.isSubscripted)
    {f : String → String} {found found' : Option DeclaredEntity}
    (hfound : found' = found.map (DeclaredEntity.map f (Expr.mapNames f))) :
    spellingLikeness.Verdicts (.reference options node designator found)
      (.reference options node designator' found') := by
  subst hfound
  cases found with
  | none =>
      refine ⟨rfl, ?_⟩
      simp only [spellingLikeness, Verdict.reference, Option.map_none, hspan]
      split
      · exact folded_singleton (congrArg (Finding.unresolved node.id) hname)
      · rfl
  | some declared =>
      simp only [Verdict.reference, Option.map_some, hsubscripted,
        DeclaredEntity.type_map (Expr.integerValue?_mapNames f)]
      cases declared.type options <;> exact ⟨rfl, rfl⟩

/-! ## Units -/

def ProgramUnit.checkOwn (program : ProgramUnit) (options : Options) : Pass :=
  program.check (.ofScope program.ownScope) options

theorem spelling_coupling {resolver resolver' : Resolver}
    (hreference : ∀ node designator, spellingLikeness.Verdicts
      (.reference options node designator (resolver.find designator))
      (.reference options node designator (resolver'.find designator))) :
    Coupling spellingLikeness ⟨resolver, options⟩ ⟨resolver', options⟩ where
  nil := spelling_entrywise.nil
  append := spelling_entrywise.append
  integer := rfl
  unknown _ := rfl
  isUnknown_eq := Ty.isUnknown_congr
  isInteger_eq := by
    intro a a' h
    rcases (Ty.withoutCause_eq_iff a a').mp h with rfl | ⟨ha, ha'⟩
    · rfl
    · cases a <;> cases a' <;> simp_all [Ty.isUnknown]
  expected_of_known := Ty.eq_of_known
  literal _ _ := ⟨rfl, rfl⟩
  unary node op _ _ h := spelling_unary options node op h
  binary node op _ _ _ _ ha hb := spelling_binary options node op ha hb
  reference := hreference
  subscript node _ _ h := spelling_nonInteger options .subscript (fun _ _ => rfl) node h
  loopControl node _ _ h := spelling_nonInteger options .loopControl (fun _ _ => rfl) node h
  range _ _ _ _ _ := rfl
  constructor := by
    intro node cs cs' expected expected' hcs hexpected
    have hsame : expected = expected' := by
      cases hexpected with
      | none => rfl
      | some h => exact congrArg some h
    subst hsame
    exact spelling_entrywise.constructorVerdict hcs options node expected
  value := by
    rintro source expected _ a a' rfl h
    exact spelling_value options source expected h
  entity _ := ⟨rfl, rfl⟩

theorem spelling_renaming (program : ProgramUnit) :
    Renaming spellingLikeness foldCase ⟨.ofScope program.ownScope, options⟩
      ⟨.ofScope program.foldNames.ownScope, options⟩ where
  toCoupling := spelling_coupling options fun node designator =>
    spelling_reference options node rfl rfl rfl
      (program.get?_ownScope_map foldCase_foldCase (Expr.mapNames foldCase) designator.name.value)
  sameName := foldCase_foldCase
  renamed node designator := by
    have hspan : designator.name.span = (designator.mapNames foldCase).name.span := rfl
    have hname : SameName designator.name.value (designator.mapNames foldCase).name.value :=
      (foldCase_foldCase designator.name.value).symm
    have hsubscripted :
        designator.isSubscripted = (designator.mapNames foldCase).isSubscripted := by
      cases h : designator.subscripts <;>
        simp [Designator.isSubscripted, Designator.mapNames, h]
    have hfound := program.get?_ownScope_map foldCase_foldCase (Expr.mapNames foldCase)
      designator.name.value
    exact spelling_reference options node hspan hname hsubscripted
      ((Scope.get?_congr _ hname.symm).trans hfound)

namespace ProgramUnit

/-- The names of a unit might as well be in lower case. -/
theorem check_foldNames (program : ProgramUnit) :
    (program.checkOwn options).types.entries.map (Prod.map id Ty.withoutCause) =
        (program.foldNames.checkOwn options).types.entries.map (Prod.map id Ty.withoutCause) ∧
      (program.checkOwn options).diagnostics.map Diagnostic.folded =
        (program.foldNames.checkOwn options).diagnostics.map Diagnostic.folded := by
  have h := (spelling_renaming options program).check program
  refine ⟨?_, h.reports⟩
  rw [← List.forall₂_eq_eq_eq, List.forall₂_map_left_iff, List.forall₂_map_right_iff]
  exact h.types.imp fun _ _ halike => Prod.ext halike.1 halike.2

/-- Units with the same names up to their case get the same types, node by node and up to causes,
and the same diagnostics in the same order, up to causes and the case of unresolved names. -/
theorem check_sameSpelling {program program' : ProgramUnit}
    (h : program.foldNames = program'.foldNames) (options : Options) :
    let pass := program.checkOwn options
    let pass' := program'.checkOwn options
    pass.types.entries.map (Prod.map id Ty.withoutCause) =
        pass'.types.entries.map (Prod.map id Ty.withoutCause) ∧
      pass.diagnostics.map Diagnostic.folded = pass'.diagnostics.map Diagnostic.folded := by
  -- both compare with the same unit in lower case
  obtain ⟨htypes, hdiagnostics⟩ := check_foldNames options program
  obtain ⟨htypes', hdiagnostics'⟩ := check_foldNames options program'
  rw [h] at htypes hdiagnostics
  exact ⟨htypes.trans htypes'.symm, hdiagnostics.trans hdiagnostics'.symm⟩

/-- The unit `integer :: count, count; x = [(i + count, i = 1, total)]`, with its names written as
given. -/
def spelled (declared again target loopVariable loopUse use stop : String) : ProgramUnit :=
  let name (text : String) : Located String := ⟨.ofWidth 0 1, text⟩
  let reference (index : Nat) (text : String) : Expr := .reference (.ofIndex index) (name text)
  let declaration : Declaration :=
    ⟨⟨⟨.ofWidth 0 1, .integer⟩, none, none⟩, [],
      [⟨name declared, none, none⟩, ⟨name again, none, none⟩]⟩
  let sum : Expr := .binary (.ofIndex 3) .add (reference 1 loopUse) (reference 2 use)
  let range : Entry := .impliedDo (.ofWidth 0 5) [.plain sum] (name loopVariable)
    (.literal (.ofIndex 4) (.integer "1")) (reference 5 stop) none
  ⟨.mainProgram, name "p", [⟨.ofWidth 0 9, declaration⟩],
    [⟨.ofWidth 0 9, .assignment (reference 0 target) (.array (.ofIndex 6) [range])⟩]⟩

theorem foldNames_spelled (declared again target loopVariable loopUse use stop : String) :
    (spelled declared again target loopVariable loopUse use stop).foldNames =
      spelled (foldCase declared) (foldCase again) (foldCase target) (foldCase loopVariable)
        (foldCase loopUse) (foldCase use) (foldCase stop) :=
  rfl

theorem spelled_sameSpelling :
    let program := spelled "Count" "COUNT" "x" "i" "I" "count" "total"
    let program' := spelled "count" "count" "x" "I" "i" "COUNT" "TOTAL"
    program.foldNames = program'.foldNames ∧
      (program.checkOwn { reportUnresolved := true }).diagnostics.map Diagnostic.folded =
        (program'.checkOwn { reportUnresolved := true }).diagnostics.map Diagnostic.folded := by
  have hcount : foldCase "Count" = foldCase "count" := String.ext (by simp [foldCase])
  have hupper : foldCase "COUNT" = foldCase "count" := String.ext (by simp [foldCase])
  have hloop : foldCase "I" = foldCase "i" := String.ext (by simp [foldCase])
  have hstop : foldCase "TOTAL" = foldCase "total" := String.ext (by simp [foldCase])
  have hfolded : (spelled "Count" "COUNT" "x" "i" "I" "count" "total").foldNames =
      (spelled "count" "count" "x" "I" "i" "COUNT" "TOTAL").foldNames := by
    rw [foldNames_spelled, foldNames_spelled, hcount, hupper, hloop, hstop]
  exact ⟨hfolded, (check_sameSpelling hfolded { reportUnresolved := true }).2⟩

end ProgramUnit

end FortranTyping

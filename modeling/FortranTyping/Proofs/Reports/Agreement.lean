import FortranTyping.Proofs.Constructor.Fold
import FortranTyping.Proofs.Reports.Findings
import FortranTyping.Proofs.Walk.Order
import FortranTyping.Proofs.Walk.Tasks

/-!
# Findings and recorded types

Findings are made on the way, some of them before the node that they are about has a type. What they
say of types is nevertheless what the type map has in the end. Where a rule leaves a type unknown
for the sake of a report, the report is recorded as the cause, and a note about a range means that
its whole constructor has no type.
-/

namespace FortranTyping

/-- What a finding says is borne out by the types of the expressions `es`. -/
inductive Finding.Agrees (es : List Expr) (types : TypeMap) : Finding → Prop where
  | mismatch {id : NodeId} {expected actual : Ty} (h : types.get? id = some actual) :
      Agrees es types (.mismatch id expected actual)
  | subscript {id : NodeId} {ty : Ty} (h : types.get? id = some ty) :
      Agrees es types (.subscript id ty)
  | loopControl {id : NodeId} {ty : Ty} (h : types.get? id = some ty) :
      Agrees es types (.loopControl id ty)
  | unaryOperand {node : Node} {op : UnaryOp} {operand : Expr} {ty : Ty}
      (hnode : .unary node op operand ∈ es) (hoperand : types.get? operand.id = some ty)
      (hself : types.get? node.id =
        some (.unknown (some (Finding.unaryOperand node.id op ty).text))) :
      Agrees es types (.unaryOperand node.id op ty)
  /-- A comparison is logical all the same. -/
  | binaryOperands {node : Node} {op : BinaryOp} {left right : Expr} {leftType rightType : Ty}
      (hnode : .binary node op left right ∈ es) (hleft : types.get? left.id = some leftType)
      (hright : types.get? right.id = some rightType)
      (hself : types.get? node.id = some (if op.isRelation then .logical else
        .unknown (some (Finding.binaryOperands node.id op leftType rightType).text))) :
      Agrees es types (.binaryOperands node.id op leftType rightType)
  | plainElement {node : Node} {entries : List Entry} {value : Expr} {base ty : Ty}
      (hnode : .array node entries ∈ es) (hentry : .plain value ∈ entries)
      (h : types.get? value.id = some ty) :
      Agrees es types (.constructorElement value.id base ty)
  /-- A range has no node of its own, so that the constructor stands for it. -/
  | rangeElement {node : Node} {entries body : List Entry} {span : Span}
      {loopVariable : Located String} {start stop : Expr} {stride : Option Expr} {base ty : Ty}
      (hnode : .array node entries ∈ es)
      (hentry : .impliedDo span body loopVariable start stop stride ∈ entries)
      (h : ty = .integer ∨ ty.isUnknown = true) :
      Agrees es types (.constructorElement node.id base ty)
  | literalRange {node : Node} {text : String} {kind : Nat}
      (hnode : .literal node (.integer text) ∈ es) (h : types.get? node.id = some .integer) :
      Agrees es types (.literalRange node.id text kind)
  | unresolved {e : Expr} {designator : Designator} {cause : Option String} (hnode : e ∈ es)
      (hdesignator : e.designator? = some designator)
      (h : types.get? e.id = some (.unknown cause)) :
      Agrees es types (.unresolved e.id designator.name.value)
  | skipped {node : Node} {entries : List Entry} {reason : SkipReason}
      (hnode : .array node entries ∈ es) (h : types.get? node.id = some .unmeasured) :
      Agrees es types (.skipped (some node.id) reason)
  /-- A note about a declaration. -/
  | declaration {reason : SkipReason} : Agrees es types (.skipped none reason)

/-- A finding that agrees with the types is about a node that has one. -/
theorem Finding.Agrees.recorded {es : List Expr} {types : TypeMap} {finding : Finding}
    (h : finding.Agrees es types) (hes : ∀ e ∈ es, e.id ∈ types.ids) {id : NodeId}
    (hid : finding.expr? = some id) : id ∈ types.ids := by
  have hmem : ∀ {id ty}, types.get? id = some ty → id ∈ types.ids := by
    intro id ty hty
    by_contra hnone
    rw [(types.get?_eq_none_iff id).mpr hnone] at hty
    cases hty
  cases h with
  | mismatch h | subscript h | loopControl h | plainElement _ _ h | literalRange _ h
  | unresolved _ _ h | skipped _ h =>
      cases hid
      exact hmem h
  | unaryOperand _ _ hself | binaryOperands _ _ _ hself =>
      cases hid
      exact hmem hself
  | rangeElement hnode =>
      cases hid
      exact hes _ hnode
  | declaration => cases hid

/-! ## Rules that report -/

namespace Verdict

variable {options : Options} {d : Diagnostic}

theorem integerLiteral_type (node : Node) (text : String) :
    (literal node (.integer text)).type = .integer := by
  simp only [literal]
  split <;> rfl

/-- The report about an operand is the cause of the type. -/
theorem unary_type_of_reported {node : Node} {op : UnaryOp} {operand : Ty}
    (h : d ∈ (unary options node op operand).reports) :
    (unary options node op operand).type = .unknown (some d.finding.text) := by
  have hd := mem_unary_reports h
  by_cases hallows : op.allows operand = true
  · rw [unary, if_pos hallows] at h
    cases h
  · by_cases hreports : options.reports [operand] = true
    · rw [unary, if_neg hallows, if_pos hreports, hd]
      rfl
    · rw [unary, if_neg hallows, if_neg hreports] at h
      cases h

/-- So is the report about two operands, unless they are compared. -/
theorem binary_type_of_reported {node : Node} {op : BinaryOp} {left right : Ty}
    (h : d ∈ (binary options node op left right).reports) :
    (binary options node op left right).type =
      if op.isRelation then .logical else .unknown (some d.finding.text) := by
  have hd := mem_binary_reports h
  by_cases hallows : (op.allows left right || !options.reports [left, right]) = true
  · rw [binary, if_pos hallows] at h
    cases h
  · rw [binary, if_neg hallows, hd]
    by_cases hrelation : op.isRelation = true
    · rw [if_pos hrelation, if_pos hrelation]
    · rw [if_neg hrelation, if_neg hrelation]
      rfl

theorem inScope_type_of_reported {ctx : Context} {loops : List String} {node : Node}
    {designator : Designator} (h : d ∈ (inScope ctx loops node designator).reports) :
    ∃ cause, (inScope ctx loops node designator).type = .unknown cause := by
  by_cases hbound : foldCase designator.name.value ∈ loops
  · rw [inScope, if_pos hbound] at h
    cases h
  · rw [inScope, if_neg hbound] at h ⊢
    cases hfind : ctx.resolver.find designator with
    | none => exact ⟨_, rfl⟩
    | some declared =>
        rw [hfind, reference] at h
        cases htype : declared.type ctx.options <;> simp [htype, clean] at h

end Verdict

/-! ## Ranges that are left unchecked -/

theorem rangeVerdict_count_of_uncounted (options : Options) (owner : NodeId) (span : Span)
    (wellFormed : Bool) (trips : Except SkipReason Nat) :
    (rangeVerdict options owner span wellFormed none trips).contribution.count = none := by
  cases wellFormed with
  | false => rfl
  | true => cases trips <;> rfl

/-- A range about which there is a note has no number of elements. -/
theorem rangeVerdict_count_of_reported {options : Options} {owner : NodeId} {span : Span}
    {wellFormed : Bool} {perTrip : Option Nat} {trips : Except SkipReason Nat}
    (h : (rangeVerdict options owner span wellFormed perTrip trips).reports ≠ []) :
    (rangeVerdict options owner span wellFormed perTrip trips).contribution.count = none := by
  cases wellFormed with
  | false => exact absurd rfl h
  | true =>
      cases trips with
      | error reason => rfl
      | ok trips => exact absurd rfl h

/-- The constructor `id` is typed by one of the steps, and its size is given up. -/
def GivesUp (ctx : Context) (steps : List Step) (id : NodeId) : Prop :=
  ∃ loops expected node entries, .node loops expected (.array node entries) ∈ steps ∧
    node.id = id ∧ ((Expr.array node entries).verdict ctx loops expected).type = .unmeasured

/-- Ranges about which there is a note belong to constructors that are given up, or to one of the
`pending` constructors, which are not typed yet. -/
def Settled (ctx : Context) (pending : NodeId → Prop) (steps : List Step) : Prop :=
  ∀ loops owner range, .range loops owner range ∈ steps →
    (range.verdict ctx loops owner).reports ≠ [] → GivesUp ctx steps owner ∨ pending owner

theorem GivesUp.mono {ctx : Context} {steps rest : List Step} {id : NodeId}
    (h : GivesUp ctx steps id) (hrest : steps ⊆ rest) : GivesUp ctx rest id := by
  obtain ⟨loops, expected, node, entries, hmem, hid, htype⟩ := h
  exact ⟨loops, expected, node, entries, hrest hmem, hid, htype⟩

namespace Settled

variable {ctx : Context} {pending pending' : NodeId → Prop} {steps rest : List Step}

theorem nil : Settled ctx pending [] := by
  intro loops owner range hrange
  cases hrange

theorem mono (h : Settled ctx pending steps) (hpending : ∀ id, pending id → pending' id) :
    Settled ctx pending' steps := by
  intro loops owner range hrange hnoted
  exact (h loops owner range hrange hnoted).imp_right (hpending owner)

/-- Nothing is pending within an expression, so it fits in everywhere. -/
theorem weaken (h : Settled ctx (fun _ => False) steps) : Settled ctx pending steps :=
  h.mono fun _ hfalse => hfalse.elim

theorem append (h : Settled ctx pending steps) (hrest : Settled ctx pending rest) :
    Settled ctx pending (steps ++ rest) := by
  intro loops owner range hrange hnoted
  rcases List.mem_append.mp hrange with hrange | hrange
  · exact (h loops owner range hrange hnoted).imp_left (·.mono (List.subset_append_left _ _))
  · exact (hrest loops owner range hrange hnoted).imp_left (·.mono (List.subset_append_right _ _))

theorem flatMap {α : Type} {f : α → List Step} (h : ∀ x, Settled ctx pending (f x)) :
    (xs : List α) → Settled ctx pending (xs.flatMap f)
  | [] => nil
  | x :: xs => (h x).append (flatMap h xs)

/-- One more step. If there is a note about a range, its constructor is pending. -/
theorem snoc {step : Step} (h : Settled ctx pending steps)
    (hstep : ∀ loops owner range, step = .range loops owner range →
      (range.verdict ctx loops owner).reports ≠ [] → pending owner) :
    Settled ctx pending (steps ++ [step]) := by
  refine h.append fun loops owner range hrange hnoted => .inr ?_
  exact hstep loops owner range (List.mem_singleton.mp hrange).symm hnoted

/-- The constructor is given up if it has been pending. -/
theorem array {loops : List String} {expected : Option Ty} {node : Node} {entries : List Entry}
    (h : Settled ctx (fun id => id = node.id ∧
      Contribution.total? (contributions ctx loops node.id entries) = none) steps) :
    Settled ctx (fun _ => False) (steps ++ [.node loops expected (.array node entries)]) := by
  intro loops' owner range hrange hnoted
  left
  rcases List.mem_append.mp hrange with hrange | hrange
  · rcases h loops' owner range hrange hnoted with hgiven | ⟨rfl, hcount⟩
    · exact hgiven.mono (List.subset_append_left _ _)
    · refine ⟨loops, expected, node, entries, by simp, rfl, ?_⟩
      exact constructorVerdict_of_uncounted ctx.options node expected hcount
  · cases List.mem_singleton.mp hrange

end Settled

-- Within a constructor the ranges wait for it: a number that is lost stays lost on the way outwards.
mutual

theorem Expr.settled_steps (ctx : Context) (loops : List String) (expected : Option Ty) :
    (e : Expr) → Settled ctx (fun _ => False) (e.steps loops expected)
  | .literal _ _ | .reference _ _ => Settled.nil.snoc (by nofun)
  | .unary _ _ operand => (operand.settled_steps ctx loops none).snoc (by nofun)
  | .binary _ _ left right =>
      ((left.settled_steps ctx loops none).append (right.settled_steps ctx loops none)).snoc
        (by nofun)
  | .paren _ inner => (inner.settled_steps ctx loops expected).snoc (by nofun)
  | .element _ _ subscripts => (settled_subscriptSteps ctx loops subscripts).snoc (by nofun)
  | .array node entries => (settled_entrySteps ctx loops node.id entries).array
termination_by structural e => e

theorem settled_subscriptSteps (ctx : Context) (loops : List String) :
    (subscripts : List Expr) → Settled ctx (fun _ => False) (subscriptSteps loops subscripts)
  | [] => .nil
  | e :: rest =>
      ((e.settled_steps ctx loops none).snoc (by nofun)).append
        (settled_subscriptSteps ctx loops rest)
termination_by structural subscripts => subscripts

theorem Entry.settled_steps (ctx : Context) (loops : List String) (owner : NodeId) :
    (entry : Entry) → Settled ctx
      (fun id => id = owner ∧ (entry.verdict ctx loops owner).contribution.count = none)
      (entry.steps loops owner)
  | .plain value => (value.settled_steps ctx loops none).weaken
  | .impliedDo span body loopVariable start stop stride => by
      have hbody := settled_entrySteps ctx (foldCase loopVariable.value :: loops) owner body
      refine ((((hbody.mono ?_).append
        ((start.settled_steps ctx loops none).weaken.snoc (by nofun))).append
          ((stop.settled_steps ctx loops none).weaken.snoc (by nofun))).append
            (settled_strideSteps ctx loops stride).weaken).snoc ?_
      · rintro id ⟨rfl, hcount⟩
        rw [Entry.verdict, hcount]
        exact ⟨rfl, rangeVerdict_count_of_uncounted _ _ _ _ _⟩
      · rintro loops' owner' range ⟨⟩ hnoted
        exact ⟨rfl, rangeVerdict_count_of_reported hnoted⟩
termination_by structural entry => entry

theorem settled_strideSteps (ctx : Context) (loops : List String) :
    (stride : Option Expr) → Settled ctx (fun _ => False) (strideSteps loops stride)
  | none => .nil
  | some stride => (stride.settled_steps ctx loops none).snoc (by nofun)
termination_by structural stride => stride

theorem settled_entrySteps (ctx : Context) (loops : List String) (owner : NodeId) :
    (entries : List Entry) → Settled ctx
      (fun id => id = owner ∧ Contribution.total? (contributions ctx loops owner entries) = none)
      (entrySteps loops owner entries)
  | [] => .nil
  | entry :: rest => by
      refine ((entry.settled_steps ctx loops owner).mono ?_).append
        ((settled_entrySteps ctx loops owner rest).mono ?_)
      · rintro id ⟨rfl, hcount⟩
        simp [Contribution.total?, contributions, Count.total?, hcount]
      · rintro id ⟨rfl, hcount⟩
        simp only [Contribution.total?] at hcount
        simp [Contribution.total?, contributions, Count.total?, hcount]
termination_by structural entries => entries

end

theorem Task.settled_steps (ctx : Context) (task : Task) :
    Settled ctx (fun _ => False) task.steps := by
  cases task with
  | expression e => exact e.settled_steps ctx [] none
  | target e => exact (e.settled_steps ctx [] none).snoc (by nofun)
  | entity declared => exact Settled.nil.snoc (by nofun)
  | store stored => exact (stored.source.settled_steps ctx [] _).snoc (by nofun)

theorem ProgramUnit.settled_steps (ctx : Context) (program : ProgramUnit) :
    Settled ctx (fun _ => False) (program.steps ctx) := by
  rw [program.steps_eq_tasks ctx]
  exact .flatMap (Task.settled_steps ctx) _

/-! ## Findings of steps -/

section

variable {ctx : Context} {types : TypeMap} {steps : List Step} {d : Diagnostic}
  (hrecorded : Recorded ctx types steps) (hsupported : Supported steps)
include hrecorded hsupported

theorem agrees_constructor {loops : List String} {expected : Option Ty} {node : Node}
    {entries : List Entry} (hstep : .node loops expected (.array node entries) ∈ steps)
    (hd : d ∈ ((Expr.array node entries).verdict ctx loops expected).reports) :
    d.finding.Agrees (steps.filterMap Step.typed?) types := by
  have hnode : .array node entries ∈ steps.filterMap Step.typed? :=
    List.mem_filterMap.mpr ⟨_, hstep, rfl⟩
  rcases mem_constructorVerdict_reports hd with ⟨ty, -, hfinding⟩ | ⟨c, hc, base, hfinding⟩
  · rw [hfinding]
    exact .mismatch (hrecorded loops expected (.array node entries) hstep)
  · rw [contributions_eq_map] at hc
    obtain ⟨entry, hentry, rfl⟩ := List.mem_map.mp hc
    rw [hfinding]
    cases entry with
    | plain value =>
        have hvalue : .node loops none value ∈ (Expr.array node entries).steps loops expected := by
          rw [Expr.steps, entrySteps_eq_flatMap]
          refine List.mem_append_left _ (List.mem_flatMap.mpr ⟨.plain value, hentry, ?_⟩)
          exact value.node_mem_steps loops none
        exact .plainElement hnode hentry (hrecorded loops none value (hsupported _ hstep hvalue))
    | impliedDo span body loopVariable start stop stride =>
        obtain ⟨count, hrange⟩ :=
          Entry.range_contribution ctx loops node.id span body loopVariable start stop stride
        rw [hrange]
        refine .rangeElement hnode hentry ?_
        dsimp only
        split
        · exact .inl rfl
        · exact .inr rfl

theorem agrees_node {loops : List String} {expected : Option Ty} {e : Expr}
    (hstep : .node loops expected e ∈ steps) (hd : d ∈ (e.verdict ctx loops expected).reports) :
    d.finding.Agrees (steps.filterMap Step.typed?) types := by
  have hnode : e ∈ steps.filterMap Step.typed? := List.mem_filterMap.mpr ⟨_, hstep, rfl⟩
  have hself := hrecorded loops expected e hstep
  have hparts := hrecorded.mono (hsupported _ hstep)
  cases e with
  | literal node value =>
      obtain ⟨text, kind, rfl, hfinding⟩ := Verdict.mem_literal_reports hd
      rw [Expr.verdict, Verdict.integerLiteral_type] at hself
      exact hfinding ▸ .literalRange hnode hself
  | unary node op operand =>
      have hoperand := (hparts.mono (List.subset_append_left _ _)).get?_self
      have hfinding := Verdict.mem_unary_reports hd
      rw [Expr.verdict, Verdict.unary_type_of_reported hd, hfinding] at hself
      exact hfinding ▸ .unaryOperand hnode hoperand hself
  | binary node op left right =>
      have hoperands := hparts.mono (List.subset_append_left _ _)
      have hleft := (hoperands.mono (List.subset_append_left _ _)).get?_self
      have hright := (hoperands.mono (List.subset_append_right _ _)).get?_self
      have hfinding := Verdict.mem_binary_reports hd
      rw [Expr.verdict, Verdict.binary_type_of_reported hd, hfinding] at hself
      exact hfinding ▸ .binaryOperands hnode hleft hright hself
  | paren node inner => cases hd
  | reference node name =>
      obtain ⟨cause, htype⟩ := Verdict.inScope_type_of_reported hd
      rw [Verdict.mem_inScope_reports hd]
      have hdesignator : (Expr.reference node name).designator? = some ⟨name, none⟩ := rfl
      exact .unresolved hnode hdesignator (hself.trans (congrArg some htype))
  | element node name subscripts =>
      obtain ⟨cause, htype⟩ := Verdict.inScope_type_of_reported hd
      rw [Verdict.mem_inScope_reports hd]
      have hdesignator : (Expr.element node name subscripts).designator? =
          some ⟨name, some subscripts⟩ := rfl
      exact .unresolved hnode hdesignator (hself.trans (congrArg some htype))
  | array node entries => exact agrees_constructor hrecorded hsupported hstep hd

theorem Step.agrees (hsettled : Settled ctx (fun _ => False) steps) {step : Step}
    (hstep : step ∈ steps) (hd : d ∈ step.reports ctx) :
    d.finding.Agrees (steps.filterMap typed?) types := by
  have hparts := hrecorded.mono (hsupported _ hstep)
  cases step with
  | node loops expected e => exact agrees_node hrecorded hsupported hstep hd
  | subscript loops e =>
      rw [Verdict.mem_nonInteger hd]
      exact .subscript hparts.get?_self
  | loopControl loops e =>
      rw [Verdict.mem_nonInteger hd]
      exact .loopControl hparts.get?_self
  | range loops owner entry =>
      rcases hsettled loops owner entry hstep (List.ne_nil_of_mem hd) with
        ⟨loops', expected, node, entries, hgiven, rfl, htype⟩ | hfalse
      · obtain ⟨reason, hfinding⟩ := entry.mem_verdict_reports hd
        have hself := hrecorded loops' expected (.array node entries) hgiven
        exact hfinding ▸ .skipped (List.mem_filterMap.mpr ⟨_, hgiven, rfl⟩)
          (hself.trans (congrArg some htype))
      · exact hfalse.elim
  | entity declared =>
      obtain ⟨reason, hfinding⟩ := mem_entityVerdict_reports hd
      exact hfinding ▸ .declaration
  | target e => cases hd
  | value expected source =>
      rw [mem_valueReports hd]
      exact .mismatch hparts.get?_self

end

/-! ## Program units -/

/-- Findings and types of a checked unit agree, and only nodes of the map are reported. -/
structure AgreementSpec (program : ProgramUnit) (pass : Pass) : Prop where
  recorded : ∀ d ∈ pass.diagnostics, ∀ id, d.finding.expr? = some id → id ∈ pass.types.ids
  agrees : ∀ d ∈ pass.diagnostics, d.finding.Agrees program.postorder pass.types

/-- Whatever the options and the declarations are, the diagnostics of a check agree with its type
map. -/
theorem ProgramUnit.check_agreementSpec {program : ProgramUnit} (resolver : Resolver)
    (options : Options) (distinct : program.ids.Nodup) :
    AgreementSpec program (program.check resolver options) := by
  have hagrees : ∀ d ∈ (program.check resolver options).diagnostics,
      d.finding.Agrees program.postorder (program.check resolver options).types := by
    intro d hd
    rw [check_diagnostics resolver options distinct] at hd
    obtain ⟨step, hstep, hd⟩ := List.mem_flatMap.mp hd
    rw [← program.typed_steps ⟨resolver, options⟩]
    exact Step.agrees (check_recorded resolver options distinct) (program.supported_steps _)
      (program.settled_steps _) hstep hd
  refine ⟨fun d hd id hid => (hagrees d hd).recorded ?_ hid, hagrees⟩
  intro e he
  rw [check_ids resolver options distinct]
  exact List.mem_map_of_mem he

namespace ProgramUnit

/-- The unit `y = [(j, i = 1, 9, 0), .not. 7]` and `z = 200_1 < "a"`, without declarations. -/
def faultyRange : ProgramUnit :=
  let name (text : String) : Located String := ⟨.ofWidth 0 1, text⟩
  let number (index : Nat) (text : String) : Expr := .literal (.ofIndex index) (.integer text)
  let range : Entry := .impliedDo (.ofWidth 0 5) [.plain (.reference (.ofIndex 1) (name "j"))]
    (name "i") (number 2 "1") (number 3 "9") (some (number 4 "0"))
  let negation : Expr := .unary (.ofIndex 6) .not (number 5 "7")
  let comparison : Expr := .binary (.ofIndex 10) (.relation .lt) (number 8 "200_1")
    (.literal (.ofIndex 9) (.character "a"))
  ⟨.mainProgram, name "p", [], [
    ⟨.ofWidth 0 9, .assignment (.reference (.ofIndex 0) (name "y"))
      (.array (.ofIndex 7) [range, .plain negation])⟩,
    ⟨.ofWidth 9 9, .assignment (.reference (.ofIndex 11) (name "z")) comparison⟩]⟩

/-- The constructor is given up and the negation unknown, while the comparison stays logical. -/
theorem faultyRange_agreementSpec :
    let pass := faultyRange.check (.ofScope .empty)
      { reportUnresolved := true, reportSkipped := true }
    faultyRange.ids.Nodup ∧
      (pass.diagnostics.map fun d => d.finding.kind) =
        [.unresolved, .unresolved, .skipped, .unaryOperand, .unresolved, .literalRange,
          .binaryOperands] ∧
      AgreementSpec faultyRange pass := by
  have distinct : faultyRange.ids.Nodup := by decide
  exact ⟨distinct, by decide +kernel, check_agreementSpec _ _ distinct⟩

end ProgramUnit

end FortranTyping

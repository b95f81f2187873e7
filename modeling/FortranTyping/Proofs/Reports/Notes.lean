import FortranTyping.Proofs.Constructor.Size
import FortranTyping.Proofs.Declarations.Types
import FortranTyping.Proofs.Reports.Findings

/-!
# Notes about what is left unchecked

An implied-do whose trips are not counted is noted, and so is an entity whose elements are not. Which
reasons there are not to count is said here without the computation that fails. A check that takes
notes gives these reasons, except that it also notes loops and shapes that run over the whole range of
literals: nothing is wrong with those, but their number is one more than a count can be, and the
reason given for it does not hold.
-/

namespace FortranTyping

/-! ## Subjects of notes -/

/-- An implied-do range within the constructor `owner`, without its body. -/
structure LoopRange where
  owner : NodeId
  span : Span
  start : Expr
  stop : Expr
  stride : Option Expr

def LoopRange.controls (loop : LoopRange) : List Expr :=
  loop.start :: loop.stop :: loop.stride.toList

/-- What there may be notes about. -/
inductive NoteSubject where
  | range (loop : LoopRange)
  | entity (declared : DeclaredEntity)

/-- The note that gives this reason. One about a range names the constructor. -/
def NoteSubject.note : NoteSubject → SkipReason → Diagnostic
  | range loop, reason => .of loop.span (.skipped (some loop.owner) reason)
  | entity declared, reason => .of declared.entity.name.span (.skipped none reason)

mutual

/-- The ranges within an expression. A range comes behind those within its body and controls. -/
def Expr.noteSubjects : Expr → List NoteSubject
  | .literal _ _ | .reference _ _ => []
  | .unary _ _ operand => operand.noteSubjects
  | .binary _ _ left right => left.noteSubjects ++ right.noteSubjects
  | .paren _ inner => inner.noteSubjects
  | .element _ _ subscripts => subscriptNoteSubjects subscripts
  | .array node entries => entryNoteSubjects node.id entries
termination_by structural e => e

def subscriptNoteSubjects : List Expr → List NoteSubject
  | [] => []
  | e :: rest => e.noteSubjects ++ subscriptNoteSubjects rest
termination_by structural subscripts => subscripts

def Entry.noteSubjects (owner : NodeId) : Entry → List NoteSubject
  | .plain value => value.noteSubjects
  | .impliedDo span body _ start stop stride =>
      entryNoteSubjects owner body ++ start.noteSubjects ++ stop.noteSubjects ++
        strideNoteSubjects stride ++ [.range ⟨owner, span, start, stop, stride⟩]
termination_by structural entry => entry

def strideNoteSubjects : Option Expr → List NoteSubject
  | none => []
  | some stride => stride.noteSubjects
termination_by structural stride => stride

def entryNoteSubjects (owner : NodeId) : List Entry → List NoteSubject
  | [] => []
  | entry :: rest => entry.noteSubjects owner ++ entryNoteSubjects owner rest
termination_by structural entries => entries

end

def DeclaredEntity.noteSubjects (declared : DeclaredEntity) : List NoteSubject :=
  (declared.entity.shape.elim [] Shape.bounds).flatMap Expr.noteSubjects ++ [.entity declared] ++
    declared.entity.init.elim [] Expr.noteSubjects

def Declaration.noteSubjects (declaration : Declaration) : List NoteSubject :=
  (declaration.typeSpec.kind.toList ++ declaration.typeSpec.length.toList ++
      declaration.dimension?.elim [] Shape.bounds).flatMap Expr.noteSubjects ++
    declaration.declared.flatMap DeclaredEntity.noteSubjects

/-- The ranges and entities of a unit, in the order in which a check comes to them. -/
def ProgramUnit.noteSubjects (program : ProgramUnit) : List NoteSubject :=
  program.declarations.flatMap (·.value.noteSubjects) ++
    program.statements.flatMap fun located => located.value.expressions.flatMap Expr.noteSubjects

/-! ## Reasons that hold -/

/-- Why the trips of a range with integer controls are not counted: a control without a value, or
else a stride of zero. -/
inductive LoopRange.HasReason (loop : LoopRange) : SkipReason → Prop where
  | nonLiteral {control : Expr} (hcontrol : control ∈ loop.controls)
      (hvalue : control.integerValue? = none) : HasReason loop .nonLiteralLoopBound
  | zeroStride {stride : Expr}
      (hvalues : ∀ control ∈ loop.controls, control.integerValue?.isSome = true)
      (hstride : loop.stride = some stride) (hzero : stride.integerValue? = some 0) :
      HasReason loop .zeroStride

/-- All controls of the range are integers. -/
def LoopRange.Integers (types : TypeMap) (loop : LoopRange) : Prop :=
  ∀ control ∈ loop.controls, types.get? control.id = some .integer

instance (types : TypeMap) (loop : LoopRange) : Decidable (loop.Integers types) :=
  inferInstanceAs (Decidable (∀ control ∈ loop.controls, types.get? control.id = some .integer))

/-- Why a subject is left unchecked. Ranges that are ill-typed are not noted. -/
inductive NoteSubject.HasReason (types : TypeMap) : NoteSubject → SkipReason → Prop where
  | range {loop : LoopRange} {reason : SkipReason} (hintegers : loop.Integers types)
      (hreason : loop.HasReason reason) : HasReason types (.range loop) reason
  | entity {declared : DeclaredEntity} {shape : Shape} {reason : SkipReason}
      (hshape : declared.HasShape (some shape)) (hsize : shape.HasSize (.error reason)) :
      HasReason types (.entity declared) reason

/-- The loop runs from one end of the range of literals to the other, in single steps. -/
def LoopRange.SpansRange (loop : LoopRange) : Prop :=
  loopValues? loop.start loop.stop loop.stride = some (lowest, highest, 1) ∨
    loopValues? loop.start loop.stop loop.stride = some (highest, lowest, -1)

/-- What is noted although nothing is wrong with it, and the reason that is given. -/
inductive NoteSubject.Misnoted (types : TypeMap) : NoteSubject → SkipReason → Prop where
  | range {loop : LoopRange} (hintegers : loop.Integers types) (hspans : loop.SpansRange) :
      Misnoted types (.range loop) .zeroStride
  | entity {declared : DeclaredEntity} {dimension : Dimension}
      (hshape : declared.HasShape (some [dimension])) (hspans : dimension.SpansRange) :
      Misnoted types (.entity declared) .nonLiteralBound

/-- The notes are one for each subject of the unit that there is a reason for, in order. -/
def ProgramUnit.NotedFor (program : ProgramUnit) (pass : Pass)
    (holds : NoteSubject → SkipReason → Prop) : Prop :=
  ∃ reason? : NoteSubject → Option SkipReason,
    (∀ subject ∈ program.noteSubjects, ∀ reason,
      reason? subject = some reason ↔ holds subject reason) ∧
    ofKind .skipped pass.diagnostics =
      program.noteSubjects.filterMap fun subject => (reason? subject).map subject.note

/-! ## Reasons that are given -/

/-- The reason for which a computation gives nothing. -/
def skipReason? {α : Type} : Except SkipReason α → Option SkipReason
  | .error reason => some reason
  | .ok _ => none

theorem skipReason?_eq_some_iff {α : Type} {result : Except SkipReason α} {reason : SkipReason} :
    skipReason? result = some reason ↔ result = .error reason := by
  cases result <;> simp [skipReason?]

/-- Some control of a range has no value if and only if the values cannot be told. -/
theorem LoopRange.loopValues?_eq_none_iff {loop : LoopRange} :
    loopValues? loop.start loop.stop loop.stride = none ↔
      ∃ control ∈ loop.controls, control.integerValue? = none := by
  rw [← Option.not_isSome_iff_eq_none, loopValues?_isSome_iff]
  simp only [not_forall, exists_prop, Option.not_isSome_iff_eq_none]
  rfl

namespace LoopRange

variable {loop : LoopRange} {reason : SkipReason} {first last step : Int}

theorem literal_of_values
    (hvalues : loopValues? loop.start loop.stop loop.stride = some (first, last, step)) :
    ∀ control ∈ loop.controls, control.integerValue?.isSome = true :=
  loopValues?_isSome_iff.mp (hvalues ▸ rfl)

/-- The values of a loop are integers of 64 bits. -/
theorem values_inRange
    (hvalues : loopValues? loop.start loop.stop loop.stride = some (first, last, step)) :
    InRange first ∧ InRange last := by
  cases hstart : loop.start.integerValue? with
  | none => simp [loopValues?, hstart] at hvalues
  | some start =>
      cases hstop : loop.stop.integerValue? with
      | none => simp [loopValues?, hstart, hstop] at hvalues
      | some stop =>
          have hends : start = first ∧ stop = last := by
            cases hstride : valueOrOne? loop.stride <;>
              simp_all [loopValues?]
          exact ⟨hends.1 ▸ loop.start.integerValue?_inRange hstart,
            hends.2 ▸ loop.stop.integerValue?_inRange hstop⟩

/-- Where all controls have values, only a stride of zero is a reason. -/
theorem hasReason_iff_of_values
    (hvalues : loopValues? loop.start loop.stop loop.stride = some (first, last, step)) :
    loop.HasReason reason ↔ step = 0 ∧ reason = .zeroStride := by
  have hliteral := literal_of_values hvalues
  have hstep := valueOrOne?_of_loopValues? hvalues
  constructor
  · intro h
    cases h with
    | nonLiteral hcontrol hvalue =>
        have hsome := hliteral _ hcontrol
        rw [hvalue] at hsome
        cases hsome
    | zeroStride _ hstride hzero =>
        rw [hstride, valueOrOne?, hzero] at hstep
        exact ⟨(Option.some.inj hstep).symm, rfl⟩
  · rintro ⟨rfl, rfl⟩
    cases hstride : loop.stride with
    | none =>
        rw [hstride] at hstep
        cases hstep
    | some stride =>
        rw [hstride] at hstep
        exact .zeroStride hliteral hstride hstep

theorem hasReason_iff_of_no_values
    (hvalues : loopValues? loop.start loop.stop loop.stride = none) :
    loop.HasReason reason ↔ reason = .nonLiteralLoopBound := by
  obtain ⟨control, hcontrol, hvalue⟩ := loopValues?_eq_none_iff.mp hvalues
  constructor
  · intro h
    cases h with
    | nonLiteral _ _ => rfl
    | zeroStride hliteral _ _ =>
        have hsome := hliteral control hcontrol
        rw [hvalue] at hsome
        cases hsome
  · rintro rfl
    exact .nonLiteral hcontrol hvalue

/-- A loop over the whole range of literals gives no reason not to count it. -/
theorem SpansRange.not_hasReason (h : loop.SpansRange) : ¬loop.HasReason reason := by
  rcases h with hvalues | hvalues <;> simp [hasReason_iff_of_values hvalues]

/-- The trips are counted unless there is a reason or there are too many of them. -/
theorem loopTrips_eq_error_iff :
    loopTrips loop.start loop.stop loop.stride = .error reason ↔
      loop.HasReason reason ∨ loop.SpansRange ∧ reason = .zeroStride := by
  cases hvalues : loopValues? loop.start loop.stop loop.stride with
  | none => simp [loopTrips, SpansRange, hvalues, hasReason_iff_of_no_values hvalues, eq_comm]
  | some values =>
      obtain ⟨first, last, step⟩ := values
      obtain ⟨hfirst, hlast⟩ := values_inRange hvalues
      have htrips : loopTrips loop.start loop.stop loop.stride = .error reason ↔
          Count.trips? first last step = none ∧ reason = .zeroStride := by
        simp only [loopTrips, hvalues]
        cases Count.trips? first last step <;> simp [eq_comm]
      have hspans : loop.SpansRange ↔ (first = lowest ∧ last = highest ∧ step = 1) ∨
          (first = highest ∧ last = lowest ∧ step = -1) := by
        simp [SpansRange, hvalues]
      rw [htrips, hasReason_iff_of_values hvalues, hspans, ← or_and_right]
      refine and_congr_left fun _ => ?_
      by_cases hstep : step = 0
      · simp [hstep, Count.trips?]
      · rw [← Count.limit_le_tripCount_iff hfirst hlast hstep, ← Nat.not_lt]
        rw [Option.eq_none_iff_forall_ne_some]
        simp [Count.trips?_eq_some_iff, hstep]

end LoopRange

/-- A shape over the whole range of literals gives no reason not to count it. -/
theorem Dimension.SpansRange.not_hasSize {dimension : Dimension} (h : dimension.SpansRange)
    (reason : SkipReason) : ¬Shape.HasSize [dimension] (.error reason) := by
  obtain ⟨lower, upper, hlower, hupper, hlowest, hhighest⟩ := h
  intro hsize
  cases hsize with
  | rank hrank => exact hrank rfl
  | deferred hnone => exact Option.some_ne_none _ (hupper.symm.trans hnone)
  | nonLiteral _ hbound hvalue =>
      simp only [bounds, hlower, hupper, Option.toList_some, List.cons_append, List.nil_append,
        List.mem_cons, List.not_mem_nil, or_false] at hbound
      rcases hbound with rfl | rfl
      · exact Option.some_ne_none _ (hlowest.symm.trans hvalue)
      · exact Option.some_ne_none _ (hhighest.symm.trans hvalue)

/-- The elements are counted unless there is a reason or there are too many of them. -/
theorem Shape.size_eq_error_iff {shape : Shape} {reason : SkipReason} :
    shape.size = .error reason ↔ shape.HasSize (.error reason) ∨
      (∃ dimension, shape = [dimension] ∧ dimension.SpansRange) ∧ reason = .nonLiteralBound := by
  constructor
  · intro h
    rcases shape.hasSize_or_spansRange with hsize | ⟨dimension, rfl, hspans⟩
    · exact .inl (h ▸ hsize)
    · rw [size_of_spansRange hspans] at h
      cases h
      exact .inr ⟨⟨dimension, rfl, hspans⟩, rfl⟩
  · rintro (hsize | ⟨⟨dimension, rfl, hspans⟩, rfl⟩)
    · exact size_of_hasSize hsize
    · exact size_of_spansRange hspans

namespace NoteSubject

/-- The reason for a note about the subject, as a check finds it. -/
def reason? (types : TypeMap) : NoteSubject → Option SkipReason
  | range loop =>
      if loop.Integers types then skipReason? (loopTrips loop.start loop.stop loop.stride) else none
  | entity declared => declared.shape?.bind fun shape => skipReason? shape.size

variable {types : TypeMap} {subject : NoteSubject} {reason : SkipReason}

/-- A check gives the reasons that hold, and reasons for what it misnotes. -/
theorem reason?_eq_some_iff :
    subject.reason? types = some reason ↔
      subject.HasReason types reason ∨ subject.Misnoted types reason := by
  cases subject with
  | range loop =>
      have hgiven : (NoteSubject.range loop).reason? types = some reason ↔
          loop.Integers types ∧
            loopTrips loop.start loop.stop loop.stride = .error reason := by
        rw [← skipReason?_eq_some_iff, reason?]
        by_cases hintegers : loop.Integers types <;> simp [hintegers]
      rw [hgiven, LoopRange.loopTrips_eq_error_iff]
      constructor
      · rintro ⟨hintegers, hreason | ⟨hspans, rfl⟩⟩
        · exact .inl (.range hintegers hreason)
        · exact .inr (.range hintegers hspans)
      · rintro (h | h)
        · cases h with
          | range hintegers hreason => exact ⟨hintegers, .inl hreason⟩
        · cases h with
          | range hintegers hspans => exact ⟨hintegers, .inr ⟨hspans, rfl⟩⟩
  | entity declared =>
      have hgiven : (NoteSubject.entity declared).reason? types = some reason ↔
          ∃ shape, declared.HasShape (some shape) ∧ shape.size = .error reason := by
        simp [reason?, Option.bind_eq_some_iff, skipReason?_eq_some_iff,
          DeclaredEntity.hasShape_iff]
      rw [hgiven]
      constructor
      · rintro ⟨shape, hshape, hsize⟩
        rcases Shape.size_eq_error_iff.mp hsize with hsize | ⟨⟨dimension, rfl, hspans⟩, rfl⟩
        · exact .inl (.entity hshape hsize)
        · exact .inr (.entity hshape hspans)
      · rintro (h | h)
        · cases h with
          | entity hshape hsize => exact ⟨_, hshape, Shape.size_of_hasSize hsize⟩
        · cases h with
          | entity hshape hspans => exact ⟨_, hshape, Shape.size_of_spansRange hspans⟩

theorem Misnoted.not_hasReason (h : subject.Misnoted types reason) (reason' : SkipReason) :
    ¬subject.HasReason types reason' := by
  intro hreason
  cases h with
  | range _ hspans =>
      cases hreason with
      | range _ hreason => exact hspans.not_hasReason hreason
  | entity hshape hspans =>
      cases hreason with
      | entity hshape' hsize =>
          cases (DeclaredEntity.hasShape_iff.mp hshape').symm.trans
            (DeclaredEntity.hasShape_iff.mp hshape)
          exact hspans.not_hasSize _ hsize

end NoteSubject

/-! ## Steps that may be noted -/

def Step.noteSubject? : Step → Option NoteSubject
  | range _ owner (.impliedDo span _ _ start stop stride) =>
      some (.range ⟨owner, span, start, stop, stride⟩)
  | entity declared => some (.entity declared)
  | _ => none

theorem noteSubjects_node (loops : List String) (expected : Option Ty) (e : Expr) :
    [Step.node loops expected e].filterMap Step.noteSubject? = [] := rfl

theorem noteSubjects_subscript (loops : List String) (e : Expr) :
    [Step.subscript loops e].filterMap Step.noteSubject? = [] := rfl

theorem noteSubjects_loopControl (loops : List String) (e : Expr) :
    [Step.loopControl loops e].filterMap Step.noteSubject? = [] := rfl

mutual

theorem Expr.noteSubjects_steps (loops : List String) (expected : Option Ty) :
    (e : Expr) → (e.steps loops expected).filterMap Step.noteSubject? = e.noteSubjects
  | .literal _ _ | .reference _ _ => by
      rw [Expr.steps, Expr.noteSubjects, noteSubjects_node]
  | .unary _ _ operand => by
      rw [Expr.steps, Expr.noteSubjects, List.filterMap_append, noteSubjects_node, List.append_nil,
        operand.noteSubjects_steps]
  | .binary _ _ left right => by
      rw [Expr.steps, Expr.noteSubjects, List.filterMap_append, noteSubjects_node, List.append_nil,
        List.filterMap_append, left.noteSubjects_steps, right.noteSubjects_steps]
  | .paren _ inner => by
      rw [Expr.steps, Expr.noteSubjects, List.filterMap_append, noteSubjects_node, List.append_nil,
        inner.noteSubjects_steps]
  | .element _ _ subscripts => by
      rw [Expr.steps, Expr.noteSubjects, List.filterMap_append, noteSubjects_node, List.append_nil,
        noteSubjects_subscriptSteps]
  | .array node entries => by
      rw [Expr.steps, Expr.noteSubjects, List.filterMap_append, noteSubjects_node, List.append_nil,
        noteSubjects_entrySteps]
termination_by structural e => e

theorem noteSubjects_subscriptSteps (loops : List String) :
    (subscripts : List Expr) → (subscriptSteps loops subscripts).filterMap Step.noteSubject? =
      subscriptNoteSubjects subscripts
  | [] => rfl
  | e :: rest => by
      rw [subscriptSteps, subscriptNoteSubjects, List.filterMap_append, List.filterMap_append,
        noteSubjects_subscript, List.append_nil, e.noteSubjects_steps,
        noteSubjects_subscriptSteps loops rest]
termination_by structural subscripts => subscripts

theorem Entry.noteSubjects_steps (loops : List String) (owner : NodeId) :
    (entry : Entry) → (entry.steps loops owner).filterMap Step.noteSubject? =
      entry.noteSubjects owner
  | .plain value => value.noteSubjects_steps loops none
  | .impliedDo _ body loopVariable start stop stride => by
      have hbody := noteSubjects_entrySteps (foldCase loopVariable.value :: loops) owner body
      have hstride := noteSubjects_strideSteps loops stride
      simp only [Entry.steps, Entry.noteSubjects, List.filterMap_append, noteSubjects_loopControl,
        List.append_nil, hbody, start.noteSubjects_steps, stop.noteSubjects_steps, hstride]
      rfl
termination_by structural entry => entry

theorem noteSubjects_strideSteps (loops : List String) :
    (stride : Option Expr) → (strideSteps loops stride).filterMap Step.noteSubject? =
      strideNoteSubjects stride
  | none => rfl
  | some stride => by
      rw [strideSteps, strideNoteSubjects, List.filterMap_append, noteSubjects_loopControl,
        List.append_nil, stride.noteSubjects_steps]
termination_by structural stride => stride

theorem noteSubjects_entrySteps (loops : List String) (owner : NodeId) :
    (entries : List Entry) → (entrySteps loops owner entries).filterMap Step.noteSubject? =
      entryNoteSubjects owner entries
  | [] => rfl
  | entry :: rest => by
      rw [entrySteps, entryNoteSubjects, List.filterMap_append, entry.noteSubjects_steps,
        noteSubjects_entrySteps loops owner rest]
termination_by structural entries => entries

end

theorem noteSubjects_eachSteps (es : List Expr) :
    (eachSteps es).filterMap Step.noteSubject? = es.flatMap Expr.noteSubjects := by
  simp [eachSteps, List.filterMap_flatMap, Expr.noteSubjects_steps]

theorem noteSubjects_valueSteps (expected : Ty) (source : Expr) :
    (valueSteps expected source).filterMap Step.noteSubject? = source.noteSubjects := by
  unfold valueSteps
  split <;> simp [Expr.noteSubjects_steps, Step.noteSubject?]

theorem DeclaredEntity.noteSubjects_steps (ctx : Context) (declared : DeclaredEntity) :
    (declared.steps ctx).filterMap Step.noteSubject? = declared.noteSubjects := by
  cases hinit : declared.entity.init <;>
    simp [DeclaredEntity.steps, DeclaredEntity.noteSubjects, hinit, noteSubjects_eachSteps,
      noteSubjects_valueSteps, Step.noteSubject?]

theorem Declaration.noteSubjects_steps (ctx : Context) (declaration : Declaration) :
    (declaration.steps ctx).filterMap Step.noteSubject? = declaration.noteSubjects := by
  simp [Declaration.steps, Declaration.noteSubjects, noteSubjects_eachSteps,
    List.filterMap_flatMap, DeclaredEntity.noteSubjects_steps]

theorem Statement.noteSubjects_steps (ctx : Context) (statement : Statement) :
    (statement.steps ctx).filterMap Step.noteSubject? =
      statement.expressions.flatMap Expr.noteSubjects := by
  cases statement with
  | other => rfl
  | assignment target source =>
      cases hdesignator : target.designator? <;>
        simp [Statement.steps, Statement.expressions, hdesignator, Expr.noteSubjects_steps,
          noteSubjects_valueSteps, List.filterMap_cons, Step.noteSubject?]

theorem ProgramUnit.noteSubjects_steps (ctx : Context) (program : ProgramUnit) :
    (program.steps ctx).filterMap Step.noteSubject? = program.noteSubjects := by
  simp [ProgramUnit.steps, ProgramUnit.noteSubjects, List.filterMap_flatMap,
    Declaration.noteSubjects_steps, Statement.noteSubjects_steps]

/-! ## Notes of steps -/

section

variable {options : Options} (hnotes : options.reportSkipped = true)
include hnotes

theorem ofKind_skip (span : Span) (expr : Option NodeId) (reason : SkipReason) :
    ofKind .skipped (options.skip span expr reason) = [.of span (.skipped expr reason)] := by
  rw [Options.skip, if_pos hnotes]
  rfl

theorem ofKind_rangeVerdict (owner : NodeId) (span : Span) (wellFormed : Bool)
    (perTrip : Option Nat) (trips : Except SkipReason Nat) :
    ofKind .skipped (rangeVerdict options owner span wellFormed perTrip trips).reports =
      ((if wellFormed then skipReason? trips else none).map fun reason =>
        Diagnostic.of span (.skipped (some owner) reason)).toList := by
  cases wellFormed with
  | false => rfl
  | true =>
      cases trips with
      | ok trips => rfl
      | error reason => exact ofKind_skip hnotes span (some owner) reason

theorem ofKind_entityVerdict (declared : DeclaredEntity) :
    ofKind .skipped (Infer.entityVerdict options declared).reports =
      ((skipReason? (declared.type options)).map (NoteSubject.entity declared).note).toList := by
  unfold Infer.entityVerdict
  cases declared.type options with
  | ok type => rfl
  | error reason => exact ofKind_skip hnotes declared.entity.name.span none reason

end

theorem DeclaredEntity.skipReason?_type (options : Options) (declared : DeclaredEntity) :
    skipReason? (declared.type options) = declared.shape?.bind fun shape =>
      skipReason? shape.size := by
  cases hshape : declared.shape? with
  | none => simp [DeclaredEntity.type, hshape, skipReason?]
  | some shape =>
      rw [DeclaredEntity.type_of_shape hshape, Option.bind_some]
      cases shape.size <;> rfl

/-- The note of a step is the one about its subject, by the types that are recorded. -/
theorem ofKind_skipped {ctx : Context} {types : TypeMap} {steps : List Step}
    (hnotes : ctx.options.reportSkipped = true) (hrecorded : Recorded ctx types steps)
    (hsupported : Supported steps) {step : Step} (hstep : step ∈ steps) :
    ofKind .skipped (step.reports ctx) = step.noteSubject?.elim [] fun subject =>
      ((subject.reason? types).map subject.note).toList := by
  cases step with
  | range loops owner entry =>
      cases entry with
      | plain value => rfl
      | impliedDo span body loopVariable start stop stride =>
          have hcontrols := controlsFit_iff (hrecorded.mono (hsupported _ hstep))
          rw [Step.reports, Entry.verdict, ofKind_rangeVerdict hnotes]
          simp only [hcontrols]
          rfl
  | entity declared =>
      rw [Step.reports, ofKind_entityVerdict hnotes, declared.skipReason?_type]
      rfl
  | node loops expected e =>
      refine Step.ofKind_reports_eq_nil ?_
      cases e <;> simp [Step.kinds, Expr.kinds]
  | _ => exact Step.ofKind_reports_eq_nil (by simp [Step.kinds])

/-! ## Whole units -/

/-- A choice that gives no more than another, and as much in all, gives something wherever the other
does. -/
theorem isSome_of_filterMap_eq {α β : Type} {f g : α → Option β} {xs : List α}
    (hle : ∀ x ∈ xs, (f x).isSome = true → (g x).isSome = true)
    (heq : xs.filterMap f = xs.filterMap g) {x : α} (hx : x ∈ xs) (hg : (g x).isSome = true) :
    (f x).isSome = true := by
  by_contra hf
  obtain ⟨before, after, rfl⟩ := List.append_of_mem hx
  have hbefore : before.countP (fun y => (f y).isSome) ≤ before.countP fun y => (g y).isSome :=
    List.countP_mono_left fun y hy => hle y (List.mem_append_left _ hy)
  have hafter : after.countP (fun y => (f y).isSome) ≤ after.countP fun y => (g y).isSome :=
    List.countP_mono_left fun y hy => hle y (List.mem_append_right _ (List.mem_cons_of_mem _ hy))
  have hlength := congrArg List.length heq
  simp only [List.length_filterMap_eq_countP, List.countP_append, List.countP_cons, hf, hg, if_true,
    if_false] at hlength
  omega

namespace ProgramUnit

variable {program : ProgramUnit}

/-- The notes give reasons that hold, except about what is misnoted. -/
structure NoteSpec (program : ProgramUnit) (pass : Pass) : Prop where
  noted : program.NotedFor pass fun subject reason =>
    subject.HasReason pass.types reason ∨ subject.Misnoted pass.types reason
  /-- No reason holds for what is misnoted. -/
  unfounded : ∀ (subject : NoteSubject) (reason : SkipReason), subject.Misnoted pass.types reason →
    ∀ reason', ¬subject.HasReason pass.types reason'
  truthful_iff : program.NotedFor pass (NoteSubject.HasReason pass.types) ↔
    ∀ subject ∈ program.noteSubjects, ∀ reason, ¬subject.Misnoted pass.types reason

theorem check_noted (resolver : Resolver) {options : Options}
    (hnotes : options.reportSkipped = true) (distinct : program.ids.Nodup) :
    let pass := program.check resolver options
    ofKind .skipped pass.diagnostics =
      program.noteSubjects.filterMap fun subject =>
        (subject.reason? pass.types).map subject.note := by
  intro pass
  have hrecorded := check_recorded resolver options distinct
  have hsupported := program.supported_steps ⟨resolver, options⟩
  rw [check_diagnostics resolver options distinct, List.filterMap_eq_flatMap_toList,
    ← program.noteSubjects_steps ⟨resolver, options⟩]
  exact Step.ofKind_diagnostics Step.noteSubject? _ fun step hstep =>
    ofKind_skipped hnotes hrecorded hsupported hstep

/-- Where the notes are the ones that the reasons found call for, they are truthful if and only if
nothing is misnoted. -/
theorem notedFor_hasReason_iff {pass : Pass}
    (hnoted : ofKind .skipped pass.diagnostics = program.noteSubjects.filterMap fun subject =>
      (subject.reason? pass.types).map subject.note) :
    program.NotedFor pass (NoteSubject.HasReason pass.types) ↔
      ∀ subject ∈ program.noteSubjects, ∀ reason, ¬subject.Misnoted pass.types reason := by
  constructor
  · rintro ⟨truth?, htruth, hnotes⟩ subject hsubject reason hmisnoted
    have hfound : ∀ subject ∈ program.noteSubjects, (truth? subject).isSome = true →
        (subject.reason? pass.types).isSome = true := by
      intro subject hsubject htrue
      obtain ⟨reason, hreason⟩ := Option.isSome_iff_exists.mp htrue
      have hgiven := NoteSubject.reason?_eq_some_iff.mpr
        (.inl ((htruth subject hsubject reason).mp hreason))
      rw [hgiven]
      rfl
    have hgiven := NoteSubject.reason?_eq_some_iff.mpr (.inr hmisnoted)
    -- Different subjects may have the same note, so the notes are counted and not compared.
    have htrue := isSome_of_filterMap_eq (by simpa using hfound) (hnotes.symm.trans hnoted) hsubject
      (by simp [hgiven])
    obtain ⟨reason', hreason'⟩ : ∃ reason', truth? subject = some reason' := by
      simpa [Option.isSome_iff_exists] using htrue
    exact hmisnoted.not_hasReason reason' ((htruth subject hsubject reason').mp hreason')
  · intro hnone
    refine ⟨NoteSubject.reason? pass.types, fun subject hsubject reason => ?_, hnoted⟩
    rw [NoteSubject.reason?_eq_some_iff]
    exact or_iff_left (hnone subject hsubject reason)

/-- A check that takes notes gives the reasons that hold, and misnotes what runs over the whole
range of literals. -/
theorem check_noteSpec (resolver : Resolver) {options : Options}
    (hnotes : options.reportSkipped = true) (distinct : program.ids.Nodup) :
    NoteSpec program (program.check resolver options) := by
  have hnoted := check_noted resolver hnotes distinct
  refine ⟨⟨_, fun subject _ reason => NoteSubject.reason?_eq_some_iff, hnoted⟩, ?_,
    notedFor_hasReason_iff hnoted⟩
  exact fun subject reason hmisnoted => hmisnoted.not_hasReason

/-- The unit `integer :: a(1 + 1) = [(0, i = 1 + 1, 3), (0, i = 1, 2, 0), (0, i = 1, .true.)]`, which
has each kind of reason and a range that is ill-typed. -/
def uncounted : ProgramUnit :=
  let name (text : String) : Located String := ⟨.ofWidth 0 1, text⟩
  let number (index : Nat) (text : String) : Expr := .literal (.ofIndex index) (.integer text)
  let sum (index : Nat) : Expr :=
    .binary (.ofIndex index) .add (number (index + 1) "1") (number (index + 2) "1")
  let range (index : Nat) (start stop : Expr) (stride : Option Expr) : Entry :=
    .impliedDo (.ofWidth index 1) [.plain (number index "0")] (name "i") start stop stride
  let ranges : List Entry := [range 4 (sum 5) (number 8 "3") none,
    range 9 (number 10 "1") (number 11 "2") (some (number 12 "0")),
    range 13 (number 14 "1") (.literal (.ofIndex 15) (.logical true)) none]
  let entity : Entity := ⟨name "a", some [⟨none, some (sum 0)⟩], some (.array (.ofIndex 3) ranges)⟩
  ⟨.mainProgram, name "p", [⟨.ofWidth 0 9, ⟨⟨⟨.ofWidth 0 7, .integer⟩, none, none⟩, [], [entity]⟩⟩],
    []⟩

theorem uncounted_noteSpec :
    let pass := uncounted.check (.ofScope .empty) { reportSkipped := true }
    uncounted.ids.Nodup ∧ NoteSpec uncounted pass ∧
      (ofKind .skipped pass.diagnostics).map Diagnostic.finding =
        [.skipped none .nonLiteralBound, .skipped (some ⟨3⟩) .nonLiteralLoopBound,
          .skipped (some ⟨3⟩) .zeroStride] := by
  have distinct : uncounted.ids.Nodup := by decide
  exact ⟨distinct, check_noteSpec _ rfl distinct, by decide⟩

/-- The loop of `[(0, i = -9223372036854775808_k, 9223372036854775807_k)]`. -/
def wholeRange : LoopRange :=
  let number (index : Nat) (text : String) : Expr := .literal (.ofIndex index) (.integer text)
  ⟨⟨0⟩, .ofWidth 0 1, number 2 "-9223372036854775808_k", number 3 "9223372036854775807_k", none⟩

/-- The unit `x = [(0, i = -9223372036854775808_k, 9223372036854775807_k)]`. -/
def wholeRangeStored : ProgramUnit :=
  let name (text : String) : Located String := ⟨.ofWidth 0 1, text⟩
  let range : Entry := .impliedDo wholeRange.span [.plain (.literal (.ofIndex 1) (.integer "0"))]
    (name "i") wholeRange.start wholeRange.stop wholeRange.stride
  ⟨.mainProgram, name "p", [], [⟨.ofWidth 0 9, .assignment (.reference (.ofIndex 4) (name "x"))
    (.array (.ofIndex 0) [range])⟩]⟩

/-- A loop without a stride is noted for a stride of zero. -/
theorem wholeRangeStored_not_truthful :
    let pass := wholeRangeStored.check (.ofScope .empty) { reportSkipped := true }
    ofKind .skipped pass.diagnostics = [(NoteSubject.range wholeRange).note .zeroStride] ∧
      ¬wholeRangeStored.NotedFor pass (NoteSubject.HasReason pass.types) := by
  intro pass
  have distinct : wholeRangeStored.ids.Nodup := by decide
  have hspans : wholeRange.SpansRange := .inl (by decide)
  have hintegers : wholeRange.Integers pass.types := by decide
  refine ⟨by decide, fun htruthful => ?_⟩
  have hnone := (notedFor_hasReason_iff (check_noted _ rfl distinct)).mp htruthful
  exact hnone (.range wholeRange) (List.mem_singleton.mpr rfl) .zeroStride (.range hintegers hspans)

end ProgramUnit

end FortranTyping

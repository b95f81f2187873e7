import FortranTyping.Proofs.Unknown.Rules
import FortranTyping.Proofs.Walk.Closure
import FortranTyping.Proofs.Walk.Unit

/-!
# Where unknown types come from

With all notes asked for, an unknown type goes back to a part of the node that is reported, to a
declaration without a type or to an empty constructor. Two kinds of constructor break this rule,
since they lose their type without a report: those of arrays, where no array is expected, and those
of more elements than can be counted.
-/

namespace FortranTyping

/-- Everything that is left unchecked is reported. -/
structure Options.Thorough (options : Options) : Prop where
  unresolved : options.reportUnresolved = true
  skipped : options.reportSkipped = true

/-! ## Reasons -/

/-- A node that is unknown without a report, for a reason of its own. -/
inductive Excused (ctx : Context) : Expr → Prop where
  | declaration {e : Expr} {designator : Designator} {declared : DeclaredEntity}
      {reason : SkipReason} (hdesignator : e.designator? = some designator)
      (hfind : ctx.resolver.find designator = some declared)
      (htype : declared.type ctx.options = .error reason) : Excused ctx e
  | empty (node : Node) : Excused ctx (.array node [])

/-- Some diagnostic is about a part of the expression, or a part has a reason of its own. -/
def Explained (ctx : Context) (ds : List Diagnostic) (e : Expr) : Prop :=
  (∃ id ∈ e.ids, Names ds id) ∨ ∃ part ∈ e.postorder, Excused ctx part

mutual

/-- Whether the trips of a range, and of those in its body, can be told. -/
def Entry.measured (ctx : Context) (loops : List String) : Entry → Bool
  | .plain _ => true
  | .impliedDo _ body loopVariable start stop stride =>
      entriesMeasured ctx (foldCase loopVariable.value :: loops) body &&
        ((start.verdict ctx loops none).type == .integer &&
          (stop.verdict ctx loops none).type == .integer && strideFits ctx loops stride) &&
        (loopTrips start stop stride).isOk
termination_by structural entry => entry

def entriesMeasured (ctx : Context) (loops : List String) : List Entry → Bool
  | [] => true
  | entry :: rest => entry.measured ctx loops && entriesMeasured ctx loops rest
termination_by structural entries => entries

end

/-- The steps of constructors that lose their type without a report. -/
inductive Silent (ctx : Context) : Step → Prop where
  /-- The entries are arrays. -/
  | nested {loops : List String} {expected : Option Ty} {node : Node} {entries : List Entry}
      {base : Ty} {size : Nat} (hexpected : expected.any Ty.isArray = false)
      (hwhole : Ty.unifyAll ((contributions ctx loops node.id entries).map Contribution.type) =
        some (.array base size)) :
      Silent ctx (.node loops expected (.array node entries))
  /-- All ranges are measured, and yet the number of elements is not known. -/
  | uncounted {loops : List String} {expected : Option Ty} {node : Node} {entries : List Entry}
      (hmeasured : entriesMeasured ctx loops entries = true)
      (hcount : Contribution.total? (contributions ctx loops node.id entries) = none) :
      Silent ctx (.node loops expected (.array node entries))

/-- What the steps tell about an unknown type: a report about one of the nodes `ids`, or a node that
needs none or gets none. -/
inductive Accounted (ctx : Context) (ids : List NodeId) (steps : List Step) : Prop where
  | reported {step : Step} {id : NodeId} (hstep : step ∈ steps) (hid : id ∈ ids)
      (hnames : Names (step.reports ctx) id)
  | excused {loops : List String} {expected : Option Ty} {e : Expr}
      (hstep : .node loops expected e ∈ steps) (h : Excused ctx e)
  | silent {step : Step} (hstep : step ∈ steps) (h : Silent ctx step)

theorem Accounted.mono {ctx : Context} {ids ids' : List NodeId} {steps steps' : List Step}
    (h : Accounted ctx ids steps) (hids : ids ⊆ ids') (hsteps : steps ⊆ steps') :
    Accounted ctx ids' steps' := by
  cases h with
  | reported hstep hid hnames => exact .reported (hsteps hstep) (hids hid) hnames
  | excused hstep h => exact .excused (hsteps hstep) h
  | silent hstep h => exact .silent (hsteps hstep) h

theorem exists_unmeasured {ctx : Context} {loops : List String} {entries : List Entry}
    (h : entriesMeasured ctx loops entries = false) :
    ∃ entry ∈ entries, entry.measured ctx loops = false := by
  induction entries with
  | nil => cases h
  | cons entry rest ih =>
      rw [entriesMeasured, Bool.and_eq_false_iff] at h
      rcases h with h | h
      · exact ⟨entry, List.mem_cons_self, h⟩
      · obtain ⟨entry', hmem, hunmeasured⟩ := ih h
        exact ⟨entry', List.mem_cons_of_mem entry hmem, hunmeasured⟩

section

variable {ctx : Context} {loops : List String}

/-- A range of unknown type has a control that is not an integer. -/
theorem unmeasured_of_isUnknown {owner : NodeId} {span : Span} {body : List Entry}
    {loopVariable : Located String} {start stop : Expr} {stride : Option Expr}
    (h : ((Entry.impliedDo span body loopVariable start stop stride).verdict ctx loops
      owner).contribution.type.isUnknown = true) :
    (Entry.impliedDo span body loopVariable start stop stride).measured ctx loops = false := by
  obtain ⟨count, hcount⟩ :=
    Entry.range_contribution ctx loops owner span body loopVariable start stop stride
  rw [hcount] at h
  simp only at h
  split at h
  · cases h
  · rename_i hfits
    simp [Entry.measured, hfits]

/-- What cannot be told about a range is due to its body, a control, or its noted trip count. -/
theorem unmeasured_cases (h : ctx.options.Thorough) (owner : NodeId) {span : Span}
    {body : List Entry} {loopVariable : Located String} {start stop : Expr} {stride : Option Expr}
    (hunmeasured : (Entry.impliedDo span body loopVariable start stop stride).measured ctx loops =
      false) :
    entriesMeasured ctx (foldCase loopVariable.value :: loops) body = false ∨
      ((start.verdict ctx loops none).type == .integer) = false ∨
      ((stop.verdict ctx loops none).type == .integer) = false ∨
      strideFits ctx loops stride = false ∨
      Names ((Step.range loops owner
        (.impliedDo span body loopVariable start stop stride)).reports ctx) owner := by
  rw [Entry.measured] at hunmeasured
  cases hfits : (start.verdict ctx loops none).type == .integer &&
      (stop.verdict ctx loops none).type == .integer && strideFits ctx loops stride with
  | false =>
      simp only [Bool.and_eq_false_iff] at hfits
      rcases hfits with (hstart | hstop) | hstride
      · exact .inr (.inl hstart)
      · exact .inr (.inr (.inl hstop))
      · exact .inr (.inr (.inr (.inl hstride)))
  | true =>
      cases htrips : loopTrips start stop stride with
      | ok trips =>
          left
          rw [hfits, htrips] at hunmeasured
          simpa [Except.isOk, Except.toBool] using hunmeasured
      | error reason =>
          right; right; right; right
          simp only [Step.reports, Entry.verdict, hfits, htrips, rangeVerdict, ite_true,
            Options.skip, h.skipped]
          exact .of_eq_singleton rfl rfl

/-- The reports of its own rule account for a node. -/
theorem Accounted.own {expected : Option Ty} {e : Expr}
    (h : Names (e.verdict ctx loops expected).reports e.id) :
    Accounted ctx e.ids (e.steps loops expected) :=
  .reported (e.node_mem_steps loops expected) e.id_mem_ids h

/-- A control that is not an integer is either unknown or reported. -/
theorem Accounted.control {e : Expr}
    (h : (e.verdict ctx loops none).type.isUnknown = true →
      Accounted ctx e.ids (e.steps loops none))
    (hfits : ((e.verdict ctx loops none).type == .integer) = false) :
    Accounted ctx e.ids (e.steps loops none ++ [.loopControl loops e]) := by
  cases hknown : (e.verdict ctx loops none).type.isUnknown with
  | true => exact (h hknown).mono (List.Subset.refl _) (List.subset_append_left _ _)
  | false =>
      have hnames := Verdict.nonInteger_names ctx.options .loopControl (fun _ _ => rfl) e.node
        hknown (by simpa using hfits)
      exact .reported (List.mem_append_right _ (List.mem_singleton.mpr rfl)) e.id_mem_ids hnames

end

-- The induction is on the tree. Bodies of ranges count for their numbers only, so what it says about
-- an entry covers both an unknown type and a number that cannot be told.
mutual

theorem Expr.accounted {ctx : Context} (h : ctx.options.Thorough) (loops : List String)
    {expected : Option Ty} (hexpected : ∀ ty ∈ expected, ty.WellFormed) :
    (e : Expr) → (e.verdict ctx loops expected).type.isUnknown = true →
      Accounted ctx e.ids (e.steps loops expected)
  | .literal node value => fun hunknown =>
      absurd ((Verdict.literal_known node value).symm.trans hunknown) Bool.false_ne_true
  | .unary node op operand => by
      intro hunknown
      rcases Verdict.unary_isUnknown node op hunknown with hoperand | hnames
      · exact (operand.accounted h loops (by simp) hoperand).mono
          (by simp [Expr.ids, Expr.postorder]) (by simp [Expr.steps])
      · exact .own hnames
  | .binary node op left right => by
      intro hunknown
      rcases Verdict.binary_isUnknown node op hunknown with hleft | hright | hnames
      · exact (left.accounted h loops (by simp) hleft).mono
          (by simp [Expr.ids, Expr.postorder]) (by simp [Expr.steps])
      · exact (right.accounted h loops (by simp) hright).mono
          (by simp [Expr.ids, Expr.postorder]) (by simp [Expr.steps])
      · exact .own hnames
  | .paren node inner => fun hunknown =>
      (inner.accounted h loops hexpected hunknown).mono
        (by simp [Expr.ids, Expr.postorder]) (by simp [Expr.steps])
  | .reference node name => by
      intro hunknown
      rcases Verdict.inScope_isUnknown h.unresolved loops node ⟨name, none⟩ hunknown with
        hnames | ⟨declared, reason, hfind, htype⟩
      · exact .own hnames
      · refine .excused (Expr.node_mem_steps loops expected _) ?_
        exact .declaration rfl hfind htype
  | .element node name subscripts => by
      intro hunknown
      rcases Verdict.inScope_isUnknown h.unresolved loops node ⟨name, some subscripts⟩ hunknown with
        hnames | ⟨declared, reason, hfind, htype⟩
      · exact .own hnames
      · refine .excused (Expr.node_mem_steps loops expected _) ?_
        exact .declaration rfl hfind htype
  | .array node entries => by
      intro hunknown
      rcases constructorVerdict_isUnknown ctx.options node (contributions ctx loops node.id entries)
        hexpected hunknown with hnil | ⟨c, hc, htype⟩ | hcount | ⟨c, hc, hnames⟩ |
          ⟨harray, base, size, hwhole⟩
      · cases entries with
        | nil => exact .excused (Expr.node_mem_steps loops expected _) (.empty node)
        | cons => cases hnil
      · rw [contributions_eq_map] at hc
        obtain ⟨entry, hentry, rfl⟩ := List.mem_map.mp hc
        exact (accounted_entries h loops node.id entries ⟨entry, hentry, .inl htype⟩).mono
          (cons_ids_subset node entries) (by simp [Expr.steps])
      · cases hmeasured : entriesMeasured ctx loops entries with
        | true => exact .silent (Expr.node_mem_steps loops expected _) (.uncounted hmeasured hcount)
        | false =>
            obtain ⟨entry, hentry, hunmeasured⟩ := exists_unmeasured hmeasured
            exact (accounted_entries h loops node.id entries ⟨entry, hentry, .inr hunmeasured⟩).mono
              (cons_ids_subset node entries) (by simp [Expr.steps])
      · have hid := cons_ids_subset node entries (contributions_expr_mem hc)
        exact .reported (Expr.node_mem_steps loops expected _) hid hnames
      · exact .silent (Expr.node_mem_steps loops expected _) (.nested harray hwhole)
termination_by structural e => e

theorem Entry.accounted {ctx : Context} (h : ctx.options.Thorough) (loops : List String)
    (owner : NodeId) :
    (entry : Entry) →
      (entry.verdict ctx loops owner).contribution.type.isUnknown = true ∨
        entry.measured ctx loops = false →
      Accounted ctx (owner :: entry.postorder.map Expr.id) (entry.steps loops owner)
  | .plain value => by
      rintro (hunknown | hmeasured)
      · exact (value.accounted h loops (by simp) hunknown).mono (List.subset_cons_self _ _)
          (List.Subset.refl _)
      · cases hmeasured
  | .impliedDo span body loopVariable start stop stride => by
      intro hlost
      have hunmeasured := hlost.elim unmeasured_of_isUnknown id
      rcases unmeasured_cases h owner hunmeasured with hbody | hstart | hstop | hstride | hnoted
      · obtain ⟨entry, hmem, hentry⟩ := exists_unmeasured hbody
        exact (accounted_entries h _ owner body ⟨entry, hmem, .inr hentry⟩).mono
          (by grind [Entry.postorder]) (by grind [Entry.steps])
      · exact (Accounted.control (start.accounted h loops (by simp)) hstart).mono
          (by grind [Entry.postorder, Expr.ids]) (by grind [Entry.steps])
      · exact (Accounted.control (stop.accounted h loops (by simp)) hstop).mono
          (by grind [Entry.postorder, Expr.ids]) (by grind [Entry.steps])
      · exact (accounted_stride h loops stride hstride).mono
          (by grind [Entry.postorder]) (by grind [Entry.steps])
      · exact .reported (by simp [Entry.steps]) List.mem_cons_self hnoted
termination_by structural entry => entry

theorem accounted_stride {ctx : Context} (h : ctx.options.Thorough) (loops : List String) :
    (stride : Option Expr) → strideFits ctx loops stride = false →
      Accounted ctx ((stridePostorder stride).map Expr.id) (strideSteps loops stride)
  | none => fun hfits => by cases hfits
  | some stride => .control (stride.accounted h loops (by simp))
termination_by structural stride => stride

theorem accounted_entries {ctx : Context} (h : ctx.options.Thorough) (loops : List String)
    (owner : NodeId) :
    (entries : List Entry) →
      (∃ entry ∈ entries, (entry.verdict ctx loops owner).contribution.type.isUnknown = true ∨
        entry.measured ctx loops = false) →
      Accounted ctx (owner :: (entryPostorder entries).map Expr.id)
        (entrySteps loops owner entries)
  | [] => by simp
  | entry :: rest => by
      rintro ⟨entry', hmem, hlost⟩
      rcases List.mem_cons.mp hmem with heq | hmem
      · exact (entry.accounted h loops owner (heq ▸ hlost)).mono (by simp [entryPostorder])
          (by simp [entrySteps])
      · exact (accounted_entries h loops owner rest ⟨entry', hmem, hlost⟩).mono
          (by simp [entryPostorder]) (by simp [entrySteps])
termination_by structural entries => entries

end

/-! ## Units -/

theorem Silent.isUnknown {ctx : Context} {loops : List String} {expected : Option Ty} {e : Expr}
    (h : Silent ctx (.node loops expected e)) :
    (e.verdict ctx loops expected).type.isUnknown = true := by
  cases h with
  | nested _ hwhole =>
      rw [Expr.verdict, constructorVerdict_type, hwhole]
      cases Contribution.total? (contributions ctx loops _ _) <;> rfl
  | uncounted _ hcount =>
      rw [Expr.verdict, constructorVerdict_of_uncounted _ _ _ hcount]
      rfl

/-- All unknown types are explained. -/
def NoSilentLoss (ctx : Context) (program : ProgramUnit) (final : Pass) : Prop :=
  ∀ e ∈ program.postorder, ∀ cause, final.types.get? e.id = some (.unknown cause) →
    Explained ctx final.diagnostics e

/-- An unknown type is explained, or due to a silent constructor within. So the explanations are
complete just if the silent constructors happen to be explained by their parts. -/
structure OriginSpec (ctx : Context) (program : ProgramUnit) (final : Pass) : Prop where
  explained_or_silent : ∀ e ∈ program.postorder, ∀ cause,
    final.types.get? e.id = some (.unknown cause) → Explained ctx final.diagnostics e ∨
      ∃ loops expected, ∃ part ∈ e.postorder, .node loops expected part ∈ program.steps ctx ∧
        Silent ctx (.node loops expected part)
  silent_unknown : ∀ loops expected e, .node loops expected e ∈ program.steps ctx →
    Silent ctx (.node loops expected e) →
      ∃ cause, final.types.get? e.id = some (.unknown cause)
  complete_iff : NoSilentLoss ctx program final ↔
    ∀ loops expected e, .node loops expected e ∈ program.steps ctx →
      Silent ctx (.node loops expected e) → Explained ctx final.diagnostics e

section

variable {ctx : Context}

/-- The explanation of a part explains the whole. -/
theorem Explained.of_part {ds : List Diagnostic} {part e : Expr} (h : Explained ctx ds part)
    (hpart : part ∈ e.postorder) : Explained ctx ds e := by
  have hsubset := Expr.postorder_subset hpart
  rcases h with ⟨id, hid, hnames⟩ | ⟨reason, hreason, hexcused⟩
  · exact .inl ⟨id, List.map_subset Expr.id hsubset hid, hnames⟩
  · exact .inr ⟨reason, hsubset hreason, hexcused⟩

theorem Accounted.explained_or_silent {e : Expr} {loops : List String} {expected : Option Ty}
    {steps : List Step} (h : Accounted ctx e.ids (e.steps loops expected))
    (hsteps : e.steps loops expected ⊆ steps) :
    Explained ctx (Step.diagnostics ctx steps) e ∨
      ∃ loops expected, ∃ part ∈ e.postorder, .node loops expected part ∈ steps ∧
        Silent ctx (.node loops expected part) := by
  cases h with
  | reported hstep hid hnames =>
      obtain ⟨d, hd, hnames⟩ := hnames
      exact .inl (.inl ⟨_, hid, d, List.mem_flatMap.mpr ⟨_, hsteps hstep, hd⟩, hnames⟩)
  | excused hstep h => exact .inl (.inr ⟨_, mem_postorder_of_mem_steps hstep, h⟩)
  | silent hstep h =>
      cases h with
      | nested hexpected hwhole =>
          exact .inr ⟨_, _, _, mem_postorder_of_mem_steps hstep, hsteps hstep,
            .nested hexpected hwhole⟩
      | uncounted hmeasured hcount =>
          exact .inr ⟨_, _, _, mem_postorder_of_mem_steps hstep, hsteps hstep,
            .uncounted hmeasured hcount⟩

end

/-- Which unknown types are explained when everything left unchecked is reported. -/
theorem ProgramUnit.check_originSpec {program : ProgramUnit} (resolver : Resolver)
    {options : Options} (h : options.Thorough) (distinct : program.ids.Nodup) :
    OriginSpec ⟨resolver, options⟩ program (program.check resolver options) := by
  let ctx : Context := ⟨resolver, options⟩
  have hclosed := program.closed_steps ctx
  have hexplained : ∀ e ∈ program.postorder, ∀ cause,
      (program.check resolver options).types.get? e.id = some (.unknown cause) →
        Explained ctx (program.check resolver options).diagnostics e ∨
          ∃ loops expected, ∃ part ∈ e.postorder, .node loops expected part ∈ program.steps ctx ∧
            Silent ctx (.node loops expected part) := by
    intro e he cause hcause
    obtain ⟨loops, expected, hstep⟩ := exists_step he
    rw [get?_of_mem_steps resolver options distinct hstep, Option.some.injEq] at hcause
    rw [check_diagnostics resolver options distinct]
    have hexpected : ∀ ty ∈ expected, ty.WellFormed := by
      rintro ty rfl
      exact hclosed.expected loops ty e hstep
    have haccounted := e.accounted h loops hexpected (Ty.isUnknown_iff.mpr ⟨cause, hcause⟩)
    exact haccounted.explained_or_silent (hclosed.parts loops expected e hstep)
  have hsilent : ∀ loops expected e, .node loops expected e ∈ program.steps ctx →
      Silent ctx (.node loops expected e) →
        ∃ cause, (program.check resolver options).types.get? e.id = some (.unknown cause) := by
    intro loops expected e hstep h
    obtain ⟨cause, hcause⟩ := Ty.isUnknown_iff.mp h.isUnknown
    exact ⟨cause, by rw [get?_of_mem_steps resolver options distinct hstep, hcause]⟩
  refine ⟨hexplained, hsilent, ?_, ?_⟩
  · intro hcomplete loops expected e hstep h
    obtain ⟨cause, hcause⟩ := hsilent loops expected e hstep h
    refine hcomplete e ?_ cause hcause
    rw [← program.typed_steps ctx]
    exact List.mem_filterMap.mpr ⟨_, hstep, rfl⟩
  · intro hcomplete e he cause hcause
    rcases hexplained e he cause hcause with h | ⟨loops, expected, part, hpart, hstep, h⟩
    · exact h
    · exact (hcomplete loops expected part hstep h).of_part hpart

/-! ## A type that is lost -/

/-- The constructor `[[.true.]]`. -/
def nestedConstructor : Expr :=
  .array (.ofIndex 3) [.plain (.array (.ofIndex 2)
    [.plain (.literal (.ofIndex 1) (.logical true))])]

/-- The unit `x = [[.true.]]`. -/
def nestedUnit : ProgramUnit :=
  let name : Located String := ⟨.ofWidth 0 1, "x"⟩
  ⟨.mainProgram, name, [], [⟨.ofWidth 0 4,
    .assignment (.reference (.ofIndex 0) name) nestedConstructor⟩]⟩

/-- Every reference means a logical variable. -/
def logicalResolver : Resolver :=
  ⟨fun _ => some ⟨⟨⟨⟨.ofWidth 0 7, .logical⟩, none, none⟩, [], []⟩,
    ⟨⟨.ofWidth 0 1, "x"⟩, none, none⟩⟩, fun _ => []⟩

def thoroughOptions : Options :=
  { reportUnresolved := true, reportSkipped := true }

theorem nestedUnit_originSpec :
    thoroughOptions.Thorough ∧ nestedUnit.ids.Nodup ∧
      OriginSpec ⟨logicalResolver, thoroughOptions⟩ nestedUnit
        (nestedUnit.check logicalResolver thoroughOptions) := by
  have thorough : thoroughOptions.Thorough := ⟨rfl, rfl⟩
  have distinct : nestedUnit.ids.Nodup := by decide
  exact ⟨thorough, distinct, nestedUnit.check_originSpec logicalResolver thorough distinct⟩

/-- The constructor of a constructor is unknown, and there is no diagnostic at all. -/
theorem not_noSilentLoss :
    ¬∀ (program : ProgramUnit) (resolver : Resolver) (options : Options), program.ids.Nodup →
      options.suppressCascades = true → options.Thorough →
      NoSilentLoss ⟨resolver, options⟩ program (program.check resolver options) := by
  intro h
  have hnone : (nestedUnit.check logicalResolver thoroughOptions).diagnostics = [] := by decide
  have hvisited : nestedConstructor ∈ nestedUnit.postorder :=
    List.mem_cons_of_mem _ (List.mem_cons_of_mem _ (List.mem_cons_of_mem _ List.mem_cons_self))
  have hexplained := h nestedUnit logicalResolver thoroughOptions (by decide) rfl ⟨rfl, rfl⟩
    nestedConstructor hvisited none (by decide)
  rw [hnone] at hexplained
  rcases hexplained with ⟨id, -, d, hd, -⟩ | ⟨part, hpart, hexcused⟩
  · cases hd
  · have hparts : nestedConstructor.postorder = [
        .literal (.ofIndex 1) (.logical true),
        .array (.ofIndex 2) [.plain (.literal (.ofIndex 1) (.logical true))],
        nestedConstructor] := rfl
    rw [hparts] at hpart
    simp only [List.mem_cons, List.not_mem_nil, or_false] at hpart
    rcases hpart with rfl | rfl | rfl <;> cases hexcused with
    | declaration hdesignator => cases hdesignator

end FortranTyping

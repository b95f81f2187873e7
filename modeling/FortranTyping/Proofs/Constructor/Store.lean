import FortranTyping.Proofs.Constructor.Fold
import FortranTyping.Proofs.Reports.Findings
import FortranTyping.Proofs.Walk.Unit

/-!
# Constructors stored into arrays

A constructor that is stored into an array is reported entry by entry, or else for its size. There
is one exception: where the whole is taken because its length in characters is not known, entries
that are too long go unnoticed.
-/

namespace FortranTyping

/-- Whether the whole is taken for its size alone, because its length is not known. -/
def takenUnchecked (base : Ty) (size : Nat) : Ty → Bool
  | .array whole n => n == size && (base.isBounded && whole.isUnsized)
  | _ => false

/-- The report about a whole of another size. -/
def sizeFaults (node : Node) (base : Ty) (size : Nat) : Ty → List Diagnostic
  | .array whole n =>
      if n = size then []
      else [.of node.span (.mismatch node.id (.array base size) (.array whole n))]
  | _ => []

/-! ## The rule -/

section

variable {options : Options} (hquiet : options.suppressCascades = true)
include hquiet

theorem misfits_eq_nil_iff {base : Ty} {cs : List Contribution}
    (hknown : ∀ c ∈ cs, c.type.isUnknown = false) :
    misfits options base cs = [] ↔ ∀ c ∈ cs, base.accepts c.type = true := by
  simp only [misfits, List.map_eq_nil_iff, List.filter_eq_nil_iff, reports_singleton hquiet]
  refine forall₂_congr fun c hc => ?_
  simp [hknown c hc]

/-- An array takes a constructor of its size if there is no report about an entry, or if the length
of the whole is not known. -/
theorem base_accepts_iff {cs : List Contribution} {base whole : Ty}
    (hwhole : Ty.unifyAll (cs.map Contribution.type) = some whole)
    (hscalar : whole.isScalar = true) :
    base.accepts whole = true ↔
      (base.isBounded && whole.isUnsized) = true ∨ misfits options base cs = [] := by
  have hall : ∀ ty ∈ Ty.unifyAll (cs.map Contribution.type), ty.isScalar = true := by
    rw [hwhole]
    rintro ty ⟨⟩
    exact hscalar
  have hknown : ∀ c ∈ cs, c.type.isUnknown = false := fun c hc =>
    Ty.isUnknown_of_isScalar (Ty.isScalar_of_unifyAll hall (List.mem_map_of_mem hc))
  cases cs with
  | nil => cases hwhole
  | cons c cs =>
      cases hwhole
      rw [Ty.accepts_foldl_unify_iff hscalar, misfits_eq_nil_iff hquiet hknown]
      simp only [List.forall_mem_cons, List.forall_mem_map]

theorem storeReports_of_unknown (node : Node) (cs : List Contribution) (base : Ty) (size : Nat)
    {built : Ty} (hunknown : built.isUnknown = true) :
    storeReports options node cs (.array base size) built = misfits options base cs := by
  simp only [storeReports, Ty.accepts_eq_false_of_right _ hunknown, reports_singleton hquiet,
    hunknown]
  cases misfits options base cs <;> rfl

theorem storeReports_of_array (node : Node) {cs : List Contribution} (base whole : Ty)
    (size n : Nat)
    (hfits : base.accepts whole = true ↔
      (base.isBounded && whole.isUnsized) = true ∨ misfits options base cs = []) :
    storeReports options node cs (.array base size) (.array whole n) =
      if takenUnchecked base size (.array whole n) then []
      else if misfits options base cs = [] then sizeFaults node base size (.array whole n)
      else misfits options base cs := by
  have hreports : options.reports [.array whole n] = true := by
    rw [reports_singleton hquiet]
    rfl
  simp only [storeReports, Ty.accepts, takenUnchecked, sizeFaults, hreports]
  by_cases hn : n = size
  · subst hn
    cases haccepts : base.accepts whole with
    | true =>
        rcases hfits.mp haccepts with htaken | hnone
        · simp [htaken]
        · simp [hnone]
    | false =>
        rw [haccepts, Bool.false_eq_true, false_iff, not_or] at hfits
        simp [hfits.1, hfits.2]
  · have hn' : ¬size = n := fun h => hn h.symm
    by_cases hnone : misfits options base cs = []
    · simp [hn, hn', hnone]
    · simp [hn, hn', hnone]

/-- What the rule reports, entry by entry or for the size, in terms of the type that it gives. -/
theorem storeReports_built (node : Node) (cs : List Contribution) (base : Ty) (size : Nat)
    (count : Option Nat) {built : Ty}
    (hbuilt : builtType (Ty.unifyAll (cs.map Contribution.type)) count
      (some (.array base size)) = built) :
    storeReports options node cs (.array base size) built =
      if takenUnchecked base size built then []
      else if misfits options base cs = [] then sizeFaults node base size built
      else misfits options base cs := by
  cases hunknown : built.isUnknown with
  | true =>
      rw [storeReports_of_unknown hquiet _ _ _ _ hunknown]
      cases built <;> simp_all [Ty.isUnknown, takenUnchecked, sizeFaults]
  | false =>
      -- a known type is an array of scalars, and so every entry is a scalar
      subst hbuilt
      obtain ⟨whole, n, hbuilt, hscalar, hparts⟩ := builtType_of_known hunknown
      rw [hbuilt]
      apply storeReports_of_array hquiet
      rcases hparts with ⟨hwhole, -⟩ | ⟨hwhole, -, m, hexpected⟩
      · exact base_accepts_iff hquiet hwhole hscalar
      · cases cs with
        | nil =>
            cases hexpected
            exact ⟨fun _ => .inr rfl, fun _ => Ty.accepts_self hscalar⟩
        | cons => cases hwhole

/-- The reports of the rule of a constructor that is stored into an array. -/
theorem constructorVerdict_reports (node : Node) (cs : List Contribution) (base : Ty)
    (size : Nat) :
    let verdict := constructorVerdict options node cs (some (.array base size))
    verdict.reports =
      if takenUnchecked base size verdict.type then []
      else if misfits options base cs = [] then sizeFaults node base size verdict.type
      else misfits options base cs := by
  have hunreported : (unifiedType options false cs).2 = [] := by
    cases cs with
    | nil => rfl
    | cons c cs => exact unifyEntries_unreported options c.type cs
  have hbuilt := constructorVerdict_type options node cs (some (.array base size))
  simp only [← storeReports_built hquiet node cs base size _ hbuilt.symm]
  simp [constructorVerdict, Ty.isArray, hunreported]

end

/-! ## Recorded types -/

/-- The type that an entry adds to its array, by the types of the nodes. A range adds integers if
its controls are integers. -/
def Entry.typeIn (types : TypeMap) : Entry → Ty
  | .plain value => (types.get? value.id).getD (.unknown none)
  | .impliedDo _ _ _ start stop stride =>
      if (start :: stop :: stride.toList).all fun e => types.get? e.id == some .integer
      then .integer else .unknown none

/-- A report for every entry whose type is known and does not fit into an array of `base`. -/
def entryFaults (types : TypeMap) (owner : NodeId) (base : Ty) (entries : List Entry) :
    List Diagnostic :=
  (entries.filter fun entry =>
    !(entry.typeIn types).isUnknown && !base.accepts (entry.typeIn types)).map fun entry =>
      .of entry.span (.constructorElement (entry.handle owner) base (entry.typeIn types))

/-- The reports that a constructor of type `built` calls for: about its entries, or else about its
size. -/
def constructorFaults (types : TypeMap) (node : Node) (base : Ty) (size : Nat)
    (entries : List Entry) (built : Ty) : List Diagnostic :=
  if entryFaults types node.id base entries = [] then sizeFaults node base size built
  else entryFaults types node.id base entries

section

variable {ctx : Context}

/-- A map that has the types of all nodes of an entry has its type. -/
theorem Entry.contribution_eq {types : TypeMap} {loops : List String} {owner : NodeId}
    (entry : Entry) (h : ∀ loops' expected e, .node loops' expected e ∈ entry.steps loops owner →
      types.get? e.id = some (e.verdict ctx loops' expected).type) :
    ∃ count, (entry.verdict ctx loops owner).contribution =
      ⟨entry.handle owner, entry.span, entry.typeIn types, count⟩ := by
  cases entry with
  | plain value =>
      have hvalue := h loops none value (value.node_mem_steps loops none)
      refine ⟨some 1, ?_⟩
      simp only [Entry.typeIn, hvalue, Option.getD_some]
      rfl
  | impliedDo span body loopVariable start stop stride =>
      obtain ⟨count, hcount⟩ :=
        Entry.range_contribution ctx loops owner span body loopVariable start stop stride
      refine ⟨count, hcount.trans ?_⟩
      have hstart := h loops none start (by simp [Entry.steps, start.node_mem_steps])
      have hstop := h loops none stop (by simp [Entry.steps, stop.node_mem_steps])
      cases stride with
      | none => simp [Entry.typeIn, Entry.handle, Entry.span, strideFits, hstart, hstop]
      | some stride =>
          have hstride := h loops none stride
            (by simp [Entry.steps, strideSteps, stride.node_mem_steps])
          simp [Entry.typeIn, Entry.handle, Entry.span, strideFits, hstart, hstop, hstride,
            Bool.and_assoc]

/-- What entries contribute, in terms of recorded types. -/
theorem contributions_recorded {types : TypeMap} {loops : List String} {owner : NodeId}
    {entries : List Entry}
    (h : ∀ loops' expected e, .node loops' expected e ∈ entrySteps loops owner entries →
      types.get? e.id = some (e.verdict ctx loops' expected).type) :
    ∀ entry ∈ entries, ∃ count, (entry.verdict ctx loops owner).contribution =
      ⟨entry.handle owner, entry.span, entry.typeIn types, count⟩ := by
  rw [entrySteps_eq_flatMap] at h
  intro entry hentry
  refine entry.contribution_eq fun loops' expected e hmem => ?_
  exact h loops' expected e (List.mem_flatMap.mpr ⟨entry, hentry, hmem⟩)

theorem contributions_types {types : TypeMap} {loops : List String} {owner : NodeId}
    {entries : List Entry}
    (h : ∀ loops' expected e, .node loops' expected e ∈ entrySteps loops owner entries →
      types.get? e.id = some (e.verdict ctx loops' expected).type) :
    (contributions ctx loops owner entries).map Contribution.type =
      entries.map (Entry.typeIn types) := by
  rw [contributions_eq_map, List.map_map]
  refine List.map_congr_left fun entry hentry => ?_
  obtain ⟨count, hcount⟩ := contributions_recorded h entry hentry
  exact congrArg Contribution.type hcount

/-- The reports of the rule about entries, in terms of recorded types. -/
theorem misfits_contributions (hquiet : ctx.options.suppressCascades = true) {types : TypeMap}
    (owner : NodeId) (base : Ty) {entries : List Entry}
    (h : ∀ loops' expected e, .node loops' expected e ∈ entrySteps [] owner entries →
      types.get? e.id = some (e.verdict ctx loops' expected).type) :
    misfits ctx.options base (contributions ctx [] owner entries) =
      entryFaults types owner base entries := by
  have hall := contributions_recorded h
  rw [contributions_eq_map]
  clear h
  induction entries with
  | nil => rfl
  | cons entry rest ih =>
      obtain ⟨⟨count, hentry⟩, hrest⟩ := List.forall_mem_cons.mp hall
      rw [List.map_cons, misfits_cons, ih hrest, hentry]
      simp only [reports_singleton hquiet, entryFaults, List.filter_cons, Bool.and_comm]
      split <;> rfl

end

/-! ## Initial and assigned values -/

/-- Beyond the reports of its parts there are those that the constructor calls for. -/
def ChecksEveryEntry (ctx : Context) (node : Node) (entries : List Entry) (base : Ty) (size : Nat)
    (built : Ty) (pass final : Pass) : Prop :=
  final.diagnostics = ((Infer.entryList ctx [] node.id entries).run pass).2.diagnostics ++
    constructorFaults final.types node base size entries built

/-- How checking a constructor of type `built`, which is stored into an array of `size` elements of
type `base`, goes on from `pass`. Beyond the reports of its parts there are those that the
constructor calls for, or none if it is taken unchecked. -/
structure StoreSpec (ctx : Context) (node : Node) (entries : List Entry) (base : Ty) (size : Nat)
    (built : Ty) (pass final : Pass) : Prop where
  recorded : final.types.get? node.id = some built
  parts_recorded : ∀ e ∈ entryPostorder entries, (final.types.get? e.id).isSome = true
  diagnostics : final.diagnostics =
    ((Infer.entryList ctx [] node.id entries).run pass).2.diagnostics ++
      if takenUnchecked base size built then []
      else constructorFaults final.types node base size entries built
  complete_iff : ChecksEveryEntry ctx node entries base size built pass final ↔
    ¬(takenUnchecked base size built = true ∧ entryFaults final.types node.id base entries ≠ [])

section

variable {ctx : Context} {source : Expr} {node : Node} {entries : List Entry} {pass : Pass}

/-- A whole that is taken has the right size. -/
theorem sizeFaults_of_takenUnchecked (node : Node) {base built : Ty} {size : Nat}
    (h : takenUnchecked base size built = true) : sizeFaults node base size built = [] := by
  cases built with
  | array whole n =>
      simp only [takenUnchecked, Bool.and_eq_true, beq_iff_eq] at h
      simp [sizeFaults, h.1]
  | _ => rfl

theorem constructorFaults_eq_nil_iff_of_taken (types : TypeMap) (node : Node) {base built : Ty}
    {size : Nat} (entries : List Entry) (h : takenUnchecked base size built = true) :
    constructorFaults types node base size entries built = [] ↔
      entryFaults types node.id base entries = [] := by
  unfold constructorFaults
  split
  · simp [*, sizeFaults_of_takenUnchecked node h]
  · rfl

/-- The reports of a constructor in terms of a map that has the types of its parts. -/
theorem reports_eq_constructorFaults (hquiet : ctx.options.suppressCascades = true)
    {types : TypeMap} (node : Node) (base : Ty) (size : Nat)
    (h : ∀ loops expected e, .node loops expected e ∈ entrySteps [] node.id entries →
      types.get? e.id = some (e.verdict ctx loops expected).type) :
    let verdict := (Expr.array node entries).verdict ctx [] (some (.array base size))
    verdict.reports = if takenUnchecked base size verdict.type then []
      else constructorFaults types node base size entries verdict.type := by
  simp only [Expr.verdict]
  rw [constructorVerdict_reports hquiet, misfits_contributions hquiet node.id base h]
  rfl

/-- Reports are missing only where an entry is at fault and the whole is taken nevertheless. -/
theorem StoreSpec.of_diagnostics {base built : Ty} {size : Nat} {final : Pass}
    (recorded : final.types.get? node.id = some built)
    (parts_recorded : ∀ e ∈ entryPostorder entries, (final.types.get? e.id).isSome = true)
    (diagnostics : final.diagnostics =
      ((Infer.entryList ctx [] node.id entries).run pass).2.diagnostics ++
        if takenUnchecked base size built then []
        else constructorFaults final.types node base size entries built) :
    StoreSpec ctx node entries base size built pass final := by
  refine ⟨recorded, parts_recorded, diagnostics, ?_⟩
  rw [ChecksEveryEntry, diagnostics, List.append_cancel_left_eq]
  cases htaken : takenUnchecked base size built with
  | false => simp
  | true =>
      rw [if_pos rfl, eq_comm, constructorFaults_eq_nil_iff_of_taken _ _ _ htaken]
      simp

/-- A constructor that is stored into an array is checked entry by entry, and for its size if no
entry is at fault, unless it is taken because its length is not known. -/
theorem value_storeSpec (hquiet : ctx.options.suppressCascades = true)
    (hsource : source.bare = .array node entries) (distinct : source.ids.Nodup)
    (untyped : ∀ id ∈ source.ids, pass.types.get? id = none) (base : Ty) (size : Nat) :
    ∃ built, StoreSpec ctx node entries base size built pass
      ((Infer.value ctx source (.array base size)).run pass).2 := by
  have hfresh : Fresh pass (valueSteps (.array base size) source) := by
    refine ⟨?_, ?_⟩
    · rw [typed_valueSteps]
      exact distinct
    · rw [typed_valueSteps]
      exact fun e he => untyped e.id (List.mem_map_of_mem he)
  obtain ⟨rest, hsteps, hrest⟩ := Expr.storedSteps_of_bare ctx hsource (.array base size)
  have hsteps : valueSteps (.array base size) source = _ := hsteps
  rw [Infer.follows_value ctx source _ pass hfresh]
  rw [hsteps] at hfresh ⊢
  have hnode : Step.node [] (some (.array base size)) (.array node entries) ∈
      entrySteps [] node.id entries ++
        ([.node [] (some (.array base size)) (.array node entries)] ++ rest) := by simp
  refine ⟨_, .of_diagnostics (hfresh.get?_follow hnode) ?_ ?_⟩
  · intro e he
    rw [← typed_entrySteps [] node.id entries] at he
    obtain ⟨loops, expected, hstep⟩ := Step.exists_node he
    rw [hfresh.get?_follow (List.mem_append_left _ hstep)]
    rfl
  · have hreports := reports_eq_constructorFaults hquiet node base size
      fun loops expected e hmem => hfresh.get?_follow (List.mem_append_left _ hmem)
    simp only at hreports
    rw [← hreports, Infer.follows_entryList ctx [] node.id entries pass hfresh.left]
    simp only [Pass.follow, Step.diagnostics_append, hrest, List.append_nil, List.append_assoc]
    simp [Step.diagnostics, Step.reports]

end

/-! ## An entry that goes unnoticed -/

/-- A character variable whose length is another variable. -/
def unsizedCharacter : DeclaredEntity :=
  let length : Expr := .reference (.ofIndex 0) ⟨.ofWidth 0 1, "n"⟩
  ⟨⟨⟨⟨.ofWidth 0 9, .character⟩, none, some length⟩, [], []⟩, ⟨⟨.ofWidth 0 1, "s"⟩, none, none⟩⟩

/-- Every reference means the variable. -/
def unsizedContext : Context :=
  ⟨⟨fun _ => some unsizedCharacter, fun _ => []⟩, {}⟩

def unsizedEntries : List Entry :=
  [.plain (.literal (.ofIndex 0) (.character "hello")),
    .plain (.reference (.ofIndex 1) ⟨.ofWidth 1 1, "s"⟩)]

/-- The constructor `["hello", s]`. -/
def unsizedConstructor : Expr :=
  .array (.ofIndex 2) unsizedEntries

theorem unsizedConstructor_storeSpec :
    unsizedContext.options.suppressCascades = true ∧
      unsizedConstructor.bare = .array (.ofIndex 2) unsizedEntries ∧
      unsizedConstructor.ids.Nodup ∧
      (∀ id ∈ unsizedConstructor.ids, Pass.empty.types.get? id = none) ∧
      ∃ built, StoreSpec unsizedContext (.ofIndex 2) unsizedEntries (.character (some 3)) 2 built
        .empty ((Infer.value unsizedContext unsizedConstructor
          (.array (.character (some 3)) 2)).run .empty).2 := by
  have distinct : unsizedConstructor.ids.Nodup := by decide
  exact ⟨rfl, rfl, distinct, fun _ _ => rfl,
    value_storeSpec rfl rfl distinct (fun _ _ => rfl) (.character (some 3)) 2⟩

/-- In an array of three characters each, `"hello"` is not reported beside a variable of unknown
length. -/
theorem not_checksEveryEntry :
    ¬∀ (ctx : Context) (source : Expr) (node : Node) (entries : List Entry) (pass : Pass)
      (base : Ty) (size : Nat) (built : Ty), ctx.options.suppressCascades = true →
      source.bare = .array node entries → source.ids.Nodup →
      (∀ id ∈ source.ids, pass.types.get? id = none) →
      let final := ((Infer.value ctx source (.array base size)).run pass).2
      final.types.get? node.id = some built →
      ChecksEveryEntry ctx node entries base size built pass final := by
  intro h
  have hchecks := h unsizedContext unsizedConstructor (.ofIndex 2) unsizedEntries .empty
    (.character (some 3)) 2 (.array (.character none) 2) rfl rfl (by decide) (fun _ _ => rfl)
    (by decide)
  revert hchecks
  unfold ChecksEveryEntry
  decide

end FortranTyping

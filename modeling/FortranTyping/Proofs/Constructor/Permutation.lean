import FortranTyping.Proofs.Constructor.Fold
import FortranTyping.Proofs.Counts
import FortranTyping.Proofs.Ty.Unification
import FortranTyping.Proofs.Walk.Closure
import FortranTyping.Proofs.Walk.Tasks

/-!
# The order of entries

A constructor whose entries are put into another order has the same type, and so has every node
within it. Without an array that is expected, the report about a break depends on the order, since
it is about the first entry that does not go with those before it. Where an array is expected the
entries are held against its base one by one, and the reports are the same but for their order.
-/

namespace FortranTyping

open scoped List

/-! ## Steps in another order -/

theorem TypeMap.get?_perm {entries entries' : List (NodeId × Ty)} (h : entries ~ entries')
    (distinct : (entries.map Prod.fst).Nodup) (id : NodeId) :
    get? ⟨entries⟩ id = get? ⟨entries'⟩ id := by
  by_cases hid : id ∈ entries.map Prod.fst
  · obtain ⟨⟨id, ty⟩, hmem, rfl⟩ := List.mem_map.mp hid
    have distinct' : (entries'.map Prod.fst).Nodup := (h.map Prod.fst).nodup_iff.mp distinct
    rw [get?_of_mem distinct hmem, get?_of_mem distinct' (h.mem_iff.mp hmem)]
  · have hid' : id ∉ entries'.map Prod.fst := fun hmem => hid ((h.map Prod.fst).mem_iff.mpr hmem)
    rw [(get?_eq_none_iff _ _).mpr hid, (get?_eq_none_iff _ _).mpr hid']

namespace Step

variable {steps steps' : List Step} (h : steps ~ steps') (ctx : Context)
include h

theorem typings_perm : typings ctx steps ~ typings ctx steps' :=
  h.filterMap (typing? ctx)

theorem diagnostics_perm : diagnostics ctx steps ~ diagnostics ctx steps' :=
  h.flatMap_right (reports ctx)

end Step

section

variable {entries entries' : List Entry} (h : entries ~ entries')
include h

theorem contributions_perm (ctx : Context) (loops : List String) (owner : NodeId) :
    contributions ctx loops owner entries ~ contributions ctx loops owner entries' := by
  rw [contributions_eq_map, contributions_eq_map]
  exact h.map _

theorem entrySteps_perm (loops : List String) (owner : NodeId) :
    entrySteps loops owner entries ~ entrySteps loops owner entries' := by
  rw [entrySteps_eq_flatMap, entrySteps_eq_flatMap]
  exact h.flatMap_right _

theorem Expr.array_ids_perm (node : Node) :
    (Expr.array node entries).ids ~ (Expr.array node entries').ids := by
  have hsteps := (entrySteps_perm h [] node.id).filterMap Step.typed?
  rw [typed_entrySteps, typed_entrySteps] at hsteps
  simp only [ids, postorder, List.map_append]
  exact (hsteps.map Expr.id).append_right _

end

/-! ## The type of a constructor -/

/-- The type of all entries together does not depend on their order. -/
theorem Ty.unifyAll_perm {tys tys' : List Ty} (h : tys ~ tys') (htys : ∀ ty ∈ tys, ty.WellFormed) :
    unifyAll tys = unifyAll tys' := by
  induction h with
  | nil => rfl
  | cons ty h ih =>
      obtain ⟨hty, htys⟩ := List.forall_mem_cons.mp htys
      simp only [unifyAll, foldl_unify_perm h hty htys]
  | swap ty ty' tys => simp only [unifyAll, List.foldl_cons, unify_comm ty']
  | trans h _ ih ih' =>
      rw [ih htys]
      exact ih' fun ty hty => htys ty (h.mem_iff.mpr hty)

theorem Contribution.total?_perm {entries entries' : List Contribution} (h : entries ~ entries') :
    total? entries = total? entries' :=
  Count.total?_perm (h.map Contribution.count)

theorem Entry.contribution_wellFormed (ctx : Context) (loops : List String) (owner : NodeId)
    (entry : Entry) : (entry.verdict ctx loops owner).contribution.type.WellFormed := by
  cases entry with
  | plain value => exact value.verdict_wellFormed ctx loops none
  | impliedDo span body loopVariable start stop stride =>
      obtain ⟨count, hrange⟩ :=
        Entry.range_contribution ctx loops owner span body loopVariable start stop stride
      rw [hrange]
      dsimp only
      split <;> trivial

theorem contributions_wellFormed (ctx : Context) (loops : List String) (owner : NodeId)
    (entries : List Entry) :
    ∀ ty ∈ (contributions ctx loops owner entries).map Contribution.type, ty.WellFormed := by
  rw [contributions_eq_map, List.map_map]
  intro ty hty
  obtain ⟨entry, -, rfl⟩ := List.mem_map.mp hty
  exact entry.contribution_wellFormed ctx loops owner

theorem constructorVerdict_type_perm {entries entries' : List Contribution} (h : entries ~ entries')
    (hentries : ∀ ty ∈ entries.map Contribution.type, ty.WellFormed) (options : Options)
    (node : Node) (expected : Option Ty) :
    (constructorVerdict options node entries expected).type =
      (constructorVerdict options node entries' expected).type := by
  rw [constructorVerdict_type, constructorVerdict_type, Contribution.total?_perm h,
    Ty.unifyAll_perm (h.map Contribution.type) hentries]

theorem Expr.array_verdict_type_perm {entries entries' : List Entry} (h : entries ~ entries')
    (ctx : Context) (loops : List String) (expected : Option Ty) (node : Node) :
    ((Expr.array node entries).verdict ctx loops expected).type =
      ((Expr.array node entries').verdict ctx loops expected).type :=
  constructorVerdict_type_perm (contributions_perm h ctx loops node.id)
    (contributions_wellFormed ctx loops node.id entries) ctx.options node expected

/-! ## The reports about a constructor -/

section

variable {entries entries' : List Contribution} (h : entries ~ entries') (options : Options)
include h

theorem misfits_perm (base : Ty) : misfits options base entries ~ misfits options base entries' :=
  (h.filter _).map _

/-- Whether anything is said about the entries, and so whether the whole is reported in their place,
does not depend on their order. -/
theorem storeReports_perm (node : Node) (expected built : Ty) :
    storeReports options node entries expected built ~
      storeReports options node entries' expected built := by
  unfold storeReports
  split
  · exact .refl _
  · cases expected with
    | array base size =>
        have hmisfits := misfits_perm h options base
        simp only [hmisfits.isEmpty_eq]
        split
        · exact hmisfits
        · exact .refl _
    | _ => exact .refl _

end

theorem unifiedType_unreported (options : Options) (entries : List Contribution) :
    (unifiedType options false entries).2 = [] := by
  cases entries with
  | nil => rfl
  | cons entry entries => exact unifyEntries_unreported options entry.type entries

/-- No break is reported where an array is expected. -/
theorem constructorVerdict_reports_of_isArray {expected : Ty} (harray : expected.isArray = true)
    (options : Options) (node : Node) (entries : List Contribution) :
    let verdict := constructorVerdict options node entries (some expected)
    verdict.reports = storeReports options node entries expected verdict.type := by
  simp [constructorVerdict, harray, unifiedType_unreported]

theorem Expr.array_verdict_reports_perm {entries entries' : List Entry} (h : entries ~ entries')
    (ctx : Context) (loops : List String) {expected : Ty} (harray : expected.isArray = true)
    (node : Node) :
    ((Expr.array node entries).verdict ctx loops (some expected)).reports ~
      ((Expr.array node entries').verdict ctx loops (some expected)).reports := by
  have htype := array_verdict_type_perm h ctx loops (some expected) node
  simp only [verdict] at htype ⊢
  rw [constructorVerdict_reports_of_isArray harray, constructorVerdict_reports_of_isArray harray,
    htype]
  exact storeReports_perm (contributions_perm h ctx loops node.id) ctx.options node expected _

/-! ## Runs -/

/-- Two outcomes of typing `e`, or what it is permuted into, from the same pass: the same types, and
the same reports in another order where an array is expected. -/
structure SameUpToOrder (e : Expr) (expected : Option Ty) (pass : Pass)
    (first second : Ty × Pass) : Prop where
  type : first.1 = second.1
  recorded : ∀ id ∈ e.ids, (first.2.types.get? id).isSome = true
  types : ∀ id, first.2.types.get? id = second.2.types.get? id
  reports : expected.any Ty.isArray = true → ∃ reports reports',
    first.2.diagnostics = pass.diagnostics ++ reports ∧
      second.2.diagnostics = pass.diagnostics ++ reports' ∧ reports ~ reports'

section

variable {node : Node} {entries entries' : List Entry} (h : entries ~ entries') (ctx : Context)
  (loops : List String) (expected : Option Ty)
include h

theorem typings_array_perm :
    Step.typings ctx ((Expr.array node entries).steps loops expected) ~
      Step.typings ctx ((Expr.array node entries').steps loops expected) := by
  have hself : Step.typings ctx [.node loops expected (.array node entries)] =
      Step.typings ctx [.node loops expected (.array node entries')] := by
    simp only [Step.typings, List.filterMap_cons, List.filterMap_nil, Step.typing?,
      Expr.array_verdict_type_perm h]
    rfl
  rw [Expr.steps, Expr.steps, Step.typings_append, Step.typings_append, hself]
  exact (Step.typings_perm (entrySteps_perm h loops node.id) ctx).append_right _

theorem diagnostics_array_perm (harray : expected.any Ty.isArray = true) :
    Step.diagnostics ctx ((Expr.array node entries).steps loops expected) ~
      Step.diagnostics ctx ((Expr.array node entries').steps loops expected) := by
  cases expected with
  | none => cases harray
  | some expected =>
      have hparts := Step.diagnostics_perm (entrySteps_perm h loops node.id) ctx
      have hself := Expr.array_verdict_reports_perm h ctx loops harray node
      rw [Expr.steps, Expr.steps, Step.diagnostics_append, Step.diagnostics_append]
      simpa [Step.diagnostics, Step.reports] using hparts.append hself

end

/-- The outcome for a constructor does not depend on the order of its entries. -/
theorem Infer.array_sameUpToOrder (ctx : Context) (loops : List String) (expected : Option Ty)
    {node : Node} {entries entries' : List Entry} {pass : Pass} (h : entries ~ entries')
    (distinct : (Expr.array node entries).ids.Nodup)
    (untyped : ∀ id ∈ (Expr.array node entries).ids, pass.types.get? id = none) :
    SameUpToOrder (.array node entries) expected pass
      ((Infer.expr ctx loops expected (.array node entries)).run pass)
      ((Infer.expr ctx loops expected (.array node entries')).run pass) := by
  have hids := Expr.array_ids_perm h node
  rw [Infer.run_expr distinct untyped, Infer.run_expr (hids.nodup_iff.mp distinct)
    fun id hid => untyped id (hids.mem_iff.mpr hid)]
  have hfresh := (Expr.array node entries).fresh_steps distinct untyped loops expected
  refine ⟨Expr.array_verdict_type_perm h ctx loops expected node, ?_, ?_, ?_⟩
  · intro id hid
    rw [← Expr.typedIds_steps loops expected] at hid
    obtain ⟨e, he, rfl⟩ := List.mem_map.mp hid
    obtain ⟨loops', expected', hmem⟩ := Step.exists_node he
    rw [hfresh.get?_follow hmem]
    rfl
  · intro id
    have hsteps : ((Step.typings ctx ((Expr.array node entries).steps loops expected)).map
        Prod.fst).Nodup := by
      rw [Step.typings_ids]
      exact hfresh.distinct
    simp only [Pass.follow, TypeMap.get?_append]
    rw [TypeMap.get?_perm (typings_array_perm h ctx loops expected) hsteps]
  · intro harray
    exact ⟨_, _, rfl, rfl, diagnostics_array_perm h ctx loops expected harray⟩

/-! ## Entries of all kinds -/

/-- The entries of `["a", (y, i = 1, 2), .true.]`. -/
def mixedEntries : List Entry :=
  let name (text : String) : Located String := ⟨.ofWidth 0 1, text⟩
  let number (index : Nat) (text : String) : Expr := .literal (.ofIndex index) (.integer text)
  [.plain (.literal (.ofIndex 1) (.character "a")),
    .impliedDo (.ofWidth 0 5) [.plain (.reference (.ofIndex 2) (name "y"))] (name "i") (number 3 "1")
      (number 4 "2") none,
    .plain (.literal (.ofIndex 5) (.logical true))]

/-- The misfits `"a"` and `.true.` and the unresolved `y` are reported in either order. -/
theorem mixedEntries_sameUpToOrder :
    mixedEntries ~ mixedEntries.reverse ∧ (Expr.array (.ofIndex 0) mixedEntries).ids.Nodup ∧
      (∀ id ∈ (Expr.array (.ofIndex 0) mixedEntries).ids, Pass.empty.types.get? id = none) ∧
      let run (entries : List Entry) := (Infer.expr ⟨.ofScope .empty, {}⟩ []
        (some (.array .real 4)) (.array (.ofIndex 0) entries)).run .empty
      SameUpToOrder (.array (.ofIndex 0) mixedEntries) (some (.array .real 4)) .empty
        (run mixedEntries) (run mixedEntries.reverse) := by
  have hreverse : mixedEntries ~ mixedEntries.reverse := (List.reverse_perm _).symm
  have distinct : (Expr.array (.ofIndex 0) mixedEntries).ids.Nodup := by decide
  exact ⟨hreverse, distinct, fun _ _ => rfl,
    Infer.array_sameUpToOrder _ _ _ hreverse distinct fun _ _ => rfl⟩

end FortranTyping

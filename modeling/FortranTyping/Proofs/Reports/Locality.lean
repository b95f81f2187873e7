import FortranTyping.Proofs.Reports.Findings
import FortranTyping.Proofs.Walk.Tasks

/-!
# Reports stay with their nodes

But for notes about what is skipped, a step reports only nodes that it rests on. So what is reported
about the nodes of one task, or of one entry of a constructor, is reported by its own steps.
-/

namespace FortranTyping

/-- The diagnostics about one of the nodes `ids`, in their order. -/
def about (ids : List NodeId) (ds : List Diagnostic) : List Diagnostic :=
  ds.filter fun d => d.finding.expr?.any (· ∈ ids)

section

variable {ids ids' : List NodeId} {ds ds' : List Diagnostic}

@[simp] theorem about_append : about ids (ds ++ ds') = about ids ds ++ about ids ds' :=
  List.filter_append ..

theorem mem_about {d : Diagnostic} :
    d ∈ about ids ds ↔ d ∈ ds ∧ ∃ id ∈ ids, d.finding.expr? = some id := by
  rw [about, List.mem_filter, Option.any_eq_true]
  simp only [decide_eq_true_eq, and_comm]

theorem about_eq_self (h : ∀ d ∈ ds, ∃ id ∈ ids, d.finding.expr? = some id) :
    about ids ds = ds := by
  refine List.filter_eq_self.mpr fun d hd => ?_
  obtain ⟨id, hid, hexpr⟩ := h d hd
  simp [hexpr, hid]

theorem about_eq_nil (h : ∀ d ∈ ds, ∀ id ∈ ids, d.finding.expr? ≠ some id) :
    about ids ds = [] := by
  refine List.eq_nil_iff_forall_not_mem.mpr fun d hd => ?_
  obtain ⟨hmem, id, hid, hexpr⟩ := mem_about.mp hd
  exact h d hmem id hid hexpr

theorem names_iff {id : NodeId} : Names ds id ↔ about [id] ds ≠ [] := by
  rw [ne_eq, List.eq_nil_iff_forall_not_mem, not_forall_not]
  simp [Names, mem_about]

end

/-! ## Faults of single expressions -/

/-- Each report is about the expression that calls for it. -/
def OwnFaults (faults : Expr → List Diagnostic) : Prop :=
  ∀ e, ∀ d ∈ faults e, d.finding.expr? = some e.id

section

variable {faults : Expr → List Diagnostic} (hown : OwnFaults faults) {es : List Expr}
include hown

theorem about_faults_eq_nil {id : NodeId} (hid : id ∉ es.map Expr.id) :
    about [id] (es.flatMap faults) = [] := by
  refine about_eq_nil fun d hd id' hid' hexpr => ?_
  cases List.mem_singleton.mp hid'
  obtain ⟨e, he, hfault⟩ := List.mem_flatMap.mp hd
  rw [hown e d hfault, Option.some.injEq] at hexpr
  exact hid (hexpr ▸ List.mem_map_of_mem he)

/-- What is reported about an expression is what itself calls for. -/
theorem about_faults (distinct : (es.map Expr.id).Nodup) {e : Expr} (hmem : e ∈ es) :
    about [e.id] (es.flatMap faults) = faults e := by
  obtain ⟨before, after, rfl⟩ := List.append_of_mem hmem
  rw [List.map_append, List.map_cons] at distinct
  have hbefore : e.id ∉ before.map Expr.id := by
    intro hid
    exact List.disjoint_of_nodup_append distinct hid List.mem_cons_self
  have hafter : e.id ∉ after.map Expr.id := (List.nodup_cons.mp distinct.of_append_right).1
  have hself : about [e.id] (faults e) = faults e :=
    about_eq_self fun d hd => ⟨e.id, List.mem_singleton_self e.id, hown e d hd⟩
  rw [List.flatMap_append, List.flatMap_cons, about_append, about_append,
    about_faults_eq_nil hown hbefore, about_faults_eq_nil hown hafter, hself, List.nil_append,
    List.append_nil]

end

/-! ## Nodes that a step rests on -/

theorem Expr.subjects_subset (e : Expr) : e.subjects ⊆ e.ids := by
  cases e with
  | array node entries =>
      intro id hid
      rcases List.mem_cons.mp hid with rfl | hid
      · exact cons_ids_subset node entries List.mem_cons_self
      · obtain ⟨entry, hentry, rfl⟩ := List.mem_map.mp hid
        exact cons_ids_subset node entries (Entry.handle_mem node.id hentry)
  | _ => exact List.cons_subset.mpr ⟨Expr.id_mem_ids _, List.nil_subset _⟩

theorem Expr.bare_subjects_subset : (e : Expr) → e.bare.subjects ⊆ e.ids
  | .paren _ inner => by
      intro id hid
      rw [ids, postorder, List.map_append]
      exact List.mem_append_left _ (inner.bare_subjects_subset hid)
  | .literal _ _ | .unary _ _ _ | .binary _ _ _ _ | .reference _ _ | .element _ _ _
  | .array _ _ => Expr.subjects_subset _

variable {ctx : Context} {kind : FindingKind}

/-- A step that does not only make notes about what is skipped. -/
theorem Step.subjects_subset (hkind : kind ≠ .skipped) {step : Step} (h : kind ∈ step.kinds) :
    step.subjects ⊆ typedIds step.support := by
  cases step with
  | node loops expected e => simpa [support, subjects] using e.subjects_subset
  | subscript loops e => simp [support, subjects, e.id_mem_ids]
  | loopControl loops e => simp [support, subjects, e.id_mem_ids]
  | range loops owner entry => exact absurd (List.mem_singleton.mp h) hkind
  | entity declared => exact absurd (List.mem_singleton.mp h) hkind
  | target e => exact List.nil_subset _
  | value expected source => simp [support, subjects, source.id_mem_ids]

theorem typedIds_subset {steps rest : List Step} (h : steps ⊆ rest) :
    typedIds steps ⊆ typedIds rest :=
  List.map_subset _ (List.filterMap_subset _ h)

theorem Supported.mem_typedIds {steps : List Step} (h : Supported steps) (hkind : kind ≠ .skipped)
    {d : Diagnostic} (hd : d ∈ ofKind kind (Step.diagnostics ctx steps)) {id : NodeId}
    (hid : d.finding.expr? = some id) : id ∈ typedIds steps := by
  obtain ⟨hmem, rfl⟩ := mem_ofKind.mp hd
  obtain ⟨step, hstep, hreport⟩ := List.mem_flatMap.mp hmem
  obtain ⟨hkinds, hsubjects⟩ := Step.admits hreport
  exact typedIds_subset (h step hstep) (Step.subjects_subset hkind hkinds (hsubjects id hid))

/-! ## Blocks of steps -/

/-- Steps that type other nodes report nothing about those in question. -/
theorem Supported.about_eq_nil {steps : List Step} (h : Supported steps) (hkind : kind ≠ .skipped)
    {ids : List NodeId} (hdisjoint : List.Disjoint ids (typedIds steps)) :
    about ids (ofKind kind (Step.diagnostics ctx steps)) = [] := by
  refine FortranTyping.about_eq_nil fun d hd id hid hexpr => ?_
  exact hdisjoint hid (h.mem_typedIds hkind hd hexpr)

theorem Supported.about_eq_self {steps : List Step} (h : Supported steps)
    (hkind : kind ≠ .skipped) :
    about (typedIds steps) (ofKind kind (Step.diagnostics ctx steps)) =
      ofKind kind (Step.diagnostics ctx steps) := by
  refine FortranTyping.about_eq_self fun d hd => ?_
  obtain ⟨id, hid⟩ := Finding.exists_expr ((mem_ofKind.mp hd).2 ▸ hkind)
  exact ⟨id, h.mem_typedIds hkind hd hid, hid⟩

/-- What is reported about nodes of one block comes from its steps. -/
theorem about_flatMap {α : Type} {f : α → List Step} (hsupported : ∀ x, Supported (f x))
    (hkind : kind ≠ .skipped) {xs : List α} (distinct : Distinct (xs.flatMap f)) {x : α}
    (hx : x ∈ xs) {ids : List NodeId} (hids : ids ⊆ typedIds (f x)) :
    about ids (ofKind kind (Step.diagnostics ctx (xs.flatMap f))) =
      about ids (ofKind kind (Step.diagnostics ctx (f x))) := by
  obtain ⟨before, after, rfl⟩ := List.append_of_mem hx
  rw [List.flatMap_append, List.flatMap_cons] at distinct ⊢
  -- no other block types one of the nodes in question
  have hbefore : List.Disjoint ids (typedIds (before.flatMap f)) := by
    intro id hid hmem
    refine distinct.disjoint hmem ?_
    rw [typedIds_append]
    exact List.mem_append_left _ (hids hid)
  have hafter : List.Disjoint ids (typedIds (after.flatMap f)) := by
    intro id hid hmem
    exact distinct.right.disjoint (hids hid) hmem
  simp only [Step.diagnostics_append, ofKind_append, about_append,
    (Supported.flatMap hsupported before).about_eq_nil hkind hbefore,
    (Supported.flatMap hsupported after).about_eq_nil hkind hafter, List.nil_append,
    List.append_nil]

/-- A node is reported by its own rule or as a part of something else, but not by its parts. -/
theorem Expr.not_names_self (hkind : kind ≠ .skipped) {loops : List String} {expected : Option Ty}
    {e : Expr} (hown : kind ∉ e.kinds expected) (distinct : Distinct (e.steps loops expected)) :
    ¬Names (ofKind kind (Step.diagnostics ctx (e.steps loops expected))) e.id := by
  obtain ⟨parts, hsteps, hparts⟩ := e.exists_part_steps loops expected
  rw [hsteps] at distinct ⊢
  have hdisjoint : List.Disjoint [e.id] (typedIds parts) := by
    intro id hid hmem
    exact distinct.disjoint hmem hid
  have hnode : ofKind kind (Step.diagnostics ctx [.node loops expected e]) = [] := by
    refine Step.ofKind_diagnostics_eq_nil fun step hstep => ?_
    cases List.mem_singleton.mp hstep
    exact hown
  rw [names_iff, not_not, Step.diagnostics_append, ofKind_append, hnode, List.append_nil]
  exact hparts.about_eq_nil hkind hdisjoint

namespace Distinct

variable {steps : List Step} (distinct : Distinct steps) {loops loops' : List String}
  {expected expected' : Option Ty} {e e' : Expr} (hmem : .node loops expected e ∈ steps)
include distinct hmem

/-- A node is typed in one step only. -/
theorem node_unique (hmem' : .node loops' expected' e' ∈ steps) (hid : e'.id = e.id) :
    Step.node loops' expected' e' = .node loops expected e := by
  obtain ⟨before, after, rfl⟩ := List.append_of_mem hmem
  have hown : e.id ∈ typedIds (.node loops expected e :: after) := mem_typedIds List.mem_cons_self
  rcases List.mem_append.mp hmem' with hbefore | hmem'
  · exact absurd (hid ▸ hown) (distinct.disjoint (mem_typedIds hbefore))
  · rcases List.mem_cons.mp hmem' with heq | hafter
    · exact heq
    · have hlast : Distinct ([.node loops expected e] ++ after) := distinct.right
      exact absurd (hid ▸ mem_typedIds hafter) (hlast.disjoint (List.mem_singleton_self e.id))

/-- The operands of an operation are reported by its own rule. -/
theorem mem_verdict_reports {d : Diagnostic}
    (hd : d ∈ ofKind .binaryOperands (Step.diagnostics ctx steps))
    (hid : d.finding.expr? = some e.id) : d ∈ (e.verdict ctx loops expected).reports := by
  obtain ⟨hdiagnostics, hkind⟩ := mem_ofKind.mp hd
  obtain ⟨step, hstep, hreport⟩ := List.mem_flatMap.mp hdiagnostics
  obtain ⟨hkinds, hsubjects⟩ := Step.admits hreport
  rw [hkind] at hkinds
  have hsubject := hsubjects e.id hid
  cases step with
  | node loops' expected' e' =>
      cases e' with
      | binary node op left right =>
          have hsame : e.id = node.id := List.mem_singleton.mp hsubject
          cases distinct.node_unique hmem hstep hsame.symm
          exact hreport
      | _ => simp [Step.kinds, Expr.kinds] at hkinds
  | _ => simp [Step.kinds] at hkinds

end Distinct

end FortranTyping

import FortranTyping.Proofs.Constructor.Fold
import FortranTyping.Proofs.Reports.Findings
import FortranTyping.Proofs.Stores.Value
import FortranTyping.Proofs.Walk.Memory

/-!
# Expected types

Two runs over one expression, from the same pass, with different types expected of it. Only an array
constructor looks at what is expected, and only an empty one takes its type from there. For all
others the types are the same in both runs, and the diagnostics differ only in what the rule of the
constructor reports behind those of its entries. This holds from any pass and with repeated
identities.
-/

namespace FortranTyping

/-! ## Contributions with memory -/

theorem rangeVerdict_expr (options : Options) (owner : NodeId) (span : Span) (wellFormed : Bool)
    (perTrip : Option Nat) (trips : Except SkipReason Nat) :
    (rangeVerdict options owner span wellFormed perTrip trips).contribution.expr = owner := by
  unfold rangeVerdict
  cases wellFormed with
  | false => rfl
  | true => cases trips <;> rfl

namespace Infer

variable (ctx : Context) (loops : List String)

/-- Whatever types are found, an entry contributes under its own name or that of its owner. -/
theorem run_entry_expr (owner : NodeId) (item : Entry) (pass : Pass) :
    ((entry ctx loops owner item).run pass).1.expr = item.handle owner := by
  cases item with
  | plain value => rfl
  | impliedDo span body loopVariable start stop stride =>
      simp only [entry, run_bind]
      exact rangeVerdict_expr _ owner span _ _ _

theorem run_entryList_expr (owner : NodeId) (entries : List Entry) (pass : Pass) :
    ((entryList ctx loops owner entries).run pass).1.map Contribution.expr =
      entries.map (Entry.handle owner) := by
  induction entries generalizing pass with
  | nil => rfl
  | cons item rest ih =>
      simp only [entryList, run_bind, List.map_cons]
      exact congr (congrArg List.cons (run_entry_expr ctx loops owner item pass)) (ih _)

end Infer

/-! ## The rule of a constructor -/

/-- With entries in it, a constructor has a type of its own. -/
theorem constructorVerdict_type_congr (options : Options) (node : Node) {cs : List Contribution}
    (h : cs ≠ []) (expected expected' : Option Ty) :
    (constructorVerdict options node cs expected).type =
      (constructorVerdict options node cs expected').type := by
  rw [constructorVerdict_type, constructorVerdict_type]
  cases cs with
  | nil => exact absurd rfl h
  | cons c cs => cases Contribution.total? (c :: cs) <;> rfl

/-- A report of the rule of a constructor: about an entry, or about the whole. -/
def Diagnostic.IsOwn (node : Node) (entries : List Entry) (d : Diagnostic) : Prop :=
  (∃ entry ∈ entries, ∃ base element,
    d.finding = .constructorElement (entry.handle node.id) base element) ∨
  ∃ expected actual, d.finding = .mismatch node.id expected actual

theorem isOwn_of_mem_reports {options : Options} {node : Node} {entries : List Entry}
    {cs : List Contribution}
    (hcs : cs.map Contribution.expr = entries.map (Entry.handle node.id)) {expected : Option Ty}
    {d : Diagnostic} (h : d ∈ (constructorVerdict options node cs expected).reports) :
    d.IsOwn node entries := by
  rcases mem_constructorVerdict_reports h with ⟨ty, -, hd⟩ | ⟨c, hc, base, hd⟩
  · exact .inr ⟨_, _, hd⟩
  · have hmem : c.expr ∈ entries.map (Entry.handle node.id) := hcs ▸ List.mem_map_of_mem hc
    obtain ⟨entry, hentry, hexpr⟩ := List.mem_map.mp hmem
    exact .inl ⟨entry, hentry, base, c.type, hexpr ▸ hd⟩

/-! ## Two expectations -/

/-- The identities of an expression and of all that its parentheses enclose, from the outside in. -/
def Expr.enclosedIds : Expr → List NodeId
  | .paren node inner => node.id :: inner.enclosedIds
  | e => [e.id]

namespace Infer

variable (ctx : Context) (loops : List String)

/-- What is not a constructor under its parentheses does not look at what is expected. -/
theorem expr_congr_of_plain (expected expected' : Option Ty) :
    (e : Expr) → e.isArrayConstructor = false →
      expr ctx loops expected e = expr ctx loops expected' e
  | .paren node inner, h => by
      have hinner := expr_congr_of_plain expected expected' inner h
      simp only [expr, hinner]
  | .array _ _, h => by cases h
  | .literal _ _, _ | .unary _ _ _, _ | .binary _ _ _ _, _ | .reference _ _, _
  | .element _ _ _, _ => rfl
termination_by structural e => e

/-- If a node has no type yet, its parts are typed, and its rule comes last. -/
theorem run_visit_parts_of_untyped {e : Expr} {pass : Pass} {α : Type} (parts : Infer α)
    (rule : α → Verdict) (h : pass.types.get? e.id = none) :
    (visit e (do return rule (← parts))).run pass =
      ((rule (parts.run pass).1).type,
        ((parts.run pass).2.report (rule (parts.run pass).1).reports).record e
          (rule (parts.run pass).1).type) := by
  rw [run_visit_of_untyped _ h, run_bind]
  rfl

/-- If a constructor has a type already, or parentheses around it have one, nothing is reported,
and what is expected makes no difference. -/
theorem run_constructor_of_typed {node : Node} {entries : List Entry} {pass : Pass} :
    (e : Expr) → e.bare = .array node entries →
      (∃ id ∈ e.enclosedIds, (pass.types.get? id).isSome = true) →
      ∃ ty pass', (∀ expected, (expr ctx loops expected e).run pass = (ty, pass')) ∧
        pass'.diagnostics = pass.diagnostics
  | .array node entries, _, htyped => by
      obtain ⟨id, hid, htyped⟩ := htyped
      cases List.mem_singleton.mp hid
      obtain ⟨ty, hty⟩ := Option.isSome_iff_exists.mp htyped
      exact ⟨ty, pass, fun expected => run_visit_of_typed _ hty, rfl⟩
  | .paren outer inner, hbare, htyped => by
      cases houter : pass.types.get? outer.id with
      | some ty => exact ⟨ty, pass, fun expected => run_visit_of_typed _ houter, rfl⟩
      | none =>
          have hinner : ∃ id ∈ inner.enclosedIds, (pass.types.get? id).isSome = true := by
            simpa [Expr.enclosedIds, houter] using htyped
          obtain ⟨ty, pass', hrun, hsame⟩ := run_constructor_of_typed inner hbare hinner
          refine ⟨ty, (pass'.report []).record (.paren outer inner) ty, fun expected => ?_, ?_⟩
          · rw [expr, run_visit_parts_of_untyped _ _ houter, hrun expected]
            rfl
          · simp [Pass.record, Pass.report, Pass.log, hsame]
termination_by structural e => e

/-- Otherwise its entries are typed first, and what is expected has a bearing on nothing but the
reports of its own rule, which come behind those about the entries. -/
theorem run_constructor_of_untyped {node : Node} {entries : List Entry} (hentries : entries ≠ [])
    {pass : Pass} : (e : Expr) → e.bare = .array node entries →
      (∀ id ∈ e.enclosedIds, pass.types.get? id = none) →
      ∃ ty types events, ∀ expected, (expr ctx loops expected e).run pass =
        (ty, ⟨types, ((entryList ctx loops node.id entries).run pass).2.diagnostics ++
          (constructorVerdict ctx.options node ((entryList ctx loops node.id entries).run pass).1
            expected).reports, events⟩)
  | .array node entries, rfl, huntyped => by
      have hself : pass.types.get? node.id = none := huntyped node.id List.mem_cons_self
      have hcs : ((entryList ctx loops node.id entries).run pass).1 ≠ [] := fun hnil =>
        hentries (by simpa [hnil] using run_entryList_expr ctx loops node.id entries pass)
      let done := ((entryList ctx loops node.id entries).run pass).2
      let ty := (constructorVerdict ctx.options node
        ((entryList ctx loops node.id entries).run pass).1 none).type
      refine ⟨ty, (done.record (.array node entries) ty).types,
        (done.record (.array node entries) ty).events, fun expected => ?_⟩
      rw [expr, run_visit_parts_of_untyped _ _ hself,
        constructorVerdict_type_congr ctx.options node hcs expected none]
      rfl
  | .paren outer inner, hbare, huntyped => by
      obtain ⟨houter, hinner⟩ := List.forall_mem_cons.mp huntyped
      obtain ⟨ty, types, events, hrun⟩ := run_constructor_of_untyped hentries inner hbare hinner
      let done : Pass := ⟨types, [], events⟩
      refine ⟨ty, (done.record (.paren outer inner) ty).types,
        (done.record (.paren outer inner) ty).events, fun expected => ?_⟩
      rw [expr, run_visit_parts_of_untyped _ _ houter, hrun expected]
      simp [Pass.record, Pass.report, Pass.log, Verdict.clean, done]
termination_by structural e => e

end Infer

/-- What can depend on the type that is expected of an expression, from one pass. -/
structure ExpectationSpec (ctx : Context) (loops : List String) (pass : Pass) (e : Expr) :
    Prop where
  /-- No type does, unless the expression is an empty constructor. -/
  sameTypes : (∀ node, e.bare ≠ .array node []) → ∀ expected expected',
    ((Infer.expr ctx loops expected e).run pass).1 =
      ((Infer.expr ctx loops expected' e).run pass).1 ∧
    ((Infer.expr ctx loops expected e).run pass).2.types =
      ((Infer.expr ctx loops expected' e).run pass).2.types
  /-- Nothing does, unless the expression is a constructor. -/
  sameRun : e.isArrayConstructor = false → ∀ expected expected',
    (Infer.expr ctx loops expected e).run pass = (Infer.expr ctx loops expected' e).run pass
  /-- A constructor that is typed already, or in parentheses that are, reports nothing. -/
  typed : ∀ node entries, e.bare = .array node entries →
    (∃ id ∈ e.enclosedIds, (pass.types.get? id).isSome = true) →
    ∀ expected, ((Infer.expr ctx loops expected e).run pass).2.diagnostics = pass.diagnostics
  /-- Another one with entries reports the same about them, and then something of its own. -/
  untyped : ∀ node entries, e.bare = .array node entries → entries ≠ [] →
    (∀ id ∈ e.enclosedIds, pass.types.get? id = none) →
    ∀ expected, ∃ own : List Diagnostic,
      ((Infer.expr ctx loops expected e).run pass).2.diagnostics =
        ((Infer.entryList ctx loops node.id entries).run pass).2.diagnostics ++ own ∧
      ∀ d ∈ own, d.IsOwn node entries

theorem Infer.expr_sameTypes (ctx : Context) (loops : List String) (pass : Pass) {e : Expr}
    (h : ∀ node, e.bare ≠ .array node []) (expected expected' : Option Ty) :
    ((expr ctx loops expected e).run pass).1 = ((expr ctx loops expected' e).run pass).1 ∧
      ((expr ctx loops expected e).run pass).2.types =
        ((expr ctx loops expected' e).run pass).2.types := by
  cases hconstructor : e.isArrayConstructor with
  | false =>
      rw [expr_congr_of_plain ctx loops expected expected' e hconstructor]
      exact ⟨rfl, rfl⟩
  | true =>
      obtain ⟨node, entries, hbare⟩ := Expr.exists_of_isArrayConstructor hconstructor
      have hentries : entries ≠ [] := fun hnil => h node (hnil ▸ hbare)
      by_cases htyped : ∃ id ∈ e.enclosedIds, (pass.types.get? id).isSome = true
      · obtain ⟨ty, pass', hrun, -⟩ := run_constructor_of_typed ctx loops e hbare htyped
        rw [hrun expected, hrun expected']
        exact ⟨rfl, rfl⟩
      · have huntyped : ∀ id ∈ e.enclosedIds, pass.types.get? id = none := by
          simpa using htyped
        obtain ⟨ty, types, events, hrun⟩ :=
          run_constructor_of_untyped ctx loops hentries e hbare huntyped
        rw [hrun expected, hrun expected']
        exact ⟨rfl, rfl⟩

theorem Infer.expr_expectationSpec (ctx : Context) (loops : List String) (pass : Pass) (e : Expr) :
    ExpectationSpec ctx loops pass e where
  sameTypes h expected expected' := expr_sameTypes ctx loops pass h expected expected'
  sameRun h expected expected' := by rw [expr_congr_of_plain ctx loops expected expected' e h]
  typed node entries hbare htyped expected := by
    obtain ⟨ty, pass', hrun, hsame⟩ := run_constructor_of_typed ctx loops e hbare htyped
    rw [hrun expected]
    exact hsame
  untyped node entries hbare hentries huntyped expected := by
    obtain ⟨ty, types, events, hrun⟩ :=
      run_constructor_of_untyped ctx loops hentries e hbare huntyped
    have hexpr := run_entryList_expr ctx loops node.id entries pass
    rw [hrun expected]
    exact ⟨_, rfl, fun d hd => isOwn_of_mem_reports hexpr hd⟩

/-- Empty brackets have nothing else to go by. -/
example (ctx : Context) (node : Node) :
    ((Infer.expr ctx [] (some (.array .real 3)) (.array node [])).run .empty).1 =
      .array .real 0 := rfl

end FortranTyping

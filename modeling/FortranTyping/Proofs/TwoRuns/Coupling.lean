import FortranTyping.Proofs.Trees.Names
import FortranTyping.Proofs.Walk.Memory
import Mathlib.Data.List.Forall2

/-!
# Two runs over one tree

Two checks of the same tree, or of trees that differ in their names, with resolvers or options of
their own. If every typing rule turns parts that are alike into verdicts that are alike, so does the
whole walk. This holds with the memory in place, and so for repeated identities too.
-/

namespace FortranTyping

theorem Contribution.total?_congr {cs cs' : List Contribution}
    (h : List.Forall₂ (fun c c' => c.count = c'.count) cs cs') : total? cs = total? cs' := by
  unfold total?
  congr 1
  induction h with
  | nil => rfl
  | cons hcount _ ih => simp only [List.map_cons, hcount, ih]

/-- What two runs are to have in common: how types, types that are expected, and lists of
diagnostics correspond. -/
structure Likeness where
  type : Ty → Ty → Prop
  expected : Ty → Ty → Prop
  reports : List Diagnostic → List Diagnostic → Prop

namespace Likeness

variable (L : Likeness)

structure Verdicts (v v' : Verdict) : Prop where
  type : L.type v.type v'.type
  reports : L.reports v.reports v'.reports

/-- Entries add the same number of elements, of corresponding types. -/
structure Contributions (c c' : Contribution) : Prop where
  expr : c.expr = c'.expr
  span : c.span = c'.span
  type : L.type c.type c'.type
  count : c.count = c'.count

/-- The same nodes are typed in the same order. -/
structure Passes (pass pass' : Pass) : Prop where
  types : List.Forall₂ (fun typing typing' => typing.1 = typing'.1 ∧ L.type typing.2 typing'.2)
    pass.types.entries pass'.types.entries
  reports : L.reports pass.diagnostics pass'.diagnostics

/-- From passes that are alike, two computations return related values and passes that are alike. -/
def Runs {α β : Type} (R : α → β → Prop) (x : Infer α) (y : Infer β) : Prop :=
  ∀ pass pass', L.Passes pass pass' →
    R (x.run pass).1 (y.run pass').1 ∧ L.Passes (x.run pass).2 (y.run pass').2

end Likeness

/-- Every typing rule keeps the likeness between two contexts. -/
structure Coupling (L : Likeness) (ctx ctx' : Context) : Prop where
  nil : L.reports [] []
  append : ∀ {ds ds' es es'}, L.reports ds ds' → L.reports es es' →
    L.reports (ds ++ es) (ds' ++ es')
  integer : L.type .integer .integer
  unknown : ∀ cause, L.type (.unknown cause) (.unknown cause)
  isUnknown_eq : ∀ {a a'}, L.type a a' → a.isUnknown = a'.isUnknown
  isInteger_eq : ∀ {a a'}, L.type a a' → (a == .integer) = (a' == .integer)
  expected_of_known : ∀ {a a'}, L.type a a' → a.isUnknown = false → L.expected a a'
  literal : ∀ node value, L.Verdicts (.literal node value) (.literal node value)
  unary : ∀ node op {a a'}, L.type a a' →
    L.Verdicts (.unary ctx.options node op a) (.unary ctx'.options node op a')
  binary : ∀ node op {a a' b b'}, L.type a a' → L.type b b' →
    L.Verdicts (.binary ctx.options node op a b) (.binary ctx'.options node op a' b')
  reference : ∀ node designator,
    L.Verdicts (.reference ctx.options node designator (ctx.resolver.find designator))
      (.reference ctx'.options node designator (ctx'.resolver.find designator))
  subscript : ∀ node {a a'}, L.type a a' →
    L.reports (Verdict.nonInteger ctx.options .subscript node a)
      (Verdict.nonInteger ctx'.options .subscript node a')
  loopControl : ∀ node {a a'}, L.type a a' →
    L.reports (Verdict.nonInteger ctx.options .loopControl node a)
      (Verdict.nonInteger ctx'.options .loopControl node a')
  range : ∀ owner span wellFormed perTrip trips,
    L.reports (rangeVerdict ctx.options owner span wellFormed perTrip trips).reports
      (rangeVerdict ctx'.options owner span wellFormed perTrip trips).reports
  constructor : ∀ node {cs cs' expected expected'}, List.Forall₂ L.Contributions cs cs' →
    Option.Rel L.expected expected expected' →
    L.Verdicts (constructorVerdict ctx.options node cs expected)
      (constructorVerdict ctx'.options node cs' expected')
  value : ∀ source {expected expected' a a'}, L.expected expected expected' → L.type a a' →
    L.reports (Infer.valueReports ctx.options source expected a)
      (Infer.valueReports ctx'.options source expected' a')
  entity : ∀ declared, L.Verdicts (Infer.entityVerdict ctx.options declared)
    (Infer.entityVerdict ctx'.options declared)

/-- The second tree has its names changed by `f`, but not beyond their case. A reference is alike
under both of its names. -/
structure Renaming (L : Likeness) (f : String → String) (ctx ctx' : Context) : Prop
    extends Coupling L ctx ctx' where
  sameName : ∀ name, SameName (f name) name
  renamed : ∀ node designator,
    L.Verdicts (.reference ctx.options node designator (ctx.resolver.find designator))
      (.reference ctx'.options node (designator.mapNames f)
        (ctx'.resolver.find (designator.mapNames f)))

namespace Likeness

variable {L : Likeness} {α β γ δ : Type}

/-! ## Composing runs -/

theorem Runs.pure {R : α → β → Prop} {a : α} {b : β} (h : R a b) :
    L.Runs R (Pure.pure a) (Pure.pure b) :=
  fun _ _ hpass => ⟨h, hpass⟩

theorem Runs.bind {R : α → β → Prop} {S : γ → δ → Prop} {x : Infer α} {y : Infer β}
    {f : α → Infer γ} {g : β → Infer δ} (hx : L.Runs R x y)
    (hf : ∀ a b, R a b → L.Runs S (f a) (g b)) : L.Runs S (x >>= f) (y >>= g) := by
  intro pass pass' hpass
  obtain ⟨hvalue, hnext⟩ := hx pass pass' hpass
  exact hf _ _ hvalue _ _ hnext

/-- The second run goes through what `change` makes of the items of the first. -/
theorem Runs.forM {f : α → Infer Unit} {g : β → Infer Unit} (change : α → β)
    (h : ∀ x, L.Runs (fun _ _ => True) (f x) (g (change x))) :
    (xs : List α) → L.Runs (fun _ _ => True) (xs.forM f) ((xs.map change).forM g)
  | [] => .pure trivial
  | x :: xs => (h x).bind fun _ _ _ => .forM change h xs

/-- The type maps of passes that are alike know the same nodes, with corresponding types. -/
theorem Passes.get? {pass pass' : Pass} (h : L.Passes pass pass') (id : NodeId) :
    Option.Rel L.type (pass.types.get? id) (pass'.types.get? id) := by
  obtain ⟨⟨entries⟩, _, _⟩ := pass
  obtain ⟨⟨entries'⟩, _, _⟩ := pass'
  have htypes := h.types
  simp only [TypeMap.get?] at htypes ⊢
  clear h
  induction htypes with
  | nil => exact .none
  | @cons typing typing' rest rest' hhead _ ih =>
      rw [List.find?_cons, List.find?_cons, hhead.1]
      cases typing'.1 == id with
      | true => exact .some hhead.2
      | false => exact ih

theorem Passes.contains_eq {pass pass' : Pass} (h : L.Passes pass pass') (id : NodeId) :
    pass.types.contains id = pass'.types.contains id := by
  have hget := h.get? id
  unfold TypeMap.contains
  cases hleft : pass.types.get? id <;> cases hright : pass'.types.get? id <;>
    simp_all

/-- Where the first pass drops a type because the node has one, so does the second. -/
theorem Passes.record {pass pass' : Pass} (h : L.Passes pass pass') {e e' : Expr}
    (hid : e.id = e'.id) {a a' : Ty} (htype : L.type a a') :
    L.Passes (pass.record e a) (pass'.record e' a') := by
  have hcontains := h.contains_eq e'.id
  refine ⟨?_, h.reports⟩
  simp only [Pass.record, TypeMap.insert, hid, hcontains]
  cases pass'.types.contains e'.id with
  | true => exact h.types
  | false => exact List.rel_append h.types (.cons ⟨rfl, htype⟩ .nil)

theorem runs_log (events events' : List Event) :
    L.Runs (fun _ _ => True) (Infer.log events) (Infer.log events') :=
  fun _ _ hpass => ⟨trivial, ⟨hpass.types, hpass.reports⟩⟩

theorem total?_eq {cs cs' : List Contribution} (h : List.Forall₂ L.Contributions cs cs') :
    Contribution.total? cs = Contribution.total? cs' :=
  Contribution.total?_congr (h.imp fun _ _ hc => hc.count)

end Likeness

namespace Coupling

variable {L : Likeness} {ctx ctx' : Context} (C : Coupling L ctx ctx')
include C

/-- What a range adds to its array does not depend on the context. -/
theorem range_contribution (owner : NodeId) (span : Span) (wellFormed : Bool)
    (perTrip : Option Nat) (trips : Except SkipReason Nat) :
    L.Contributions (rangeVerdict ctx.options owner span wellFormed perTrip trips).contribution
      (rangeVerdict ctx'.options owner span wellFormed perTrip trips).contribution := by
  unfold rangeVerdict
  cases wellFormed with
  | false => exact ⟨rfl, rfl, C.unknown none, rfl⟩
  | true => cases trips <;> exact ⟨rfl, rfl, C.integer, rfl⟩

theorem runs_report {ds ds' : List Diagnostic} (h : L.reports ds ds') :
    L.Runs (fun _ _ => True) (Infer.report ds) (Infer.report ds') :=
  fun _ _ hpass => ⟨trivial, ⟨hpass.types, C.append hpass.reports h⟩⟩

theorem runs_loopControl (node : Node) {a a' : Ty} (h : L.type a a') :
    L.Runs Eq (Infer.loopControl ctx node a) (Infer.loopControl ctx' node a') :=
  (C.runs_report (C.loopControl node h)).bind fun _ _ _ => .pure (C.isInteger_eq h)

/-- A tree beside itself. -/
theorem toRenaming : Renaming L id ctx ctx' where
  toCoupling := C
  sameName _ := rfl
  renamed node designator := by
    rw [designator.mapNames_id]
    exact C.reference node designator

end Coupling

/-! ## Walks over two trees -/

namespace Renaming

variable {L : Likeness} {f : String → String} {ctx ctx' : Context}

/-- A node that one run finds in its memory, the other one finds in its own. -/
theorem runs_visit (R : Renaming L f ctx ctx') (e : Expr) {rule rule' : Infer Verdict}
    (h : L.Runs L.Verdicts rule rule') :
    L.Runs L.type (Infer.visit e rule) (Infer.visit (e.mapNames f) rule') := by
  intro pass pass' hpass
  have hget := hpass.get? e.id
  have hid : (e.mapNames f).id = e.id := e.id_mapNames f
  cases hleft : pass.types.get? e.id with
  | some type =>
      cases hright : pass'.types.get? e.id with
      | none => simp [hleft, hright] at hget
      | some type' =>
          rw [hleft, hright, Option.rel_some_some] at hget
          rw [← hid] at hright
          rw [Infer.run_visit_of_typed rule hleft, Infer.run_visit_of_typed rule' hright]
          exact ⟨hget, hpass⟩
  | none =>
      cases hright : pass'.types.get? e.id with
      | some type' => simp [hleft, hright] at hget
      | none =>
          rw [← hid] at hright
          rw [Infer.run_visit_of_untyped rule hleft, Infer.run_visit_of_untyped rule' hright]
          obtain ⟨hverdict, hnext⟩ := h pass pass' hpass
          refine ⟨hverdict.type, Likeness.Passes.record ?_ hid.symm hverdict.type⟩
          exact ⟨hnext.types, R.append hnext.reports hverdict.reports⟩

/-- Inside the scope of its name a reference is an integer for both runs. -/
theorem runs_reference (R : Renaming L f ctx ctx') (loops : List String) (node : Node)
    (designator : Designator) :
    L.Runs L.Verdicts (Infer.reference ctx loops node designator)
      (Infer.reference ctx' loops node (designator.mapNames f)) := by
  have hname : foldCase (designator.mapNames f).name.value = foldCase designator.name.value :=
    R.sameName designator.name.value
  unfold Infer.reference
  rw [hname]
  split
  · exact .pure ⟨R.integer, R.nil⟩
  · exact (Likeness.runs_log _ _).bind fun _ _ _ => .pure (R.renamed node designator)

mutual

theorem runs_expr (R : Renaming L f ctx ctx') (loops : List String) {expected expected' : Option Ty}
    (hexpected : Option.Rel L.expected expected expected') :
    (e : Expr) → L.Runs L.type (Infer.expr ctx loops expected e)
      (Infer.expr ctx' loops expected' (e.mapNames f))
  | .literal node value => R.runs_visit _ (.pure (R.literal node value))
  | .unary node op operand =>
      R.runs_visit _ ((R.runs_expr loops .none operand).bind fun _ _ h =>
        .pure (R.unary node op h))
  | .binary node op left right =>
      R.runs_visit _ ((R.runs_expr loops .none left).bind fun _ _ hleft =>
        (R.runs_expr loops .none right).bind fun _ _ hright =>
          .pure (R.binary node op hleft hright))
  | .paren _ inner =>
      R.runs_visit _ ((R.runs_expr loops hexpected inner).bind fun _ _ h => .pure ⟨h, R.nil⟩)
  | .reference node name => R.runs_visit _ (R.runs_reference loops node ⟨name, none⟩)
  | .element node name subscripts =>
      R.runs_visit _ ((R.runs_subscriptList loops subscripts).bind fun _ _ _ =>
        R.runs_reference loops node ⟨name, some subscripts⟩)
  | .array node entries =>
      R.runs_visit _ ((R.runs_entryList loops node.id entries).bind fun _ _ h =>
        .pure (R.constructor node h hexpected))
termination_by structural e => e

theorem runs_subscriptList (R : Renaming L f ctx ctx') (loops : List String) :
    (subscripts : List Expr) → L.Runs (fun _ _ => True) (Infer.subscriptList ctx loops subscripts)
      (Infer.subscriptList ctx' loops (mapSubscriptNames f subscripts))
  | [] => .pure trivial
  | e :: rest => by
      refine (R.runs_expr loops .none e).bind fun _ _ h => ?_
      rw [Expr.node_mapNames]
      exact (R.runs_report (R.subscript e.node h)).bind fun _ _ _ => R.runs_subscriptList loops rest
termination_by structural subscripts => subscripts

theorem runs_entry (R : Renaming L f ctx ctx') (loops : List String) (owner : NodeId) :
    (entry : Entry) → L.Runs L.Contributions (Infer.entry ctx loops owner entry)
      (Infer.entry ctx' loops owner (entry.mapNames f))
  | .plain value => by
      refine (R.runs_expr loops .none value).bind fun _ _ h => ?_
      rw [Expr.node_mapNames]
      exact .pure ⟨rfl, rfl, h, rfl⟩
  | .impliedDo span body loopVariable start stop stride => by
      have hname : foldCase (f loopVariable.value) = foldCase loopVariable.value :=
        R.sameName loopVariable.value
      have htrips := loopTrips_map (Expr.integerValue?_mapNames f) start stop stride
      simp only [Infer.entry, Entry.mapNames, Located.map, hname, Expr.node_mapNames, htrips,
        mapStrideNames_eq_map]
      refine (R.runs_entryList _ owner body).bind fun cs cs' hbody => ?_
      refine (R.runs_expr loops .none start).bind fun _ _ hstart => ?_
      refine (R.runs_loopControl start.node hstart).bind fun fits _ hfits => ?_
      subst hfits
      refine (R.runs_expr loops .none stop).bind fun _ _ hstop => ?_
      refine (R.runs_loopControl stop.node hstop).bind fun fits' _ hfits => ?_
      subst hfits
      refine (R.runs_strideControl loops stride).bind fun fits'' _ hfits => ?_
      subst hfits
      rw [Likeness.total?_eq hbody]
      exact (R.runs_report (R.range ..)).bind fun _ _ _ => .pure (R.range_contribution ..)
termination_by structural entry => entry

theorem runs_strideControl (R : Renaming L f ctx ctx') (loops : List String) :
    (stride : Option Expr) → L.Runs Eq (Infer.strideControl ctx loops stride)
      (Infer.strideControl ctx' loops (stride.map (Expr.mapNames f)))
  | none => .pure rfl
  | some stride => by
      refine (R.runs_expr loops .none stride).bind fun _ _ h => ?_
      rw [Expr.node_mapNames]
      exact R.runs_loopControl stride.node h
termination_by structural stride => stride

theorem runs_entryList (R : Renaming L f ctx ctx') (loops : List String) (owner : NodeId) :
    (entries : List Entry) → L.Runs (List.Forall₂ L.Contributions)
      (Infer.entryList ctx loops owner entries)
      (Infer.entryList ctx' loops owner (mapEntryNames f entries))
  | [] => .pure .nil
  | entry :: rest =>
      (R.runs_entry loops owner entry).bind fun _ _ hhead =>
        (R.runs_entryList loops owner rest).bind fun _ _ htail => .pure (.cons hhead htail)
termination_by structural entries => entries

end

/-! ## Units -/

variable (R : Renaming L f ctx ctx')
include R

theorem runs_each (es : List Expr) :
    L.Runs (fun _ _ => True) (Infer.each ctx es) (Infer.each ctx' (es.map (Expr.mapNames f))) :=
  .forM (Expr.mapNames f)
    (fun e => (R.runs_expr [] .none e).bind fun _ _ _ => .pure trivial) es

/-- Whether a variable lends its type to its value is the same for both runs. -/
theorem runs_value (source : Expr) {a a' : Ty} (h : L.type a a') :
    L.Runs (fun _ _ => True) (Infer.value ctx source a)
      (Infer.value ctx' (source.mapNames f) a') := by
  unfold Infer.value
  rw [← R.isUnknown_eq h]
  cases hknown : a.isUnknown with
  | true => exact (R.runs_expr [] .none source).bind fun _ _ _ => .pure trivial
  | false =>
      have hexpected := R.expected_of_known h hknown
      refine (R.runs_expr [] (.some hexpected) source).bind fun b b' hsource => R.runs_report ?_
      have hreports : Infer.valueReports ctx'.options (source.mapNames f) a' b' =
          Infer.valueReports ctx'.options source a' b' := by
        simp only [Infer.valueReports, Expr.isArrayConstructor_mapNames, Expr.span_mapNames,
          Expr.id_mapNames]
      rw [hreports]
      exact R.value source hexpected hsource

theorem runs_entity (declared : DeclaredEntity) :
    L.Runs (fun _ _ => True) (Infer.entity ctx declared)
      (Infer.entity ctx' (declared.map f (Expr.mapNames f))) := by
  have hverdict := R.entity declared
  rw [← Infer.entityVerdict_map (Expr.integerValue?_mapNames f) f declared ctx'.options] at hverdict
  unfold Infer.entity
  simp only [DeclaredEntity.map, Entity.map, Shape.elim_bounds_mapExprs]
  refine (R.runs_each _).bind fun _ _ _ => ?_
  refine (R.runs_report hverdict.reports).bind fun _ _ _ => ?_
  refine (Likeness.runs_log _ _).bind fun _ _ _ => ?_
  cases declared.entity.init with
  | none => exact .pure trivial
  | some init => exact R.runs_value init hverdict.type

theorem runs_declaration (declaration : Declaration) :
    L.Runs (fun _ _ => True) (Infer.declaration ctx declaration)
      (Infer.declaration ctx' (declaration.map f (Expr.mapNames f))) := by
  unfold Infer.declaration
  rw [Declaration.dimension?_map, Shape.elim_bounds_mapExprs, Declaration.declared_map]
  have hselectors : (declaration.map f (Expr.mapNames f)).typeSpec.kind.toList ++
      (declaration.map f (Expr.mapNames f)).typeSpec.length.toList =
        (declaration.typeSpec.kind.toList ++ declaration.typeSpec.length.toList).map
          (Expr.mapNames f) := by
    simp [Declaration.map, TypeSpec.mapExprs, Option.toList_map]
  rw [hselectors]
  refine (R.runs_each _).bind fun _ _ _ => (R.runs_each _).bind fun _ _ _ => ?_
  exact .forM _ R.runs_entity _

theorem runs_statement (statement : Statement) :
    L.Runs (fun _ _ => True) (Infer.statement ctx statement)
      (Infer.statement ctx' (statement.mapExprs (Expr.mapNames f))) := by
  cases statement with
  | other => exact .pure trivial
  | assignment target source =>
      refine (R.runs_expr [] .none target).bind fun _ _ htarget => ?_
      refine (Likeness.runs_log _ _).bind fun _ _ _ => ?_
      rw [Expr.designator?_mapNames]
      cases target.designator? with
      | some _ => exact R.runs_value source htarget
      | none => exact (R.runs_expr [] .none source).bind fun _ _ _ => .pure trivial

/-- Checks of two units that differ in names are alike if all typing rules are. -/
theorem check (program : ProgramUnit) :
    L.Passes (program.check ctx.resolver ctx.options)
      ((program.mapNames f).check ctx'.resolver ctx'.options) := by
  have hrun : L.Runs (fun _ _ => True) (Infer.unit ctx program)
      (Infer.unit ctx' (program.mapNames f)) := by
    unfold Infer.unit
    refine (Likeness.runs_log _ _).bind fun _ _ _ => ?_
    have hdeclarations (located : Located Declaration) := R.runs_declaration located.value
    have hstatements (located : Located Statement) := R.runs_statement located.value
    refine (Likeness.Runs.forM (Located.map (Declaration.map f (Expr.mapNames f)))
      hdeclarations _).bind fun _ _ _ => ?_
    refine (Likeness.Runs.forM (Located.map (Statement.mapExprs (Expr.mapNames f)))
      hstatements _).bind fun _ _ _ => ?_
    exact fun _ _ hpass => ⟨trivial, ⟨hpass.types, hpass.reports⟩⟩
  exact (hrun .empty .empty ⟨.nil, R.nil⟩).2

end Renaming

/-- Two checks of a unit are alike if all typing rules are. -/
theorem Coupling.check {L : Likeness} {ctx ctx' : Context} (C : Coupling L ctx ctx')
    (program : ProgramUnit) :
    L.Passes (program.check ctx.resolver ctx.options)
      (program.check ctx'.resolver ctx'.options) := by
  have h := C.toRenaming.check program
  rwa [program.mapNames_id] at h

end FortranTyping

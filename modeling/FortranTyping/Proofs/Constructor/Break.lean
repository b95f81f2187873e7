import FortranTyping.Proofs.Constructor.Store

/-!
# The first break of a constructor

Where no array is expected, the entries of a constructor are held against one another. The rule
reports the first entry that does not go with those before it, if all types up to it are known, and
then it is done: the element type stays unknown, and so does the constructor.
-/

namespace FortranTyping

namespace Ty

/-! ## Breaks -/

/-- Types break at `k`: those before it make up `base`, which does not unify with `element`, the type
at `k`. Nothing up to this point is unknown. -/
structure BreaksAt (tys : List Ty) (k : Nat) (base element : Ty) : Prop where
  later : 1 ≤ k
  before : unifyAll (tys.take k) = some base
  at_break : tys[k]? = some element
  known : ∀ ty ∈ tys.take (k + 1), ty.isUnknown = false
  base_known : base.isUnknown = false
  broken : (base.unify element).isUnknown = true

theorem unifyAll_append {tys : List Ty} {whole : Ty} (h : unifyAll tys = some whole)
    (rest : List Ty) : unifyAll (tys ++ rest) = some (rest.foldl unify whole) := by
  cases tys with
  | nil => cases h
  | cons ty tys =>
      cases h
      simp only [List.cons_append, unifyAll, List.foldl_append]

/-- A type is known if what it is unified into is. -/
theorem known_of_unify {first second : Ty} (h : (first.unify second).isUnknown = false) :
    first.isUnknown = false ∧ second.isUnknown = false := by
  constructor
  · by_contra hfirst
    have hunknown := unify_isUnknown_of_left second (Bool.not_eq_false _ ▸ hfirst)
    exact Bool.false_ne_true (h.symm.trans hunknown)
  · by_contra hsecond
    have hunknown := unify_isUnknown_of_right first (Bool.not_eq_false _ ▸ hsecond)
    exact Bool.false_ne_true (h.symm.trans hunknown)

namespace BreaksAt

variable {tys rest : List Ty} {k k' : Nat} {first second base base' element element' : Ty}

/-- The types up to the break make up an unknown type, and so does every longer part of the list. -/
theorem isUnknown_of_lt (h : BreaksAt tys k base element) (hlt : k < k') {whole : Ty}
    (hwhole : unifyAll (tys.take k') = some whole) : whole.isUnknown = true := by
  have hupTo : unifyAll (tys.take (k + 1)) = some (base.unify element) := by
    rw [List.take_add_one, h.at_break]
    exact unifyAll_append h.before [element]
  have hsplit : tys.take k' = tys.take (k + 1) ++ (tys.drop (k + 1)).take (k' - (k + 1)) := by
    rw [← List.take_add]
    congr 1
    omega
  rw [hsplit, unifyAll_append hupTo, Option.some.injEq] at hwhole
  rw [← hwhole]
  exact foldl_unify_isUnknown _ h.broken

theorem unifyAll_isUnknown (h : BreaksAt tys k base element) {whole : Ty}
    (hwhole : unifyAll tys = some whole) : whole.isUnknown = true := by
  have hlt : k < tys.length := (List.getElem?_eq_some_iff.mp h.at_break).1
  refine h.isUnknown_of_lt hlt ?_
  rwa [List.take_length]

/-- A list breaks once: behind the first break nothing is known any more. -/
theorem unique (h : BreaksAt tys k base element) (h' : BreaksAt tys k' base' element') :
    k = k' := by
  rcases Nat.lt_trichotomy k k' with hlt | rfl | hlt
  · have hunknown := h.isUnknown_of_lt hlt h'.before
    exact absurd (h'.base_known.symm.trans hunknown) Bool.false_ne_true
  · rfl
  · have hunknown := h'.isUnknown_of_lt hlt h.before
    exact absurd (h.base_known.symm.trans hunknown) Bool.false_ne_true

/-! The first two types can be taken as one. -/

theorem one (hfirst : first.isUnknown = false) (hsecond : second.isUnknown = false)
    (hbroken : (first.unify second).isUnknown = true) :
    BreaksAt (first :: second :: rest) 1 first second where
  later := Nat.le_refl 1
  before := rfl
  at_break := rfl
  known := by simp [hfirst, hsecond]
  base_known := hfirst
  broken := hbroken

/-- A break of the first two types is their own. -/
theorem of_one (h : BreaksAt (first :: second :: rest) 1 base element) :
    base = first ∧ element = second ∧ (first.unify second).isUnknown = true := by
  have hbase : first = base := Option.some.inj h.before
  have helement : second = element := Option.some.inj h.at_break
  exact ⟨hbase.symm, helement.symm, hbase ▸ helement ▸ h.broken⟩

theorem succ (h : BreaksAt (first.unify second :: rest) (k + 1) base element) :
    BreaksAt (first :: second :: rest) (k + 2) base element := by
  obtain ⟨hunified, hknown⟩ := List.forall_mem_cons.mp h.known
  obtain ⟨hfirst, hsecond⟩ := known_of_unify hunified
  refine ⟨by omega, h.before, h.at_break, ?_, h.base_known, h.broken⟩
  exact List.forall_mem_cons.mpr ⟨hfirst, List.forall_mem_cons.mpr ⟨hsecond, hknown⟩⟩

theorem of_succ (h : BreaksAt (first :: second :: rest) (k + 2) base element) :
    BreaksAt (first.unify second :: rest) (k + 1) base element := by
  obtain ⟨-, hknown⟩ := List.forall_mem_cons.mp h.known
  obtain ⟨-, hknown⟩ := List.forall_mem_cons.mp hknown
  have hunified : (first.unify second).isUnknown = false := by
    by_contra hunknown
    have hbase : (rest.take k).foldl unify (first.unify second) = base := Option.some.inj h.before
    have := foldl_unify_isUnknown (rest.take k) (Bool.not_eq_false _ ▸ hunknown)
    rw [hbase, h.base_known] at this
    cases this
  exact ⟨by omega, h.before, h.at_break, List.forall_mem_cons.mpr ⟨hunified, hknown⟩, h.base_known,
    h.broken⟩

end BreaksAt

end Ty

/-! ## The rule -/

section

variable {options : Options} (hquiet : options.suppressCascades = true)
include hquiet

theorem reports_pair (first second : Ty) :
    options.reports [first, second] = (!first.isUnknown && !second.isUnknown) := by
  simp [Options.reports, hquiet]

/-- Where the types of the entries break, the entry is reported and nothing else. -/
theorem unifyEntries_of_breaksAt {cs : List Contribution} {first base element : Ty} {k : Nat}
    (h : Ty.BreaksAt (first :: cs.map Contribution.type) (k + 1) base element) :
    ∃ c, cs[k]? = some c ∧ c.type = element ∧ (unifyEntries options true first cs).2 =
      [.of c.span (.constructorElement c.expr base element)] := by
  induction cs generalizing first k with
  | nil => exact absurd h.at_break (by simp)
  | cons c cs ih =>
      cases k with
      | zero =>
          obtain ⟨rfl, rfl, hbroken⟩ := h.of_one
          have hfirst : base.isUnknown = false := h.base_known
          have hsecond : c.type.isUnknown = false := h.known c.type (by simp)
          refine ⟨c, rfl, rfl, ?_⟩
          simp only [unifyEntries, hbroken, reports_pair hquiet, hfirst, hsecond, Bool.not_false,
            Bool.and_self, ite_true]
      | succ k =>
          have hrest := h.of_succ
          have hunified : (first.unify c.type).isUnknown = false := hrest.known _ (by simp)
          obtain ⟨c', hc', htype, hreports⟩ := ih hrest
          refine ⟨c', by simpa using hc', htype, ?_⟩
          simpa only [unifyEntries, hunified, Bool.and_false, Bool.false_and, Bool.false_eq_true,
            ite_false] using hreports

/-- Only a break is reported. -/
theorem breaksAt_of_unifyEntries {cs : List Contribution} {first : Ty}
    (h : (unifyEntries options true first cs).2 ≠ []) :
    ∃ k base element, Ty.BreaksAt (first :: cs.map Contribution.type) (k + 1) base element := by
  induction cs generalizing first with
  | nil => exact absurd rfl h
  | cons c cs ih =>
      cases hunified : (first.unify c.type).isUnknown with
      | false =>
          simp only [unifyEntries, hunified, Bool.and_false, Bool.false_and, Bool.false_eq_true,
            ite_false] at h
          obtain ⟨k, base, element, hbreak⟩ := ih h
          exact ⟨k + 1, base, element, hbreak.succ⟩
      | true =>
          cases hreports : options.reports [first, c.type] with
          | true =>
              rw [reports_pair hquiet, Bool.and_eq_true, Bool.not_eq_true', Bool.not_eq_true']
                at hreports
              exact ⟨0, first, c.type, .one hreports.1 hreports.2 hunified⟩
          | false =>
              -- an unknown part is not worth a report, and then the base stays unknown
              refine absurd ?_ h
              simp only [unifyEntries, hreports, Bool.and_false, Bool.false_eq_true, ite_false]
              exact unifyEntries_of_isUnknown options hquiet true hunified cs

theorem unifiedType_of_breaksAt {cs : List Contribution} {base element : Ty} {k : Nat}
    (h : Ty.BreaksAt (cs.map Contribution.type) k base element) :
    ∃ c, cs[k]? = some c ∧ c.type = element ∧ (unifiedType options true cs).2 =
      [.of c.span (.constructorElement c.expr base element)] := by
  cases cs with
  | nil => exact absurd h.at_break (by simp)
  | cons c cs =>
      obtain ⟨k, rfl⟩ : ∃ n, k = n + 1 := ⟨k - 1, by have := h.later; omega⟩
      obtain ⟨c', hc', htype, hreports⟩ := unifyEntries_of_breaksAt hquiet h
      exact ⟨c', by simpa using hc', htype, hreports⟩

theorem breaksAt_of_unifiedType {cs : List Contribution}
    (h : (unifiedType options true cs).2 ≠ []) :
    ∃ k base element, Ty.BreaksAt (cs.map Contribution.type) k base element := by
  cases cs with
  | nil => exact absurd rfl h
  | cons c cs =>
      obtain ⟨k, base, element, hbreak⟩ := breaksAt_of_unifyEntries hquiet h
      exact ⟨k + 1, base, element, hbreak⟩

end

/-- Where no array is expected, what the rule says about entries is what it says about a break. -/
theorem ofKind_constructorVerdict (options : Options) (node : Node) (cs : List Contribution)
    {expected : Option Ty} (hexpected : expected.any Ty.isArray = false) :
    ofKind .constructorElement (constructorVerdict options node cs expected).reports =
      (unifiedType options true cs).2 := by
  have hunified : ofKind .constructorElement (unifiedType options true cs).2 =
      (unifiedType options true cs).2 := by
    refine ofKind_eq_self fun d hd => ?_
    obtain ⟨c, -, before, hfinding⟩ := mem_unifiedType hd
    rw [hfinding]
    rfl
  simp only [constructorVerdict, hexpected, Bool.not_false, ofKind_append, hunified]
  cases expected with
  | none => simp
  | some expected =>
      rw [Option.elim_some, ofKind_eq_nil, List.append_nil]
      intro d hd
      unfold storeReports at hd
      cases expected with
      | array base size => cases hexpected
      | _ =>
          simp only [List.isEmpty_nil, Bool.not_true, Bool.false_eq_true, ite_false] at hd
          split at hd
          · cases hd
          · split at hd
            · rw [List.mem_singleton.mp hd]
              intro hkind
              cases hkind
            · cases hd

theorem builtType_of_breaksAt {tys : List Ty} {k : Nat} {base element : Ty}
    (h : Ty.BreaksAt tys k base element) (size : Option Nat) (expected : Option Ty) :
    (builtType (Ty.unifyAll tys) size expected).isUnknown = true := by
  obtain ⟨whole, hwhole⟩ := Ty.exists_unifyAll (List.mem_of_getElem? h.at_break)
  rw [hwhole]
  exact builtType_isUnknown_of_base (h.unifyAll_isUnknown hwhole) size expected

/-! ## Runs -/

/-- How typing a constructor of type `built`, of which no array is expected, ends after `parts`,
where its entries are typed. Beyond the reports about them there are `own` ones, and these are about
an entry if and only if the types that the entries add to the array break. -/
structure BreakSpec (node : Node) (entries : List Entry) (built : Ty) (parts final : Pass)
    (own : List Diagnostic) : Prop where
  recorded : final.types.get? node.id = some built
  parts_recorded : ∀ e ∈ entryPostorder entries, (final.types.get? e.id).isSome = true
  diagnostics : final.diagnostics = parts.diagnostics ++ own
  reported_iff : ofKind .constructorElement own ≠ [] ↔
    ∃ k base element, Ty.BreaksAt (entries.map (Entry.typeIn final.types)) k base element
  reported : ∀ k base element,
    Ty.BreaksAt (entries.map (Entry.typeIn final.types)) k base element →
    ∃ entry, entries[k]? = some entry ∧ ofKind .constructorElement own =
      [.of entry.span (.constructorElement (entry.handle node.id) base element)]
  unknown : ∀ k base element,
    Ty.BreaksAt (entries.map (Entry.typeIn final.types)) k base element → built.isUnknown = true
  unique : ∀ k base element k' base' element',
    Ty.BreaksAt (entries.map (Entry.typeIn final.types)) k base element →
    Ty.BreaksAt (entries.map (Entry.typeIn final.types)) k' base' element' → k = k'

section

variable {ctx : Context} {types : TypeMap} {loops : List String} {node : Node} {entries : List Entry}
  (hparts : ∀ loops' expected' e, .node loops' expected' e ∈ entrySteps loops node.id entries →
    types.get? e.id = some (e.verdict ctx loops' expected').type)
include hparts

theorem contributions_get? {k : Nat} {c : Contribution}
    (hc : (contributions ctx loops node.id entries)[k]? = some c) :
    ∃ entry, entries[k]? = some entry ∧ c.span = entry.span ∧ c.expr = entry.handle node.id := by
  rw [contributions_eq_map, List.getElem?_map, Option.map_eq_some_iff] at hc
  obtain ⟨entry, hentry, rfl⟩ := hc
  obtain ⟨count, hcount⟩ := contributions_recorded hparts entry (List.mem_of_getElem? hentry)
  exact ⟨entry, hentry, congrArg Contribution.span hcount, congrArg Contribution.expr hcount⟩

variable (hquiet : ctx.options.suppressCascades = true) {expected : Option Ty}
  (hexpected : expected.any Ty.isArray = false)
include hquiet hexpected

/-- The rule of a constructor reports an entry if and only if the recorded types break. -/
theorem array_reports_iff_breaksAt :
    ofKind .constructorElement ((Expr.array node entries).verdict ctx loops expected).reports ≠ [] ↔
      ∃ k base element, Ty.BreaksAt (entries.map (Entry.typeIn types)) k base element := by
  rw [← contributions_types hparts, Expr.verdict,
    ofKind_constructorVerdict ctx.options node _ hexpected]
  constructor
  · exact breaksAt_of_unifiedType hquiet
  · rintro ⟨k, base, element, hbreak⟩
    obtain ⟨c, -, -, hreports⟩ := unifiedType_of_breaksAt hquiet hbreak
    rw [hreports]
    exact List.cons_ne_nil _ _

theorem array_reports_of_breaksAt {k : Nat} {base element : Ty}
    (hbreak : Ty.BreaksAt (entries.map (Entry.typeIn types)) k base element) :
    ∃ entry, entries[k]? = some entry ∧
      ofKind .constructorElement ((Expr.array node entries).verdict ctx loops expected).reports =
        [.of entry.span (.constructorElement (entry.handle node.id) base element)] := by
  rw [← contributions_types hparts] at hbreak
  obtain ⟨c, hc, -, hreports⟩ := unifiedType_of_breaksAt hquiet hbreak
  obtain ⟨entry, hentry, hspan, hhandle⟩ := contributions_get? hparts hc
  refine ⟨entry, hentry, ?_⟩
  rw [Expr.verdict, ofKind_constructorVerdict ctx.options node _ hexpected, hreports, hspan, hhandle]

end

/-- Of a constructor without an array to go by, the first break is reported and no other. -/
theorem Infer.array_breakSpec (ctx : Context) (hquiet : ctx.options.suppressCascades = true)
    (loops : List String) {expected : Option Ty} (hexpected : expected.any Ty.isArray = false)
    {node : Node} {entries : List Entry} {pass : Pass}
    (distinct : (Expr.array node entries).ids.Nodup)
    (untyped : ∀ id ∈ (Expr.array node entries).ids, pass.types.get? id = none) :
    let outcome := (Infer.expr ctx loops expected (.array node entries)).run pass
    let parts := ((Infer.entryList ctx loops node.id entries).run pass).2
    ∃ own, BreakSpec node entries outcome.1 parts outcome.2 own := by
  have hfresh := (Expr.array node entries).fresh_steps distinct untyped loops expected
  have hself : (pass.follow ctx ((Expr.array node entries).steps loops expected)).types.get? node.id =
      some ((Expr.array node entries).verdict ctx loops expected).type :=
    hfresh.get?_follow ((Expr.array node entries).node_mem_steps loops expected)
  have hparts : ∀ loops' expected' e, .node loops' expected' e ∈ entrySteps loops node.id entries →
      (pass.follow ctx ((Expr.array node entries).steps loops expected)).types.get? e.id =
        some (e.verdict ctx loops' expected').type := fun loops' expected' e hmem =>
    hfresh.get?_follow (List.mem_append_left _ hmem)
  rw [Infer.run_expr distinct untyped, Infer.follows_entryList ctx loops node.id entries pass
    hfresh.left]
  refine ⟨((Expr.array node entries).verdict ctx loops expected).reports, hself, ?_, ?_,
    array_reports_iff_breaksAt hparts hquiet hexpected, ?_, ?_, ?_⟩
  · intro e he
    rw [← typed_entrySteps loops node.id entries] at he
    obtain ⟨loops', expected', hstep⟩ := Step.exists_node he
    rw [hparts loops' expected' e hstep]
    rfl
  · simp [Pass.follow, Expr.steps, Step.diagnostics, Step.reports]
  · intro k base element hbreak
    exact array_reports_of_breaksAt hparts hquiet hexpected hbreak
  · intro k base element hbreak
    rw [Expr.verdict, constructorVerdict_type, contributions_types hparts]
    exact builtType_of_breaksAt hbreak _ _
  · intro k base element k' base' element' hbreak hbreak'
    exact hbreak.unique hbreak'

/-! ## Two breaks in a row -/

/-- The entries of `[1, 2.5, .true., "a"]`. -/
def brokenTwice : List Entry :=
  [.plain (.literal (.ofIndex 1) (.integer "1")), .plain (.literal (.ofIndex 2) (.real "2.5")),
    .plain (.literal (.ofIndex 3) (.logical true)),
    .plain (.literal (.ofIndex 4) (.character "a"))]

/-- The real number takes the integer with it, and `.true.` is reported in their company. -/
theorem brokenTwice_breakSpec :
    let ctx : Context := ⟨.ofScope .empty, {}⟩
    let outcome := (Infer.expr ctx [] none (.array (.ofIndex 0) brokenTwice)).run .empty
    let parts := ((Infer.entryList ctx [] ⟨0⟩ brokenTwice).run .empty).2
    ctx.options.suppressCascades = true ∧ (none : Option Ty).any Ty.isArray = false ∧
      (Expr.array (.ofIndex 0) brokenTwice).ids.Nodup ∧
      (∀ id ∈ (Expr.array (.ofIndex 0) brokenTwice).ids, Pass.empty.types.get? id = none) ∧
      Ty.BreaksAt (brokenTwice.map (Entry.typeIn outcome.2.types)) 2 .real .logical ∧
      ∃ own, BreakSpec (.ofIndex 0) brokenTwice outcome.1 parts outcome.2 own := by
  have distinct : (Expr.array (.ofIndex 0) brokenTwice).ids.Nodup := by decide
  refine ⟨rfl, rfl, distinct, fun _ _ => rfl, ?_, ?_⟩
  · exact ⟨by decide, by decide, by decide, by decide, by decide, by decide⟩
  · exact Infer.array_breakSpec _ rfl [] rfl distinct fun _ _ => rfl

end FortranTyping

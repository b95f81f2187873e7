import FortranTyping.Proofs.Constructor.Fold
import FortranTyping.Proofs.TwoRuns.Coupling

/-!
# Constructors in two runs

Two runs with the same options over constructors whose entries are alike. If single reports about
entries and about the whole are alike, so are the verdicts on the constructors: a break in one run is
a break in the other, at the same entry.
-/

namespace FortranTyping

namespace Options

variable (options : Options)

theorem reports_congr {a a' : Ty} (h : a.withoutCause = a'.withoutCause) :
    options.reports [a] = options.reports [a'] := by
  simp only [reports, List.any_cons, Ty.isUnknown_congr h]

theorem reports_congr₂ {a a' b b' : Ty} (ha : a.withoutCause = a'.withoutCause)
    (hb : b.withoutCause = b'.withoutCause) :
    options.reports [a, b] = options.reports [a', b'] := by
  simp only [reports, List.any_cons, Ty.isUnknown_congr ha, Ty.isUnknown_congr hb]

end Options

/-- A likeness of types that are the same at least up to causes, and of reports one by one, where
entries that are `alike` make reports that are alike. -/
structure Likeness.Entrywise (L : Likeness) (alike : Contribution → Contribution → Prop) :
    Prop where
  nil : L.reports [] []
  append : ∀ {ds ds' es es'}, L.reports ds ds' → L.reports es es' →
    L.reports (ds ++ es) (ds' ++ es')
  isEmpty : ∀ {ds ds'}, L.reports ds ds' → ds.isEmpty = ds'.isEmpty
  refl : ∀ a, L.type a a
  withoutCause : ∀ {a a'}, L.type a a' → a.withoutCause = a'.withoutCause
  unify : ∀ {a a' b b'}, L.type a a' → L.type b b' → L.type (a.unify b) (a'.unify b')
  arrayOf : ∀ {a a'} size, L.type a a' → L.type (.arrayOf a size) (.arrayOf a' size)
  type : ∀ {c c'}, alike c c' → L.type c.type c'.type
  count : ∀ {c c'}, alike c c' → c.count = c'.count
  element : ∀ {c c' base base'}, alike c c' → L.type base base' →
    L.reports [.of c.span (.constructorElement c.expr base c.type)]
      [.of c'.span (.constructorElement c'.expr base' c'.type)]
  mismatch : ∀ (node : Node) expected {built built'}, L.type built built' →
    L.reports [.of node.span (.mismatch node.id expected built)]
      [.of node.span (.mismatch node.id expected built')]

namespace Likeness.Entrywise

variable {L : Likeness} {alike : Contribution → Contribution → Prop} (A : L.Entrywise alike)
  {cs cs' : List Contribution} (hcs : List.Forall₂ alike cs cs')
include A hcs

theorem total?_eq : Contribution.total? cs = Contribution.total? cs' :=
  Contribution.total?_congr (hcs.imp fun _ _ hc => A.count hc)

theorem foldl_unify {base base' : Ty} (hbase : L.type base base') :
    L.type ((cs.map Contribution.type).foldl Ty.unify base)
      ((cs'.map Contribution.type).foldl Ty.unify base') := by
  induction hcs generalizing base base' with
  | nil => exact hbase
  | cons hc _ ih => exact ih (A.unify hbase (A.type hc))

theorem built (size : Option Nat) (expected : Option Ty) :
    L.type (builtType (Ty.unifyAll (cs.map Contribution.type)) size expected)
      (builtType (Ty.unifyAll (cs'.map Contribution.type)) size expected) := by
  cases hcs with
  | nil => exact A.refl _
  | cons hc hcs =>
      cases size with
      | none => exact A.refl _
      | some size => exact A.arrayOf size (A.foldl_unify hcs (A.type hc))

/-- Up to a break, the types unified so far correspond. -/
theorem unifyEntries (options : Options) (report : Bool) {base base' : Ty}
    (hbase : L.type base base') :
    L.reports (unifyEntries options report base cs).2
      (unifyEntries options report base' cs').2 := by
  induction hcs generalizing report base base' with
  | nil => exact A.nil
  | @cons c c' cs cs' hc _ ih =>
      have htype := A.withoutCause (A.type hc)
      have hunified := A.unify hbase (A.type hc)
      simp only [FortranTyping.unifyEntries, Ty.isUnknown_congr (A.withoutCause hunified),
        options.reports_congr₂ (A.withoutCause hbase) htype]
      split
      · exact A.element hc hbase
      · exact ih report hunified

theorem misfits (options : Options) (base : Ty) :
    L.reports (misfits options base cs) (misfits options base cs') := by
  induction hcs with
  | nil => exact A.nil
  | @cons c c' cs cs' hc _ ih =>
      have htype := A.withoutCause (A.type hc)
      simp only [misfits_cons, Ty.accepts_congr base htype, options.reports_congr htype]
      refine A.append ?_ ih
      split
      · exact A.element hc (A.refl base)
      · exact A.nil

theorem storeReports (options : Options) (node : Node) (expected : Ty) {built built' : Ty}
    (hbuilt : L.type built built') :
    L.reports (storeReports options node cs expected built)
      (storeReports options node cs' expected built') := by
  have hwhole : L.reports
      (if options.reports [built] then
        [Diagnostic.of node.span (.mismatch node.id expected built)] else [])
      (if options.reports [built'] then
        [Diagnostic.of node.span (.mismatch node.id expected built')] else []) := by
    rw [options.reports_congr (A.withoutCause hbuilt)]
    split
    · exact A.mismatch node expected hbuilt
    · exact A.nil
  unfold FortranTyping.storeReports
  rw [Ty.accepts_congr expected (A.withoutCause hbuilt)]
  cases expected.accepts built' with
  | true => exact A.nil
  | false =>
      cases expected with
      | array base size =>
          have hmisfits := A.misfits hcs options base
          simp only [Bool.false_eq_true, ite_false, A.isEmpty hmisfits]
          split
          · exact hmisfits
          · exact hwhole
      | _ => simpa using hwhole

/-- Constructors of entries that are alike are alike themselves. -/
theorem constructorVerdict (options : Options) (node : Node) (expected : Option Ty) :
    L.Verdicts (constructorVerdict options node cs expected)
      (constructorVerdict options node cs' expected) := by
  have htype : L.type (FortranTyping.constructorVerdict options node cs expected).type
      (FortranTyping.constructorVerdict options node cs' expected).type := by
    rw [constructorVerdict_type, constructorVerdict_type, ← A.total?_eq hcs]
    exact A.built hcs _ expected
  refine ⟨htype, A.append ?_ ?_⟩
  · cases hcs with
    | nil => exact A.nil
    | cons hc hcs => exact A.unifyEntries hcs options _ (A.type hc)
  · cases expected with
    | none => exact A.nil
    | some expected => exact A.storeReports hcs options node expected htype

end Likeness.Entrywise

end FortranTyping

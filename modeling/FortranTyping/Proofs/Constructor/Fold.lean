import FortranTyping.Proofs.Ty.Acceptance
import Mathlib.Data.List.Forall2

/-!
# The element type of a constructor

The types of the entries unify from left to right, whatever is reported on the way. One unknown
entry makes the element type unknown, and then the type of the whole constructor.
-/

namespace FortranTyping

namespace Ty

/-- The type of all entries together, if there are any. -/
def unifyAll : List Ty → Option Ty
  | [] => none
  | ty :: tys => some (tys.foldl unify ty)

theorem foldl_unify_isUnknown {base : Ty} (tys : List Ty) (h : base.isUnknown = true) :
    (tys.foldl unify base).isUnknown = true := by
  induction tys generalizing base with
  | nil => exact h
  | cons ty tys ih => exact ih (unify_isUnknown_of_left ty h)

/-- An unknown type anywhere in the list cannot be unified away. -/
theorem foldl_unify_isUnknown_of_mem {base ty : Ty} {tys : List Ty} (hmem : ty ∈ tys)
    (h : ty.isUnknown = true) : (tys.foldl unify base).isUnknown = true := by
  induction tys generalizing base with
  | nil => simp at hmem
  | cons first tys ih =>
      rcases List.mem_cons.mp hmem with rfl | hmem
      · exact foldl_unify_isUnknown tys (unify_isUnknown_of_right base h)
      · exact ih hmem

theorem unifyAll_isUnknown {tys : List Ty} {ty whole : Ty} (hmem : ty ∈ tys)
    (h : ty.isUnknown = true) (hwhole : unifyAll tys = some whole) : whole.isUnknown = true := by
  cases tys with
  | nil => simp at hmem
  | cons first tys =>
      cases hwhole
      rcases List.mem_cons.mp hmem with rfl | hmem
      · exact foldl_unify_isUnknown tys h
      · exact foldl_unify_isUnknown_of_mem hmem h

/-- Types that make up a scalar are scalars. -/
theorem isScalar_of_unifyAll {tys : List Ty} {ty : Ty}
    (h : ∀ whole ∈ unifyAll tys, whole.isScalar = true) (hmem : ty ∈ tys) :
    ty.isScalar = true := by
  cases tys with
  | nil => simp at hmem
  | cons first tys =>
      obtain ⟨hfirst, htys⟩ := isScalar_of_foldl_unify (h _ rfl)
      rcases List.mem_cons.mp hmem with rfl | hmem
      · exact hfirst
      · exact htys ty hmem

theorem foldl_unify_congr {tys tys' : List Ty}
    (h : List.Forall₂ (fun ty ty' => ty.withoutCause = ty'.withoutCause) tys tys') {base base' : Ty}
    (hbase : base.withoutCause = base'.withoutCause) :
    (tys.foldl unify base).withoutCause = (tys'.foldl unify base').withoutCause := by
  induction h generalizing base base' with
  | nil => exact hbase
  | cons hty _ ih => exact ih (unify_congr hbase hty)

end Ty

theorem unifyEntries_fst (options : Options) (report : Bool) (base : Ty)
    (entries : List Contribution) :
    (unifyEntries options report base entries).1 =
      (entries.map Contribution.type).foldl Ty.unify base := by
  induction entries generalizing report base with
  | nil => rfl
  | cons entry entries ih =>
      rw [unifyEntries]
      split <;> exact ih _ _

theorem unifiedType_fst (options : Options) (report : Bool) (entries : List Contribution) :
    (unifiedType options report entries).1 = Ty.unifyAll (entries.map Contribution.type) := by
  cases entries with
  | nil => rfl
  | cons entry entries => simp [unifiedType, Ty.unifyAll, unifyEntries_fst]

/-! ## Reports about breaks -/

theorem unifyEntries_unreported (options : Options) (base : Ty) (entries : List Contribution) :
    (unifyEntries options false base entries).2 = [] := by
  induction entries generalizing base with
  | nil => rfl
  | cons entry entries ih => simpa [unifyEntries] using ih _

/-- A base that is unknown already cannot break in a way worth a report. -/
theorem unifyEntries_of_isUnknown (options : Options) (hoptions : options.suppressCascades = true)
    (report : Bool) {base : Ty} (h : base.isUnknown = true) (entries : List Contribution) :
    (unifyEntries options report base entries).2 = [] := by
  induction entries generalizing base with
  | nil => rfl
  | cons entry entries ih =>
      have hnone : options.reports [base, entry.type] = false := by
        simp [Options.reports, hoptions, h]
      simpa [unifyEntries, hnone] using ih (Ty.unify_isUnknown_of_left entry.type h)

/-! ## The whole constructor -/

theorem constructorVerdict_type (options : Options) (node : Node) (entries : List Contribution)
    (expected : Option Ty) :
    (constructorVerdict options node entries expected).type =
      builtType (Ty.unifyAll (entries.map Contribution.type)) (Contribution.total? entries)
        expected := by
  simp only [constructorVerdict, unifiedType_fst]

/-- The type of a constructor whose size is given up. -/
def Ty.unmeasured : Ty :=
  .unknown (some "array constructor size is not known")

/-- Only an empty constructor can do without the number of its elements, and this is known. -/
theorem constructorVerdict_of_uncounted (options : Options) (node : Node)
    {entries : List Contribution} (expected : Option Ty)
    (h : Contribution.total? entries = none) :
    (constructorVerdict options node entries expected).type = .unmeasured := by
  rw [constructorVerdict_type, h]
  cases entries with
  | nil => cases h
  | cons entry rest => rfl

theorem builtType_isUnknown_of_base {base : Ty} (h : base.isUnknown = true) (size : Option Nat)
    (expected : Option Ty) : (builtType (some base) size expected).isUnknown = true := by
  cases size with
  | none => rfl
  | some size => exact Ty.arrayOf_isUnknown size h

theorem Ty.exists_unifyAll {tys : List Ty} {ty : Ty} (h : ty ∈ tys) :
    ∃ whole, Ty.unifyAll tys = some whole := by
  cases tys with
  | nil => cases h
  | cons ty tys => exact ⟨_, rfl⟩

/-- With an unknown entry the whole constructor is unknown. -/
theorem builtType_isUnknown {entries : List Contribution} {entry : Contribution}
    (hmem : entry ∈ entries) (h : entry.type.isUnknown = true) (size : Option Nat)
    (expected : Option Ty) :
    (builtType (Ty.unifyAll (entries.map Contribution.type)) size expected).isUnknown = true := by
  have htype : entry.type ∈ entries.map Contribution.type := List.mem_map_of_mem hmem
  obtain ⟨whole, hwhole⟩ := Ty.exists_unifyAll htype
  rw [hwhole]
  exact builtType_isUnknown_of_base (Ty.unifyAll_isUnknown htype h hwhole) size expected

/-- Causes in the types of the entries have no effect on the type but for its cause. -/
theorem builtType_congr {tys tys' : List Ty}
    (h : List.Forall₂ (fun ty ty' => ty.withoutCause = ty'.withoutCause) tys tys')
    (size : Option Nat) (expected : Option Ty) :
    (builtType (Ty.unifyAll tys) size expected).withoutCause =
      (builtType (Ty.unifyAll tys') size expected).withoutCause := by
  cases h with
  | nil => rfl
  | cons hty htys =>
      cases size with
      | none => rfl
      | some size => exact Ty.arrayOf_congr size (Ty.foldl_unify_congr htys hty)

theorem builtType_wellFormed (base : Option Ty) (size : Option Nat) (expected : Option Ty) :
    (builtType base size expected).WellFormed := by
  unfold builtType
  split
  · split
    · exact Ty.arrayOf_wellFormed _ _
    · trivial
  · trivial
  · exact Ty.arrayOf_wellFormed _ _

/-- A known type is an array of what the entries unify into, or else the empty array that the
variable asks for. -/
theorem builtType_of_known {base : Option Ty} {size : Option Nat} {expected : Option Ty}
    (h : (builtType base size expected).isUnknown = false) :
    ∃ whole n, builtType base size expected = .array whole n ∧ whole.isScalar = true ∧
      (base = some whole ∧ size = some n ∨
        base = none ∧ n = 0 ∧ ∃ m, expected = some (.array whole m)) := by
  unfold builtType at h ⊢
  split at h
  · split at h
    · obtain ⟨hscalar, harray⟩ := Ty.arrayOf_of_known h
      exact ⟨_, 0, harray, hscalar, .inr ⟨rfl, rfl, _, rfl⟩⟩
    · cases h
  · cases h
  · obtain ⟨hscalar, harray⟩ := Ty.arrayOf_of_known h
    exact ⟨_, _, harray, hscalar, .inl ⟨rfl, rfl⟩⟩

/-- In a constructor of known type the entries make up a scalar. -/
theorem isScalar_of_builtType {base : Option Ty} {size : Option Nat} {expected : Option Ty}
    (h : (builtType base size expected).isUnknown = false) :
    ∀ whole ∈ base, whole.isScalar = true := by
  intro whole hwhole
  obtain ⟨whole', n, -, hscalar, ⟨hbase, -⟩ | ⟨hbase, -⟩⟩ := builtType_of_known h
  · rw [hbase] at hwhole
    cases hwhole
    exact hscalar
  · rw [hbase] at hwhole
    cases hwhole

theorem misfits_cons (options : Options) (base : Ty) (entry : Contribution)
    (entries : List Contribution) :
    misfits options base (entry :: entries) =
      (if (!base.accepts entry.type && options.reports [entry.type]) = true then
        [.of entry.span (.constructorElement entry.expr base entry.type)] else []) ++
        misfits options base entries := by
  simp only [misfits, List.filter_cons]
  split <;> rfl

end FortranTyping

import FortranTyping.Proofs.Ty.LeastBound
import Mathlib.Data.List.Perm.Basic

/-!
# Unification in any order

On well-formed types `unify` is commutative and associative, causes of unknown types included, so a
list of types unifies into the same type in whatever order it is taken. Scalars and arrays are
treated apart; all other combinations are unknown however they are grouped.
-/

namespace FortranTyping.Ty

open scoped List

/-! ## Lengths -/

theorem longer_self (m : Option Nat) : longer m m = m := by
  cases m with
  | none => rfl
  | some m => simp [longer]

theorem longer_comm (m n : Option Nat) : longer m n = longer n m := by
  cases m <;> cases n <;> simp [longer, Nat.max_comm]

theorem longer_assoc (m n k : Option Nat) : longer (longer m n) k = longer m (longer n k) := by
  cases m <;> cases n <;> cases k <;> simp [longer, Nat.max_assoc]

theorem unify_character (m n : Option Nat) :
    (character m).unify (character n) = character (longer m n) := by
  by_cases h : m = n
  · subst h
    rw [unify_self, longer_self]
  · simp [unify, h]

/-! ## Two types -/

theorem unify_comm (a b : Ty) : a.unify b = b.unify a := by
  induction a generalizing b with
  | array base m ih =>
      by_cases heq : array base m = b
      · rw [heq]
      · cases b with
        | array base' n =>
            simp only [unify, if_neg heq, if_neg (Ne.symm heq), ih base']
            by_cases hsize : m = n
            · subst hsize
              rfl
            · rw [if_neg hsize, if_neg (Ne.symm hsize)]
        | _ => rfl
  | character m =>
      cases b with
      | character n => rw [unify_character, unify_character, longer_comm]
      | _ => rfl
  | unknown cause =>
      cases b with
      | unknown cause' =>
          by_cases heq : unknown cause = unknown cause'
          · rw [heq]
          · simp only [unify, if_neg heq, if_neg (Ne.symm heq)]
      | _ => rfl
  | _ => cases b <;> rfl

/-- Of two equal types the second is returned, and any other array is built of a scalar. -/
theorem WellFormed.unify {b : Ty} (hb : b.WellFormed) (a : Ty) : (a.unify b).WellFormed := by
  by_cases heq : a = b
  · subst heq
    rw [unify_self]
    exact hb
  · unfold Ty.unify
    rw [if_neg heq]
    split
    · trivial
    · trivial
    · trivial
    · split
      · exact arrayOf_wellFormed _ _
      · trivial
    · trivial

theorem WellFormed.exists_base {a : Ty} (h : a.WellFormed) (harray : a.isArray = true) :
    ∃ base size, a = array base size ∧ base.isScalar = true := by
  cases a with
  | array base size => exact ⟨base, size, rfl, h⟩
  | _ => cases harray

theorem WellFormed.isUnknown_of_shapeless {a : Ty} (h : a.WellFormed) (hscalar : ¬a.isScalar = true)
    (harray : ¬a.isArray = true) : a.isUnknown = true := by
  rcases h.cases with h | ⟨base, size, rfl, -⟩ | h
  · exact absurd h hscalar
  · exact absurd rfl harray
  · exact h

/-- Only arrays unify into an array. -/
theorem isArray_of_unify {a b : Ty} (h : (a.unify b).isArray = true) :
    a.isArray = true ∧ b.isArray = true := by
  by_cases heq : a = b
  · subst heq
    rw [unify_self] at h
    exact ⟨h, h⟩
  · cases a <;> cases b <;> simp_all [Ty.unify, isArray]

/-- A cause comes from both types or from none. -/
theorem unify_eq_cause_iff {a b : Ty} {cause : String} :
    a.unify b = unknown (some cause) ↔ a = unknown (some cause) ∧ b = unknown (some cause) := by
  by_cases heq : a = b
  · subst heq
    rw [unify_self, and_self]
  · constructor
    · intro h
      have hnone := arrayOf_ne_cause
      cases a <;> cases b <;> simp only [Ty.unify, if_neg heq] at h <;> grind
    · rintro ⟨rfl, rfl⟩
      exact absurd rfl heq

/-! ## Three types -/

section

variable {a b c : Ty}

theorem unify_assoc_of_isScalar (ha : a.isScalar = true) (hb : b.isScalar = true)
    (hc : c.isScalar = true) : (a.unify b).unify c = a.unify (b.unify c) := by
  cases b with
  | character n =>
      -- nothing but characters unifies with a character
      cases a with
      | character m =>
          cases c with
          | character k => simp only [unify_character, longer_assoc]
          | _ =>
              rw [unify_character]
              rfl
      | _ =>
          cases c with
          | character k =>
              rw [unify_character]
              rfl
          | _ =>
              first
                | rfl
                | exact absurd ha Bool.false_ne_true
                | exact absurd hc Bool.false_ne_true
  | array base n => cases hb
  | unknown cause => cases hb
  | _ =>
      cases a <;> cases c <;>
        first
          | rfl
          | exact absurd ha Bool.false_ne_true
          | exact absurd hc Bool.false_ne_true

theorem arrayOf_unify_array (m n : Nat) :
    (arrayOf a m).unify (array b n) = if m = n then arrayOf (a.unify b) m else unknown none := by
  by_cases ha : a.isScalar = true
  · rw [arrayOf_of_isScalar m ha, unify_array a b m n ha]
  · have hunified : ¬(a.unify b).isScalar = true := fun h => ha (isScalar_of_unify h).1
    rw [arrayOf_of_not_isScalar m ha, arrayOf_of_not_isScalar m hunified, ite_self]
    rfl

/-- Arrays unify through their bases, if all sizes are the same. -/
theorem unify_assoc_of_array (m n k : Nat) (ha : a.isScalar = true) (hb : b.isScalar = true)
    (hc : c.isScalar = true) :
    ((array a m).unify (array b n)).unify (array c k) =
      (array a m).unify ((array b n).unify (array c k)) := by
  rw [unify_array a b m n ha, unify_array b c n k hb]
  by_cases hmn : m = n
  · subst hmn
    by_cases hmk : m = k
    · subst hmk
      rw [if_pos rfl, if_pos rfl, arrayOf_unify_array m m, unify_comm (array a m),
        arrayOf_unify_array m m, if_pos rfl, if_pos rfl, unify_comm (b.unify c),
        unify_assoc_of_isScalar ha hb hc]
    · rw [if_pos rfl, if_neg hmk, arrayOf_unify_array m k, if_neg hmk]
      rfl
  · rw [if_neg hmn]
    by_cases hnk : n = k
    · rw [if_pos hnk, unify_comm (array a m), arrayOf_unify_array n m, if_neg (Ne.symm hmn)]
      rfl
    · rw [if_neg hnk]
      rfl

/-- Two groupings that are unknown have the same cause, that of all three types. -/
theorem unify_assoc_of_isUnknown (h : ((a.unify b).unify c).isUnknown = true)
    (h' : (a.unify (b.unify c)).isUnknown = true) :
    (a.unify b).unify c = a.unify (b.unify c) := by
  have hcauses : ∀ cause, (a.unify b).unify c = unknown (some cause) ↔
      a.unify (b.unify c) = unknown (some cause) := by
    intro cause
    simp only [unify_eq_cause_iff, and_assoc]
  obtain ⟨cause, hleft⟩ := isUnknown_iff.mp h
  obtain ⟨cause', hright⟩ := isUnknown_iff.mp h'
  cases cause with
  | some cause => rw [hleft, (hcauses cause).mp hleft]
  | none =>
      cases cause' with
      | some cause' => rw [hright, (hcauses cause').mpr hright]
      | none => rw [hleft, hright]

end

/-- Unification may be grouped in any way. -/
theorem unify_assoc {a b c : Ty} (ha : a.WellFormed) (hb : b.WellFormed) (hc : c.WellFormed) :
    (a.unify b).unify c = a.unify (b.unify c) := by
  by_cases hscalars : a.isScalar = true ∧ b.isScalar = true ∧ c.isScalar = true
  · exact unify_assoc_of_isScalar hscalars.1 hscalars.2.1 hscalars.2.2
  · by_cases harrays : a.isArray = true ∧ b.isArray = true ∧ c.isArray = true
    · obtain ⟨base, m, rfl, hbase⟩ := ha.exists_base harrays.1
      obtain ⟨base', n, rfl, hbase'⟩ := hb.exists_base harrays.2.1
      obtain ⟨base'', k, rfl, hbase''⟩ := hc.exists_base harrays.2.2
      exact unify_assoc_of_array m n k hbase hbase' hbase''
    · -- types of different shapes are unknown together, however they are grouped
      apply unify_assoc_of_isUnknown
      · apply (hc.unify (a.unify b)).isUnknown_of_shapeless
        · intro h
          obtain ⟨hab, hc⟩ := isScalar_of_unify h
          obtain ⟨ha, hb⟩ := isScalar_of_unify hab
          exact hscalars ⟨ha, hb, hc⟩
        · intro h
          obtain ⟨hab, hc⟩ := isArray_of_unify h
          obtain ⟨ha, hb⟩ := isArray_of_unify hab
          exact harrays ⟨ha, hb, hc⟩
      · apply ((hc.unify b).unify a).isUnknown_of_shapeless
        · intro h
          obtain ⟨ha, hbc⟩ := isScalar_of_unify h
          obtain ⟨hb, hc⟩ := isScalar_of_unify hbc
          exact hscalars ⟨ha, hb, hc⟩
        · intro h
          obtain ⟨ha, hbc⟩ := isArray_of_unify h
          obtain ⟨hb, hc⟩ := isArray_of_unify hbc
          exact harrays ⟨ha, hb, hc⟩

theorem unify_right_comm {a b c : Ty} (ha : a.WellFormed) (hb : b.WellFormed)
    (hc : c.WellFormed) : (a.unify b).unify c = (a.unify c).unify b := by
  rw [unify_assoc ha hb hc, unify_comm b c, unify_assoc ha hc hb]

/-! ## Lists -/

theorem foldl_unify_perm {tys tys' : List Ty} (h : tys ~ tys') {base : Ty}
    (hbase : base.WellFormed) (htys : ∀ ty ∈ tys, ty.WellFormed) :
    tys.foldl unify base = tys'.foldl unify base := by
  induction h generalizing base with
  | nil => rfl
  | cons ty h ih =>
      obtain ⟨hty, htys⟩ := List.forall_mem_cons.mp htys
      exact ih (hty.unify _) htys
  | swap ty ty' tys =>
      obtain ⟨hty', htys⟩ := List.forall_mem_cons.mp htys
      obtain ⟨hty, -⟩ := List.forall_mem_cons.mp htys
      simp only [List.foldl_cons, unify_right_comm hbase hty' hty]
  | trans h _ ih ih' =>
      rw [ih hbase htys]
      exact ih' hbase fun ty hty => htys ty (h.mem_iff.mpr hty)

end FortranTyping.Ty

import FortranTyping.Proofs.Constructor.Fold
import FortranTyping.Proofs.Ty.Unification

/-!
# Laws of unification and arithmetic

Both ways to combine two types may be taken in any order and grouping, and an unknown type spoils
whatever it enters. Unification returns a type that it is given twice, and with it the cause of an
unknown one. Arithmetic gives up all causes: an operation without a rule has one and the same type.
-/

namespace FortranTyping.Ty

/-! ## Unification -/

/-- What may be relied on when three types are unified, and when `a` is the first of a list. -/
structure UnifyLaws (a b c : Ty) : Prop where
  self : a.unify a = a
  comm : a.unify b = b.unify a
  assoc : (a.unify b).unify c = a.unify (b.unify c)
  /-- An unknown type anywhere in a list. -/
  fold : ∀ tys : List Ty, (∃ ty ∈ a :: tys, ty.isUnknown = true) →
    (tys.foldl unify a).isUnknown = true
  /-- The same of the entries of a constructor, whatever is reported about them. -/
  entries : ∀ (options : Options) (report : Bool) (entries : List Contribution),
    (∃ entry ∈ entries, entry.type.isUnknown = true) →
      ∃ whole, (unifiedType options report entries).1 = some whole ∧ whole.isUnknown = true

theorem unifiedType_isUnknown (options : Options) (report : Bool) {entries : List Contribution}
    {entry : Contribution} (hmem : entry ∈ entries) (h : entry.type.isUnknown = true) :
    ∃ whole, (unifiedType options report entries).1 = some whole ∧ whole.isUnknown = true := by
  have htype : entry.type ∈ entries.map Contribution.type := List.mem_map_of_mem hmem
  obtain ⟨whole, hwhole⟩ := exists_unifyAll htype
  rw [unifiedType_fst]
  exact ⟨whole, hwhole, unifyAll_isUnknown htype h hwhole⟩

/-- Unification is a semilattice on well-formed types, causes included. -/
theorem unify_laws {a b c : Ty} (ha : a.WellFormed) (hb : b.WellFormed) (hc : c.WellFormed) :
    UnifyLaws a b c where
  self := unify_self a
  comm := unify_comm a b
  assoc := unify_assoc ha hb hc
  fold := by
    rintro tys ⟨ty, hmem, hunknown⟩
    exact unifyAll_isUnknown hmem hunknown rfl
  entries := by
    rintro options report entries ⟨entry, hmem, hunknown⟩
    exact unifiedType_isUnknown options report hmem hunknown

/-- An unresolved name, an array of characters of unknown length and one of known length. -/
theorem mixedTypes_unifyLaws :
    let unresolved := unknown (some "unresolved variable `x`")
    unresolved.WellFormed ∧ (array (character none) 2).WellFormed ∧
      (array (character (some 3)) 2).WellFormed ∧
        UnifyLaws unresolved (array (character none) 2) (array (character (some 3)) 2) := by
  have hunsized : (array (character none) 2).WellFormed := rfl
  have hsized : (array (character (some 3)) 2).WellFormed := rfl
  exact ⟨trivial, hunsized, hsized, unify_laws trivial hunsized hsized⟩

/-! ## Arithmetic on scalars -/

theorem scalarArithmetic_comm (a b : Ty) : scalarArithmetic a b = scalarArithmetic b a := by
  cases a <;> cases b <;> rfl

/-- Only scalars have a rule. -/
theorem scalarArithmetic_of_not_isScalar {a : Ty} (b : Ty) (h : ¬a.isScalar = true) :
    scalarArithmetic a b = unknown none := by
  cases a with
  | array base size => rfl
  | unknown cause => rfl
  | _ => exact absurd rfl h

theorem scalarArithmetic_assoc (a b c : Ty) :
    scalarArithmetic (scalarArithmetic a b) c = scalarArithmetic a (scalarArithmetic b c) := by
  cases a <;> cases b <;> cases c <;> rfl

theorem scalarArithmetic_isArray (a b : Ty) : (scalarArithmetic a b).isArray = false := by
  unfold scalarArithmetic
  split <;> rfl

/-- Where there is a rule, its result is what both operands are stored into. -/
theorem scalarArithmetic_of_known {a b : Ty} (h : (scalarArithmetic a b).isUnknown = false) :
    scalarArithmetic a b = a.unify b := by
  cases a <;> cases b <;> first | rfl | cases h

/-! ## Arithmetic on arrays -/

/-- The number of elements of an array. -/
def size? : Ty → Option Nat
  | array _ size => some size
  | _ => none

theorem isArray_cases (a : Ty) : a.isArray = false ∨ ∃ base size, a = array base size := by
  cases a with
  | array base size => exact .inr ⟨base, size, rfl⟩
  | _ => exact .inl rfl

section

variable {a b : Ty}

theorem arithmetic_of_scalars (ha : a.isArray = false) (hb : b.isArray = false) :
    a.arithmetic b = scalarArithmetic a b := by
  cases a with
  | array base size => cases ha
  | _ => cases b <;> first | rfl | cases hb

theorem array_arithmetic (base : Ty) (m : Nat) (hb : b.isArray = false) :
    (array base m).arithmetic b = arrayOf (scalarArithmetic base b) m := by
  cases b <;> first | rfl | cases hb

theorem arithmetic_array (base : Ty) (n : Nat) (ha : a.isArray = false) :
    a.arithmetic (array base n) = arrayOf (scalarArithmetic a base) n := by
  cases a <;> first | rfl | cases ha

theorem array_arithmetic_array (a b : Ty) (m n : Nat) :
    (array a m).arithmetic (array b n) =
      if m = n then arrayOf (scalarArithmetic a b) m else unknown none :=
  rfl

/-- Two sizes are compared either way. -/
theorem arrayOf_ite_comm (a : Ty) (m n : Nat) :
    (if m = n then arrayOf a m else unknown none) =
      if n = m then arrayOf a n else unknown none := by
  by_cases hsize : m = n
  · subst hsize
    rfl
  · rw [if_neg hsize, if_neg (Ne.symm hsize)]

theorem unknown_arithmetic (b : Ty) : (unknown none).arithmetic b = unknown none := by
  cases b <;> rfl

end

theorem arithmetic_comm (a b : Ty) : a.arithmetic b = b.arithmetic a := by
  rcases isArray_cases a with ha | ⟨base, m, rfl⟩ <;>
    rcases isArray_cases b with hb | ⟨base', n, rfl⟩
  · rw [arithmetic_of_scalars ha hb, arithmetic_of_scalars hb ha, scalarArithmetic_comm]
  · rw [arithmetic_array base' n ha, array_arithmetic base' n ha, scalarArithmetic_comm]
  · rw [arithmetic_array base m hb, array_arithmetic base m hb, scalarArithmetic_comm]
  · rw [array_arithmetic_array, array_arithmetic_array, scalarArithmetic_comm, arrayOf_ite_comm]

/-! What an element-by-element operation has for its elements enters the next one. -/

theorem arrayOf_arithmetic (a : Ty) (m : Nat) {b : Ty} (hb : b.isArray = false) :
    (arrayOf a m).arithmetic b = arrayOf (scalarArithmetic a b) m := by
  by_cases ha : a.isScalar = true
  · rw [arrayOf_of_isScalar m ha, array_arithmetic a m hb]
  · rw [arrayOf_of_not_isScalar m ha, scalarArithmetic_of_not_isScalar b ha, unknown_arithmetic]
    rfl

theorem arrayOf_arithmetic_array (a b : Ty) (m n : Nat) :
    (arrayOf a m).arithmetic (array b n) =
      if m = n then arrayOf (scalarArithmetic a b) m else unknown none := by
  by_cases ha : a.isScalar = true
  · rw [arrayOf_of_isScalar m ha, array_arithmetic_array]
  · rw [arrayOf_of_not_isScalar m ha, scalarArithmetic_of_not_isScalar b ha, unknown_arithmetic]
    exact (ite_self _).symm

/-- An operation on a scalar and what an element-by-element operation gives. -/
theorem arithmetic_arrayOf {a : Ty} (ha : a.isArray = false) (b : Ty) (n : Nat) :
    a.arithmetic (arrayOf b n) = arrayOf (scalarArithmetic a b) n := by
  rw [arithmetic_comm, arrayOf_arithmetic b n ha, scalarArithmetic_comm]

theorem array_arithmetic_arrayOf (a b : Ty) (m n : Nat) :
    (array a m).arithmetic (arrayOf b n) =
      if m = n then arrayOf (scalarArithmetic a b) m else unknown none := by
  rw [arithmetic_comm, arrayOf_arithmetic_array, scalarArithmetic_comm, arrayOf_ite_comm]

/-- Arithmetic may be grouped in any way. -/
theorem arithmetic_assoc (a b c : Ty) :
    (a.arithmetic b).arithmetic c = a.arithmetic (b.arithmetic c) := by
  have hscalars := scalarArithmetic_isArray
  rcases isArray_cases a with ha | ⟨a, m, rfl⟩ <;> rcases isArray_cases b with hb | ⟨b, n, rfl⟩ <;>
    rcases isArray_cases c with hc | ⟨c, k, rfl⟩
  · rw [arithmetic_of_scalars ha hb, arithmetic_of_scalars (hscalars a b) hc,
      arithmetic_of_scalars hb hc, arithmetic_of_scalars ha (hscalars b c), scalarArithmetic_assoc]
  · rw [arithmetic_of_scalars ha hb, arithmetic_array c k (hscalars a b), arithmetic_array c k hb,
      arithmetic_arrayOf ha, scalarArithmetic_assoc]
  · rw [arithmetic_array b n ha, arrayOf_arithmetic _ n hc, array_arithmetic b n hc,
      arithmetic_arrayOf ha, scalarArithmetic_assoc]
  · rw [arithmetic_array b n ha, arrayOf_arithmetic_array, array_arithmetic_array]
    by_cases hnk : n = k
    · rw [if_pos hnk, if_pos hnk, arithmetic_arrayOf ha, scalarArithmetic_assoc]
    · rw [if_neg hnk, if_neg hnk, arithmetic_comm, unknown_arithmetic]
  · rw [array_arithmetic a m hb, arrayOf_arithmetic _ m hc, arithmetic_of_scalars hb hc,
      array_arithmetic a m (hscalars b c), scalarArithmetic_assoc]
  · rw [array_arithmetic a m hb, arrayOf_arithmetic_array, arithmetic_array c k hb,
      array_arithmetic_arrayOf, scalarArithmetic_assoc]
  · rw [array_arithmetic_array, array_arithmetic b n hc, array_arithmetic_arrayOf]
    by_cases hmn : m = n
    · rw [if_pos hmn, if_pos hmn, arrayOf_arithmetic _ m hc, scalarArithmetic_assoc]
    · rw [if_neg hmn, if_neg hmn, unknown_arithmetic]
  · rw [array_arithmetic_array, array_arithmetic_array]
    by_cases hmn : m = n
    · subst hmn
      rw [if_pos rfl, arrayOf_arithmetic_array]
      by_cases hmk : m = k
      · rw [if_pos hmk, if_pos hmk, array_arithmetic_arrayOf, if_pos rfl, scalarArithmetic_assoc]
      · rw [if_neg hmk, if_neg hmk, arithmetic_comm, unknown_arithmetic]
    · rw [if_neg hmn, unknown_arithmetic]
      by_cases hnk : n = k
      · rw [if_pos hnk, array_arithmetic_arrayOf, if_neg hmn]
      · rw [if_neg hnk, arithmetic_comm, unknown_arithmetic]

instance : Std.Commutative arithmetic := ⟨arithmetic_comm⟩

instance : Std.Associative arithmetic := ⟨arithmetic_assoc⟩

/-! ## Results of arithmetic -/

theorem withoutCause_withoutCause (a : Ty) : a.withoutCause.withoutCause = a.withoutCause := by
  cases a <;> rfl

theorem arrayOf_withoutCause (base : Ty) (size : Nat) :
    (arrayOf base size).withoutCause = arrayOf base size := by
  unfold arrayOf
  split <;> rfl

/-- No operation has a cause for being unknown. -/
theorem arithmetic_withoutCause (a b : Ty) : (a.arithmetic b).withoutCause = a.arithmetic b := by
  unfold arithmetic
  split
  · split
    · exact arrayOf_withoutCause _ _
    · rfl
  · exact arrayOf_withoutCause _ _
  · exact arrayOf_withoutCause _ _
  · cases a <;> cases b <;> rfl

/-- An unknown operand leaves nothing known, and no cause. -/
theorem arithmetic_of_isUnknown {a b : Ty} (h : a.isUnknown = true ∨ b.isUnknown = true) :
    a.arithmetic b = unknown none := by
  have hunknown : (a.arithmetic b).isUnknown = true :=
    h.elim (arithmetic_isUnknown_of_left b) (arithmetic_isUnknown_of_right a)
  rw [← arithmetic_withoutCause]
  exact withoutCause_eq_of_isUnknown (b := unknown none) hunknown rfl

/-- Causes of unknown operands do not matter. -/
theorem arithmetic_congr {a a' b b' : Ty} (ha : a.withoutCause = a'.withoutCause)
    (hb : b.withoutCause = b'.withoutCause) : a.arithmetic b = a'.arithmetic b' := by
  rcases (withoutCause_eq_iff a a').mp ha with rfl | ⟨hknown, hknown'⟩
  · rcases (withoutCause_eq_iff b b').mp hb with rfl | ⟨hknown, hknown'⟩
    · rfl
    · rw [arithmetic_of_isUnknown (.inr hknown), arithmetic_of_isUnknown (.inr hknown')]
  · rw [arithmetic_of_isUnknown (.inl hknown), arithmetic_of_isUnknown (.inl hknown')]

/-- A known result of an operation on `a` and `b`: the elements unify, and the result is an array
of the size that all operands have which are arrays. -/
structure Elementwise (a b whole : Ty) : Prop where
  element : whole.element = a.element.unify b.element
  isArray_iff : whole.isArray = true ↔ a.isArray = true ∨ b.isArray = true
  size : ∀ operand ∈ [a, b], operand.isArray = true → operand.size? = whole.size?

theorem element_of_not_isArray {a : Ty} (h : a.isArray = false) : a.element = a := by
  cases a <;> first | rfl | cases h

/-- The result for the elements stands in an array if an operand is one. -/
theorem elementwise_of_eq_arrayOf {a b : Ty} (size : Nat)
    (heq : a.arithmetic b = arrayOf (scalarArithmetic a.element b.element) size)
    (h : (a.arithmetic b).isUnknown = false) (harray : a.isArray = true ∨ b.isArray = true)
    (hsize : ∀ operand ∈ [a, b], operand.isArray = true → operand.size? = some size) :
    Elementwise a b (a.arithmetic b) := by
  rw [heq] at h
  obtain ⟨hscalar, hresult⟩ := arrayOf_of_known h
  rw [heq, hresult]
  exact ⟨scalarArithmetic_of_known (isUnknown_of_isScalar hscalar), iff_of_true rfl harray, hsize⟩

theorem arithmetic_of_known {a b : Ty} (h : (a.arithmetic b).isUnknown = false) :
    Elementwise a b (a.arithmetic b) := by
  rcases isArray_cases a with ha | ⟨base, m, rfl⟩ <;>
    rcases isArray_cases b with hb | ⟨base', n, rfl⟩
  · rw [arithmetic_of_scalars ha hb] at h ⊢
    have hresult := scalarArithmetic_isArray a b
    refine ⟨?_, by simp [hresult, ha, hb], by simp [ha, hb]⟩
    rw [element_of_not_isArray hresult, element_of_not_isArray ha, element_of_not_isArray hb]
    exact scalarArithmetic_of_known h
  · refine elementwise_of_eq_arrayOf n ?_ h (.inr rfl) (by simp [ha, size?])
    rw [arithmetic_array base' n ha, element_of_not_isArray ha]
    rfl
  · refine elementwise_of_eq_arrayOf m ?_ h (.inl rfl) (by simp [hb, size?])
    rw [array_arithmetic base m hb, element_of_not_isArray hb]
    rfl
  · by_cases hsize : m = n
    · subst hsize
      exact elementwise_of_eq_arrayOf m (if_pos rfl) h (.inl rfl) (by simp [size?])
    · rw [array_arithmetic_array, if_neg hsize] at h
      cases h

/-- What may be relied on when three types are combined by arithmetic. -/
structure ArithmeticLaws (a b c : Ty) : Prop where
  comm : a.arithmetic b = b.arithmetic a
  assoc : (a.arithmetic b).arithmetic c = a.arithmetic (b.arithmetic c)
  unknown : a.isUnknown = true ∨ b.isUnknown = true → a.arithmetic b = Ty.unknown none
  known : (a.arithmetic b).isUnknown = false → Elementwise a b (a.arithmetic b)

theorem arithmeticLaws (a b c : Ty) : ArithmeticLaws a b c where
  comm := arithmetic_comm a b
  assoc := arithmetic_assoc a b c
  unknown := arithmetic_of_isUnknown
  known := arithmetic_of_known

end FortranTyping.Ty

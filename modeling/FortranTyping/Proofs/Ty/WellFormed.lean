import FortranTyping.Infer.Unit

/-!
# Well-formed and unknown types

Every rule that makes a type keeps arrays flat, and no rule makes something known out of an unknown
part. Types that differ only in the cause of being unknown count as the same.
-/

namespace FortranTyping

namespace Ty

/-- The base of an array is neither an array nor unknown. -/
def WellFormed : Ty → Prop
  | array base _ => base.isScalar = true
  | _ => True

theorem wellFormed_of_isScalar {ty : Ty} (h : ty.isScalar = true) : ty.WellFormed := by
  cases ty <;> simp_all [WellFormed, isScalar]

theorem wellFormed_of_isUnknown {ty : Ty} (h : ty.isUnknown = true) : ty.WellFormed := by
  cases ty <;> simp_all [WellFormed, isUnknown]

theorem isUnknown_iff {ty : Ty} : ty.isUnknown = true ↔ ∃ cause, ty = unknown cause := by
  cases ty <;> simp [isUnknown]

theorem isUnknown_of_isScalar {ty : Ty} (h : ty.isScalar = true) : ty.isUnknown = false := by
  cases ty <;> simp_all [isUnknown, isScalar]

theorem element_of_isScalar {ty : Ty} (h : ty.isScalar = true) : ty.element = ty := by
  cases ty <;> first | rfl | cases h

theorem WellFormed.base_known {base : Ty} {size : Nat} (h : (array base size).WellFormed) :
    base.isUnknown = false :=
  isUnknown_of_isScalar h

theorem arrayOf_of_isScalar {base : Ty} (size : Nat) (h : base.isScalar = true) :
    arrayOf base size = array base size :=
  if_pos h

theorem arrayOf_of_not_isScalar {base : Ty} (size : Nat) (h : ¬base.isScalar = true) :
    arrayOf base size = unknown none :=
  if_neg h

/-- An array without a scalar base is unknown without a cause. -/
theorem arrayOf_ne_cause (base : Ty) (size : Nat) (cause : String) :
    arrayOf base size ≠ unknown (some cause) := by
  by_cases h : base.isScalar = true
  · simp [arrayOf_of_isScalar size h]
  · simp [arrayOf_of_not_isScalar size h]

theorem arrayOf_wellFormed (base : Ty) (size : Nat) : (arrayOf base size).WellFormed := by
  by_cases h : base.isScalar = true
  · rw [arrayOf_of_isScalar size h]
    exact h
  · rw [arrayOf_of_not_isScalar size h]
    trivial

theorem arrayOf_of_known {base : Ty} {size : Nat} (h : (arrayOf base size).isUnknown = false) :
    base.isScalar = true ∧ arrayOf base size = array base size := by
  by_cases hscalar : base.isScalar = true
  · exact ⟨hscalar, arrayOf_of_isScalar size hscalar⟩
  · rw [arrayOf_of_not_isScalar size hscalar] at h
    cases h

theorem WellFormed.element {ty : Ty} (h : ty.WellFormed) : ty.element.WellFormed := by
  cases ty with
  | array base size => exact wellFormed_of_isScalar h
  | _ => trivial

theorem scalarArithmetic_wellFormed (a b : Ty) : (scalarArithmetic a b).WellFormed := by
  unfold scalarArithmetic
  split <;> trivial

theorem arithmetic_wellFormed (a b : Ty) : (a.arithmetic b).WellFormed := by
  unfold arithmetic
  split
  · split
    · exact arrayOf_wellFormed _ _
    · trivial
  · exact arrayOf_wellFormed _ _
  · exact arrayOf_wellFormed _ _
  · exact scalarArithmetic_wellFormed _ _

/-! ## Unknown parts -/

theorem unify_isUnknown_of_left {a : Ty} (b : Ty) (h : a.isUnknown = true) :
    (a.unify b).isUnknown = true := by
  unfold unify
  split
  · exact h
  · cases a <;> simp_all [isUnknown]

theorem unify_isUnknown_of_right (a : Ty) {b : Ty} (h : b.isUnknown = true) :
    (a.unify b).isUnknown = true := by
  unfold unify
  split
  · simp_all
  · cases b <;> simp_all [isUnknown]

theorem arrayOf_isUnknown {base : Ty} (size : Nat) (h : base.isUnknown = true) :
    (arrayOf base size).isUnknown = true := by
  cases base <;> simp_all [arrayOf, isUnknown, isScalar]

theorem scalarArithmetic_isUnknown_of_left {a : Ty} (b : Ty) (h : a.isUnknown = true) :
    (scalarArithmetic a b).isUnknown = true := by
  cases a <;> simp_all [scalarArithmetic, isUnknown]

theorem scalarArithmetic_isUnknown_of_right (a : Ty) {b : Ty} (h : b.isUnknown = true) :
    (scalarArithmetic a b).isUnknown = true := by
  cases b <;> simp_all [scalarArithmetic, isUnknown]

theorem arithmetic_isUnknown_of_left {a : Ty} (b : Ty) (h : a.isUnknown = true) :
    (a.arithmetic b).isUnknown = true := by
  unfold arithmetic
  split
  · cases h
  · cases h
  · exact arrayOf_isUnknown _ (scalarArithmetic_isUnknown_of_left _ h)
  · exact scalarArithmetic_isUnknown_of_left _ h

theorem arithmetic_isUnknown_of_right (a : Ty) {b : Ty} (h : b.isUnknown = true) :
    (a.arithmetic b).isUnknown = true := by
  unfold arithmetic
  split
  · cases h
  · exact arrayOf_isUnknown _ (scalarArithmetic_isUnknown_of_right _ h)
  · cases h
  · exact scalarArithmetic_isUnknown_of_right _ h

theorem accepts_eq_false_of_right (target : Ty) {source : Ty} (h : source.isUnknown = true) :
    target.accepts source = false := by
  cases source <;> cases target <;> simp_all [accepts, isUnknown]

theorem known_of_accepts {target source : Ty} (h : target.accepts source = true) :
    source.isUnknown = false := by
  cases hunknown : source.isUnknown with
  | true =>
      rw [target.accepts_eq_false_of_right hunknown] at h
      cases h
  | false => rfl

end Ty

theorem UnaryOp.allows_eq_false (op : UnaryOp) {a : Ty} (h : a.isUnknown = true) :
    op.allows a = false := by
  cases a <;> cases op <;> simp_all [allows, Ty.isNumeric, Ty.isUnknown]

namespace BinaryOp

theorem result_wellFormed (op : BinaryOp) {a : Ty} (b : Ty) (h : a.WellFormed) :
    (op.result a b).WellFormed := by
  cases op <;> simp only [result]
  case add | sub | mul | div => exact Ty.arithmetic_wellFormed a b
  case pow =>
      unfold Ty.power
      split
      · exact h
      · trivial
  case concat =>
      unfold Ty.concat
      split <;> trivial
  case relation => trivial
  case and | or | eqv | neqv =>
      unfold Ty.connect
      split <;> trivial

theorem allows_eq_false (op : BinaryOp) {a b : Ty} (h : a.isUnknown = true ∨ b.isUnknown = true) :
    op.allows a b = false := by
  have harithmetic : (a.arithmetic b).isUnknown = true :=
    h.elim (Ty.arithmetic_isUnknown_of_left b) (Ty.arithmetic_isUnknown_of_right a)
  rcases h with h | h
  · cases a <;> cases op <;>
      simp_all [allows, result, isRelation, Ty.comparable, Ty.power, Ty.concat, Ty.connect,
        Ty.isNumeric, Ty.isUnknown]
  · cases b <;> cases op <;>
      simp_all [allows, result, isRelation, Ty.comparable, Ty.power, Ty.concat, Ty.connect,
        Ty.isUnknown]

/-- Only a comparison has a type where there is no rule for its operands. -/
theorem result_isUnknown {op : BinaryOp} {a b : Ty} (hrelation : op.isRelation = false)
    (h : op.allows a b = false) : (op.result a b).isUnknown = true := by
  simpa [allows, hrelation] using h

end BinaryOp

namespace Ty

/-! ## Causes -/

/-- The type, without the message about why it is not known. -/
def withoutCause : Ty → Ty
  | unknown _ => unknown none
  | ty => ty

theorem withoutCause_eq_iff (a b : Ty) :
    a.withoutCause = b.withoutCause ↔ a = b ∨ a.isUnknown = true ∧ b.isUnknown = true := by
  cases a <;> cases b <;> simp [withoutCause, isUnknown]

theorem isUnknown_congr {a b : Ty} (h : a.withoutCause = b.withoutCause) :
    a.isUnknown = b.isUnknown := by
  rcases (withoutCause_eq_iff a b).mp h with rfl | ⟨ha, hb⟩
  · rfl
  · rw [ha, hb]

theorem eq_of_known {a b : Ty} (h : a.withoutCause = b.withoutCause)
    (hknown : a.isUnknown = false) : a = b := by
  rcases (withoutCause_eq_iff a b).mp h with heq | ⟨ha, _⟩
  · exact heq
  · rw [hknown] at ha
    cases ha

theorem withoutCause_eq_of_isUnknown {a b : Ty} (ha : a.isUnknown = true)
    (hb : b.isUnknown = true) : a.withoutCause = b.withoutCause :=
  (withoutCause_eq_iff a b).mpr (.inr ⟨ha, hb⟩)

theorem accepts_congr (target : Ty) {a b : Ty} (h : a.withoutCause = b.withoutCause) :
    target.accepts a = target.accepts b := by
  cases hknown : a.isUnknown with
  | false => rw [eq_of_known h hknown]
  | true =>
      rw [accepts_eq_false_of_right target hknown,
        accepts_eq_false_of_right target (isUnknown_congr h ▸ hknown)]

theorem unify_congr {a a' b b' : Ty} (ha : a.withoutCause = a'.withoutCause)
    (hb : b.withoutCause = b'.withoutCause) :
    (a.unify b).withoutCause = (a'.unify b').withoutCause := by
  rcases (withoutCause_eq_iff a a').mp ha with rfl | ⟨hknown, hknown'⟩
  · rcases (withoutCause_eq_iff b b').mp hb with rfl | ⟨hknown, hknown'⟩
    · rfl
    · exact withoutCause_eq_of_isUnknown (unify_isUnknown_of_right a hknown)
        (unify_isUnknown_of_right a hknown')
  · exact withoutCause_eq_of_isUnknown (unify_isUnknown_of_left b hknown)
      (unify_isUnknown_of_left b' hknown')

theorem arrayOf_congr {a b : Ty} (size : Nat) (h : a.withoutCause = b.withoutCause) :
    (arrayOf a size).withoutCause = (arrayOf b size).withoutCause := by
  cases hknown : a.isUnknown with
  | false => rw [eq_of_known h hknown]
  | true =>
      exact withoutCause_eq_of_isUnknown (arrayOf_isUnknown size hknown)
        (arrayOf_isUnknown size (isUnknown_congr h ▸ hknown))

end Ty

/-! ## Declared types -/

theorem TypeSpec.elementType_isScalar (spec : TypeSpec) (options : Options) :
    (spec.elementType options).isScalar = true := by
  unfold elementType
  split <;> first | rfl | split <;> rfl

namespace DeclaredEntity

variable {options : Options}

/-- A declaration that has a type declares a scalar or an array of scalars. -/
theorem type_cases (declared : DeclaredEntity) {ty : Ty} (h : declared.type options = .ok ty) :
    ty.isScalar = true ∨ ∃ base size, ty = .array base size ∧ base.isScalar = true := by
  have hscalar := declared.declaration.typeSpec.elementType_isScalar options
  simp only [type] at h
  cases hshape : declared.shape? with
  | none =>
      simp only [hshape, Except.ok.injEq] at h
      exact .inl (h ▸ hscalar)
  | some shape =>
      cases hsize : shape.size with
      | error reason => simp [hshape, hsize, Except.map] at h
      | ok size =>
          simp only [hshape, hsize, Except.map, Except.ok.injEq, Ty.arrayOf, hscalar, ite_true] at h
          exact .inr ⟨_, _, h.symm, hscalar⟩

theorem type_wellFormed (declared : DeclaredEntity) {ty : Ty}
    (h : declared.type options = .ok ty) : ty.WellFormed := by
  rcases declared.type_cases h with hscalar | ⟨base, size, rfl, hscalar⟩
  · exact Ty.wellFormed_of_isScalar hscalar
  · exact hscalar

theorem type_known (declared : DeclaredEntity) {ty : Ty} (h : declared.type options = .ok ty) :
    ty.isUnknown = false ∧ ty.element.isUnknown = false := by
  rcases declared.type_cases h with hscalar | ⟨base, size, rfl, hscalar⟩
  · have hknown := Ty.isUnknown_of_isScalar hscalar
    cases ty <;> first | exact ⟨hknown, hknown⟩ | cases hscalar
  · exact ⟨rfl, Ty.isUnknown_of_isScalar hscalar⟩

end DeclaredEntity

end FortranTyping

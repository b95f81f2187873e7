import FortranTyping.Proofs.Ty.Acceptance

/-!
# The least type that accepts two types

Of the types that accept each of two others, `unify` gives the least, and it gives an unknown type
where there is none. Acceptance is not an order, since characters of unknown length take and fit
everything; so the bound is proved from the cases in which two types unify, scalars first and arrays
through their bases.
-/

namespace FortranTyping.Ty

/-! ## Shapes -/

/-- A well-formed type is a scalar, an array of scalars, or unknown. -/
theorem WellFormed.cases {a : Ty} (h : a.WellFormed) :
    a.isScalar = true ∨ (∃ base size, a = array base size ∧ base.isScalar = true) ∨
      a.isUnknown = true := by
  cases a with
  | array base size => exact .inr (.inl ⟨base, size, rfl, h⟩)
  | unknown cause => exact .inr (.inr rfl)
  | _ => exact .inl rfl

theorem isScalar_of_accepts {target a : Ty} (ha : a.isScalar = true)
    (h : target.accepts a = true) : target.isScalar = true := by
  cases a <;> cases target <;> simp_all [accepts, isScalar]

/-- Only arrays of the same size take an array. -/
theorem accepts_array_iff {target base : Ty} {size : Nat} :
    target.accepts (array base size) = true ↔
      ∃ base', target = array base' size ∧ base'.accepts base = true := by
  cases target with
  | array base' n =>
      simp only [accepts, Bool.and_eq_true, beq_iff_eq, array.injEq]
      constructor
      · rintro ⟨rfl, h⟩
        exact ⟨base', ⟨rfl, rfl⟩, h⟩
      · rintro ⟨_, ⟨rfl, rfl⟩, h⟩
        exact ⟨rfl, h⟩
  | _ => simp [accepts]

/-- Scalars unify into a scalar or not at all. -/
theorem isUnknown_unify_of_isScalar {a b : Ty} (ha : a.isScalar = true)
    (h : (a.unify b).isScalar = false) : (a.unify b).isUnknown = true := by
  by_cases heq : a = b
  · subst heq
    rw [unify_self, ha] at h
    cases h
  · cases a <;> cases b <;> simp_all [unify, isScalar, isUnknown]

theorem unify_array (base base' : Ty) (m n : Nat) (hbase : base.isScalar = true) :
    (array base m).unify (array base' n) =
      if m = n then arrayOf (base.unify base') m else unknown none := by
  by_cases heq : array base m = array base' n
  · cases heq
    simp [unify_self, arrayOf, hbase]
  · simp only [unify, if_neg heq]

/-! ## Bounds -/

/-- A variable of type `target` takes values of both types. -/
def Bounds (target a b : Ty) : Prop :=
  target.accepts a = true ∧ target.accepts b = true

/-- `whole` is the least of the types that accept both `a` and `b`, or unknown if there are none. -/
structure IsLeastBound (a b whole : Ty) : Prop where
  wellFormed : whole.WellFormed
  unknown_iff : whole.isUnknown = true ↔ ¬∃ target, Bounds target a b
  bounds : whole.isUnknown = false → Bounds whole a b
  least : ∀ target, Bounds target a b → target.accepts whole = true

namespace IsLeastBound

variable {a b whole : Ty}

theorem of_bounds (hwf : whole.WellFormed) (hbounds : Bounds whole a b)
    (hleast : ∀ target, Bounds target a b → target.accepts whole = true) :
    IsLeastBound a b whole := by
  have hknown : whole.isUnknown = false := known_of_accepts (hleast whole hbounds)
  refine ⟨hwf, ?_, fun _ => hbounds, hleast⟩
  constructor
  · intro hunknown
    rw [hknown] at hunknown
    cases hunknown
  · intro hnone
    exact absurd ⟨whole, hbounds⟩ hnone

theorem of_none (hunknown : whole.isUnknown = true) (hnone : ∀ target, ¬Bounds target a b) :
    IsLeastBound a b whole := by
  refine ⟨wellFormed_of_isUnknown hunknown, ?_, ?_, ?_⟩
  · simp [hunknown, hnone]
  · intro hknown
    rw [hunknown] at hknown
    cases hknown
  · intro target hbounds
    exact absurd hbounds (hnone target)

end IsLeastBound

/-! ## Scalars -/

/-- A scalar that two types unify into takes both, for its length is known only if theirs are. -/
theorem bounds_unify {a b : Ty} (hscalar : (a.unify b).isScalar = true) :
    Bounds (a.unify b) a b := by
  have hsized : ((a.unify b).isBounded && (a.unify b).isUnsized) = false := by
    cases a.unify b with
    | character length => cases length <;> rfl
    | _ => rfl
  exact accepts_of_accepts_unify hscalar hsized (accepts_self hscalar)

theorem unify_scalar_isLeastBound {a b : Ty} (ha : a.isScalar = true) :
    IsLeastBound a b (a.unify b) := by
  cases hscalar : (a.unify b).isScalar with
  | true =>
      refine .of_bounds (wellFormed_of_isScalar hscalar) (bounds_unify hscalar) ?_
      intro target hbounds
      exact accepts_unify hscalar hbounds.1 hbounds.2
  | false =>
      refine .of_none (isUnknown_unify_of_isScalar ha hscalar) ?_
      intro target hbounds
      have htarget := isScalar_of_accepts ha hbounds.1
      have hunified := isScalar_unify_of_accepts htarget hbounds.1 hbounds.2
      exact Bool.false_ne_true (hscalar.symm.trans hunified)

/-! ## Arrays -/

theorem bounds_array_iff {target base base' : Ty} {size : Nat} :
    Bounds target (array base size) (array base' size) ↔
      ∃ element, target = array element size ∧ Bounds element base base' := by
  unfold Bounds
  rw [accepts_array_iff, accepts_array_iff]
  constructor
  · rintro ⟨⟨element, rfl, h⟩, ⟨element', heq, h'⟩⟩
    cases heq
    exact ⟨element, rfl, h, h'⟩
  · rintro ⟨element, rfl, h, h'⟩
    exact ⟨⟨element, rfl, h⟩, ⟨element, rfl, h'⟩⟩

theorem unify_array_isLeastBound {base base' : Ty} (hbase : base.isScalar = true) (m n : Nat) :
    IsLeastBound (array base m) (array base' n) ((array base m).unify (array base' n)) := by
  rw [unify_array base base' m n hbase]
  by_cases hsize : m = n
  · subst hsize
    rw [if_pos rfl]
    have hleast : IsLeastBound base base' (base.unify base') := unify_scalar_isLeastBound hbase
    cases hscalar : (base.unify base').isScalar with
    | true =>
        have hknown := isUnknown_of_isScalar hscalar
        rw [arrayOf_of_isScalar m hscalar]
        refine .of_bounds hscalar ?_ ?_
        · exact bounds_array_iff.mpr ⟨_, rfl, hleast.bounds hknown⟩
        · intro target hbounds
          obtain ⟨element, rfl, helement⟩ := bounds_array_iff.mp hbounds
          exact accepts_array_iff.mpr ⟨element, rfl, hleast.least element helement⟩
    | false =>
        have hunknown := isUnknown_unify_of_isScalar hbase hscalar
        refine .of_none (arrayOf_isUnknown m hunknown) ?_
        intro target hbounds
        obtain ⟨element, -, helement⟩ := bounds_array_iff.mp hbounds
        exact hleast.unknown_iff.mp hunknown ⟨element, helement⟩
  · rw [if_neg hsize]
    refine .of_none rfl ?_
    rintro target ⟨h, h'⟩
    obtain ⟨element, rfl, -⟩ := accepts_array_iff.mp h
    obtain ⟨element', heq, -⟩ := accepts_array_iff.mp h'
    cases heq
    exact hsize rfl

/-! ## All well-formed types -/

/-- Nothing accepts an unknown type. -/
theorem isLeastBound_of_isUnknown {a b : Ty} (h : a.isUnknown = true ∨ b.isUnknown = true) :
    IsLeastBound a b (a.unify b) := by
  have hunknown : (a.unify b).isUnknown = true :=
    h.elim (unify_isUnknown_of_left b) (unify_isUnknown_of_right a)
  refine .of_none hunknown ?_
  rintro target ⟨ha, hb⟩
  rcases h with h | h
  · rw [accepts_eq_false_of_right target h] at ha
    cases ha
  · rw [accepts_eq_false_of_right target h] at hb
    cases hb

/-- Nothing accepts both an array and something else. -/
theorem unify_arrayWith_isLeastBound {base b : Ty} (hbase : base.isScalar = true) (m : Nat)
    (hb : b.WellFormed) : IsLeastBound (array base m) b ((array base m).unify b) := by
  rcases hb.cases with hscalar | ⟨base', n, rfl, -⟩ | hunknown
  · have hmixed : (array base m).unify b = unknown none := by
      cases b <;> simp_all [unify, isScalar]
    rw [hmixed]
    refine .of_none rfl ?_
    rintro target ⟨h, h'⟩
    obtain ⟨element, rfl, -⟩ := accepts_array_iff.mp h
    cases isScalar_of_accepts hscalar h'
  · exact unify_array_isLeastBound hbase m n
  · exact isLeastBound_of_isUnknown (.inr hunknown)

/-- Two types unify into the least type that accepts both, unless there is none. -/
theorem unify_isLeastBound {a b : Ty} (ha : a.WellFormed) (hb : b.WellFormed) :
    IsLeastBound a b (a.unify b) := by
  rcases ha.cases with hscalar | ⟨base, m, rfl, hbase⟩ | hunknown
  · exact unify_scalar_isLeastBound hscalar
  · exact unify_arrayWith_isLeastBound hbase m hb
  · exact isLeastBound_of_isUnknown (.inl hunknown)

/-- Arrays of characters, of which only one has a known length. -/
theorem unsizedArrays_isLeastBound :
    (array (character (some 2)) 3).WellFormed ∧ (array (character none) 3).WellFormed ∧
      IsLeastBound (array (character (some 2)) 3) (array (character none) 3)
        (array (character none) 3) :=
  ⟨rfl, rfl, unify_isLeastBound (a := array (character (some 2)) 3) rfl rfl⟩

end FortranTyping.Ty

import FortranTyping.Proofs.Ty.Unification

/-!
# Acceptance as an order

Where all character lengths are known, acceptance is a partial order on known types, and two types
unify into the least one above both. A character of unknown length takes and fits all others, alone
or in an array, and this is the only way in which acceptance fails to carry over.
-/

namespace FortranTyping.Ty

/-- A character or an array of characters, of a length that is not known. -/
def lacksLength (ty : Ty) : Bool :=
  ty.element.isUnsized

theorem lacksLength_iff {ty : Ty} :
    ty.lacksLength = true ↔ ty = character none ∨ ∃ size, ty = array (character none) size := by
  have hunsized : ∀ base : Ty, base.isUnsized = true ↔ base = character none := by
    intro base
    cases base with
    | character length => cases length <;> simp [isUnsized]
    | _ => simp [isUnsized]
  unfold lacksLength
  rw [hunsized]
  cases ty <;> simp [element]

theorem lacksLength_of_isScalar {ty : Ty} (h : ty.isScalar = true) :
    ty.lacksLength = ty.isUnsized := by
  cases ty with
  | array base size => cases h
  | _ => rfl

/-! ## Scalars -/

section

variable {a b c : Ty}

theorem accepts_trans_of_isScalar (hb : b.isScalar = true) (hsized : b.isUnsized = false)
    (hab : a.accepts b = true) (hbc : b.accepts c = true) : a.accepts c = true := by
  rcases accepts_cases hb hbc with rfl | ⟨rfl, rfl⟩ | ⟨length, shorter, rfl, rfl⟩
  · exact hab
  · obtain rfl : a = real := by cases a <;> simp_all [accepts]
    rfl
  · cases length with
    | none => cases hsized
    | some n =>
        have hshorter : ∀ k ∈ shorter, k ≤ n := by
          simpa [accepts_character_iff] using hbc
        rcases accepts_character_iff.mp hab with rfl | ⟨capacity, rfl, hfits⟩
        · exact accepts_character_iff.mpr (.inl rfl)
        · have hn : n ≤ capacity := hfits n rfl
          exact accepts_character_iff.mpr
            (.inr ⟨capacity, rfl, fun k hk => Nat.le_trans (hshorter k hk) hn⟩)

theorem accepts_antisymm_of_isScalar (ha : a.isScalar = true) (hsized : a.isUnsized = false)
    (hsized' : b.isUnsized = false) (hab : a.accepts b = true) (hba : b.accepts a = true) :
    a = b := by
  rcases accepts_cases ha hab with rfl | ⟨rfl, rfl⟩ | ⟨m, n, rfl, rfl⟩
  · rfl
  · cases hba
  · cases m with
    | none => cases hsized
    | some m =>
        cases n with
        | none => cases hsized'
        | some n =>
            have hle : n ≤ m := of_decide_eq_true hab
            have hge : m ≤ n := of_decide_eq_true hba
            rw [Nat.le_antisymm hge hle]

theorem isUnsized_unify (hscalar : (a.unify b).isScalar = true) (ha : a.isUnsized = false)
    (hb : b.isUnsized = false) : (a.unify b).isUnsized = false := by
  rcases unify_cases hscalar with rfl | ⟨-, -, hreal⟩ | ⟨m, n, rfl, rfl, hlonger⟩
  · rwa [unify_self]
  · rw [hreal]
    rfl
  · cases m with
    | none => cases ha
    | some m =>
        cases n with
        | none => cases hb
        | some n =>
            rw [hlonger]
            rfl

end

/-! ## All well-formed types -/

section

variable {a b c : Ty}

theorem accepts_self_iff (ha : a.WellFormed) : a.accepts a = true ↔ a.isUnknown = false := by
  refine ⟨known_of_accepts, fun hknown => ?_⟩
  rcases ha.cases with hscalar | ⟨base, size, rfl, hbase⟩ | hunknown
  · exact accepts_self hscalar
  · exact accepts_array_iff.mpr ⟨base, rfl, accepts_self hbase⟩
  · exact absurd (hunknown.symm.trans hknown) Bool.noConfusion

theorem accepts_eq_false_of_left (source : Ty) (h : a.isUnknown = true) :
    a.accepts source = false := by
  obtain ⟨cause, rfl⟩ := isUnknown_iff.mp h
  rfl

/-- Acceptance carries over through a type without an unknown length. -/
theorem accepts_trans (hb : b.WellFormed) (hsized : b.lacksLength = false)
    (hab : a.accepts b = true) (hbc : b.accepts c = true) : a.accepts c = true := by
  rcases hb.cases with hscalar | ⟨base, size, rfl, hbase⟩ | hunknown
  · rw [lacksLength_of_isScalar hscalar] at hsized
    exact accepts_trans_of_isScalar hscalar hsized hab hbc
  · obtain ⟨target, rfl, htarget⟩ := accepts_array_iff.mp hab
    cases c with
    | array source n =>
        obtain ⟨rfl, hsource⟩ : size = n ∧ base.accepts source = true := by
          simpa [accepts] using hbc
        exact accepts_array_iff.mpr
          ⟨target, rfl, accepts_trans_of_isScalar hbase hsized htarget hsource⟩
    | _ => cases hbc
  · rw [a.accepts_eq_false_of_right hunknown] at hab
    cases hab

/-- Through a type with an unknown length even a character that is too long is accepted. -/
theorem not_accepts_trans_of_lacksLength (h : b.lacksLength = true) :
    ∃ target source : Ty, target.accepts b = true ∧ b.accepts source = true ∧
      target.accepts source = false := by
  rcases lacksLength_iff.mp h with rfl | ⟨size, rfl⟩
  · exact ⟨character (some 0), character (some 1), rfl, rfl, rfl⟩
  · refine ⟨array (character (some 0)) size, array (character (some 1)) size, ?_, ?_, ?_⟩ <;>
      simp [accepts]

theorem accepts_antisymm (ha : a.WellFormed) (hsized : a.lacksLength = false)
    (hsized' : b.lacksLength = false) (hab : a.accepts b = true) (hba : b.accepts a = true) :
    a = b := by
  rcases ha.cases with hscalar | ⟨base, size, rfl, hbase⟩ | hunknown
  · have hscalar' := isScalar_of_accepts hscalar hba
    rw [lacksLength_of_isScalar hscalar] at hsized
    rw [lacksLength_of_isScalar hscalar'] at hsized'
    exact accepts_antisymm_of_isScalar hscalar hsized hsized' hab hba
  · obtain ⟨base', rfl, hbase'⟩ := accepts_array_iff.mp hba
    have hbases : base.accepts base' = true := by simpa [accepts] using hab
    have heq : base = base' :=
      accepts_antisymm_of_isScalar hbase hsized hsized' hbases hbase'
    rw [heq]
  · rw [accepts_eq_false_of_left b hunknown] at hab
    cases hab

/-- Where all lengths are known, so is that of the unified type. -/
theorem lacksLength_unify (ha : a.WellFormed) (hb : b.WellFormed) (hsized : a.lacksLength = false)
    (hsized' : b.lacksLength = false) : (a.unify b).lacksLength = false := by
  rcases (hb.unify a).cases with hscalar | ⟨whole, size, hwhole, -⟩ | hunknown
  · obtain ⟨hscalarA, hscalarB⟩ := isScalar_of_unify hscalar
    rw [lacksLength_of_isScalar hscalarA] at hsized
    rw [lacksLength_of_isScalar hscalarB] at hsized'
    rw [lacksLength_of_isScalar hscalar]
    exact isUnsized_unify hscalar hsized hsized'
  · have harrays : a.isArray = true ∧ b.isArray = true :=
      isArray_of_unify (by rw [hwhole]; rfl)
    obtain ⟨base, m, rfl, hbase⟩ := ha.exists_base harrays.1
    obtain ⟨base', n, rfl, -⟩ := hb.exists_base harrays.2
    rw [unify_array base base' m n hbase]
    by_cases hsize : m = n
    · rw [if_pos hsize]
      by_cases hscalar : (base.unify base').isScalar = true
      · rw [arrayOf_of_isScalar m hscalar]
        exact isUnsized_unify hscalar hsized hsized'
      · rw [arrayOf_of_not_isScalar m hscalar]
        rfl
    · rw [if_neg hsize]
      rfl
  · obtain ⟨cause, hcause⟩ := isUnknown_iff.mp hunknown
    rw [hcause]
    rfl

/-- Where all lengths are known, a type takes what two others unify into if and only if it takes
both. -/
theorem accepts_unify_iff (ha : a.WellFormed) (hb : b.WellFormed) (hsized : a.lacksLength = false)
    (hsized' : b.lacksLength = false) :
    c.accepts (a.unify b) = true ↔ c.accepts a = true ∧ c.accepts b = true := by
  have hbound : IsLeastBound a b (a.unify b) := by
    rcases ha.cases with hscalar | ⟨base, m, rfl, hbase⟩ | hunknown
    · exact unify_scalar_isLeastBound hscalar
    · exact unify_arrayWith_isLeastBound hbase m hb
    · exact isLeastBound_of_isUnknown (.inl hunknown)
  constructor
  · intro hwhole
    have hunified := lacksLength_unify ha hb hsized hsized'
    obtain ⟨hleft, hright⟩ := hbound.bounds (known_of_accepts hwhole)
    exact ⟨accepts_trans hbound.wellFormed hunified hwhole hleft,
      accepts_trans hbound.wellFormed hunified hwhole hright⟩
  · exact hbound.least c

end

/-- What may be relied on when values of three types are stored into one another. -/
structure AcceptanceLaws (a b c : Ty) : Prop where
  self_iff : a.accepts a = true ↔ a.isUnknown = false
  unknown : a.isUnknown = true → ∀ other : Ty, a.accepts other = false ∧ other.accepts a = false
  /-- Acceptance carries over through `b` if and only if `b` has no unknown length. -/
  trans_iff : (∀ target source : Ty, target.accepts b = true → b.accepts source = true →
    target.accepts source = true) ↔ b.lacksLength = false
  antisymm : a.lacksLength = false → b.lacksLength = false →
    a.accepts b = true → b.accepts a = true → a = b
  unify_iff : a.lacksLength = false → b.lacksLength = false →
    (c.accepts (a.unify b) = true ↔ c.accepts a = true ∧ c.accepts b = true)

/-- Acceptance is reflexive on known types, transitive but for unknown lengths, and antisymmetric
without them; and a variable takes two types together if it takes each. -/
theorem acceptanceLaws {a b c : Ty} (ha : a.WellFormed) (hb : b.WellFormed) :
    AcceptanceLaws a b c where
  self_iff := accepts_self_iff ha
  unknown hunknown other :=
    ⟨accepts_eq_false_of_left other hunknown, accepts_eq_false_of_right other hunknown⟩
  trans_iff := by
    constructor
    · intro htrans
      by_contra hunsized
      rw [Bool.not_eq_false] at hunsized
      obtain ⟨target, source, htarget, hsource, hrefused⟩ :=
        not_accepts_trans_of_lacksLength hunsized
      exact Bool.false_ne_true (hrefused.symm.trans (htrans target source htarget hsource))
    · intro hsized target source
      exact accepts_trans hb hsized
  antisymm := accepts_antisymm ha
  unify_iff := accepts_unify_iff ha hb

/-- Arrays of short and of long characters, and one of unknown length, through which the long ones
get into the short ones. -/
theorem characterArrays_acceptanceLaws :
    let short := array (character (some 2)) 3
    let long := array (character (some 5)) 3
    let unsized := array (character none) 3
    short.WellFormed ∧ long.WellFormed ∧ unsized.WellFormed ∧ AcceptanceLaws short long long ∧
      AcceptanceLaws long unsized short ∧ short.accepts (short.unify long) = false ∧
        ¬∀ target source : Ty, target.accepts unsized = true → unsized.accepts source = true →
          target.accepts source = true := by
  intro short long unsized
  have hshort : short.WellFormed := rfl
  have hlong : long.WellFormed := rfl
  have hunsized : unsized.WellFormed := rfl
  have hlaws : AcceptanceLaws long unsized short := acceptanceLaws hlong hunsized
  exact ⟨hshort, hlong, hunsized, acceptanceLaws hshort hlong, hlaws, by decide,
    hlaws.trans_iff.not.mpr (by decide)⟩

end FortranTyping.Ty

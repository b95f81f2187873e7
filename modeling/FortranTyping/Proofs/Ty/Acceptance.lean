import FortranTyping.Proofs.Ty.WellFormed

/-!
# Accepting a unified type

A variable that takes each of two scalar types takes what they unify into. The converse fails for
characters: once a length is not known, a variable of any length takes the unified type, even if one
of its parts is known to be too long.
-/

namespace FortranTyping.Ty

/-- A character type of known length, which refuses longer values. -/
def isBounded : Ty → Bool
  | character (some _) => true
  | _ => false

/-- A character type without a known length. -/
def isUnsized : Ty → Bool
  | character none => true
  | _ => false

theorem unify_self (a : Ty) : a.unify a = a := by
  unfold unify
  exact if_pos rfl

theorem accepts_self {a : Ty} (h : a.isScalar = true) : a.accepts a = true := by
  cases a with
  | character length => cases length <;> simp [accepts]
  | _ => first | rfl | cases h

theorem arrayOf_isScalar (base : Ty) (size : Nat) : (arrayOf base size).isScalar = false := by
  unfold arrayOf
  split <;> rfl

/-- The three ways in which types unify into a scalar. -/
theorem unify_cases {a b : Ty} (h : (a.unify b).isScalar = true) :
    a = b ∨ (a.isNumeric = true ∧ b.isNumeric = true ∧ a.unify b = .real) ∨
      ∃ m n, a = .character m ∧ b = .character n ∧ a.unify b = .character (longer m n) := by
  by_cases heq : a = b
  · exact .inl heq
  · cases a with
    | array base m =>
        cases b with
        | array base' n =>
            simp only [unify, heq, ite_false] at h
            split at h
            · rw [arrayOf_isScalar] at h
              cases h
            · cases h
        | _ => simp [unify, isScalar] at h
    | _ => cases b <;> simp_all [unify, isScalar, isNumeric]

theorem isScalar_of_unify {a b : Ty} (h : (a.unify b).isScalar = true) :
    a.isScalar = true ∧ b.isScalar = true := by
  rcases unify_cases h with rfl | ⟨ha, hb, -⟩ | ⟨m, n, rfl, rfl, -⟩
  · rw [unify_self] at h
    exact ⟨h, h⟩
  · cases a <;> cases b <;> simp_all [isNumeric, isScalar]
  · exact ⟨rfl, rfl⟩

theorem accepts_of_isUnsized {base a : Ty} (h : (base.isBounded && a.isUnsized) = true) :
    base.accepts a = true := by
  unfold isBounded isUnsized at h
  split at h
  · split at h
    · rfl
    · cases h
  · cases h

theorem accepts_character_iff {base : Ty} {length : Option Nat} :
    base.accepts (.character length) = true ↔ base = .character none ∨
      ∃ capacity, base = .character (some capacity) ∧ ∀ n ∈ length, n ≤ capacity := by
  cases base with
  | character capacity => cases capacity <;> cases length <;> simp [accepts]
  | _ => simp [accepts]

theorem le_of_longer {m n : Option Nat} {length : Nat} (h : longer m n = some length) :
    (∀ k ∈ m, k ≤ length) ∧ ∀ k ∈ n, k ≤ length := by
  cases m <;> cases n <;> simp only [longer, reduceCtorEq, Option.some.injEq] at h
  subst h
  constructor <;> rintro k ⟨⟩ <;> omega

theorem accepts_unify {base a b : Ty} (hscalar : (a.unify b).isScalar = true)
    (ha : base.accepts a = true) (hb : base.accepts b = true) :
    base.accepts (a.unify b) = true := by
  rcases unify_cases hscalar with rfl | ⟨hnumeric, hnumeric', hunify⟩ | ⟨m, n, rfl, rfl, hunify⟩
  · rwa [unify_self]
  · cases a <;> cases b <;> cases base <;> simp_all [isNumeric, accepts, unify]
  · rw [hunify, accepts_character_iff]
    rcases accepts_character_iff.mp ha with rfl | ⟨capacity, rfl, hm⟩
    · exact .inl rfl
    · have hn : ∀ k ∈ n, k ≤ capacity := by
        simpa [accepts_character_iff] using hb
      refine .inr ⟨capacity, rfl, ?_⟩
      intro k hk
      cases m <;> cases n <;> cases hk
      exact Nat.max_le.mpr ⟨hm _ rfl, hn _ rfl⟩

/-- The ways in which a scalar takes a value. -/
theorem accepts_cases {base a : Ty} (hbase : base.isScalar = true) (h : base.accepts a = true) :
    a = base ∨ base = .real ∧ a = .integer ∨
      ∃ capacity length, base = .character capacity ∧ a = .character length := by
  cases base <;> cases a <;> simp_all [accepts, isScalar]

theorem isScalar_unify_of_accepts {base a b : Ty} (hbase : base.isScalar = true)
    (ha : base.accepts a = true) (hb : base.accepts b = true) :
    (a.unify b).isScalar = true := by
  rcases accepts_cases hbase ha with rfl | ⟨rfl, rfl⟩ | ⟨capacity, m, rfl, rfl⟩
  · rcases accepts_cases hbase hb with rfl | ⟨rfl, rfl⟩ | ⟨m, n, rfl, rfl⟩
    · rwa [unify_self]
    · rfl
    · unfold unify
      split <;> rfl
  · rcases accepts_cases hbase hb with rfl | ⟨-, rfl⟩ | ⟨m, n, hreal, -⟩
    · rfl
    · rfl
    · cases hreal
  · rcases accepts_cases hbase hb with rfl | ⟨hreal, -⟩ | ⟨_, n, -, rfl⟩
    · unfold unify
      split <;> rfl
    · cases hreal
    · unfold unify
      split <;> rfl

theorem isUnsized_of_unify {a b : Ty} (hscalar : (a.unify b).isScalar = true)
    (h : (a.unify b).isUnsized = false) : a.isUnsized = false := by
  rcases unify_cases hscalar with rfl | ⟨hnumeric, -, -⟩ | ⟨m, n, rfl, rfl, hunify⟩
  · rwa [unify_self] at h
  · cases a <;> first | rfl | cases hnumeric
  · rw [hunify] at h
    cases m with
    | none => cases h
    | some m => rfl

theorem accepts_of_accepts_unify {base a b : Ty} (hscalar : (a.unify b).isScalar = true)
    (hsized : (base.isBounded && (a.unify b).isUnsized) = false)
    (h : base.accepts (a.unify b) = true) : base.accepts a = true ∧ base.accepts b = true := by
  rcases unify_cases hscalar with rfl | ⟨hnumeric, hnumeric', hunify⟩ | ⟨m, n, rfl, rfl, hunify⟩
  · rw [unify_self] at h
    exact ⟨h, h⟩
  · rw [hunify] at h
    cases a <;> cases b <;> cases base <;> simp_all [isNumeric, accepts, unify]
  · rw [hunify] at h hsized
    rw [accepts_character_iff, accepts_character_iff]
    rcases accepts_character_iff.mp h with rfl | ⟨capacity, rfl, hlonger⟩
    · exact ⟨.inl rfl, .inl rfl⟩
    · cases hunsized : longer m n with
      | none => simp [hunsized, isBounded, isUnsized] at hsized
      | some length =>
          obtain ⟨hm, hn⟩ := le_of_longer hunsized
          have hlength := hlonger length hunsized
          exact ⟨.inr ⟨capacity, rfl, fun k hk => Nat.le_trans (hm k hk) hlength⟩,
            .inr ⟨capacity, rfl, fun k hk => Nat.le_trans (hn k hk) hlength⟩⟩

/-! ## Folds -/

variable {base a : Ty} {tys : List Ty}

theorem isScalar_of_foldl_unify (h : (tys.foldl unify a).isScalar = true) :
    a.isScalar = true ∧ ∀ ty ∈ tys, ty.isScalar = true := by
  induction tys generalizing a with
  | nil => simpa using h
  | cons b tys ih =>
      obtain ⟨hunified, htys⟩ := ih h
      obtain ⟨ha, hb⟩ := isScalar_of_unify hunified
      exact ⟨ha, List.forall_mem_cons.mpr ⟨hb, htys⟩⟩

/-- What takes all types takes the one that they unify into. -/
theorem accepts_foldl_unify (hscalar : (tys.foldl unify a).isScalar = true)
    (ha : base.accepts a = true) (htys : ∀ ty ∈ tys, base.accepts ty = true) :
    base.accepts (tys.foldl unify a) = true := by
  induction tys generalizing a with
  | nil => exact ha
  | cons b tys ih =>
      obtain ⟨hb, htys⟩ := List.forall_mem_cons.mp htys
      have hunified : (a.unify b).isScalar = true :=
        (isScalar_of_foldl_unify (a := a.unify b) hscalar).1
      exact ih hscalar (accepts_unify hunified ha hb) htys

/-- Types that a scalar variable takes unify into a scalar. -/
theorem isScalar_foldl_unify_of_accepts (hbase : base.isScalar = true)
    (ha : base.accepts a = true) (htys : ∀ ty ∈ tys, base.accepts ty = true) :
    (tys.foldl unify a).isScalar = true := by
  induction tys generalizing a with
  | nil =>
      have hself := isScalar_unify_of_accepts hbase ha ha
      rwa [unify_self] at hself
  | cons b tys ih =>
      obtain ⟨hb, htys⟩ := List.forall_mem_cons.mp htys
      have hunified := isScalar_unify_of_accepts hbase ha hb
      exact ih (accepts_unify hunified ha hb) htys

theorem isUnsized_of_foldl_unify (hscalar : (tys.foldl unify a).isScalar = true)
    (h : (tys.foldl unify a).isUnsized = false) : a.isUnsized = false := by
  induction tys generalizing a with
  | nil => exact h
  | cons b tys ih =>
      have hunified : (a.unify b).isScalar = true :=
        (isScalar_of_foldl_unify (a := a.unify b) hscalar).1
      exact isUnsized_of_unify hunified (ih hscalar h)

/-- Unless a length is lost on the way, what takes the unified type takes all of its parts. -/
theorem accepts_of_accepts_foldl_unify (hscalar : (tys.foldl unify a).isScalar = true)
    (hsized : (base.isBounded && (tys.foldl unify a).isUnsized) = false)
    (h : base.accepts (tys.foldl unify a) = true) :
    base.accepts a = true ∧ ∀ ty ∈ tys, base.accepts ty = true := by
  induction tys generalizing a with
  | nil => simpa using h
  | cons b tys ih =>
      have hunified : (a.unify b).isScalar = true :=
        (isScalar_of_foldl_unify (a := a.unify b) hscalar).1
      obtain ⟨hsoFar, htys⟩ := ih hscalar hsized h
      have hsoFarSized : (base.isBounded && (a.unify b).isUnsized) = false := by
        cases hbounded : base.isBounded with
        | false => rfl
        | true =>
            rw [hbounded, Bool.true_and] at hsized
            have := isUnsized_of_foldl_unify (a := a.unify b) hscalar hsized
            rwa [Bool.true_and]
      obtain ⟨ha, hb⟩ := accepts_of_accepts_unify hunified hsoFarSized hsoFar
      exact ⟨ha, List.forall_mem_cons.mpr ⟨hb, htys⟩⟩

/-- What is taken as a whole is taken part by part, unless its length is not known. -/
theorem accepts_foldl_unify_iff (hscalar : (tys.foldl unify a).isScalar = true) :
    base.accepts (tys.foldl unify a) = true ↔
      (base.isBounded && (tys.foldl unify a).isUnsized) = true ∨
        ∀ ty ∈ a :: tys, base.accepts ty = true := by
  rw [List.forall_mem_cons]
  cases hsized : base.isBounded && (tys.foldl unify a).isUnsized with
  | false =>
      simp only [Bool.false_eq_true, false_or]
      exact ⟨accepts_of_accepts_foldl_unify hscalar hsized,
        fun h => accepts_foldl_unify hscalar h.1 h.2⟩
  | true =>
      simp only [true_or, iff_true]
      exact accepts_of_isUnsized hsized

end FortranTyping.Ty

import FortranTyping.Count
import Mathlib.Data.List.Perm.Basic
import Mathlib.Data.Set.Card

/-!
# Exact counts

A count that is known is the exact sum, product or number of trips, and a count is lost only where
the exact one is out of range. The number of trips of a loop is compared with the loop itself: how
many values its variable takes before it passes the end.
-/

namespace FortranTyping.Count

open scoped List

/-! ## Sums and products -/

theorem known?_eq_some_iff {m n : Nat} : known? m = some n ↔ m < limit ∧ n = m := by
  unfold known?
  split
  · simp [*, eq_comm]
  · simp [*]

theorem add?_eq_some_iff {m n k : Nat} : add? m n = some k ↔ m + n < limit ∧ k = m + n :=
  known?_eq_some_iff

theorem mul?_eq_some_iff {m n k : Nat} : mul? m n = some k ↔ m * n < limit ∧ k = m * n :=
  known?_eq_some_iff

theorem total?_cons_eq_some_iff {count : Option Nat} {counts : List (Option Nat)} {n : Nat} :
    total? (count :: counts) = some n ↔
      ∃ first rest, count = some first ∧ total? counts = some rest ∧ first + rest < limit ∧
        n = first + rest := by
  cases count with
  | none => simp [total?]
  | some first =>
      cases hrest : total? counts with
      | none => simp [total?, hrest]
      | some rest => simp [total?, hrest, add?_eq_some_iff]

/-- A sum does not depend on the order of its terms, even where it gets out of range. -/
theorem total?_perm {counts counts' : List (Option Nat)} (h : counts ~ counts') :
    total? counts = total? counts' := by
  induction h with
  | nil => rfl
  | cons count _ ih =>
      simp only [total?, ih]
  | swap count count' counts =>
      ext n
      have hswap : ∀ count count' : Option Nat, total? (count :: count' :: counts) = some n →
          total? (count' :: count :: counts) = some n := by
        intro count count' h
        obtain ⟨first, rest, hfirst, hrest, hlt, rfl⟩ := total?_cons_eq_some_iff.mp h
        obtain ⟨second, last, hsecond, hlast, -, rfl⟩ := total?_cons_eq_some_iff.mp hrest
        have hrest' : total? (count :: counts) = some (first + last) :=
          total?_cons_eq_some_iff.mpr ⟨first, last, hfirst, hlast, by omega, rfl⟩
        exact total?_cons_eq_some_iff.mpr ⟨second, first + last, hsecond, hrest', by omega, by omega⟩
      exact ⟨hswap count' count, hswap count count'⟩
  | trans _ _ ih ih' => rw [ih, ih']

/-! ## Trips -/

/-- A loop variable that begins with `start` has not passed `stop` after `k` strides. -/
def Reaches (start stop stride : Int) (k : Nat) : Prop :=
  if 0 < stride then start + k * stride ≤ stop else stop ≤ start + k * stride

/-- How many values a loop variable takes before it passes `stop`. -/
noncomputable def tripCount (start stop stride : Int) : Nat :=
  {k | Reaches start stop stride k}.ncard

/-- The values at a distance of at most `distance`, `step` apart from each other. -/
theorem lt_tdiv_toNat_iff {distance step : Int} (hstep : 0 < step) (k : Nat) :
    k < ((distance + step).tdiv step).toNat ↔ k * step ≤ distance := by
  rw [Int.lt_toNat]
  by_cases hdistance : 0 ≤ distance + step
  · rw [Int.tdiv_eq_ediv_of_nonneg hdistance, ← Int.add_one_le_iff,
      Int.le_ediv_iff_mul_le hstep, Int.add_mul, Int.one_mul]
    omega
  · have hquotient : 0 ≤ (-(distance + step)).tdiv step := Int.tdiv_nonneg (by omega) (by omega)
    rw [Int.neg_tdiv] at hquotient
    have hproduct : 0 ≤ k * step := Int.mul_nonneg (by omega) (by omega)
    omega

/-- The quotient counts the strides, in whichever direction the loop runs. -/
theorem reaches_iff {start stop stride : Int} (hstride : stride ≠ 0) (k : Nat) :
    Reaches start stop stride k ↔ k < ((stop - start + stride).tdiv stride).toNat := by
  unfold Reaches
  by_cases hup : 0 < stride
  · rw [if_pos hup, lt_tdiv_toNat_iff hup]
    omega
  · have hdown : 0 < -stride := by omega
    have hneg : (stop - start + stride).tdiv stride =
        (start - stop + -stride).tdiv (-stride) := by
      rw [← Int.neg_tdiv_neg]
      congr 1
      omega
    rw [if_neg hup, hneg, lt_tdiv_toNat_iff hdown, Int.mul_neg]
    omega

theorem tripCount_eq {start stop stride : Int} (hstride : stride ≠ 0) :
    tripCount start stop stride = ((stop - start + stride).tdiv stride).toNat := by
  have hset : {k | Reaches start stop stride k} =
      ↑(Finset.range ((stop - start + stride).tdiv stride).toNat) := by
    ext k
    simp [reaches_iff hstride]
  rw [tripCount, hset, Set.ncard_coe_finset, Finset.card_range]

/-- A loop has a number of trips unless it never ends or runs too often. -/
theorem trips?_eq_some_iff {start stop stride : Int} {n : Nat} :
    trips? start stop stride = some n ↔
      stride ≠ 0 ∧ tripCount start stop stride < limit ∧ n = tripCount start stop stride := by
  unfold trips?
  by_cases hstride : stride = 0
  · simp [hstride]
  · simp [hstride, tripCount_eq hstride, known?_eq_some_iff]

/-! ## Integers between bounds -/

/-- How many integers lie from `lower` to `upper`, both included. -/
noncomputable def integersBetween (lower upper : Int) : Nat :=
  {n : Int | lower ≤ n ∧ n ≤ upper}.ncard

/-- A loop in single steps comes to each integer between its bounds once. -/
theorem integersBetween_eq (lower upper : Int) :
    integersBetween lower upper = tripCount lower upper 1 := by
  have hreaches (k : Nat) : Reaches lower upper 1 k ↔ lower + k ≤ upper := by simp [Reaches]
  have hvalues : {n : Int | lower ≤ n ∧ n ≤ upper} =
      (fun k : Nat => lower + (k : Int)) '' {k | Reaches lower upper 1 k} := by
    ext n
    constructor
    · rintro ⟨hlower, hupper⟩
      have hvalue : lower + ((n - lower).toNat : Int) = n := by omega
      exact ⟨(n - lower).toNat, (hreaches _).mpr (by omega), hvalue⟩
    · rintro ⟨k, hk, rfl⟩
      exact ⟨Int.le_add_of_nonneg_right (Int.natCast_nonneg k), (hreaches k).mp hk⟩
  have hinjective : Function.Injective fun k : Nat => lower + (k : Int) := by
    intro k k' h
    simpa using h
  rw [integersBetween, hvalues, Set.ncard_image_of_injective _ hinjective, tripCount]

theorem between?_eq_some_iff {lower upper : Int} {n : Nat} :
    between? lower upper = some n ↔
      integersBetween lower upper < limit ∧ n = integersBetween lower upper := by
  have hcount : integersBetween lower upper = (upper - lower + 1).toNat := by
    rw [integersBetween_eq, tripCount_eq Int.one_ne_zero, Int.tdiv_one]
  rw [between?, known?_eq_some_iff, hcount]

end FortranTyping.Count

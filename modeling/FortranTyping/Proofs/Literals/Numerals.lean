import FortranTyping.Numeral
import Mathlib.Data.Nat.Digits.Defs

/-!
# Written numbers

What a numeral stands for, by its sign and by the places of its digits, beside the functions that read
it. These give the number that is written whenever it is within their range, and nothing else.
-/

namespace FortranTyping.Numeral

/-! ## Digits -/

/-- The number that decimal digits stand for, by their places. -/
def decimal (digits : List Char) : Nat :=
  Nat.ofDigits 10 (digits.reverse.map digitValue)

/-- At least one digit, and nothing else. -/
structure Run (digits : List Char) : Prop where
  nonempty : digits ≠ []
  isDigit : ∀ c ∈ digits, c.isDigit = true

theorem Run.head?_ne {cs : List Char} (h : Run cs) {sign : Char} (hsign : sign.isDigit = false) :
    cs.head? ≠ some sign := by
  intro hhead
  rw [h.isDigit sign (List.mem_of_head? hhead)] at hsign
  cases hsign

theorem value_eq_decimal (digits : List Char) : value digits = decimal digits := by
  rw [value, decimal, Nat.ofDigits_eq_foldr, List.foldr_map, List.foldr_reverse]
  congr 1
  funext n c
  exact Nat.add_comm _ _

theorem digits?_eq_some_iff {cs : List Char} {n : Nat} :
    digits? cs = some n ↔ Run cs ∧ n = decimal cs := by
  rw [digits?, value_eq_decimal, Option.ite_none_right_eq_some, List.all_eq_true,
    Option.some.injEq, eq_comm (a := decimal cs)]
  exact and_congr_left' ⟨fun h => ⟨h.1, h.2⟩, fun h => ⟨h.nonempty, h.isDigit⟩⟩

/-! ## Signs -/

/-- The number that is written by digits, with or without a plus sign in front. -/
inductive Spells : List Char → Nat → Prop where
  | digits {cs : List Char} (h : Run cs) : Spells cs (decimal cs)
  | plus {cs : List Char} (h : Run cs) : Spells ('+' :: cs) (decimal cs)

/-- The integer that is written by digits, with either sign in front or none. -/
inductive SpellsSigned : List Char → Int → Prop where
  | unsigned {cs : List Char} {n : Nat} (h : Spells cs n) : SpellsSigned cs n
  | minus {cs : List Char} (h : Run cs) : SpellsSigned ('-' :: cs) (-(decimal cs : Int))

theorem Spells.head?_ne_minus {cs : List Char} {n : Nat} (h : Spells cs n) :
    cs.head? ≠ some '-' := by
  cases h with
  | digits h => exact h.head?_ne rfl
  | plus h => simp

theorem dropPlus_eq_self {cs : List Char} (h : cs.head? ≠ some '+') : dropPlus cs = cs := by
  unfold dropPlus
  split
  · exact absurd rfl h
  · rfl

theorem spells_iff {cs : List Char} {n : Nat} : Spells cs n ↔ digits? (dropPlus cs) = some n := by
  constructor
  · intro h
    cases h with
    | digits h =>
        rw [dropPlus_eq_self (h.head?_ne rfl)]
        exact digits?_eq_some_iff.mpr ⟨h, rfl⟩
    | plus h => exact digits?_eq_some_iff.mpr ⟨h, rfl⟩
  · intro h
    unfold dropPlus at h
    split at h
    · obtain ⟨hrun, rfl⟩ := digits?_eq_some_iff.mp h
      exact .plus hrun
    · obtain ⟨hrun, rfl⟩ := digits?_eq_some_iff.mp h
      exact .digits hrun

theorem spells_iff_of_head?_ne {cs : List Char} (h : cs.head? ≠ some '+') {n : Nat} :
    Spells cs n ↔ Run cs ∧ n = decimal cs := by
  rw [spells_iff, dropPlus_eq_self h, digits?_eq_some_iff]

theorem Spells.unique {cs : List Char} {m n : Nat} (hm : Spells cs m) (hn : Spells cs n) :
    m = n :=
  Option.some.inj ((spells_iff.mp hm).symm.trans (spells_iff.mp hn))

/-! ## Readers -/

theorem unsigned?_eq_some_iff {bound n : Nat} {cs : List Char} :
    unsigned? bound cs = some n ↔ Spells cs n ∧ n < bound := by
  simp only [unsigned?, Option.bind_eq_bind, Option.bind_eq_some_iff, ← spells_iff,
    Option.ite_none_right_eq_some, Option.some.injEq]
  constructor
  · rintro ⟨m, hspells, hlt, rfl⟩
    exact ⟨hspells, hlt⟩
  · rintro ⟨hspells, hlt⟩
    exact ⟨n, hspells, hlt, rfl⟩

/-- Without a minus sign in front, what is read is a number that is not negative. -/
theorem signed?_of_head?_ne {bound : Nat} {cs : List Char} (h : cs.head? ≠ some '-') {v : Int} :
    signed? bound cs = some v ↔ ∃ n : Nat, Spells cs n ∧ n < bound ∧ v = n := by
  unfold signed?
  split
  · exact absurd rfl h
  · simp only [Option.bind_eq_bind, Option.bind_eq_some_iff, unsigned?_eq_some_iff,
      Option.some.injEq, and_assoc, eq_comm (a := v)]

theorem signed?_minus {bound : Nat} {digits : List Char} {v : Int} :
    signed? bound ('-' :: digits) = some v ↔
      Run digits ∧ -(bound : Int) ≤ v ∧ v = -(decimal digits : Int) := by
  simp only [signed?, Option.bind_eq_bind, Option.bind_eq_some_iff, digits?_eq_some_iff,
    Option.ite_none_right_eq_some, Option.some.injEq]
  constructor
  · rintro ⟨n, ⟨hrun, rfl⟩, hle, rfl⟩
    exact ⟨hrun, by omega, rfl⟩
  · rintro ⟨hrun, hle, rfl⟩
    exact ⟨_, ⟨hrun, rfl⟩, by omega, rfl⟩

theorem signed?_eq_some_iff {bound : Nat} (hbound : 0 < bound) {cs : List Char} {v : Int} :
    signed? bound cs = some v ↔ SpellsSigned cs v ∧ -(bound : Int) ≤ v ∧ v < bound := by
  constructor
  · intro h
    by_cases hminus : cs.head? = some '-'
    · obtain ⟨digits, rfl⟩ := List.head?_eq_some_iff.mp hminus
      obtain ⟨hrun, hlower, rfl⟩ := signed?_minus.mp h
      exact ⟨.minus hrun, hlower, by omega⟩
    · obtain ⟨n, hspells, hlt, rfl⟩ := (signed?_of_head?_ne hminus).mp h
      exact ⟨.unsigned hspells, by omega, by omega⟩
  · rintro ⟨hspells, hlower, hupper⟩
    cases hspells with
    | unsigned hspells =>
        exact (signed?_of_head?_ne hspells.head?_ne_minus).mpr ⟨_, hspells, by omega, rfl⟩
    | minus hrun => exact signed?_minus.mpr ⟨hrun, hlower, rfl⟩

end FortranTyping.Numeral

import FortranTyping.DeclaredType
import FortranTyping.Proofs.Counts
import FortranTyping.Proofs.Literals.Numerals

/-!
# The range of literals

The value of a literal is an integer of 64 bits, whatever signs stand in front of it. Integers of this
range can be counted up or down without leaving the range of counts, except from one end to the other
in single steps: this is one number more than a count can be.
-/

namespace FortranTyping

/-- The lowest of the 64-bit integers. -/
def lowest : Int :=
  -(capacity 63 : Int)

/-- The highest of the 64-bit integers. -/
def highest : Int :=
  capacity 63 - 1

theorem capacity_sixtyThree : (capacity 63 : Int) = 9223372036854775808 := by decide

theorem lowest_eq : lowest = -9223372036854775808 := by decide

theorem highest_eq : highest = 9223372036854775807 := by decide

theorem Count.limit_eq : Count.limit = 18446744073709551616 := by decide

/-- An integer of 64 bits. -/
def InRange (n : Int) : Prop :=
  lowest ≤ n ∧ n ≤ highest

/-! ## Values of literals -/

theorem negate?_eq_some_iff {n m : Int} : negate? n = some m ↔ n ≠ lowest ∧ m = -n := by
  unfold negate? lowest
  split
  · simp [*]
  · simp [*, eq_comm]

/-- Signs do not lead out of the range: the lowest integer has no opposite. -/
theorem Expr.integerValue?_inRange {n : Int} : (e : Expr) → e.integerValue? = some n → InRange n
  | .literal _ (.integer text), h => by
      have hbounds := ((Numeral.signed?_eq_some_iff (by decide)).mp h).2
      rw [capacity_sixtyThree] at hbounds
      rw [InRange, lowest_eq, highest_eq]
      omega
  | .unary _ .minus operand, h => by
      obtain ⟨m, hm, hn⟩ := Option.bind_eq_some_iff.mp h
      obtain ⟨hlowest, rfl⟩ := negate?_eq_some_iff.mp hn
      have hrange := operand.integerValue?_inRange hm
      rw [InRange, lowest_eq, highest_eq] at hrange ⊢
      rw [lowest_eq] at hlowest
      omega
  | .unary _ .plus operand, h => operand.integerValue?_inRange h
  | .paren _ inner, h => inner.integerValue?_inRange h
  | .unary _ .not _, h | .binary _ _ _ _, h | .reference _ _, h | .element _ _ _, h
  | .array _ _, h => by cases h
  | .literal _ (.real _), h | .literal _ (.character _), h | .literal _ (.logical _), h
  | .literal _ (.complex _ _), h => by cases h

theorem valueOrOne?_inRange {e : Option Expr} {n : Int} (h : valueOrOne? e = some n) :
    InRange n := by
  cases e with
  | none =>
      cases h
      rw [InRange, lowest_eq, highest_eq]
      omega
  | some e => exact e.integerValue?_inRange h

/-! ## Counts -/

namespace Count

/-- Only a loop in single steps from end to end of the range has more trips than can be counted. -/
theorem limit_le_tripCount_iff {start stop stride : Int} (hstart : InRange start)
    (hstop : InRange stop) (hstride : stride ≠ 0) :
    limit ≤ tripCount start stop stride ↔
      (start = lowest ∧ stop = highest ∧ stride = 1) ∨
        (start = highest ∧ stop = lowest ∧ stride = -1) := by
  have hlast : limit ≤ tripCount start stop stride ↔ Reaches start stop stride (limit - 1) := by
    rw [reaches_iff hstride, tripCount_eq hstride, limit_eq]
    omega
  have hcast : ((limit - 1 : Nat) : Int) = 18446744073709551615 := by decide
  rw [hlast, Reaches, hcast]
  rw [InRange, lowest_eq, highest_eq] at hstart hstop
  rw [lowest_eq, highest_eq]
  split <;> omega

/-- Only all integers of the range together are more than can be counted. -/
theorem limit_le_integersBetween_iff {lower upper : Int} (hlower : InRange lower)
    (hupper : InRange upper) :
    limit ≤ integersBetween lower upper ↔ lower = lowest ∧ upper = highest := by
  rw [integersBetween_eq, limit_le_tripCount_iff hlower hupper Int.one_ne_zero]
  simp

end Count

end FortranTyping

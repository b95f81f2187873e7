import FortranTyping.Infer.Constructor
import FortranTyping.Proofs.Literals.Kinds
import FortranTyping.Proofs.Literals.Range
import FortranTyping.Proofs.Walk.Postorder
import Mathlib.Algebra.Ring.Commute

/-!
# Values of literals

An expression has a value if and only if it is an integer literal under signs and parentheses: the
number in front of the first underscore, negated once for every minus sign. Only the lowest of the
64-bit integers cannot be negated. The check of a literal's range reads the same number, so that a
literal which passes it can be used as a length, as a bound and as a stride.
-/

namespace FortranTyping

open Numeral (Spells SpellsSigned)

namespace IntegerLiteral

theorem Parted.value?_eq_some_iff {text : String} {front : List Char} {suffix : Option (List Char)}
    (h : Parted text front suffix) {v : Int} :
    value? text = some v ↔ SpellsSigned front v ∧ InRange v := by
  rw [value?, h.split_eq, Numeral.signed?_eq_some_iff (by decide), InRange, lowest, highest]
  exact and_congr_right' (and_congr_right' (Int.le_sub_one_iff).symm)

end IntegerLiteral

/-! ## Signs in front of literals -/

namespace Expr

/-- The expression is the literal `text` under signs and parentheses, so many of the signs being
minus signs. -/
inductive Signs (text : String) : Expr → Nat → Prop where
  | literal (node : Node) : Signs text (.literal node (.integer text)) 0
  | plus (node : Node) {operand : Expr} {minuses : Nat} (h : Signs text operand minuses) :
      Signs text (.unary node .plus operand) minuses
  | minus (node : Node) {operand : Expr} {minuses : Nat} (h : Signs text operand minuses) :
      Signs text (.unary node .minus operand) (minuses + 1)
  | paren (node : Node) {inner : Expr} {minuses : Nat} (h : Signs text inner minuses) :
      Signs text (.paren node inner) minuses

/-- The value of an expression by its signs and by the number in front of the first underscore. There
is no integer opposite to the lowest one. -/
inductive Denotes (e : Expr) : Int → Prop where
  | intro {text : String} {minuses : Nat} {front : List Char} {suffix : Option (List Char)} {n : Int}
      (hsigns : e.Signs text minuses) (hparted : IntegerLiteral.Parted text front suffix)
      (hspells : SpellsSigned front n) (hrange : InRange n)
      (hnegatable : 0 < minuses → n ≠ lowest) : Denotes e ((-1) ^ minuses * n)

theorem neg_signed (minuses : Nat) (n : Int) :
    -((-1) ^ minuses * n) = (-1) ^ (minuses + 1) * n := by
  rw [pow_succ, mul_neg_one, neg_mul]

/-- Signs do not lead to the lowest integer, unless from there. -/
theorem signed_ne_lowest {n : Int} (hrange : InRange n) (hn : n ≠ lowest) (minuses : Nat) :
    (-1) ^ minuses * n ≠ lowest := by
  rw [InRange, lowest_eq, highest_eq] at hrange
  rw [lowest_eq] at hn ⊢
  rcases neg_one_pow_eq_or Int minuses with hsign | hsign <;> rw [hsign] <;> omega

namespace Denotes

variable {operand inner : Expr} {v : Int}

theorem plus (node : Node) (h : operand.Denotes v) : (unary node .plus operand).Denotes v := by
  obtain ⟨hsigns, hparted, hspells, hrange, hnegatable⟩ := h
  exact ⟨hsigns.plus node, hparted, hspells, hrange, hnegatable⟩

theorem paren (node : Node) (h : inner.Denotes v) : (Expr.paren node inner).Denotes v := by
  obtain ⟨hsigns, hparted, hspells, hrange, hnegatable⟩ := h
  exact ⟨hsigns.paren node, hparted, hspells, hrange, hnegatable⟩

theorem minus (node : Node) (h : operand.Denotes v) (hv : v ≠ lowest) :
    (unary node .minus operand).Denotes (-v) := by
  obtain @⟨text, minuses, front, suffix, n, hsigns, hparted, hspells, hrange, hnegatable⟩ := h
  rw [neg_signed]
  refine ⟨hsigns.minus node, hparted, hspells, hrange, fun _ => ?_⟩
  cases minuses with
  | zero => simpa using hv
  | succ minuses => exact hnegatable minuses.succ_pos

end Denotes

theorem denotes_of_integerValue? {v : Int} : (e : Expr) → e.integerValue? = some v → e.Denotes v
  | .literal node (.integer text), h => by
      obtain ⟨front, suffix, hparted⟩ := IntegerLiteral.exists_parted text
      obtain ⟨hspells, hrange⟩ := hparted.value?_eq_some_iff.mp h
      have hdenotes := Denotes.intro (.literal node) hparted hspells hrange
        (fun hpos => absurd hpos (Nat.lt_irrefl 0))
      rwa [pow_zero, one_mul] at hdenotes
  | .unary node .minus operand, h => by
      obtain ⟨m, hm, hv⟩ := Option.bind_eq_some_iff.mp h
      obtain ⟨hlowest, rfl⟩ := negate?_eq_some_iff.mp hv
      exact (operand.denotes_of_integerValue? hm).minus node hlowest
  | .unary node .plus operand, h => (operand.denotes_of_integerValue? h).plus node
  | .paren node inner, h => (inner.denotes_of_integerValue? h).paren node
  | .unary _ .not _, h | .binary _ _ _ _, h | .reference _ _, h | .element _ _ _, h
  | .array _ _, h => by cases h
  | .literal _ (.real _), h | .literal _ (.character _), h | .literal _ (.logical _), h
  | .literal _ (.complex _ _), h => by cases h

/-- No sign is in the way of a literal that may be negated. -/
theorem Signs.integerValue? {text : String} {e : Expr} {minuses : Nat} (h : e.Signs text minuses)
    {n : Int} (hvalue : IntegerLiteral.value? text = some n) (hrange : InRange n)
    (hnegatable : 0 < minuses → n ≠ lowest) : e.integerValue? = some ((-1) ^ minuses * n) := by
  induction h with
  | literal node => rwa [pow_zero, one_mul]
  | plus node _ ih => exact ih hnegatable
  | paren node _ ih => exact ih hnegatable
  | @minus node operand minuses _ ih =>
      have hn : n ≠ lowest := hnegatable minuses.succ_pos
      rw [Expr.integerValue?, ih fun _ => hn, Option.bind_some, negate?_eq_some_iff]
      exact ⟨signed_ne_lowest hrange hn minuses, (neg_signed minuses n).symm⟩

theorem integerValue?_eq_some_iff {e : Expr} {v : Int} :
    e.integerValue? = some v ↔ e.Denotes v := by
  refine ⟨e.denotes_of_integerValue?, ?_⟩
  rintro ⟨hsigns, hparted, hspells, hrange, hnegatable⟩
  exact hsigns.integerValue? (hparted.value?_eq_some_iff.mpr ⟨hspells, hrange⟩) hrange hnegatable

/-- Signs and parentheses step from an operand's value to the same value or its opposite. -/
theorem integerValue?_parts_of_operand {e operand : Expr} {v : Int}
    (hparts : e.postorder = operand.postorder ++ [e]) (hv : e.integerValue? = some v)
    (hoperand : ∀ part ∈ operand.postorder, ∃ m, part.integerValue? = some m ∧ (m = v ∨ m = -v)) :
    ∀ part ∈ e.postorder, ∃ m, part.integerValue? = some m ∧ (m = v ∨ m = -v) := by
  intro part hpart
  rw [hparts] at hpart
  rcases List.mem_append.mp hpart with hpart | hpart
  · exact hoperand part hpart
  · cases List.mem_singleton.mp hpart
    exact ⟨v, hv, .inl rfl⟩

/-- All that is within an expression with a value has this value or its opposite. -/
theorem integerValue?_parts {v : Int} : (e : Expr) → e.integerValue? = some v →
    ∀ part ∈ e.postorder, ∃ m, part.integerValue? = some m ∧ (m = v ∨ m = -v)
  | .literal node value, h => by
      intro part hpart
      cases List.mem_singleton.mp hpart
      exact ⟨v, h, .inl rfl⟩
  | .unary node .minus operand, h => by
      refine integerValue?_parts_of_operand rfl h fun part hpart => ?_
      obtain ⟨m, hm, hv⟩ := Option.bind_eq_some_iff.mp h
      obtain ⟨-, rfl⟩ := negate?_eq_some_iff.mp hv
      obtain ⟨m', hm', hsame⟩ := operand.integerValue?_parts hm part hpart
      exact ⟨m', hm', by omega⟩
  | .unary node .plus operand, h =>
      integerValue?_parts_of_operand rfl h (operand.integerValue?_parts h)
  | .paren node inner, h => integerValue?_parts_of_operand rfl h (inner.integerValue?_parts h)
  | .unary _ .not _, h | .binary _ _ _ _, h | .reference _ _, h | .element _ _ _, h
  | .array _ _, h => by cases h

end Expr

/-- How an expression gets its value, or none. -/
structure ValueSpec (e : Expr) : Prop where
  value_iff : ∀ v, e.integerValue? = some v ↔ e.Denotes v
  none_iff : e.integerValue? = none ↔ ∀ v, ¬e.Denotes v
  /-- Every step towards the value is an integer of 64 bits, and is the value or its opposite. -/
  steps : ∀ v, e.integerValue? = some v → ∀ part ∈ e.postorder,
    ∃ m, part.integerValue? = some m ∧ InRange m ∧ (m = v ∨ m = -v)

theorem Expr.integerValue?_valueSpec (e : Expr) : ValueSpec e where
  value_iff _ := integerValue?_eq_some_iff
  none_iff := by
    rw [Option.eq_none_iff_forall_ne_some]
    exact forall_congr' fun v => not_congr integerValue?_eq_some_iff
  steps := by
    intro v hv part hpart
    obtain ⟨m, hm, hsame⟩ := e.integerValue?_parts hv part hpart
    exact ⟨m, hm, part.integerValue?_inRange hm, hsame⟩

/-- The lowest integer may be written, but not negated. -/
example (node : Node) :
    (Expr.literal node (.integer "-9223372036854775808_8")).integerValue? = some lowest ∧
      (Expr.unary node .minus (.literal node (.integer "-9223372036854775808_8"))).integerValue? =
        none :=
  ⟨rfl, rfl⟩

/-! ## Literals that fit their kind -/

namespace IntegerLiteral

/-- The kinds of at most eight bytes have all their numbers among the 64-bit integers. -/
theorem largest_lt_capacity {kind : Nat} (h : kind ∈ [1, 2, 4, 8]) :
    2 ^ (8 * kind - 1) - 1 < capacity 63 := by
  revert kind
  decide

end IntegerLiteral

/-- Declarations and loops take the expression for the number `n`. -/
structure Expr.UsedAs (e : Expr) (n : Nat) : Prop where
  value : e.integerValue? = some (n : Int)
  length : declaredLength? e = some n
  /-- From 1 to the number there are so many elements. -/
  bound : (Dimension.mk none (some e)).extent? e = some n
  stride : ∀ start stop first last, start.integerValue? = some first →
    stop.integerValue? = some last → loopValues? start stop (some e) = some (first, last, (n : Int))

theorem Expr.usedAs_of_value {e : Expr} {n : Nat} (hvalue : e.integerValue? = some (n : Int)) :
    e.UsedAs n where
  value := hvalue
  length := by rw [declaredLength?, hvalue, Option.map_some, Int.toNat_natCast]
  bound := by
    have hrange := e.integerValue?_inRange hvalue
    rw [InRange, highest_eq] at hrange
    have hextent : ((n : Int) - 1 + 1).toNat = n := by omega
    have hlimit : n < Count.limit := by rw [Count.limit_eq]; omega
    simp only [Dimension.extent?, valueOrOne?, hvalue, Option.bind_eq_bind, Option.bind_some,
      Count.between?, hextent, Count.known?, if_pos hlimit]
  stride := by
    intro start stop first last hstart hstop
    simp [loopValues?, valueOrOne?, hstart, hstop, hvalue]

/-- What the check of a literal's range and its value have to do with one another. -/
structure ReadAlikeSpec (text : String) (front : List Char) (kind : Nat) : Prop where
  accepted_iff : IntegerLiteral.overflowedKind? text = none ↔
    ∃ n, Spells front n ∧ n ≤ 2 ^ (8 * kind - 1) - 1
  /-- The number that the check has read is the value of the literal, wherever one is needed. -/
  alike : IntegerLiteral.overflowedKind? text = none →
    ∃ n, Numeral.unsigned? (capacity 128) front = some n ∧ n ≤ 2 ^ (8 * kind - 1) - 1 ∧
      ∀ node, (Expr.literal node (.integer text)).UsedAs n

theorem IntegerLiteral.readAlikeSpec {text : String} {front : List Char}
    {suffix : Option (List Char)} {kind : Nat} (hparted : Parted text front suffix)
    (hkind : SelectsKind suffix kind) (hwidth : kind ∈ [1, 2, 4, 8]) :
    ReadAlikeSpec text front kind := by
  have hknown : kind ∈ [1, 2, 4, 8, 16] := List.mem_append_left [16] hwidth
  have haccepted := hparted.overflowedKind?_eq_none_iff hkind hknown
  refine ⟨haccepted, fun h => ?_⟩
  obtain ⟨n, hspells, hle⟩ := haccepted.mp h
  have hread : Numeral.unsigned? (capacity 128) front = some n :=
    Numeral.unsigned?_eq_some_iff.mpr
      ⟨hspells, Nat.lt_of_le_of_lt hle (width_bounds hknown).2⟩
  have hvalue : value? text = some (n : Int) := by
    have hlt := Nat.lt_of_le_of_lt hle (largest_lt_capacity hwidth)
    rw [hparted.value?_eq_some_iff, InRange, lowest, highest]
    exact ⟨.unsigned hspells, by omega⟩
  exact ⟨n, hread, hle, fun _ => Expr.usedAs_of_value hvalue⟩

/-- The literal `+0042_08` is the number 42 of kind 8. -/
theorem IntegerLiteral.paddedLiteral_readAlikeSpec :
    Parted "+0042_08" ['+', '0', '0', '4', '2'] (some ['0', '8']) ∧
      SelectsKind (some ['0', '8']) 8 ∧ overflowedKind? "+0042_08" = none ∧
      ReadAlikeSpec "+0042_08" ['+', '0', '0', '4', '2'] 8 := by
  have hparted : Parted "+0042_08" ['+', '0', '0', '4', '2'] (some ['0', '8']) :=
    ⟨by decide, by decide⟩
  have hkind : SelectsKind (some ['0', '8']) 8 :=
    .suffix (.digits ⟨by decide, List.all_eq_true.mp rfl⟩)
  exact ⟨hparted, hkind, by decide, readAlikeSpec hparted hkind (by decide)⟩

end FortranTyping

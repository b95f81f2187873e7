import FortranTyping.IntegerLiteral
import FortranTyping.Proofs.Literals.Numerals

/-!
# Texts of integer literals

The two parts of a literal's text, the kind that the second selects, and the check of the first against
it. A literal passes the check if and only if it is a number, without a minus sign, that the kind
holds.
-/

namespace FortranTyping.IntegerLiteral

open Numeral (Spells)

/-! ## Parts -/

/-- The text is `front`, with `suffix` behind an underscore if there is one. This underscore is the
first of the text. -/
structure Parted (text : String) (front : List Char) (suffix : Option (List Char)) : Prop where
  text_eq : text.toList = front ++ suffix.elim [] ('_' :: ·)
  first : '_' ∉ front

theorem exists_parted (text : String) : ∃ front suffix, Parted text front suffix := by
  by_cases hmem : '_' ∈ text.toList
  · obtain ⟨front, suffix, htext, hfirst⟩ := List.eq_append_cons_of_mem hmem
    exact ⟨front, some suffix, htext, hfirst⟩
  · exact ⟨text.toList, none, (List.append_nil _).symm, hmem⟩

theorem Parted.split_eq {text : String} {front : List Char} {suffix : Option (List Char)}
    (h : Parted text front suffix) : split text = (front, suffix) := by
  have hfront : ∀ c ∈ front, decide (c ≠ '_') = true := by
    intro c hc
    rw [decide_eq_true_eq]
    rintro rfl
    exact h.first hc
  rw [split, h.text_eq, List.takeWhile_append_of_pos hfront, List.dropWhile_append_of_pos hfront]
  cases suffix <;> simp

/-! ## Kinds -/

/-- The kind that a suffix selects: 4 if there is none, and otherwise the number that it is. -/
inductive SelectsKind : Option (List Char) → Nat → Prop where
  | default : SelectsKind none 4
  | suffix {cs : List Char} {kind : Nat} (h : Spells cs kind) : SelectsKind (some cs) kind

theorem SelectsKind.unique {suffix : Option (List Char)} {kind kind' : Nat}
    (h : SelectsKind suffix kind) (h' : SelectsKind suffix kind') : kind = kind' := by
  cases h with
  | default =>
      cases h'
      rfl
  | suffix h =>
      cases h' with
      | suffix h' => exact h.unique h'

theorem kind?_eq_some_iff {suffix : Option (List Char)} {kind : Nat} (hkind : kind < 256) :
    kind? suffix = some kind ↔ SelectsKind suffix kind := by
  cases suffix with
  | none =>
      constructor
      · rintro ⟨⟩
        exact .default
      · rintro ⟨⟩
        rfl
  | some cs =>
      have hbound : kind < capacity 8 := hkind
      rw [kind?, Numeral.unsigned?_eq_some_iff, and_iff_left hbound]
      constructor
      · exact .suffix
      · rintro ⟨⟩
        assumption

/-- All kinds of known width have their largest value below that of the integers read. -/
theorem maxOfKind?_eq_some_iff {kind largest : Nat} :
    maxOfKind? kind = some largest ↔
      kind ∈ [1, 2, 4, 8, 16] ∧ largest = 2 ^ (8 * kind - 1) - 1 := by
  rw [maxOfKind?, Option.ite_none_right_eq_some, Option.some.injEq, eq_comm (b := largest)]
  rfl

theorem width_bounds {kind : Nat} (h : kind ∈ [1, 2, 4, 8, 16]) :
    kind < 256 ∧ 2 ^ (8 * kind - 1) - 1 < capacity 128 := by
  revert kind
  decide

/-! ## The check of the range -/

/-- Numbers that are not read are too big for every kind. -/
theorem fits_iff {front : List Char} {largest : Nat} (hlargest : largest < capacity 128) :
    (Numeral.unsigned? (capacity 128) front).any (· ≤ largest) = true ↔
      ∃ n, Spells front n ∧ n ≤ largest := by
  simp only [Option.any_eq_true, Numeral.unsigned?_eq_some_iff, decide_eq_true_eq]
  constructor
  · rintro ⟨n, ⟨hspells, -⟩, hle⟩
    exact ⟨n, hspells, hle⟩
  · rintro ⟨n, hspells, hle⟩
    exact ⟨n, ⟨hspells, Nat.lt_of_le_of_lt hle hlargest⟩, hle⟩

variable {text : String} {front : List Char} {suffix : Option (List Char)} {kind : Nat}

/-- The check finds the kind whose numbers do not include the one that the text may begin with. -/
theorem Parted.overflowedKind?_eq_some_iff (h : Parted text front suffix) :
    overflowedKind? text = some kind ↔
      SelectsKind suffix kind ∧ kind ∈ [1, 2, 4, 8, 16] ∧
        ¬∃ n, Spells front n ∧ n ≤ 2 ^ (8 * kind - 1) - 1 := by
  simp only [overflowedKind?, h.split_eq, Option.bind_eq_bind, Option.bind_eq_some_iff,
    maxOfKind?_eq_some_iff]
  constructor
  · rintro ⟨kind, hkind, largest, ⟨hwidth, rfl⟩, hvalue⟩
    obtain ⟨hbyte, hlargest⟩ := width_bounds hwidth
    split at hvalue
    · cases hvalue
    · rename_i hfitting
      cases hvalue
      exact ⟨(kind?_eq_some_iff hbyte).mp hkind, hwidth, (fits_iff hlargest).not.mp hfitting⟩
  · rintro ⟨hkind, hwidth, hvalue⟩
    obtain ⟨hbyte, hlargest⟩ := width_bounds hwidth
    refine ⟨kind, (kind?_eq_some_iff hbyte).mpr hkind, _, ⟨hwidth, rfl⟩, ?_⟩
    exact if_neg ((fits_iff hlargest).not.mpr hvalue)

theorem Parted.overflowedKind?_eq_none_iff (h : Parted text front suffix)
    (hkind : SelectsKind suffix kind) (hwidth : kind ∈ [1, 2, 4, 8, 16]) :
    overflowedKind? text = none ↔ ∃ n, Spells front n ∧ n ≤ 2 ^ (8 * kind - 1) - 1 := by
  simp only [Option.eq_none_iff_forall_ne_some, ne_eq, h.overflowedKind?_eq_some_iff]
  constructor
  · intro hnone
    exact not_not.mp fun hvalue => hnone kind ⟨hkind, hwidth, hvalue⟩
  · rintro hvalue kind' ⟨hkind', -, hexceeds⟩
    cases hkind.unique hkind'
    exact hexceeds hvalue

end FortranTyping.IntegerLiteral

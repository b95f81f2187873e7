import FortranTyping.Proofs.Literals.Kinds
import FortranTyping.Proofs.Reports.Agreement
import FortranTyping.Proofs.Reports.Locality

/-!
# Literals out of range

A literal of digits is reported if and only if its kind is one of the five that have a known width
and its value is above the largest of that kind. Neither the number of digits nor any setting makes
a difference, and the literal is an integer either way.
-/

namespace FortranTyping

open Numeral (decimal Spells)

namespace IntegerLiteral

/-! ## Written literals -/

/-- The text is a run of digits, with a suffix behind an underscore if there is one. The suffix may
consist of letters, digits and underscores, or anything else that is not a sign in front. -/
structure Written (text : String) (digits : List Char) (suffix : Option (List Char)) : Prop where
  text_eq : text.toList = digits ++ suffix.elim [] ('_' :: ·)
  nonempty : digits ≠ []
  isDigit : ∀ c ∈ digits, c.isDigit = true
  unsigned : ∀ cs ∈ suffix, cs.head? ≠ some '+'

/-- The kind is 4 by default, and the value of the suffix if this is a number. -/
inductive HasKind : Option (List Char) → Nat → Prop where
  | default : HasKind none 4
  | suffix {cs : List Char} (hne : cs ≠ []) (hdigits : ∀ c ∈ cs, c.isDigit = true) :
      HasKind (some cs) (decimal cs)

/-- The digits stand for more than the largest integer of the kind, which has this many bytes. -/
structure Exceeds (digits : List Char) (suffix : Option (List Char)) (kind : Nat) : Prop where
  hasKind : HasKind suffix kind
  width : kind ∈ [1, 2, 4, 8, 16]
  value : 2 ^ (8 * kind - 1) - 1 < decimal digits

namespace Written

variable {text : String} {digits : List Char} {suffix : Option (List Char)}
  (h : Written text digits suffix)
include h

theorem parted : Parted text digits suffix :=
  ⟨h.text_eq, fun hmem => absurd (h.isDigit '_' hmem) (by decide)⟩

theorem spells_iff {n : Nat} : Spells digits n ↔ n = decimal digits := by
  have hrun : Numeral.Run digits := ⟨h.nonempty, h.isDigit⟩
  rw [Numeral.spells_iff_of_head?_ne (hrun.head?_ne rfl), and_iff_right hrun]

theorem selectsKind_iff {kind : Nat} : SelectsKind suffix kind ↔ HasKind suffix kind := by
  constructor
  · intro hkind
    cases hkind with
    | default => exact .default
    | suffix hspells =>
        obtain ⟨hrun, rfl⟩ := (Numeral.spells_iff_of_head?_ne (h.unsigned _ rfl)).mp hspells
        exact .suffix hrun.nonempty hrun.isDigit
  · intro hkind
    cases hkind with
    | default => exact .default
    | suffix hne hdigits => exact .suffix (.digits ⟨hne, hdigits⟩)

/-- The check of a literal finds the kind that it is too big for. -/
theorem overflowedKind?_eq_some_iff {kind : Nat} :
    overflowedKind? text = some kind ↔ Exceeds digits suffix kind := by
  simp only [h.parted.overflowedKind?_eq_some_iff, h.selectsKind_iff, h.spells_iff,
    exists_eq_left, Nat.not_le]
  exact ⟨fun ⟨hkind, hwidth, hvalue⟩ => ⟨hkind, hwidth, hvalue⟩,
    fun ⟨hkind, hwidth, hvalue⟩ => ⟨hkind, hwidth, hvalue⟩⟩

end Written

end IntegerLiteral

/-! ## Whole units -/

/-- The report that a literal calls for by itself. -/
def rangeFaults : Expr → List Diagnostic
  | .literal node value => (Verdict.literal node value).reports
  | _ => []

theorem rangeFaults_integer (node : Node) (text : String) :
    rangeFaults (.literal node (.integer text)) =
      (IntegerLiteral.overflowedKind? text).toList.map fun kind =>
        .of node.span (.literalRange node.id text kind) := by
  simp only [rangeFaults, Verdict.literal]
  cases IntegerLiteral.overflowedKind? text <;> rfl

theorem rangeFaults_own : OwnFaults rangeFaults := by
  intro e d hd
  cases e with
  | literal node value =>
      obtain ⟨text, kind, -, hfinding⟩ := Verdict.mem_literal_reports hd
      rw [hfinding]
      rfl
  | _ => cases hd

theorem ofKind_literalRange (ctx : Context) (step : Step) :
    ofKind .literalRange (step.reports ctx) = step.typed?.elim [] rangeFaults := by
  cases step with
  | node loops expected e =>
      cases e with
      | literal node value =>
          refine ofKind_eq_self fun d hd => ?_
          obtain ⟨text, kind, -, hfinding⟩ := Verdict.mem_literal_reports hd
          rw [hfinding]
          rfl
      | array node entries =>
          exact Step.ofKind_reports_eq_nil (by cases expected <;> simp [Step.kinds, Expr.kinds])
      | _ => exact Step.ofKind_reports_eq_nil (by simp [Step.kinds, Expr.kinds])
  | _ => exact Step.ofKind_reports_eq_nil (by simp [Step.kinds])

/-- How a check treats the integer literals of a unit. -/
structure LiteralRangeSpec (resolver : Resolver) (options : Options) (program : ProgramUnit) :
    Prop where
  integer : ∀ node text, .literal node (.integer text) ∈ program.postorder →
    (program.check resolver options).types.get? node.id = some .integer
  /-- A literal that is too big is reported once. -/
  reported : ∀ node text, .literal node (.integer text) ∈ program.postorder →
    ∀ digits suffix, IntegerLiteral.Written text digits suffix →
      ∀ kind, IntegerLiteral.Exceeds digits suffix kind →
        about [node.id] (ofKind .literalRange (program.check resolver options).diagnostics) =
          [.of node.span (.literalRange node.id text kind)]
  unreported : ∀ node text, .literal node (.integer text) ∈ program.postorder →
    ∀ digits suffix, IntegerLiteral.Written text digits suffix →
      (∀ kind, ¬IntegerLiteral.Exceeds digits suffix kind) →
        about [node.id] (ofKind .literalRange (program.check resolver options).diagnostics) = []
  /-- All checks of the unit report the same. -/
  independent : ∀ resolver' options',
    ofKind .literalRange (program.check resolver options).diagnostics =
      ofKind .literalRange (program.check resolver' options').diagnostics

namespace ProgramUnit

variable {program : ProgramUnit}

theorem ofKind_literalRange_check (resolver : Resolver) (options : Options)
    (distinct : program.ids.Nodup) :
    ofKind .literalRange (program.check resolver options).diagnostics =
      program.postorder.flatMap rangeFaults := by
  rw [check_diagnostics resolver options distinct, ← program.typed_steps ⟨resolver, options⟩]
  exact Step.ofKind_diagnostics Step.typed? _ fun step _ => ofKind_literalRange _ step

/-- Literals are reported exactly where their value is out of range. -/
theorem check_literalRangeSpec (resolver : Resolver) (options : Options)
    (distinct : program.ids.Nodup) : LiteralRangeSpec resolver options program where
  integer := by
    intro node text hmem
    obtain ⟨loops, expected, hrecorded⟩ := check_recorded_of_mem resolver options distinct hmem
    exact hrecorded.get?_self.trans (congrArg some (Verdict.integerLiteral_type node text))
  reported := by
    intro node text hmem digits suffix hwritten kind hexceeds
    rw [ofKind_literalRange_check resolver options distinct]
    refine (about_faults rangeFaults_own distinct hmem).trans ?_
    rw [rangeFaults_integer, hwritten.overflowedKind?_eq_some_iff.mpr hexceeds]
    rfl
  unreported := by
    intro node text hmem digits suffix hwritten hfits
    have hnone : IntegerLiteral.overflowedKind? text = none := by
      refine Option.eq_none_iff_forall_ne_some.mpr fun kind hkind => ?_
      exact hfits kind (hwritten.overflowedKind?_eq_some_iff.mp hkind)
    rw [ofKind_literalRange_check resolver options distinct]
    refine (about_faults rangeFaults_own distinct hmem).trans ?_
    rw [rangeFaults_integer, hnone]
    rfl
  independent := by
    intro resolver' options'
    rw [ofKind_literalRange_check resolver options distinct,
      ofKind_literalRange_check resolver' options' distinct]

/-- The unit `x = [0128_1, 2147483647, 340282366920938463463374607431768211456_8, 128_byte]`, of
which the first and the third literal are too big. -/
def fourLiterals : ProgramUnit :=
  let name (text : String) : Located String := ⟨.ofWidth 0 1, text⟩
  let number (index : Nat) (text : String) : Entry :=
    .plain (.literal (.ofIndex index) (.integer text))
  ⟨.mainProgram, name "p", [], [⟨.ofWidth 0 9, .assignment (.reference (.ofIndex 0) (name "x"))
    (.array (.ofIndex 5) [number 1 "0128_1", number 2 "2147483647",
      number 3 "340282366920938463463374607431768211456_8", number 4 "128_byte"])⟩]⟩

theorem fourLiterals_literalRangeSpec :
    fourLiterals.ids.Nodup ∧ LiteralRangeSpec (.ofScope .empty) {} fourLiterals ∧
      IntegerLiteral.Written "0128_1" ['0', '1', '2', '8'] (some ['1']) ∧
        IntegerLiteral.Exceeds ['0', '1', '2', '8'] (some ['1']) 1 := by
  have distinct : fourLiterals.ids.Nodup := by decide
  have hwritten : IntegerLiteral.Written "0128_1" ['0', '1', '2', '8'] (some ['1']) :=
    ⟨by decide, by decide, List.all_eq_true.mp rfl, by simp⟩
  have hkind : IntegerLiteral.HasKind (some ['1']) (decimal ['1']) :=
    .suffix (by decide) (List.all_eq_true.mp rfl)
  exact ⟨distinct, check_literalRangeSpec _ _ distinct, hwritten,
    ⟨hkind, by decide, by decide⟩⟩

end ProgramUnit

end FortranTyping

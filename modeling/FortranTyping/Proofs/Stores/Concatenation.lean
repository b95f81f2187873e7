import FortranTyping.Proofs.Counts
import FortranTyping.Proofs.Reports.Locality

/-!
# Concatenations

Operands that are joined by `//`, in any grouping. The rules add up lengths join by join and lose
them at the first sum that is out of range, or with the first operand whose length is not known;
else the whole is as long as all operands together. No join is ever reported.
-/

namespace FortranTyping

/-- A part of a concatenation that is not taken apart, with its length if that is known. -/
structure Operand where
  e : Expr
  length : Option Nat

/-- Operands that are joined by `//`, with parentheses anywhere. -/
inductive Concatenation where
  | single (operand : Operand)
  | paren (node : Node) (inner : Concatenation)
  | join (node : Node) (left right : Concatenation)

namespace Concatenation

def expr : Concatenation → Expr
  | single operand => operand.e
  | paren node inner => .paren node inner.expr
  | join node left right => .binary node .concat left.expr right.expr

def operands : Concatenation → List Operand
  | single operand => [operand]
  | paren _ inner => inner.operands
  | join _ left right => left.operands ++ right.operands

/-- The joins within a concatenation, each with all that it consists of. -/
def joins : Concatenation → List Concatenation
  | single _ => []
  | paren _ inner => inner.joins
  | join node left right => left.joins ++ right.joins ++ [join node left right]

/-! ## Lengths -/

/-- The number of characters of all operands together, without a limit. -/
def total? : Concatenation → Option Nat
  | single operand => operand.length
  | paren _ inner => inner.total?
  | join _ left right => do return (← left.total?) + (← right.total?)

/-- The length of an operand is not known, or the operands of some join are too long together. -/
def LosesLength (tree : Concatenation) : Prop :=
  (∃ operand ∈ tree.operands, operand.length = none) ∨
    ∃ part ∈ tree.joins, ∃ n, part.total? = some n ∧ Count.limit ≤ n

/-- The length that comes out of the rules. -/
def length? : Concatenation → Option Nat
  | single operand => operand.length
  | paren _ inner => inner.length?
  | join _ left right => do Count.add? (← left.length?) (← right.length?)

theorem total?_join_eq_some_iff {node : Node} {left right : Concatenation} {n : Nat} :
    (join node left right).total? = some n ↔
      ∃ l r, left.total? = some l ∧ right.total? = some r ∧ n = l + r := by
  cases hleft : left.total? <;> cases hright : right.total? <;>
    simp [total?, hleft, hright, eq_comm]

theorem length?_join_eq_some_iff {node : Node} {left right : Concatenation} {n : Nat} :
    (join node left right).length? = some n ↔
      ∃ l r, left.length? = some l ∧ right.length? = some r ∧ l + r < Count.limit ∧ n = l + r := by
  cases hleft : left.length? <;> cases hright : right.length? <;>
    simp [length?, hleft, hright, Count.add?_eq_some_iff]

/-- A total is known only if all operands are. -/
theorem total?_eq_none {tree : Concatenation}
    (h : ∃ operand ∈ tree.operands, operand.length = none) : tree.total? = none := by
  refine Option.eq_none_iff_forall_ne_some.mpr fun n hn => ?_
  obtain ⟨operand, hmem, hlength⟩ := h
  induction tree generalizing n with
  | single operand' =>
      cases List.mem_singleton.mp hmem
      exact Option.some_ne_none n (hn.symm.trans hlength)
  | paren _ _ ih => exact ih n hn hmem
  | join _ left right ihleft ihright =>
      obtain ⟨l, r, hl, hr, -⟩ := total?_join_eq_some_iff.mp hn
      rcases List.mem_append.mp hmem with hmem | hmem
      · exact ihleft l hl hmem
      · exact ihright r hr hmem

/-- Sums within a total that is in range are in range too. -/
theorem length?_of_total? {tree : Concatenation} {n : Nat} (h : tree.total? = some n)
    (hlimit : n < Count.limit) : tree.length? = some n := by
  induction tree generalizing n with
  | single operand => exact h
  | paren _ _ ih => exact ih h hlimit
  | join _ left right ihleft ihright =>
      obtain ⟨l, r, hl, hr, rfl⟩ := total?_join_eq_some_iff.mp h
      have hleft : left.length? = some l := ihleft hl (by omega)
      have hright : right.length? = some r := ihright hr (by omega)
      exact length?_join_eq_some_iff.mpr ⟨l, r, hleft, hright, hlimit, rfl⟩

/-- A length that is not lost is the total, and so it is of all joins. -/
theorem total?_of_length? {tree : Concatenation} {n : Nat} (h : tree.length? = some n) :
    tree.total? = some n ∧
      ∀ part ∈ tree.joins, ∀ m, part.total? = some m → m < Count.limit := by
  induction tree generalizing n with
  | single operand => exact ⟨h, List.forall_mem_nil _⟩
  | paren _ _ ih => exact ih h
  | join node left right ihleft ihright =>
      obtain ⟨l, r, hl, hr, hlimit, rfl⟩ := length?_join_eq_some_iff.mp h
      obtain ⟨hleft, hleftJoins⟩ := ihleft hl
      obtain ⟨hright, hrightJoins⟩ := ihright hr
      have hwhole : (join node left right).total? = some (l + r) :=
        total?_join_eq_some_iff.mpr ⟨l, r, hleft, hright, rfl⟩
      refine ⟨hwhole, fun part hmem m hm => ?_⟩
      rw [joins, List.mem_append, List.mem_append, List.mem_singleton] at hmem
      rcases hmem with (hmem | hmem) | rfl
      · exact hleftJoins part hmem m hm
      · exact hrightJoins part hmem m hm
      · rw [hwhole] at hm
        cases hm
        exact hlimit

theorem length?_of_losesLength {tree : Concatenation} (h : tree.LosesLength) :
    tree.length? = none := by
  refine Option.eq_none_iff_forall_ne_some.mpr fun n hn => ?_
  obtain ⟨htotal, hjoins⟩ := total?_of_length? hn
  rcases h with hunknown | ⟨part, hpart, m, hm, hlimit⟩
  · rw [total?_eq_none hunknown] at htotal
    cases htotal
  · exact absurd (hjoins part hpart m hm) (Nat.not_lt.mpr hlimit)

end Concatenation

/-! ## Types -/

/-- The operand is a character literal, or the map has a character type for it. -/
inductive Operand.Measured (types : TypeMap) : Operand → Prop where
  | literal (node : Node) (content : String) :
      Measured types ⟨.literal node (.character content), some content.length⟩
  | recorded {e : Expr} {length : Option Nat} (h : types.get? e.id = some (.character length)) :
      Measured types ⟨e, length⟩

/-- All operands have the lengths that they are listed with. -/
def Concatenation.Measured (tree : Concatenation) (types : TypeMap) : Prop :=
  ∀ operand ∈ tree.operands, operand.Measured types

/-- Character values of any length can be joined. -/
theorem Verdict.binary_concat (options : Options) (node : Node) (m n : Option Nat) :
    binary options node .concat (.character m) (.character n) =
      clean (.character (do Count.add? (← m) (← n))) := rfl

namespace Concatenation

section

variable {ctx : Context} {types : TypeMap} {loops : List String}

theorem verdict_type {tree : Concatenation} {expected : Option Ty}
    (hrecorded : Recorded ctx types (tree.expr.steps loops expected))
    (hoperands : tree.Measured types) :
    (tree.expr.verdict ctx loops expected).type = .character tree.length? := by
  induction tree generalizing expected with
  | single operand =>
      cases hoperands operand (List.mem_singleton_self operand) with
      | literal node content => rfl
      | recorded h => exact Option.some.inj (hrecorded.get?_self.symm.trans h)
  | paren node inner ih => exact ih (hrecorded.mono (List.subset_append_left _ _)) hoperands
  | join node left right ihleft ihright =>
      obtain ⟨hleft, hright⟩ := List.forall_mem_append.mp hoperands
      have hparts := hrecorded.mono (List.subset_append_left _ _)
      have hleft := ihleft (hparts.mono (List.subset_append_left _ _)) hleft
      have hright := ihright (hparts.mono (List.subset_append_right _ _)) hright
      rw [expr, Expr.verdict, hleft, hright, Verdict.binary_concat]
      rfl

/-- A literal counts characters, whatever they take up in memory. -/
example (ctx : Context) (node : Node) :
    ((Expr.literal node (.character "∂x")).verdict ctx [] none).type = .character (some 2) :=
  rfl

/-- Every join is visited on the way, and its rule has nothing to report. -/
theorem joins_reports {tree : Concatenation} {expected : Option Ty}
    (hrecorded : Recorded ctx types (tree.expr.steps loops expected))
    (hoperands : tree.Measured types) :
    ∀ part ∈ tree.joins, ∃ expected',
      .node loops expected' part.expr ∈ tree.expr.steps loops expected ∧
        (part.expr.verdict ctx loops expected').reports = [] := by
  induction tree generalizing expected with
  | single operand => exact List.forall_mem_nil _
  | paren node inner ih =>
      intro part hmem
      have hinner := hrecorded.mono (List.subset_append_left _ _)
      obtain ⟨expected', hstep, hreports⟩ := ih hinner hoperands part hmem
      exact ⟨expected', List.mem_append_left _ hstep, hreports⟩
  | join node left right ihleft ihright =>
      obtain ⟨hleft, hright⟩ := List.forall_mem_append.mp hoperands
      have hparts := hrecorded.mono (List.subset_append_left _ _)
      have hleftSteps := hparts.mono (List.subset_append_left _ _)
      have hrightSteps := hparts.mono (List.subset_append_right _ _)
      intro part hmem
      rw [joins, List.mem_append, List.mem_append, List.mem_singleton] at hmem
      rcases hmem with (hmem | hmem) | rfl
      · obtain ⟨expected', hstep, hreports⟩ := ihleft hleftSteps hleft part hmem
        exact ⟨expected', List.mem_append_left _ (List.mem_append_left _ hstep), hreports⟩
      · obtain ⟨expected', hstep, hreports⟩ := ihright hrightSteps hright part hmem
        exact ⟨expected', List.mem_append_left _ (List.mem_append_right _ hstep), hreports⟩
      · refine ⟨expected, Expr.node_mem_steps loops expected _, ?_⟩
        rw [expr, Expr.verdict, verdict_type hleftSteps hleft, verdict_type hrightSteps hright,
          Verdict.binary_concat]
        rfl

end

/-- What is known about a concatenation from types and diagnostics. -/
structure TypedSpec (tree : Concatenation) (types : TypeMap) (ds : List Diagnostic) : Prop where
  /-- The whole is as long as its operands together. -/
  sized : ∀ n, tree.total? = some n → n < Count.limit →
    types.get? tree.expr.id = some (.character (some n))
  unsized : tree.LosesLength → types.get? tree.expr.id = some (.character none)
  /-- No join lacks a rule for its operands. -/
  quiet : ∀ part ∈ tree.joins, ¬Names (ofKind .binaryOperands ds) part.expr.id

theorem typedSpec {ctx : Context} {types : TypeMap} {steps : List Step}
    (hrecorded : Recorded ctx types steps) (distinct : Distinct steps) {tree : Concatenation}
    {loops : List String} {expected : Option Ty} (hsteps : tree.expr.steps loops expected ⊆ steps)
    (hoperands : tree.Measured types) :
    tree.TypedSpec types (Step.diagnostics ctx steps) := by
  have hown := hrecorded.mono hsteps
  have htype : types.get? tree.expr.id = some (.character tree.length?) := by
    rw [hown.get?_self, verdict_type hown hoperands]
  refine ⟨?_, ?_, ?_⟩
  · intro n htotal hlimit
    rw [htype, length?_of_total? htotal hlimit]
  · intro hlost
    rw [htype, length?_of_losesLength hlost]
  · rintro part hmem ⟨d, hd, hid⟩
    obtain ⟨expected', hstep, hreports⟩ := joins_reports hown hoperands part hmem
    have hreport := distinct.mem_verdict_reports (hsteps hstep) hd hid
    rw [hreports] at hreport
    cases hreport

end Concatenation

end FortranTyping

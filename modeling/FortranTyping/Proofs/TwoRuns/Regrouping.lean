import FortranTyping.Proofs.Trees.Mapping
import FortranTyping.Proofs.Ty.Laws
import FortranTyping.Proofs.Walk.Tasks
import Mathlib.Data.Multiset.Fold

/-!
# The order and grouping of operands

Two expressions that combine the same operands by arithmetic, in whatever order and with whatever
parentheses, have the same type up to its cause. Only the reports tell them apart, for these are
about the operations on the way.
-/

namespace FortranTyping

/-! ## Types of operands together -/

/-- The type of all operands together, if there are any. -/
def Ty.chain (types : Multiset (Option Ty)) : Option Ty :=
  types.fold (Option.merge Ty.arithmetic) none

namespace Ty

theorem chain_singleton (type : Option Ty) : chain {type} = type := by
  rw [chain, Multiset.fold_singleton, Option.merge_none_right]

theorem chain_add (types types' : Multiset (Option Ty)) :
    chain (types + types') = Option.merge arithmetic (chain types) (chain types') :=
  Multiset.fold_add (Option.merge arithmetic) none none types types'

end Ty

/-! ## Expressions -/

def BinaryOp.isArithmetic : BinaryOp → Bool
  | add | sub | mul | div => true
  | _ => false

/-- The expression combines the operands by `+`, `-`, `*` and `/`, in some order and grouping. -/
inductive Expr.Combines : Expr → Multiset Expr → Prop where
  | operand (e : Expr) : Combines e {e}
  | paren (node : Node) {inner : Expr} {operands : Multiset Expr} (h : Combines inner operands) :
      Combines (.paren node inner) operands
  | operation (node : Node) {op : BinaryOp} {left right : Expr} {lefts rights : Multiset Expr}
      (hop : op.isArithmetic = true) (hleft : Combines left lefts)
      (hright : Combines right rights) : Combines (.binary node op left right) (lefts + rights)

/-- With and without a report, an operation that has no rule is unknown. -/
theorem Verdict.binary_arithmetic (options : Options) (node : Node) {op : BinaryOp}
    (hop : op.isArithmetic = true) (left right : Ty) :
    (binary options node op left right).type.withoutCause = left.arithmetic right := by
  have hresult : op.result left right = left.arithmetic right := by
    cases op <;> first | rfl | cases hop
  have hrelation : op.isRelation = false := by
    cases op <;> first | rfl | cases hop
  cases hallows : op.allows left right with
  | true =>
      simp only [binary, hallows, Bool.true_or, ite_true, clean, hresult]
      exact Ty.arithmetic_withoutCause left right
  | false =>
      have hunknown := BinaryOp.result_isUnknown hrelation hallows
      have hverdict : (binary options node op left right).type.isUnknown = true := by
        simp only [binary, hallows, hrelation, Bool.false_or, Bool.false_eq_true, ite_false]
        split
        · exact hunknown
        · rfl
      rw [hresult] at hunknown
      rw [← Ty.arithmetic_withoutCause]
      exact Ty.withoutCause_eq_of_isUnknown hverdict hunknown

/-- What is expected of each operand. Only a single one, in parentheses at most, hears of it. -/
def operandExpected (expected : Option Ty) (operands : Multiset Expr) : Option Ty :=
  if operands.card = 1 then expected else none

theorem operandExpected_none (operands : Multiset Expr) : operandExpected none operands = none :=
  ite_self none

namespace Expr.Combines

variable {e : Expr} {operands : Multiset Expr}

theorem card_pos (h : e.Combines operands) : 0 < operands.card := by
  induction h with
  | operand e => exact Nat.one_pos
  | paren node _ ih => exact ih
  | operation node hop _ _ ih _ =>
      rw [Multiset.card_add]
      exact Nat.add_pos_left ih _

theorem operandExpected_add {left right : Expr} {lefts rights : Multiset Expr}
    (hleft : left.Combines lefts) (hright : right.Combines rights) (expected : Option Ty) :
    operandExpected expected (lefts + rights) = none := by
  have hlefts := hleft.card_pos
  have hrights := hright.card_pos
  refine if_neg ?_
  rw [Multiset.card_add]
  omega

/-- The type of an expression, from those of its operands. -/
theorem chain_verdicts (h : e.Combines operands) (ctx : Context) (loops : List String)
    (expected : Option Ty) :
    Ty.chain (operands.map fun operand => some
        (operand.verdict ctx loops (operandExpected expected operands)).type.withoutCause) =
      some (e.verdict ctx loops expected).type.withoutCause := by
  induction h generalizing expected with
  | operand e =>
      rw [Multiset.map_singleton, Ty.chain_singleton]
      rfl
  | paren node _ ih => exact ih expected
  | operation node hop hleft hright ihleft ihright =>
      have hnone := operandExpected_none
      have hleftChain := ihleft none
      have hrightChain := ihright none
      rw [hnone] at hleftChain hrightChain
      rw [operandExpected_add hleft hright, Multiset.map_add, Ty.chain_add, hleftChain, hrightChain,
        Expr.verdict, Verdict.binary_arithmetic _ _ hop]
      exact congrArg some (Ty.arithmetic_congr (Ty.withoutCause_withoutCause _)
        (Ty.withoutCause_withoutCause _))

/-- The operands are visited on the way. -/
theorem steps_subset (h : e.Combines operands) (loops : List String) (expected : Option Ty) :
    ∀ operand ∈ operands,
      operand.steps loops (operandExpected expected operands) ⊆ e.steps loops expected := by
  induction h generalizing expected with
  | operand e =>
      intro operand hmem
      cases Multiset.mem_singleton.mp hmem
      exact List.Subset.refl _
  | paren node _ ih =>
      intro operand hmem
      exact List.subset_append_of_subset_left _ (ih expected operand hmem)
  | operation node hop hleft hright ihleft ihright =>
      intro operand hmem
      rw [operandExpected_add hleft hright]
      refine List.subset_append_of_subset_left _ ?_
      rcases Multiset.mem_add.mp hmem with hmem | hmem
      · have hsteps := ihleft none operand hmem
        rw [operandExpected_none] at hsteps
        exact List.subset_append_of_subset_left _ hsteps
      · have hsteps := ihright none operand hmem
        rw [operandExpected_none] at hsteps
        exact List.subset_append_of_subset_right _ hsteps

end Expr.Combines

namespace Expr

/-! Two ways to combine three operands. -/

/-- The expression `(a + b) * c`, with its nodes numbered from `index` on. -/
def product (index : Nat) (a b c : Expr) : Expr :=
  .binary (.ofIndex (index + 2)) .mul
    (.paren (.ofIndex (index + 1)) (.binary (.ofIndex index) .add a b)) c

/-- The expression `c - b / a`. -/
def difference (index : Nat) (a b c : Expr) : Expr :=
  .binary (.ofIndex (index + 1)) .sub c (.binary (.ofIndex index) .div b a)

theorem combines_product (index : Nat) (a b c : Expr) :
    (product index a b c).Combines ({a} + {b} + {c}) :=
  .operation _ rfl (.paren _ (.operation _ rfl (.operand a) (.operand b))) (.operand c)

theorem combines_difference (index : Nat) (a b c : Expr) :
    (difference index a b c).Combines ({a} + {b} + {c}) := by
  have hswap : ({a} + {b} + {c} : Multiset Expr) = {c} + ({b} + {a}) := by
    rw [Multiset.add_comm {b}, Multiset.add_comm {c}]
  rw [hswap]
  exact .operation _ rfl (.operand c) (.operation _ rfl (.operand b) (.operand a))

end Expr

/-! ## Runs -/

/-- The nodes of an expression that is still to be visited. -/
structure Expr.Unvisited (e : Expr) (pass : Pass) : Prop where
  distinct : e.ids.Nodup
  untyped : ∀ id ∈ e.ids, pass.types.get? id = none

/-- The type of a node, but for its cause. -/
def TypeMap.causeless? (types : TypeMap) (id : NodeId) : Option Ty :=
  (types.get? id).map Ty.withoutCause

theorem Expr.Combines.chain_recorded {e : Expr} {operands : Multiset Expr}
    (h : e.Combines operands) {ctx : Context} {types : TypeMap} {loops : List String}
    {expected : Option Ty} (hrecorded : Recorded ctx types (e.steps loops expected)) :
    Ty.chain (operands.map fun operand => types.causeless? operand.id) =
      types.causeless? e.id := by
  have hoperands : operands.map (fun operand => types.causeless? operand.id) =
      operands.map fun operand => some
        (operand.verdict ctx loops (operandExpected expected operands)).type.withoutCause := by
    refine Multiset.map_congr rfl fun operand hmem => ?_
    rw [TypeMap.causeless?, (hrecorded.mono (h.steps_subset loops expected operand hmem)).get?_self]
    rfl
  rw [hoperands, h.chain_verdicts ctx loops expected, TypeMap.causeless?, hrecorded.get?_self]
  rfl

theorem Infer.run_arithmetic {e e' : Expr} {operands : Multiset Expr} (h : e.Combines operands)
    (h' : e'.Combines operands) (ctx : Context) (loops : List String) (expected : Option Ty)
    {pass pass' : Pass} (hpass : e.Unvisited pass) (hpass' : e'.Unvisited pass') :
    ((Infer.expr ctx loops expected e).run pass).1.withoutCause =
      ((Infer.expr ctx loops expected e').run pass').1.withoutCause := by
  rw [run_expr hpass.distinct hpass.untyped, run_expr hpass'.distinct hpass'.untyped]
  have hchain := h.chain_verdicts ctx loops expected
  rw [h'.chain_verdicts ctx loops expected] at hchain
  exact (Option.some.inj hchain).symm

/-- Arithmetic on types, in expressions by themselves, and in the check of a unit. -/
structure ArithmeticSpec (resolver : Resolver) (options : Options) (program : ProgramUnit) :
    Prop where
  laws : ∀ a b c : Ty, a.ArithmeticLaws b c
  /-- Expressions of the same operands, each visited for the first time. -/
  expressions : ∀ loops expected operands e e', e.Combines operands → e'.Combines operands →
    ∀ pass pass', e.Unvisited pass → e'.Unvisited pass' →
      ((Infer.expr ⟨resolver, options⟩ loops expected e).run pass).1.withoutCause =
        ((Infer.expr ⟨resolver, options⟩ loops expected e').run pass').1.withoutCause
  /-- Expressions whose operands have the same types, here and in this or any other unit. -/
  recorded : ∀ (program' : ProgramUnit) (resolver' : Resolver) (options' : Options),
    program'.ids.Nodup → ∀ e ∈ program.postorder, ∀ e' ∈ program'.postorder,
      ∀ operands operands', e.Combines operands → e'.Combines operands' →
        let types := (program.check resolver options).types
        let types' := (program'.check resolver' options').types
        operands.map (fun operand => types.causeless? operand.id) =
            operands'.map (fun operand => types'.causeless? operand.id) →
          types.causeless? e.id = types'.causeless? e'.id

namespace ProgramUnit

variable {program : ProgramUnit}

/-- The type of an arithmetic expression is that of its operands together. -/
theorem chain_check (resolver : Resolver) (options : Options) (distinct : program.ids.Nodup)
    {e : Expr} (hmem : e ∈ program.postorder) {operands : Multiset Expr}
    (h : e.Combines operands) :
    let types := (program.check resolver options).types
    Ty.chain (operands.map fun operand => types.causeless? operand.id) =
      types.causeless? e.id := by
  obtain ⟨loops, expected, hrecorded⟩ := check_recorded_of_mem resolver options distinct hmem
  exact h.chain_recorded hrecorded

/-- The type of an arithmetic expression does not depend on the order and grouping of its
operands. -/
theorem check_arithmeticSpec (resolver : Resolver) (options : Options)
    (distinct : program.ids.Nodup) : ArithmeticSpec resolver options program where
  laws := Ty.arithmeticLaws
  expressions := by
    intro loops expected operands e e' h h' pass pass' hpass hpass'
    exact Infer.run_arithmetic h h' _ loops expected hpass hpass'
  recorded := by
    intro program' resolver' options' distinct' e hmem e' hmem' operands operands' h h' types
      types' hoperands
    have hchain := chain_check resolver options distinct hmem h
    have hchain' := chain_check resolver' options' distinct' hmem' h'
    exact hchain.symm.trans ((congrArg Ty.chain hoperands).trans hchain')

def operandOf (index : Nat) (name : String) : Expr :=
  .reference (.ofIndex index) ⟨.ofWidth 0 1, name⟩

/-- The unit `integer :: a; real :: b(3), c; x = (a + b) * c; x = c - b / a`. -/
def regrouped : ProgramUnit :=
  let entity (name : String) (shape : Option Shape) : Entity := ⟨⟨.ofWidth 0 1, name⟩, shape, none⟩
  let declaration (keyword : Keyword) (entities : List Entity) : Located Declaration :=
    ⟨.ofWidth 0 9, ⟨⟨⟨.ofWidth 0 1, keyword⟩, none, none⟩, [], entities⟩⟩
  let bounds : Shape := [⟨none, some (.literal (.ofIndex 13) (.integer "3"))⟩]
  ⟨.mainProgram, ⟨.ofWidth 0 1, "p"⟩,
    [declaration .integer [entity "a" none],
      declaration .real [entity "b" (some bounds), entity "c" none]],
    [⟨.ofWidth 0 9, .assignment (operandOf 0 "x")
        (.product 4 (operandOf 1 "a") (operandOf 2 "b") (operandOf 3 "c"))⟩,
      ⟨.ofWidth 0 9, .assignment (operandOf 7 "x")
        (.difference 11 (operandOf 8 "a") (operandOf 9 "b") (operandOf 10 "c"))⟩]⟩

/-- The three operands together are an array of three real numbers, one way or the other. -/
theorem regrouped_arithmeticSpec :
    let ctx : Context := ⟨.ofScope regrouped.ownScope, {}⟩
    let run (e : Expr) := (Infer.expr ctx [] none e).run .empty
    let a := operandOf 1 "a"
    let b := operandOf 2 "b"
    let c := operandOf 3 "c"
    regrouped.ids.Nodup ∧ ArithmeticSpec ctx.resolver ctx.options regrouped ∧
      (run (.product 4 a b c)).1.withoutCause = (run (.difference 4 a b c)).1.withoutCause ∧
        (run (.product 4 a b c)).1 = .array .real 3 := by
  intro ctx run a b c
  have distinct : regrouped.ids.Nodup := by decide
  have hspec : ArithmeticSpec ctx.resolver ctx.options regrouped :=
    check_arithmeticSpec _ _ distinct
  have hproduct : (Expr.product 4 a b c).Unvisited .empty := ⟨by decide, fun _ _ => rfl⟩
  have hdifference : (Expr.difference 4 a b c).Unvisited .empty := ⟨by decide, fun _ _ => rfl⟩
  refine ⟨distinct, hspec, ?_, by decide +kernel⟩
  exact hspec.expressions [] none _ _ _ (Expr.combines_product 4 a b c)
    (Expr.combines_difference 4 a b c) _ _ hproduct hdifference

end ProgramUnit

end FortranTyping

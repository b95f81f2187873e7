import FortranTyping.Proofs.Walk.Postorder
import FortranTyping.Source.Builder
import Mathlib.Data.List.Perm.Basic

/-!
# Building sessions

Sequences of calls on one builder. What a call hands out is a piece of a tree, and a piece that is
held can go into one later call. A call makes at most one node and places at most one leaf: all
other nodes and leaves of what it hands out are those of its arguments.
-/

namespace FortranTyping

open List

/-! ## Leaves -/

/-- Brackets are a leaf if there is nothing between them. -/
def bracketLeaves (node : Node) : List Entry → List Span
  | [] => [node.span]
  | _ :: _ => []

mutual

/-- The places of literals, names and empty brackets, in the order in which a tree that is built
from left to right comes to them: a name behind what it is applied to. -/
def Expr.leaves : Expr → List Span
  | .literal node _ => [node.span]
  | .unary _ _ operand => operand.leaves
  | .binary _ _ left right => left.leaves ++ right.leaves
  | .paren _ inner => inner.leaves
  | .reference _ name => [name.span]
  | .element _ name subscripts => subscriptLeaves subscripts ++ [name.span]
  | .array node entries => entryLeaves entries ++ bracketLeaves node entries
termination_by structural e => e

def subscriptLeaves : List Expr → List Span
  | [] => []
  | e :: rest => e.leaves ++ subscriptLeaves rest
termination_by structural subscripts => subscripts

def Entry.leaves : Entry → List Span
  | .plain value => value.leaves
  | .impliedDo _ body loopVariable start stop stride =>
      entryLeaves body ++ start.leaves ++ stop.leaves ++ strideLeaves stride ++
        [loopVariable.span]
termination_by structural entry => entry

def strideLeaves : Option Expr → List Span
  | none => []
  | some stride => stride.leaves
termination_by structural stride => stride

def entryLeaves : List Entry → List Span
  | [] => []
  | entry :: rest => entry.leaves ++ entryLeaves rest
termination_by structural entries => entries

end

theorem subscriptLeaves_eq_flatMap (subscripts : List Expr) :
    subscriptLeaves subscripts = subscripts.flatMap Expr.leaves := by
  induction subscripts with
  | nil => rfl
  | cons e rest ih => rw [subscriptLeaves, ih, flatMap_cons]

theorem strideLeaves_eq_flatMap (stride : Option Expr) :
    strideLeaves stride = stride.toList.flatMap Expr.leaves := by
  cases stride <;> simp [strideLeaves]

theorem entryLeaves_eq_flatMap (entries : List Entry) :
    entryLeaves entries = entries.flatMap Entry.leaves := by
  induction entries with
  | nil => rfl
  | cons entry rest ih => rw [entryLeaves, ih, flatMap_cons]

theorem subscriptPostorder_eq_flatMap (subscripts : List Expr) :
    subscriptPostorder subscripts = subscripts.flatMap Expr.postorder := by
  induction subscripts with
  | nil => rfl
  | cons e rest ih => rw [subscriptPostorder, ih, flatMap_cons]

theorem stridePostorder_eq_flatMap (stride : Option Expr) :
    stridePostorder stride = stride.toList.flatMap Expr.postorder := by
  cases stride <;> simp [stridePostorder]

theorem entryPostorder_eq_flatMap (entries : List Entry) :
    entryPostorder entries = entries.flatMap Entry.postorder := by
  induction entries with
  | nil => rfl
  | cons entry rest ih => rw [entryPostorder, ih, flatMap_cons]

/-! ## Expressions of a declaration -/

def TypeSpec.expressions (typeSpec : TypeSpec) : List Expr :=
  typeSpec.kind.toList ++ typeSpec.length.toList

def Attribute.expressions (a : Attribute) : List Expr :=
  a.shape?.elim [] Shape.bounds

/-- The outermost expressions, with those of shapes that are not in force. -/
def Declaration.contents (declaration : Declaration) : List Expr :=
  declaration.typeSpec.expressions ++ declaration.attributes.flatMap Attribute.expressions ++
    declaration.entities.flatMap Entity.expressions

def ProgramUnit.contents (program : ProgramUnit) : List Expr :=
  program.declarations.flatMap (·.value.contents) ++
    program.statements.flatMap (·.value.expressions)

def TypeSpec.leaves (typeSpec : TypeSpec) : List Span :=
  typeSpec.expressions.flatMap Expr.leaves ++ [typeSpec.keyword.span]

def Entity.leaves (entity : Entity) : List Span :=
  entity.expressions.flatMap Expr.leaves ++ [entity.name.span]

def Declaration.leaves (declaration : Declaration) : List Span :=
  declaration.typeSpec.leaves ++
    (declaration.attributes.flatMap Attribute.expressions).flatMap Expr.leaves ++
    declaration.entities.flatMap Entity.leaves

/-- A statement that is not an assignment is a leaf. -/
def Statement.leaves (span : Span) : Statement → List Span
  | .assignment target value => target.leaves ++ value.leaves
  | .other => [span]

def ProgramUnit.leaves (program : ProgramUnit) : List Span :=
  program.declarations.flatMap (·.value.leaves) ++
    program.statements.flatMap (fun located => located.value.leaves located.span) ++
    [program.name.span]

/-! ## Pieces -/

/-- What a builder hands out. -/
inductive Piece where
  | name (name : Located String)
  | expr (e : Expr)
  | entry (entry : Entry)
  | typeSpec (typeSpec : TypeSpec)
  | entity (entity : Entity)
  | declaration (declaration : Located Declaration)
  | statement (statement : Located Statement)
  | unit (program : ProgramUnit)

/-- An expression is an entry of a constructor as it stands. -/
def Entry.piece : Entry → Piece
  | .plain value => .expr value
  | entry => .entry entry

namespace Piece

/-- All expressions in a piece, each behind those it is built from. -/
def nodes : Piece → List Expr
  | .name _ => []
  | .expr e => e.postorder
  | .entry item => item.postorder
  | .typeSpec spec => spec.expressions.flatMap Expr.postorder
  | .entity item => item.expressions.flatMap Expr.postorder
  | .declaration located => located.value.contents.flatMap Expr.postorder
  | .statement located => located.value.expressions.flatMap Expr.postorder
  | .unit program => program.contents.flatMap Expr.postorder

def leaves : Piece → List Span
  | .name located => [located.span]
  | .expr e => e.leaves
  | .entry item => item.leaves
  | .typeSpec spec => spec.leaves
  | .entity item => item.leaves
  | .declaration located => located.value.leaves
  | .statement located => located.value.leaves located.span
  | .unit program => program.leaves

/-- The leaf that belongs to a piece itself and to no part of it. -/
def ownLeaf : Piece → List Span
  | .name located => [located.span]
  | .expr (.literal node _) => [node.span]
  | .expr (.reference _ located) | .expr (.element _ located _) => [located.span]
  | .expr (.array node entries) => bracketLeaves node entries
  | .expr _ => []
  | .entry (.plain _) => []
  | .entry (.impliedDo _ _ loopVariable _ _ _) => [loopVariable.span]
  | .typeSpec spec => [spec.keyword.span]
  | .entity item => [item.name.span]
  | .declaration _ => []
  | .statement ⟨_, .assignment _ _⟩ => []
  | .statement ⟨span, .other⟩ => [span]
  | .unit program => [program.name.span]

theorem nodes_piece (entry : Entry) : entry.piece.nodes = entry.postorder := by
  cases entry <;> rfl

theorem leaves_piece (entry : Entry) : entry.piece.leaves = entry.leaves := by
  cases entry <;> rfl

end Piece

/-! ## Calls -/

/-- A call on a builder, with its arguments. -/
inductive Call where
  | freshId
  | name (text : String)
  | literal (value : Literal)
  | unary (op : UnaryOp) (operand : Expr)
  | binary (op : BinaryOp) (left right : Expr)
  | paren (inner : Expr)
  | reference (text : String)
  | element (text : String) (subscripts : List Expr)
  | array (entries : List Entry)
  | impliedDo (body : List Entry) (loopVariable : String) (start stop : Expr)
      (stride : Option Expr)
  | typeSpec (keyword : Keyword) (kind length : Option Expr)
  | entity (text : String) (shape : Option Shape) (init : Option Expr)
  | declaration (typeSpec : TypeSpec) (attributes : List Attribute) (entities : List Entity)
  | assignment (target value : Expr)
  | otherStatement
  | unit (kind : UnitKind) (text : String) (declarations : List (Located Declaration))
      (statements : List (Located Statement))

namespace Call

/-- The pieces that go into what the call makes. -/
def arguments : Call → List Piece
  | .freshId | .name _ | .literal _ | .reference _ | .otherStatement => []
  | .unary _ operand => [.expr operand]
  | .binary _ left right => [.expr left, .expr right]
  | .paren inner => [.expr inner]
  | .element _ subscripts => subscripts.map .expr
  | .array entries => entries.map Entry.piece
  | .impliedDo body _ start stop stride =>
      body.map Entry.piece ++ (start :: stop :: stride.toList).map .expr
  | .typeSpec _ kind length => (kind.toList ++ length.toList).map .expr
  | .entity _ shape init => (shape.elim [] Shape.bounds ++ init.toList).map .expr
  | .declaration spec attributes entities =>
      .typeSpec spec ::
        ((attributes.flatMap Attribute.expressions).map .expr ++ entities.map .entity)
  | .assignment target value => [.expr target, .expr value]
  | .unit _ _ declarations statements => declarations.map .declaration ++ statements.map .statement

/-- The piece that the call hands out, if any. An identity that is reserved is none. -/
def run : Call → Build (List Piece)
  | .freshId => do
      let _ ← Build.freshId
      return []
  | .name text => return [.name (← Build.name text)]
  | .literal value => return [.expr (← Build.literal value)]
  | .unary op operand => return [.expr (← Build.unary op operand)]
  | .binary op left right => return [.expr (← Build.binary op left right)]
  | .paren inner => return [.expr (← Build.paren inner)]
  | .reference text => return [.expr (← Build.reference text)]
  | .element text subscripts => return [.expr (← Build.element text subscripts)]
  | .array entries => return [.expr (← Build.array entries)]
  | .impliedDo body loopVariable start stop stride =>
      return [.entry (← Build.impliedDo body loopVariable start stop stride)]
  | .typeSpec keyword kind length => return [.typeSpec (← Build.typeSpec keyword kind length)]
  | .entity text shape init => return [.entity (← Build.entity text shape init)]
  | .declaration spec attributes entities =>
      return [.declaration (Build.declaration spec attributes entities)]
  | .assignment target value => return [.statement (Build.assignment target value)]
  | .otherStatement => return [.statement (← Build.otherStatement)]
  | .unit kind text declarations statements =>
      return [.unit (← Build.unit kind text declarations statements)]

/-! ## What a call makes -/

/-- What a call may hand out: a node with the arguments for its parts, or whatever else is built
from them, at any place. The rules do not invoke the builder. -/
inductive Makes : Call → List Piece → Prop where
  | freshId : Makes .freshId []
  | name (text located) : Makes (.name text) [.name located]
  | literal (value node) : Makes (.literal value) [.expr (.literal node value)]
  | unary (op operand node) : Makes (.unary op operand) [.expr (.unary node op operand)]
  | binary (op left right node) :
      Makes (.binary op left right) [.expr (.binary node op left right)]
  | paren (inner node) : Makes (.paren inner) [.expr (.paren node inner)]
  | reference (text node name) : Makes (.reference text) [.expr (.reference node name)]
  | element (text subscripts node name) :
      Makes (.element text subscripts) [.expr (.element node name subscripts)]
  | array (entries node) : Makes (.array entries) [.expr (.array node entries)]
  | impliedDo (body text start stop stride span loopVariable) :
      Makes (.impliedDo body text start stop stride)
        [.entry (.impliedDo span body loopVariable start stop stride)]
  | typeSpec (keyword kind length located) :
      Makes (.typeSpec keyword kind length) [.typeSpec ⟨located, kind, length⟩]
  | entity (text shape init located) :
      Makes (.entity text shape init) [.entity ⟨located, shape, init⟩]
  | declaration (spec attributes entities span) :
      Makes (.declaration spec attributes entities)
        [.declaration ⟨span, spec, attributes, entities⟩]
  | assignment (target value span) :
      Makes (.assignment target value) [.statement ⟨span, .assignment target value⟩]
  | otherStatement (span) : Makes .otherStatement [.statement ⟨span, .other⟩]
  | unit (kind text declarations statements located) :
      Makes (.unit kind text declarations statements)
        [.unit ⟨kind, located, declarations, statements⟩]

theorem makes_run (c : Call) (b : Builder) : c.Makes (c.run.run b).1 := by
  cases c with
  | array entries => cases entries <;> exact .array _ _
  | _ => constructor

/-- The nodes of what is made are those of the arguments, but for a new one behind them. -/
theorem Makes.nodes {c : Call} {made : List Piece} (h : c.Makes made) :
    made.flatMap Piece.nodes = c.arguments.flatMap Piece.nodes ∨
      ∃ e, made = [.expr e] ∧ e.postorder = c.arguments.flatMap Piece.nodes ++ [e] := by
  cases h with
  | freshId | name _ _ | otherStatement _ => exact .inl rfl
  | literal _ _ | reference _ _ _ => exact .inr ⟨_, rfl, rfl⟩
  | unary _ _ _ | binary _ _ _ _ | paren _ _ =>
      exact .inr ⟨_, rfl, by simp [arguments, Piece.nodes, Expr.postorder]⟩
  | element _ subscripts _ _ =>
      refine .inr ⟨_, rfl, ?_⟩
      simp [arguments, flatMap_map, Piece.nodes, Expr.postorder, subscriptPostorder_eq_flatMap]
  | array entries _ =>
      refine .inr ⟨_, rfl, ?_⟩
      simp [arguments, flatMap_map, Piece.nodes_piece, Expr.postorder, entryPostorder_eq_flatMap]
  | impliedDo body _ start stop stride _ _ =>
      simp only [arguments, flatMap_append, flatMap_map, Piece.nodes_piece]
      simp [Piece.nodes, Entry.postorder, entryPostorder_eq_flatMap, stridePostorder_eq_flatMap]
  | typeSpec _ kind length _ =>
      simp [arguments, flatMap_map, Piece.nodes, TypeSpec.expressions]
  | entity _ shape init _ =>
      simp [arguments, flatMap_map, Piece.nodes, Entity.expressions]
  | declaration spec attributes entities _ =>
      simp [arguments, flatMap_map, flatMap_assoc, Piece.nodes, Declaration.contents]
  | assignment target value _ =>
      simp [arguments, Piece.nodes, Statement.expressions]
  | unit _ _ declarations statements _ =>
      simp [arguments, flatMap_map, flatMap_assoc, Piece.nodes, ProgramUnit.contents]

/-- The leaves of what is made are those of the arguments and its own. -/
theorem Makes.leaves {c : Call} {made : List Piece} (h : c.Makes made) :
    made.flatMap Piece.leaves =
      c.arguments.flatMap Piece.leaves ++ made.flatMap Piece.ownLeaf := by
  cases h with
  | freshId | name _ _ | otherStatement _ | literal _ _ | reference _ _ _ => rfl
  | unary _ _ _ | binary _ _ _ _ | paren _ _ =>
      simp [arguments, Piece.leaves, Piece.ownLeaf, Expr.leaves]
  | element _ subscripts _ _ =>
      simp [arguments, flatMap_map, Piece.leaves, Piece.ownLeaf, Expr.leaves,
        subscriptLeaves_eq_flatMap]
  | array entries _ =>
      simp only [arguments, flatMap_map, Piece.leaves_piece]
      simp [Piece.leaves, Piece.ownLeaf, Expr.leaves, entryLeaves_eq_flatMap]
  | impliedDo body _ start stop stride _ _ =>
      simp only [arguments, flatMap_append, flatMap_map, Piece.leaves_piece]
      simp [Piece.leaves, Piece.ownLeaf, Entry.leaves, entryLeaves_eq_flatMap,
        strideLeaves_eq_flatMap]
  | typeSpec _ kind length _ =>
      simp [arguments, flatMap_map, Piece.leaves, Piece.ownLeaf, TypeSpec.leaves,
        TypeSpec.expressions]
  | entity _ shape init _ =>
      simp [arguments, flatMap_map, Piece.leaves, Piece.ownLeaf, Entity.leaves,
        Entity.expressions]
  | declaration spec attributes entities _ =>
      simp [arguments, flatMap_map, flatMap_assoc, Piece.leaves, Piece.ownLeaf,
        Declaration.leaves]
  | assignment target value _ =>
      simp [arguments, Piece.leaves, Piece.ownLeaf, Statement.leaves]
  | unit _ _ declarations statements _ =>
      simp [arguments, flatMap_map, Piece.leaves, Piece.ownLeaf, ProgramUnit.leaves]

/-- A node that a call makes takes the next identity. -/
theorem id_of_run {c : Call} {b : Builder} {e : Expr} (h : (c.run.run b).1 = [.expr e]) :
    e.id = ⟨b.nextId⟩ ∧ b.nextId < (c.run.run b).2.nextId := by
  cases c with
  | array entries =>
      cases entries <;>
      · cases h
        exact ⟨rfl, Nat.lt_succ_self _⟩
  | literal _ | unary _ _ | binary _ _ _ | paren _ | reference _ | element _ _ =>
      cases h
      exact ⟨rfl, Nat.lt_succ_self _⟩
  | _ => cases h

theorem nextId_le_run (c : Call) (b : Builder) : b.nextId ≤ (c.run.run b).2.nextId := by
  cases c with
  | array entries => cases entries <;> exact Nat.le_succ _
  | freshId | literal _ | unary _ _ | binary _ _ _ | paren _ | reference _ | element _ _ =>
      exact Nat.le_succ _
  | _ => exact Nat.le_refl _

/-- A call places nothing, or one leaf where the cursor is, and then moves the cursor on beyond the
byte behind the leaf. -/
theorem ownLeaf_run (c : Call) (b : Builder) :
    ((c.run.run b).1.flatMap Piece.ownLeaf = [] ∧ (c.run.run b).2.cursor = b.cursor) ∨
      ∃ width, (c.run.run b).1.flatMap Piece.ownLeaf = [.ofWidth b.cursor width] ∧
        (c.run.run b).2.cursor = b.cursor + width + 1 := by
  cases c with
  | freshId | unary _ _ | binary _ _ _ | paren _ | declaration _ _ _ | assignment _ _ =>
      exact .inl ⟨rfl, rfl⟩
  | array entries =>
      cases entries with
      | nil => exact .inr ⟨_, rfl, rfl⟩
      | cons entry rest => exact .inl ⟨rfl, rfl⟩
  | _ => exact .inr ⟨_, rfl, rfl⟩

end Call

/-! ## Sessions -/

/-- A builder, the pieces that are not part of another one yet, and the leaves that have been
placed, in the order of the calls. -/
structure Session where
  builder : Builder := {}
  held : List Piece := []
  placed : List Span := []

namespace Session

/-- What a call leads to if `rest` is held besides its arguments. -/
def call (s : Session) (c : Call) (rest : List Piece) : Session :=
  let made := c.run.run s.builder
  ⟨made.2, made.1 ++ rest, s.placed ++ made.1.flatMap Piece.ownLeaf⟩

/-- A sequence of calls, each of which takes its arguments away from what is held. -/
inductive Runs : Session → List Call → Session → Prop where
  | nil (s) : Runs s [] s
  | cons {s c calls s'} (rest) (h : s.held ~ c.arguments ++ rest) :
      Runs (s.call c rest) calls s' → Runs s (c :: calls) s'

/-- What every call keeps, a session keeps. -/
theorem Runs.keeps {P : Session → Prop}
    (step : ∀ {s : Session} {c : Call} {rest : List Piece}, P s →
      s.held ~ c.arguments ++ rest → P (s.call c rest))
    {s s' : Session} {calls : List Call} (h : Runs s calls s') (hs : P s) : P s' := by
  induction h with
  | nil s => exact hs
  | cons rest hperm _ ih => exact ih (step hs hperm)

end Session

end FortranTyping

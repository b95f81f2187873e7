import FortranTyping.Proofs.Trees.Mapping

/-!
# Changing names

A tree with other names for its variables and loop variables, and with the same nodes otherwise. The
values of integer literals do not depend on names. To put all names into lower case is such a
change; two units that become the same by it differ in nothing but the case of names.
-/

namespace FortranTyping

mutual

/-- The expression with its names changed by `f`. -/
def Expr.mapNames (f : String → String) : Expr → Expr
  | .literal node value => .literal node value
  | .unary node op operand => .unary node op (operand.mapNames f)
  | .binary node op left right => .binary node op (left.mapNames f) (right.mapNames f)
  | .paren node inner => .paren node (inner.mapNames f)
  | .reference node name => .reference node (name.map f)
  | .element node name subscripts => .element node (name.map f) (mapSubscriptNames f subscripts)
  | .array node entries => .array node (mapEntryNames f entries)
termination_by structural e => e

def mapSubscriptNames (f : String → String) : List Expr → List Expr
  | [] => []
  | e :: rest => e.mapNames f :: mapSubscriptNames f rest
termination_by structural subscripts => subscripts

def Entry.mapNames (f : String → String) : Entry → Entry
  | .plain value => .plain (value.mapNames f)
  | .impliedDo span body loopVariable start stop stride =>
      .impliedDo span (mapEntryNames f body) (loopVariable.map f) (start.mapNames f)
        (stop.mapNames f) (mapStrideNames f stride)
termination_by structural entry => entry

def mapStrideNames (f : String → String) : Option Expr → Option Expr
  | none => none
  | some stride => some (stride.mapNames f)
termination_by structural stride => stride

def mapEntryNames (f : String → String) : List Entry → List Entry
  | [] => []
  | entry :: rest => entry.mapNames f :: mapEntryNames f rest
termination_by structural entries => entries

end

theorem mapStrideNames_eq_map (f : String → String) (stride : Option Expr) :
    mapStrideNames f stride = stride.map (Expr.mapNames f) := by
  cases stride <;> rfl

def Designator.mapNames (f : String → String) (designator : Designator) : Designator :=
  ⟨designator.name.map f, designator.subscripts.map (mapSubscriptNames f)⟩

/-- The unit with the names of entities, variables and loop variables changed by `f`. -/
def ProgramUnit.mapNames (f : String → String) (program : ProgramUnit) : ProgramUnit :=
  program.map f (Expr.mapNames f)

/-! ## No change -/

mutual

theorem Expr.mapNames_id : (e : Expr) → e.mapNames id = e
  | .literal _ _ | .reference _ _ => rfl
  | .unary _ _ operand => by rw [Expr.mapNames, operand.mapNames_id]
  | .binary _ _ left right => by rw [Expr.mapNames, left.mapNames_id, right.mapNames_id]
  | .paren _ inner => by rw [Expr.mapNames, inner.mapNames_id]
  | .element _ _ subscripts => by rw [Expr.mapNames, mapSubscriptNames_id subscripts]; rfl
  | .array _ entries => by rw [Expr.mapNames, mapEntryNames_id entries]
termination_by structural e => e

theorem mapSubscriptNames_id :
    (subscripts : List Expr) → mapSubscriptNames id subscripts = subscripts
  | [] => rfl
  | e :: rest => by rw [mapSubscriptNames, e.mapNames_id, mapSubscriptNames_id rest]
termination_by structural subscripts => subscripts

theorem Entry.mapNames_id : (entry : Entry) → entry.mapNames id = entry
  | .plain value => by rw [Entry.mapNames, value.mapNames_id]
  | .impliedDo _ body _ start stop stride => by
      rw [Entry.mapNames, mapEntryNames_id body, start.mapNames_id, stop.mapNames_id,
        mapStrideNames_id stride]
      rfl
termination_by structural entry => entry

theorem mapStrideNames_id : (stride : Option Expr) → mapStrideNames id stride = stride
  | none => rfl
  | some stride => by rw [mapStrideNames, stride.mapNames_id]
termination_by structural stride => stride

theorem mapEntryNames_id : (entries : List Entry) → mapEntryNames id entries = entries
  | [] => rfl
  | entry :: rest => by rw [mapEntryNames, entry.mapNames_id, mapEntryNames_id rest]
termination_by structural entries => entries

end

theorem Designator.mapNames_id (designator : Designator) : designator.mapNames id = designator := by
  obtain ⟨name, subscripts⟩ := designator
  cases subscripts with
  | none => rfl
  | some subscripts => rw [mapNames, Option.map_some, mapSubscriptNames_id]; rfl

theorem ProgramUnit.mapNames_id (program : ProgramUnit) : program.mapNames id = program := by
  have hexpr : Expr.mapNames id = id := funext Expr.mapNames_id
  rw [mapNames, hexpr, map_id]
  rfl

/-! ## What does not depend on names -/

namespace Expr

variable (f : String → String)

theorem node_mapNames (e : Expr) : (e.mapNames f).node = e.node := by
  cases e <;> rfl

theorem id_mapNames (e : Expr) : (e.mapNames f).id = e.id := by
  rw [id, node_mapNames, id]

theorem span_mapNames (e : Expr) : (e.mapNames f).span = e.span := by
  rw [span, node_mapNames, span]

theorem integerValue?_mapNames : (e : Expr) → (e.mapNames f).integerValue? = e.integerValue?
  | .literal _ _ | .reference _ _ | .element _ _ _ | .array _ _ | .binary _ _ _ _ => rfl
  | .unary _ op operand => by
      have h := integerValue?_mapNames operand
      cases op <;> simp only [mapNames, integerValue?, h]
  | .paren _ inner => integerValue?_mapNames inner
termination_by structural e => e

theorem isArrayConstructor_mapNames (e : Expr) :
    (e.mapNames f).isArrayConstructor = e.isArrayConstructor := by
  have hbare : (e : Expr) → (e.mapNames f).bare = e.bare.mapNames f := by
    intro e
    induction e using Expr.bare.induct with
    | case1 node inner ih => exact ih
    | case2 e hparen =>
        cases e with
        | paren node inner => exact absurd rfl (hparen node inner)
        | _ => rfl
  unfold isArrayConstructor
  rw [hbare]
  cases e.bare <;> rfl

theorem designator?_mapNames (e : Expr) :
    (e.mapNames f).designator? = e.designator?.map (Designator.mapNames f) := by
  cases e <;> rfl

end Expr

/-! ## Lower case -/

theorem foldCase_foldCase (name : String) : foldCase (foldCase name) = foldCase name := by
  have hchar (c : Char) : c.toLower.toLower = c.toLower := by
    delta Char.toLower
    grind
  unfold foldCase
  rw [String.map_map]
  congr 1
  funext c
  exact hchar c

/-- The unit with all names in lower case. -/
def ProgramUnit.foldNames (program : ProgramUnit) : ProgramUnit :=
  program.mapNames foldCase

end FortranTyping

import FortranTyping.Infer.Unit

/-!
# Changing units

A unit with other names for its entities and other outermost expressions. If names that are the same
stay the same and integer values of expressions are kept, the new unit declares the same types, and
under each name the entity that comes from the one found in the old unit.
-/

namespace FortranTyping

/-! ## Changes -/

section

variable (f : String → String) (g : Expr → Expr)

def Dimension.mapExprs (dimension : Dimension) : Dimension :=
  ⟨dimension.lower.map g, dimension.upper.map g⟩

def Shape.mapExprs (shape : Shape) : Shape :=
  List.map (Dimension.mapExprs g) shape

def TypeSpec.mapExprs (spec : TypeSpec) : TypeSpec :=
  { spec with kind := spec.kind.map g, length := spec.length.map g }

def Attribute.mapExprs : Attribute → Attribute
  | dimension shape => dimension (shape.mapExprs g)
  | parameter => parameter
  | other text => other text

def Statement.mapExprs : Statement → Statement
  | assignment target value => assignment (g target) (g value)
  | other => other

/-- The entity with its name changed by `f` and its expressions by `g`. -/
def Entity.map (entity : Entity) : Entity :=
  ⟨entity.name.map f, entity.shape.map (Shape.mapExprs g), entity.init.map g⟩

def Declaration.map (declaration : Declaration) : Declaration :=
  ⟨declaration.typeSpec.mapExprs g, List.map (Attribute.mapExprs g) declaration.attributes,
    List.map (Entity.map f g) declaration.entities⟩

def DeclaredEntity.map (declared : DeclaredEntity) : DeclaredEntity :=
  ⟨declared.declaration.map f g, declared.entity.map f g⟩

/-- The unit with the names of its entities changed by `f` and its expressions by `g`. -/
def ProgramUnit.map (program : ProgramUnit) : ProgramUnit :=
  { program with
    declarations := List.map (Located.map (Declaration.map f g)) program.declarations
    statements := List.map (Located.map (Statement.mapExprs g)) program.statements }

end

/-! ## No change -/

theorem Located.map_id {α : Type} : Located.map (id : α → α) = id := rfl

theorem Dimension.mapExprs_id : Dimension.mapExprs id = id := by
  funext dimension
  simp [mapExprs]

theorem Shape.mapExprs_id : Shape.mapExprs id = id := by
  funext shape
  simp [mapExprs, Dimension.mapExprs_id]

theorem Attribute.mapExprs_id : Attribute.mapExprs id = id := by
  funext a
  cases a <;> simp [mapExprs, Shape.mapExprs_id]

theorem Statement.mapExprs_id : Statement.mapExprs id = id := by
  funext statement
  cases statement <;> rfl

theorem Entity.map_id : Entity.map id id = id := by
  funext entity
  simp [map, Located.map_id, Shape.mapExprs_id]

theorem Declaration.map_id : Declaration.map id id = id := by
  funext declaration
  simp [map, TypeSpec.mapExprs, Attribute.mapExprs_id, Entity.map_id]

theorem ProgramUnit.map_id : ProgramUnit.map id id = id := by
  funext program
  simp [map, Declaration.map_id, Statement.mapExprs_id, Located.map_id]

/-! ## Parts -/

section

variable (f : String → String) (g : Expr → Expr)

theorem Dimension.bounds_mapExprs (dimension : Dimension) :
    (dimension.mapExprs g).bounds = dimension.bounds.map g := by
  simp [mapExprs, bounds, Option.toList_map]

theorem Shape.bounds_mapExprs (shape : Shape) :
    (shape.mapExprs g).bounds = shape.bounds.map g := by
  simp only [mapExprs, bounds, List.flatMap_map, List.map_flatMap, Dimension.bounds_mapExprs]

theorem Shape.elim_bounds_mapExprs (shape : Option Shape) :
    (shape.map (Shape.mapExprs g)).elim [] Shape.bounds = (shape.elim [] Shape.bounds).map g := by
  cases shape with
  | none => rfl
  | some shape => exact shape.bounds_mapExprs g

theorem Declaration.dimension?_map (declaration : Declaration) :
    (declaration.map f g).dimension? = declaration.dimension?.map (Shape.mapExprs g) := by
  have hshape (a : Attribute) :
      (a.mapExprs g).shape? = a.shape?.map (Shape.mapExprs g) := by
    cases a <;> rfl
  unfold dimension? map
  induction declaration.attributes with
  | nil => rfl
  | cons a rest ih =>
      simp only [List.map_cons, List.findSome?_cons, hshape, ih]
      cases a.shape? <;> rfl

theorem Declaration.declared_map (declaration : Declaration) :
    (declaration.map f g).declared = declaration.declared.map (DeclaredEntity.map f g) := by
  simp [declared, map, DeclaredEntity.map]

theorem DeclaredEntity.shape?_map (declared : DeclaredEntity) :
    (declared.map f g).shape? = declared.shape?.map (Shape.mapExprs g) := by
  simp only [shape?, map, Entity.map, Declaration.dimension?_map]
  cases declared.entity.shape <;> rfl

theorem ProgramUnit.specifications_map (program : ProgramUnit) :
    (program.map f g).specifications = program.specifications.map (Declaration.map f g) := by
  simp [specifications, map, Located.map]

end

/-! ## Declared types -/

section

variable {g : Expr → Expr} (hg : ∀ e, (g e).integerValue? = e.integerValue?)
include hg

theorem valueOrOne?_map (e : Option Expr) : valueOrOne? (e.map g) = valueOrOne? e := by
  cases e with
  | none => rfl
  | some e => exact hg e

theorem loopTrips_map (start stop : Expr) (stride : Option Expr) :
    loopTrips (g start) (g stop) (stride.map g) = loopTrips start stop stride := by
  simp only [loopTrips, loopValues?, hg, valueOrOne?_map hg]

theorem Shape.size_mapExprs (shape : Shape) : (shape.mapExprs g).size = shape.size := by
  match shape with
  | [] => rfl
  | [⟨lower, none⟩] => rfl
  | [⟨lower, some upper⟩] =>
      simp only [mapExprs, size, List.map_cons, List.map_nil, Dimension.mapExprs, Option.map_some,
        Dimension.extent?, valueOrOne?_map hg, hg]
  | _ :: _ :: _ => simp [mapExprs, size, rank]

theorem TypeSpec.elementType_mapExprs (spec : TypeSpec) (options : Options) :
    (spec.mapExprs g).elementType options = spec.elementType options := by
  simp only [elementType, mapExprs]
  cases spec.length with
  | none => rfl
  | some length => simp only [Option.map_some, declaredLength?, hg]

theorem DeclaredEntity.type_map (f : String → String) (declared : DeclaredEntity)
    (options : Options) : (declared.map f g).type options = declared.type options := by
  have helement : (declared.map f g).declaration.typeSpec.elementType options =
      declared.declaration.typeSpec.elementType options :=
    TypeSpec.elementType_mapExprs hg declared.declaration.typeSpec options
  simp only [type, shape?_map, helement]
  cases declared.shape? with
  | none => rfl
  | some shape => simp only [Option.map_some, Shape.size_mapExprs hg]

theorem Infer.entityVerdict_map (f : String → String) (declared : DeclaredEntity)
    (options : Options) :
    entityVerdict options (declared.map f g) = entityVerdict options declared := by
  simp only [entityVerdict, DeclaredEntity.type_map hg]
  rfl

end

/-! ## Scopes -/

theorem Scope.get?_congr (scope : Scope) {name name' : String} (h : SameName name name') :
    scope.get? name = scope.get? name' := by
  unfold get?
  congr 1
  funext declared
  exact decide_eq_decide.mpr ⟨fun hd => Eq.trans hd h, fun hd => Eq.trans hd (Eq.symm h)⟩

section

variable {f : String → String} (hf : ∀ name, SameName (f name) name) (g : Expr → Expr)
include hf

theorem Scope.get?_map (entities : List DeclaredEntity) (name : String) :
    get? ⟨entities.map (DeclaredEntity.map f g)⟩ name =
      (get? ⟨entities⟩ name).map (DeclaredEntity.map f g) := by
  simp only [get?, List.find?_map]
  congr 2
  funext declared
  have hname : foldCase (declared.map f g).name = foldCase declared.name := hf declared.name
  exact decide_eq_decide.mpr ⟨fun hd => Eq.trans (Eq.symm hname) hd, fun hd => Eq.trans hname hd⟩

/-- A name is new to the changed scope if and only if it was to the old one. -/
theorem Scope.declareAll_map (entities declared : List DeclaredEntity) :
    (declareAll ⟨entities.map (DeclaredEntity.map f g)⟩
        (declared.map (DeclaredEntity.map f g))).1.entities =
      (declareAll ⟨entities⟩ declared).1.entities.map (DeclaredEntity.map f g) := by
  induction declared generalizing entities with
  | nil => rfl
  | cons first rest ih =>
      have hget : (get? ⟨entities.map (DeclaredEntity.map f g)⟩ (first.map f g).name).isSome =
          (get? ⟨entities⟩ first.name).isSome := by
        rw [get?_map hf, Option.isSome_map]
        exact congrArg Option.isSome (get?_congr ⟨entities⟩ (hf first.name))
      simp only [List.map_cons, declareAll, declare, hget]
      split
      · exact ih entities
      · simpa using ih (entities ++ [first])

/-- The declarations of a unit, the first one of each name. -/
def ProgramUnit.ownScope (program : ProgramUnit) : Scope :=
  (Scope.ofDeclarations program.specifications).1

theorem ProgramUnit.get?_ownScope_map (program : ProgramUnit) (name : String) :
    (program.map f g).ownScope.get? name =
      (program.ownScope.get? name).map (DeclaredEntity.map f g) := by
  have hdeclared : (program.map f g).specifications.flatMap Declaration.declared =
      (program.specifications.flatMap Declaration.declared).map (DeclaredEntity.map f g) := by
    simp only [specifications_map, List.flatMap_map, List.map_flatMap, Declaration.declared_map]
  have hentities := Scope.declareAll_map hf g []
    (program.specifications.flatMap Declaration.declared)
  rw [List.map_nil, ← hdeclared] at hentities
  have hscope : (program.map f g).ownScope =
      ⟨program.ownScope.entities.map (DeclaredEntity.map f g)⟩ := congrArg Scope.mk hentities
  rw [hscope]
  exact Scope.get?_map hf g _ name

end

end FortranTyping

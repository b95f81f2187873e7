import FortranTyping.Proofs.Loops.References
import FortranTyping.Proofs.TwoRuns.Spelling

/-!
# Declarations and references

A name means the first entity that is declared under it. A free reference to it has the type that
the entity's own initial value is held against, or one element of it; what is declared under the
name later is never looked at.
-/

namespace FortranTyping

/-! ## First declarations -/

/-- The entity is one of the list, and none before it has its name. -/
def Introduces (entities : List DeclaredEntity) (declared : DeclaredEntity) : Prop :=
  ∃ before after, entities = before ++ declared :: after ∧
    ∀ earlier ∈ before, ¬SameName earlier.name declared.name

namespace Scope

theorem get?_append (entities rest : List DeclaredEntity) (name : String) :
    get? ⟨entities ++ rest⟩ name = (get? ⟨entities⟩ name).or (get? ⟨rest⟩ name) :=
  List.find?_append

/-- An entity whose name is taken is not found under any name. -/
theorem get?_or_of_taken {scope : Scope} {declared : DeclaredEntity}
    (htaken : (scope.get? declared.name).isSome = true) (name : String) :
    (scope.get? name).or (get? ⟨[declared]⟩ name) = scope.get? name := by
  by_cases hname : SameName declared.name name
  · rw [scope.get?_congr hname] at htaken
    exact Option.or_of_isSome htaken
  · simp [get?, hname]

/-- A scope looks into what it held before, and then for the first of the new entities. -/
theorem get?_declareAll (scope : Scope) (entities : List DeclaredEntity) (name : String) :
    (scope.declareAll entities).1.get? name = (scope.get? name).or (get? ⟨entities⟩ name) := by
  induction entities generalizing scope with
  | nil => exact Option.or_none.symm
  | cons declared rest ih =>
      rw [← List.singleton_append, get?_append, ← Option.or_assoc, List.singleton_append]
      cases htaken : (scope.get? declared.name).isSome with
      | true =>
          have hscope : (scope.declareAll (declared :: rest)).1 = (scope.declareAll rest).1 := by
            simp [declareAll, declare, htaken]
          rw [hscope, ih, get?_or_of_taken htaken]
      | false =>
          have hscope : (scope.declareAll (declared :: rest)).1 =
              (declareAll ⟨scope.entities ++ [declared]⟩ rest).1 := by
            simp [declareAll, declare, htaken]
          rw [hscope, ih, get?_append]

/-- What is found under a name is the entity that introduces it. -/
theorem get?_eq_some_iff {entities : List DeclaredEntity} {name : String}
    {declared : DeclaredEntity} :
    get? ⟨entities⟩ name = some declared ↔
      Introduces entities declared ∧ SameName declared.name name := by
  rw [get?, List.find?_eq_some_iff_append]
  simp only [decide_eq_true_eq, Bool.not_eq_eq_eq_not, Bool.not_true, decide_eq_false_iff_not]
  constructor
  · rintro ⟨hname, before, after, rfl, hbefore⟩
    refine ⟨⟨before, after, rfl, fun earlier hmem hsame => ?_⟩, hname⟩
    exact hbefore earlier hmem (Eq.trans hsame hname)
  · rintro ⟨⟨before, after, rfl, hbefore⟩, hname⟩
    refine ⟨hname, before, after, rfl, fun earlier hmem hsame => ?_⟩
    exact hbefore earlier hmem (Eq.trans hsame hname.symm)

/-- The scope of the entities of some statements. -/
def ofEntities (entities : List DeclaredEntity) : Scope :=
  (empty.declareAll entities).1

theorem get?_ofEntities (entities : List DeclaredEntity) (name : String) :
    (ofEntities entities).get? name = get? ⟨entities⟩ name :=
  (empty.get?_declareAll entities name).trans Option.none_or

end Scope

theorem introduces_iff {entities : List DeclaredEntity} {declared : DeclaredEntity} :
    Introduces entities declared ↔ Scope.get? ⟨entities⟩ declared.name = some declared := by
  rw [Scope.get?_eq_some_iff]
  exact (and_iff_left (Eq.refl (foldCase declared.name))).symm

/-- An entity whose name is taken introduces nothing, and might as well not be there. -/
theorem introduces_dropped_iff {before : List DeclaredEntity} (after : List DeclaredEntity)
    {redeclared : DeclaredEntity} (htaken : ∃ earlier ∈ before,
      SameName earlier.name redeclared.name) (declared : DeclaredEntity) :
    Introduces (before ++ after) declared ↔
      Introduces (before ++ redeclared :: after) declared := by
  have hfound : (Scope.get? ⟨before⟩ redeclared.name).isSome = true := by
    obtain ⟨earlier, hearlier, hname⟩ := htaken
    exact List.find?_isSome.mpr ⟨earlier, hearlier, decide_eq_true hname⟩
  rw [introduces_iff, introduces_iff, ← List.singleton_append, Scope.get?_append,
    Scope.get?_append, Scope.get?_append, ← Option.or_assoc, Scope.get?_or_of_taken hfound]

/-- Scopes with the same introductions find the same declarations. -/
theorem Resolver.ofScope_congr {entities entities' : List DeclaredEntity}
    (h : ∀ declared, Introduces entities declared ↔ Introduces entities' declared) :
    Resolver.ofScope (.ofEntities entities) = .ofScope (.ofEntities entities') := by
  have hfound : (Scope.ofEntities entities).get? = (Scope.ofEntities entities').get? := by
    funext name
    refine Option.ext fun declared => ?_
    rw [Scope.get?_ofEntities, Scope.get?_ofEntities, Scope.get?_eq_some_iff,
      Scope.get?_eq_some_iff, h declared]
  simp only [ofScope, hfound]

/-! ## Types of references -/

/-- The type that the entity's initial value is held against. -/
def DeclaredEntity.expectedType (declared : DeclaredEntity) (options : Options) : Ty :=
  (Infer.entityVerdict options declared).type

/-- Both sides of a variable have their type from the same declaration. -/
theorem Verdict.reference_type (options : Options) (node : Node) (designator : Designator)
    (declared : DeclaredEntity) :
    (reference options node designator (some declared)).type =
      if designator.isSubscripted then (declared.expectedType options).element
      else declared.expectedType options := by
  simp only [reference, DeclaredEntity.expectedType, Infer.entityVerdict]
  cases declared.type options with
  | ok type => rfl
  | error reason => exact (ite_self _).symm

/-- The entities of a unit in their order. -/
def ProgramUnit.declared (program : ProgramUnit) : List DeclaredEntity :=
  program.specifications.flatMap Declaration.declared

/-- References agree with declarations when a unit is checked with its own scope. -/
structure ReferenceSpec (options : Options) (program : ProgramUnit) : Prop where
  /-- A reference has the type of the entity that introduces its name. -/
  agree : ∀ declared, Introduces program.declared declared →
    ∀ e designator, program.Free e designator → SameName designator.name.value declared.name →
      (program.checkOwn options).types.get? e.id = some
        (if designator.isSubscripted then (declared.expectedType options).element
        else declared.expectedType options)
  /-- An entity without a type is unknown for the reason that it has none. -/
  unsupported : ∀ (declared : DeclaredEntity) reason, declared.type options = .error reason →
    declared.expectedType options = .unknown (some reason.text)
  /-- Every initial value is held against the type of its entity. -/
  initial : ∀ declared ∈ program.declared, ∀ init, declared.entity.init = some init →
    .ofValue (declared.expectedType options) init ∈
      program.tasks ⟨.ofScope program.ownScope, options⟩
  /-- The check depends on nothing but the introductions. -/
  later : ∀ entities,
    (∀ declared, Introduces entities declared ↔ Introduces program.declared declared) →
      program.check (.ofScope (.ofEntities entities)) options = program.checkOwn options

namespace ProgramUnit

variable {program : ProgramUnit}

theorem ofValue_mem_tasks (ctx : Context) {declared : DeclaredEntity}
    (hmem : declared ∈ program.declared) {init : Expr} (hinit : declared.entity.init = some init) :
    .ofValue (declared.expectedType ctx.options) init ∈ program.tasks ctx := by
  obtain ⟨declaration, hdeclaration, hdeclared⟩ := List.mem_flatMap.mp hmem
  obtain ⟨located, hlocated, rfl⟩ := List.mem_map.mp hdeclaration
  have hentity : .ofValue (declared.expectedType ctx.options) init ∈ declared.tasks ctx := by
    refine List.mem_append_right _ ?_
    rw [hinit]
    exact List.mem_singleton_self _
  refine List.mem_append_left _ (List.mem_flatMap.mpr ⟨located, hlocated, ?_⟩)
  exact List.mem_append_right _ (List.mem_flatMap.mpr ⟨declared, hdeclared, hentity⟩)

/-- A free reference is looked up in the scope of the unit. -/
theorem checkOwn_get?_of_free (options : Options) (distinct : program.ids.Nodup) {e : Expr}
    {designator : Designator} (hfree : program.Free e designator) {declared : DeclaredEntity}
    (hfound : program.ownScope.get? designator.name.value = some declared) :
    (program.checkOwn options).types.get? e.id = some
      (if designator.isSubscripted then (declared.expectedType options).element
      else declared.expectedType options) := by
  have hresolved : (Resolver.ofScope program.ownScope).find designator = some declared := hfound
  rw [checkOwn, check_get?_of_free _ options distinct hfree, hresolved, Verdict.reference_type]

theorem check_referenceSpec (options : Options) (distinct : program.ids.Nodup) :
    ReferenceSpec options program where
  agree := by
    intro declared hfirst e designator hfree hname
    refine checkOwn_get?_of_free options distinct hfree ?_
    exact (Scope.get?_ofEntities program.declared _).trans
      (Scope.get?_eq_some_iff.mpr ⟨hfirst, hname.symm⟩)
  unsupported := by
    intro declared reason herror
    simp only [DeclaredEntity.expectedType, Infer.entityVerdict, herror]
  initial declared hmem init hinit := ofValue_mem_tasks _ hmem hinit
  later := by
    intro entities hsame
    rw [Resolver.ofScope_congr hsame]
    rfl

/-- The unit `integer :: v(3), w(:); real :: V; x = [V, v(), W]`. -/
def redeclaredArray : ProgramUnit :=
  let name (text : String) : Located String := ⟨.ofWidth 0 1, text⟩
  let declaration (keyword : Keyword) (entities : List Entity) : Located Declaration :=
    ⟨.ofWidth 0 9, ⟨⟨⟨.ofWidth 0 1, keyword⟩, none, none⟩, [], entities⟩⟩
  let bounds : Shape := [⟨none, some (.literal (.ofIndex 0) (.integer "3"))⟩]
  ⟨.mainProgram, name "p",
    [declaration .integer [⟨name "v", some bounds, none⟩, ⟨name "w", some [⟨none, none⟩], none⟩],
      declaration .real [⟨name "V", none, none⟩]],
    [⟨.ofWidth 0 9, .assignment (.reference (.ofIndex 1) (name "x"))
      (.array (.ofIndex 5) [.plain (.reference (.ofIndex 2) (name "V")),
        .plain (.element (.ofIndex 3) (name "v") []),
        .plain (.reference (.ofIndex 4) (name "W"))])⟩]⟩

/-- All three elements of `v` are meant by `V`, and the scalar might as well not be declared. -/
theorem redeclaredArray_referenceSpec :
    redeclaredArray.ids.Nodup ∧ ReferenceSpec {} redeclaredArray ∧
      (redeclaredArray.checkOwn {}).types.get? (Node.ofIndex 2).id = some (.array .integer 3) ∧
        redeclaredArray.check (.ofScope (.ofEntities (redeclaredArray.declared.take 2))) {} =
          redeclaredArray.checkOwn {} := by
  have distinct : redeclaredArray.ids.Nodup := by decide
  have hspec : ReferenceSpec {} redeclaredArray := check_referenceSpec {} distinct
  have hname : SameName "v" "V" := String.ext (by simp [foldCase])
  have hfirst : Introduces redeclaredArray.declared redeclaredArray.declared[0] :=
    ⟨[], _, rfl, by simp⟩
  have hfree : redeclaredArray.Free (.reference (.ofIndex 2) ⟨.ofWidth 0 1, "V"⟩)
      ⟨⟨.ofWidth 0 1, "V"⟩, none⟩ := ⟨.tail _ (.tail _ (.head _)), rfl, by decide⟩
  have htype : redeclaredArray.declared[0].expectedType {} = .array .integer 3 := by decide
  have htaken : ∃ earlier ∈ redeclaredArray.declared.take 2,
      SameName earlier.name redeclaredArray.declared[2].name := ⟨_, List.mem_cons_self, hname⟩
  refine ⟨distinct, hspec, ?_, hspec.later _ (introduces_dropped_iff [] htaken)⟩
  rw [← htype]
  exact hspec.agree _ hfirst _ _ hfree hname.symm

end ProgramUnit

end FortranTyping

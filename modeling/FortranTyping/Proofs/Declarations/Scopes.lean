import FortranTyping.Proofs.Declarations.References
import Mathlib.Data.List.Dedup

/-!
# Scopes that are filled in turn

Entities are declared in an empty scope by themselves or with all others of their statement, in any
order. The scope then has one entity for each name, the first that was declared under it; and those
that do not share a name with one another may as well come in another order.
-/

namespace FortranTyping

open scoped List

/-- The name of an entity, as it is compared with others. -/
def DeclaredEntity.key (declared : DeclaredEntity) : String :=
  foldCase declared.name

namespace Scope

/-! ## Requests -/

inductive Request where
  /-- A single entity, with the statement that it is from. -/
  | entity (declared : DeclaredEntity)
  /-- All entities of a statement. -/
  | statement (declaration : Declaration)

def Request.declared : Request → List DeclaredEntity
  | entity declared => [declared]
  | statement declaration => declaration.declared

/-- The two requests have no name in common. -/
def Request.Apart (r r' : Request) : Prop :=
  ∀ declared ∈ r.declared, ∀ declared' ∈ r'.declared, ¬SameName declared.name declared'.name

theorem Request.Apart.symm {r r' : Request} (h : r.Apart r') : r'.Apart r := by
  intro declared hmem declared' hmem' hname
  exact h declared' hmem' declared hmem hname.symm

def perform (scope : Scope) : Request → Scope
  | .entity declared => (scope.declare declared).1
  | .statement declaration => (scope.declareAll declaration.declared).1

/-- What becomes of a scope by requests in turn. -/
def after (scope : Scope) (requests : List Request) : Scope :=
  requests.foldl perform scope

/-- The entities that are declared, in order. -/
def declaredBy (requests : List Request) : List DeclaredEntity :=
  requests.flatMap Request.declared

theorem declareAll_append (scope : Scope) (entities rest : List DeclaredEntity) :
    (scope.declareAll (entities ++ rest)).1 = ((scope.declareAll entities).1.declareAll rest).1 := by
  induction entities generalizing scope with
  | nil => rfl
  | cons declared entities ih => exact ih (scope.declare declared).1

theorem declaredBy_append (requests requests' : List Request) :
    declaredBy (requests ++ requests') = declaredBy requests ++ declaredBy requests' :=
  List.flatMap_append

/-- It does not matter how the entities are distributed over requests. -/
theorem after_eq_declareAll (scope : Scope) (requests : List Request) :
    scope.after requests = (scope.declareAll (declaredBy requests)).1 := by
  induction requests generalizing scope with
  | nil => rfl
  | cons r requests ih =>
      have hperform : scope.perform r = (scope.declareAll r.declared).1 := by
        cases r <;> rfl
      rw [declaredBy, List.flatMap_cons, declareAll_append, ← hperform]
      exact ih (scope.perform r)

/-! ## What is found -/

theorem get?_after (requests : List Request) (name : String) :
    (empty.after requests).get? name = get? ⟨declaredBy requests⟩ name := by
  rw [after_eq_declareAll]
  exact get?_ofEntities _ name

theorem get?_eq_none_iff {entities : List DeclaredEntity} {name : String} :
    get? ⟨entities⟩ name = none ↔ ∀ declared ∈ entities, ¬SameName declared.name name := by
  simp [get?, List.find?_eq_none]

/-! ## Names -/

/-- The names of the entities of a scope, as they are compared. -/
def keys (scope : Scope) : List String :=
  scope.entities.map DeclaredEntity.key

theorem isSome_get?_iff {scope : Scope} {declared : DeclaredEntity} :
    (scope.get? declared.name).isSome = true ↔ declared.key ∈ scope.keys := by
  rw [get?, List.find?_isSome, keys, List.mem_map]
  simp only [decide_eq_true_eq]
  rfl

/-- A declaration adds the name of its entity, unless this is among the names already. -/
theorem keys_declare (scope : Scope) (declared : DeclaredEntity) :
    (scope.declare declared).1.keys =
      if declared.key ∈ scope.keys then scope.keys else scope.keys ++ [declared.key] := by
  by_cases htaken : (scope.get? declared.name).isSome = true
  · rw [declare, if_pos htaken, if_pos (isSome_get?_iff.mp htaken)]
  · rw [declare, if_neg htaken, if_neg fun h => htaken (isSome_get?_iff.mpr h)]
    exact List.map_append

/-- The names are those that have been declared, each of them once. -/
theorem keys_declareAll {scope : Scope} (distinct : scope.keys.Nodup)
    (entities : List DeclaredEntity) :
    (scope.declareAll entities).1.keys.Nodup ∧
      ∀ key, key ∈ (scope.declareAll entities).1.keys ↔
        key ∈ scope.keys ∨ key ∈ entities.map DeclaredEntity.key := by
  induction entities generalizing scope with
  | nil => exact ⟨distinct, fun key => by simp [declareAll]⟩
  | cons declared rest ih =>
      have hdeclare := scope.keys_declare declared
      have hdistinct : (scope.declare declared).1.keys.Nodup := by
        rw [hdeclare]
        split
        · exact distinct
        · rename_i hfree
          rw [← List.concat_eq_append]
          exact distinct.concat hfree
      have hkeys : ∀ key, key ∈ (scope.declare declared).1.keys ↔
          key ∈ scope.keys ∨ key = declared.key := by
        intro key
        rw [hdeclare]
        split
        · rename_i htaken
          exact ⟨.inl, fun h => h.elim id fun heq => heq ▸ htaken⟩
        · simp
      obtain ⟨hnodup, hmem⟩ := ih hdistinct
      refine ⟨hnodup, fun key => (hmem key).trans ?_⟩
      rw [hkeys, List.map_cons, List.mem_cons, or_assoc]

theorem size_after (requests : List Request) :
    (empty.after requests).size =
      ((declaredBy requests).map DeclaredEntity.key).dedup.length := by
  have distinct : empty.keys.Nodup := List.nodup_nil
  obtain ⟨hnodup, hmem⟩ := keys_declareAll distinct (declaredBy requests)
  have hperm : (empty.after requests).keys ~
      ((declaredBy requests).map DeclaredEntity.key).dedup := by
    rw [after_eq_declareAll]
    refine (List.perm_ext_iff_of_nodup hnodup (List.nodup_dedup _)).mpr fun key => ?_
    rw [hmem, List.mem_dedup]
    exact or_iff_right List.not_mem_nil
  rw [← hperm.length_eq, keys, List.length_map]
  rfl

/-! ## Order -/

/-- Of two requests without a common name at most one declares a given name. -/
theorem get?_or_comm {r r' : Request} (h : r.Apart r') (name : String) :
    (get? ⟨r.declared⟩ name).or (get? ⟨r'.declared⟩ name) =
      (get? ⟨r'.declared⟩ name).or (get? ⟨r.declared⟩ name) := by
  cases hfound : get? ⟨r.declared⟩ name with
  | none => rw [Option.none_or, Option.or_none]
  | some declared =>
      cases hfound' : get? ⟨r'.declared⟩ name with
      | none => rfl
      | some declared' =>
          obtain ⟨⟨before, after, hmem, -⟩, hname⟩ := get?_eq_some_iff.mp hfound
          obtain ⟨⟨before', after', hmem', -⟩, hname'⟩ := get?_eq_some_iff.mp hfound'
          exact absurd (Eq.trans hname hname'.symm)
            (h declared (by simp [hmem]) declared' (by simp [hmem']))

theorem get?_declaredBy_perm {requests requests' : List Request} (h : requests ~ requests')
    (hapart : requests.Pairwise Request.Apart) (name : String) :
    get? ⟨declaredBy requests⟩ name = get? ⟨declaredBy requests'⟩ name := by
  unfold declaredBy
  induction h with
  | nil => rfl
  | cons r h ih =>
      rw [List.flatMap_cons, List.flatMap_cons, get?_append, get?_append,
        ih (List.pairwise_cons.mp hapart).2]
  | swap r r' requests =>
      have hheads : r'.Apart r := (List.pairwise_cons.mp hapart).1 r List.mem_cons_self
      simp only [List.flatMap_cons, get?_append, ← Option.or_assoc, get?_or_comm hheads name]
  | trans h _ ih ih' =>
      rw [ih hapart]
      exact ih' ((h.pairwise_iff Request.Apart.symm).mp hapart)

end Scope

/-- What a scope has found, counted and answered after requests to an empty one. -/
structure FirstDeclarationSpec (requests : List Scope.Request) : Prop where
  /-- A name in any case stands for the first entity that was declared under it. -/
  found_iff : ∀ name declared, (Scope.empty.after requests).get? name = some declared ↔
    Introduces (Scope.declaredBy requests) declared ∧ SameName declared.name name
  missing_iff : ∀ name, (Scope.empty.after requests).get? name = none ↔
    ∀ declared ∈ Scope.declaredBy requests, ¬SameName declared.name name
  size : (Scope.empty.after requests).size =
    ((Scope.declaredBy requests).map DeclaredEntity.key).dedup.length
  /-- A single declaration was accepted if and only if the name was new. -/
  accepted_iff : ∀ earlier declared later, requests = earlier ++ .entity declared :: later →
    (((Scope.empty.after earlier).declare declared).2 = true ↔
      ∀ declared' ∈ Scope.declaredBy earlier, ¬SameName declared'.name declared.name)
  /-- Requests without common names may be made in any order, whatever comes before and behind. -/
  reordered : ∀ earlier block block' later, requests = earlier ++ block ++ later →
    block ~ block' → block.Pairwise Scope.Request.Apart → ∀ name,
      (Scope.empty.after (earlier ++ block' ++ later)).get? name =
        (Scope.empty.after requests).get? name
  /-- The scope of a unit is filled by its statements. -/
  ofUnit : ∀ program : ProgramUnit,
    program.ownScope = Scope.empty.after (program.specifications.map .statement)

theorem Scope.after_firstDeclarationSpec (requests : List Request) :
    FirstDeclarationSpec requests where
  found_iff := by
    intro name declared
    rw [get?_after]
    exact get?_eq_some_iff
  missing_iff := by
    intro name
    rw [get?_after]
    exact get?_eq_none_iff
  size := size_after requests
  accepted_iff := by
    intro earlier declared later _
    rw [← get?_eq_none_iff, ← get?_after, ← Option.not_isSome_iff_eq_none, declare]
    split <;> simp_all
  reordered := by
    rintro earlier block block' later rfl hperm hapart name
    simp only [get?_after, declaredBy_append, get?_append, get?_declaredBy_perm hperm hapart name]
  ofUnit := by
    intro program
    rw [after_eq_declareAll, declaredBy, List.flatMap_map]
    rfl

end FortranTyping

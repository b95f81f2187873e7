import FortranTyping.Proofs.Walk.Memory
import Mathlib.Data.List.Dedup
import Mathlib.Data.List.Induction

/-!
# Type maps as logs

A type map that is filled by inserts holds the first insert for each node, in the order in which
these came. All else that it tells can be read off the list of inserts: a type is that of the first
insert for the node, and an insert is accepted if and only if there was none for the node before.
-/

namespace FortranTyping

open scoped List

namespace TypeMap

/-! ## A single insert -/

theorem contains_iff (types : TypeMap) (id : NodeId) :
    types.contains id = true ↔ id ∈ types.ids := by
  rw [contains, ← not_iff_not, ← get?_eq_none_iff, Option.not_isSome_iff_eq_none]

theorem insert_accepted_iff (types : TypeMap) (id : NodeId) (ty : Ty) :
    (types.insert id ty).2 = true ↔ id ∉ types.ids := by
  rw [← contains_iff, insert]
  split <;> simp [*]

theorem entries_insert (types : TypeMap) (id : NodeId) (ty : Ty) :
    (types.insert id ty).1.entries =
      if id ∈ types.ids then types.entries else types.entries ++ [(id, ty)] := by
  simp only [insert, contains_iff]
  split <;> rfl

theorem ids_insert (types : TypeMap) (id : NodeId) (ty : Ty) :
    (types.insert id ty).1.ids = if id ∈ types.ids then types.ids else types.ids ++ [id] := by
  rw [ids, entries_insert]
  split <;> simp [ids]

/-- A dropped type would not be found anyway. -/
theorem get?_insert (types : TypeMap) (id : NodeId) (ty : Ty) (id' : NodeId) :
    (types.insert id ty).1.get? id' = (types.get? id').or (get? ⟨[(id, ty)]⟩ id') := by
  cases htyped : types.get? id with
  | none => rw [insert_of_get?_eq_none ty htyped, get?_append]
  | some ty' =>
      have hkept : (types.insert id ty).1 = types := by simp [insert, contains, htyped]
      rw [hkept]
      by_cases hid : id = id'
      · rw [← hid, htyped, Option.some_or]
      · simp [get?, hid]

theorem get?_insert_self {types : TypeMap} {id : NodeId} (ty : Ty) (h : types.get? id = none) :
    (types.insert id ty).1.get? id = some ty := by
  rw [get?_insert, h, Option.none_or]
  simp [get?]

/-! ## Inserts in turn -/

/-- What becomes of a type map by inserts in turn. -/
def after (types : TypeMap) (inserts : List (NodeId × Ty)) : TypeMap :=
  inserts.foldl (fun types entry => (types.insert entry.1 entry.2).1) types

theorem after_append (types : TypeMap) (inserts rest : List (NodeId × Ty)) :
    types.after (inserts ++ rest) = (types.after inserts).after rest :=
  List.foldl_append

theorem after_append_singleton (types : TypeMap) (inserts : List (NodeId × Ty))
    (entry : NodeId × Ty) :
    types.after (inserts ++ [entry]) = ((types.after inserts).insert entry.1 entry.2).1 :=
  after_append types inserts [entry]

/-- A type is looked for among those that were there, and then among the inserts. -/
theorem get?_after (types : TypeMap) (inserts : List (NodeId × Ty)) (id : NodeId) :
    (types.after inserts).get? id = (types.get? id).or (get? ⟨inserts⟩ id) := by
  induction inserts using List.reverseRecOn with
  | nil => exact Option.or_none.symm
  | append_singleton inserts entry ih =>
      rw [after_append_singleton, get?_insert, ih, get?_append, Option.or_assoc]

theorem mem_ids_after (types : TypeMap) (inserts : List (NodeId × Ty)) (id : NodeId) :
    id ∈ (types.after inserts).ids ↔ id ∈ types.ids ∨ id ∈ inserts.map Prod.fst := by
  have hinserts : inserts.map Prod.fst = ids ⟨inserts⟩ := rfl
  rw [← not_iff_not, not_or, hinserts, ← get?_eq_none_iff, ← get?_eq_none_iff, ← get?_eq_none_iff,
    get?_after, Option.or_eq_none_iff]

theorem nodup_ids_after {types : TypeMap} (distinct : types.ids.Nodup)
    (inserts : List (NodeId × Ty)) : (types.after inserts).ids.Nodup := by
  induction inserts using List.reverseRecOn with
  | nil => exact distinct
  | append_singleton inserts entry ih =>
      rw [after_append_singleton, ids_insert]
      split
      · exact ih
      · rename_i hnew
        rw [← List.concat_eq_append]
        exact ih.concat hnew

/-- From an empty map, the nodes are those of the inserts. -/
theorem mem_ids_empty_after (inserts : List (NodeId × Ty)) (id : NodeId) :
    id ∈ (empty.after inserts).ids ↔ id ∈ inserts.map Prod.fst := by
  rw [mem_ids_after]
  exact or_iff_right List.not_mem_nil

/-- There are as many entries as there are nodes among the inserts. -/
theorem size_after (inserts : List (NodeId × Ty)) :
    (empty.after inserts).size = (inserts.map Prod.fst).dedup.length := by
  have distinct : empty.ids.Nodup := List.nodup_nil
  have hperm : (empty.after inserts).ids ~ (inserts.map Prod.fst).dedup := by
    refine (List.perm_ext_iff_of_nodup (nodup_ids_after distinct inserts)
      (List.nodup_dedup _)).mpr fun id => ?_
    rw [mem_ids_empty_after, List.mem_dedup]
  rw [← hperm.length_eq, ids, List.length_map]
  rfl

/-! ## First inserts -/

/-- The inserts for nodes that no insert before them is for. -/
def firsts (inserts : List (NodeId × Ty)) : List (NodeId × Ty) :=
  (inserts.zipIdx.filter fun (entry, i) => entry.1 ∉ (inserts.take i).map Prod.fst).map Prod.fst

/-- The insert is one of the list, and none before it is for its node. -/
def FirstInsert (inserts : List (NodeId × Ty)) (id : NodeId) (ty : Ty) : Prop :=
  ∃ before after, inserts = before ++ (id, ty) :: after ∧ id ∉ before.map Prod.fst

theorem firsts_append_singleton (inserts : List (NodeId × Ty)) (entry : NodeId × Ty) :
    firsts (inserts ++ [entry]) =
      if entry.1 ∈ inserts.map Prod.fst then firsts inserts else firsts inserts ++ [entry] := by
  -- What stands before one of the earlier inserts is not changed by an insert at the end.
  have hbefore : ∀ placed ∈ inserts.zipIdx, (inserts ++ [entry]).take placed.2 =
      inserts.take placed.2 := by
    rintro ⟨placed, i⟩ hmem
    have hi : i < inserts.length := by simpa using List.snd_lt_of_mem_zipIdx hmem
    exact List.take_append_of_le_length (Nat.le_of_lt hi)
  have hearlier := List.filter_congr (l := inserts.zipIdx)
    (p := fun (placed, i) => placed.1 ∉ ((inserts ++ [entry]).take i).map Prod.fst)
    (q := fun (placed, i) => placed.1 ∉ (inserts.take i).map Prod.fst)
    (fun placed hmem => by simp only [hbefore placed hmem])
  simp only [firsts, List.zipIdx_append, List.filter_append, hearlier]
  by_cases htaken : entry.1 ∈ inserts.map Prod.fst
  · simp [htaken]
  · simp [htaken]

theorem entries_after (inserts : List (NodeId × Ty)) :
    (empty.after inserts).entries = firsts inserts := by
  induction inserts using List.reverseRecOn with
  | nil => rfl
  | append_singleton inserts entry ih =>
      rw [after_append_singleton, entries_insert, firsts_append_singleton, ih]
      simp only [mem_ids_empty_after]

theorem get?_eq_some_iff {inserts : List (NodeId × Ty)} {id : NodeId} {ty : Ty} :
    get? ⟨inserts⟩ id = some ty ↔ FirstInsert inserts id ty := by
  simp only [get?, Option.map_eq_some_iff, List.find?_eq_some_iff_append, beq_iff_eq]
  constructor
  · rintro ⟨⟨id', ty'⟩, ⟨rfl, before, after, rfl, hbefore⟩, rfl⟩
    refine ⟨before, after, rfl, fun hmem => ?_⟩
    obtain ⟨entry, hentry, hid⟩ := List.mem_map.mp hmem
    simpa [hid] using hbefore entry hentry
  · rintro ⟨before, after, rfl, hbefore⟩
    refine ⟨(id, ty), ⟨rfl, before, after, rfl, fun entry hentry => ?_⟩, rfl⟩
    have hid : entry.1 ≠ id := fun hid => hbefore (hid ▸ List.mem_map_of_mem hentry)
    simpa using hid

end TypeMap

/-- What an empty type map has recorded, found, counted and answered after inserts. -/
structure FirstWriteSpec (inserts : List (NodeId × Ty)) : Prop where
  /-- The entries are the first inserts for each node, in the order of the inserts. -/
  entries : (TypeMap.empty.after inserts).entries = TypeMap.firsts inserts
  found_iff : ∀ id ty, (TypeMap.empty.after inserts).get? id = some ty ↔
    TypeMap.FirstInsert inserts id ty
  missing_iff : ∀ id, (TypeMap.empty.after inserts).get? id = none ↔ id ∉ inserts.map Prod.fst
  contains_iff : ∀ id, (TypeMap.empty.after inserts).contains id = true ↔
    id ∈ inserts.map Prod.fst
  size : (TypeMap.empty.after inserts).size = (inserts.map Prod.fst).dedup.length
  /-- An insert was accepted if and only if there was none for its node before. -/
  accepted_iff : ∀ earlier id ty later, inserts = earlier ++ (id, ty) :: later →
    (((TypeMap.empty.after earlier).insert id ty).2 = true ↔ id ∉ earlier.map Prod.fst)

theorem TypeMap.after_firstWriteSpec (inserts : List (NodeId × Ty)) : FirstWriteSpec inserts where
  entries := entries_after inserts
  found_iff := by
    intro id ty
    rw [get?_after, ← get?_eq_some_iff]
    exact iff_of_eq (congrArg (· = some ty) Option.none_or)
  missing_iff := by
    intro id
    rw [get?_eq_none_iff, mem_ids_empty_after]
  contains_iff := by
    intro id
    rw [TypeMap.contains_iff, mem_ids_empty_after]
  size := size_after inserts
  accepted_iff := by
    intro earlier id ty _ _
    rw [insert_accepted_iff, mem_ids_empty_after]

/-- The second type of a node is dropped, and its place is that of the first. -/
example :
    (TypeMap.empty.after [(⟨4⟩, .integer), (⟨1⟩, .real), (⟨4⟩, .logical)]).entries =
      [(⟨4⟩, .integer), (⟨1⟩, .real)] := by
  decide

end FortranTyping

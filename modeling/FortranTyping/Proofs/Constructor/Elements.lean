import FortranTyping.Proofs.Constructor.Size
import FortranTyping.Proofs.Constructor.Store

/-!
# Elements that are arrays

A constructor of known type has no array among its entries. The elements in the body of a range are
another matter: their types are recorded and then passed over, and each counts as one element. So the
constructor has a type all the same, and its size is too small if one of them is an array.
-/

namespace FortranTyping

/-! ## Elements -/

mutual

/-- The expressions that an entry writes out, those in the bodies of ranges included. -/
def Entry.elements : Entry → List Expr
  | .plain value => [value]
  | .impliedDo _ body _ _ _ _ => elementsOf body
termination_by structural entry => entry

def elementsOf : List Entry → List Expr
  | [] => []
  | entry :: rest => entry.elements ++ elementsOf rest
termination_by structural entries => entries

end

/-- The elements in the body of a range, at any depth. -/
def Entry.bodyElements : Entry → List Expr
  | .plain _ => []
  | .impliedDo _ body _ _ _ _ => elementsOf body

theorem elementsOf_eq_flatMap (entries : List Entry) :
    elementsOf entries = entries.flatMap Entry.elements := by
  induction entries with
  | nil => rfl
  | cons entry rest ih => rw [elementsOf, ih, List.flatMap_cons]

/-- An element is an entry or stands in the body of one. -/
theorem mem_elementsOf {entries : List Entry} {value : Expr} :
    value ∈ elementsOf entries ↔
      .plain value ∈ entries ∨ value ∈ entries.flatMap Entry.bodyElements := by
  rw [elementsOf_eq_flatMap, List.mem_flatMap, List.mem_flatMap]
  constructor
  · rintro ⟨entry, hentry, hvalue⟩
    cases entry with
    | plain value' =>
        cases List.mem_singleton.mp hvalue
        exact .inl hentry
    | impliedDo span body loopVariable start stop stride => exact .inr ⟨_, hentry, hvalue⟩
  · rintro (hentry | ⟨entry, hentry, hvalue⟩)
    · exact ⟨_, hentry, List.mem_singleton.mpr rfl⟩
    · cases entry with
      | plain value' => cases hvalue
      | impliedDo span body loopVariable start stop stride => exact ⟨_, hentry, hvalue⟩

theorem Expr.mem_postorder_self (e : Expr) : e ∈ e.postorder := by
  obtain ⟨parts, hparts⟩ := e.exists_parts
  rw [hparts]
  exact List.mem_append_right _ (List.mem_singleton.mpr rfl)

mutual

theorem Entry.elements_subset : (entry : Entry) → entry.elements ⊆ entry.postorder
  | .plain value => List.cons_subset.mpr ⟨value.mem_postorder_self, List.nil_subset _⟩
  | .impliedDo _ body _ _ _ _ => by
      simp only [Entry.elements, Entry.postorder, List.append_assoc]
      exact List.subset_append_of_subset_left _ (elementsOf_subset body)
termination_by structural entry => entry

theorem elementsOf_subset : (entries : List Entry) → elementsOf entries ⊆ entryPostorder entries
  | [] => List.Subset.refl _
  | entry :: rest => by
      intro value hvalue
      rcases List.mem_append.mp hvalue with hvalue | hvalue
      · exact List.mem_append_left _ (entry.elements_subset hvalue)
      · exact List.mem_append_right _ (elementsOf_subset rest hvalue)
termination_by structural entries => entries

end

/-! ## Counting scalars -/

/-- The expression is recorded as an array. -/
def HoldsArray (types : TypeMap) (e : Expr) : Prop :=
  ∃ base size, types.get? e.id = some (.array base size)

/-- The number of scalars in a value of this type. -/
def Ty.scalarCount : Ty → Nat
  | array _ size => size
  | _ => 1

mutual

noncomputable def Entry.scalarCount (types : TypeMap) : Entry → Nat
  | .plain value => (types.get? value.id).elim 1 Ty.scalarCount
  | .impliedDo _ body _ start stop stride => rangeTrips start stop stride * scalarTotal types body
termination_by structural entry => entry

/-- The number of scalars that entries stand for together, where an array stands for all of its
elements. -/
noncomputable def scalarTotal (types : TypeMap) : List Entry → Nat
  | [] => 0
  | entry :: rest => entry.scalarCount types + scalarTotal types rest
termination_by structural entries => entries

end

theorem scalarCount_of_not_holdsArray {types : TypeMap} {e : Expr} (h : ¬HoldsArray types e) :
    (types.get? e.id).elim 1 Ty.scalarCount = 1 := by
  cases hty : types.get? e.id with
  | none => rfl
  | some ty =>
      cases ty with
      | array base size => exact absurd ⟨base, size, hty⟩ h
      | _ => rfl

mutual

theorem Entry.scalarCount_eq {types : TypeMap} :
    (entry : Entry) → (∀ value ∈ entry.elements, ¬HoldsArray types value) →
      entry.scalarCount types = entry.elementCount
  | .plain value, h => scalarCount_of_not_holdsArray (h value (List.mem_singleton.mpr rfl))
  | .impliedDo _ body _ _ _ _, h => by rw [Entry.scalarCount, Entry.elementCount, scalarTotal_eq body h]
termination_by structural entry => entry

/-- Where no element is an array, scalars and elements are the same in number. -/
theorem scalarTotal_eq {types : TypeMap} :
    (entries : List Entry) → (∀ value ∈ elementsOf entries, ¬HoldsArray types value) →
      scalarTotal types entries = elementTotal entries
  | [], _ => rfl
  | entry :: rest, h => by
      obtain ⟨hentry, hrest⟩ := List.forall_mem_append.mp h
      rw [scalarTotal, elementTotal, entry.scalarCount_eq hentry, scalarTotal_eq rest hrest]
termination_by structural entries => entries

end

/-! ## Constructors of known type -/

/-- How a constructor gets a known type. Neither way has anything to do with the types of the
elements in the bodies of ranges. -/
inductive BuiltFrom (types : TypeMap) (entries : List Entry) (expected : Option Ty) : Ty → Prop where
  | entries {whole : Ty} (hwhole : Ty.unifyAll (entries.map (Entry.typeIn types)) = some whole)
      (hscalar : whole.isScalar = true) (hsize : ¬SizeLoss types entries) :
      BuiltFrom types entries expected (.array whole (elementTotal entries))
  | empty {base : Ty} {size : Nat} (hentries : entries = [])
      (hexpected : expected = some (.array base size)) (hscalar : base.isScalar = true) :
      BuiltFrom types entries expected (.array base 0)

namespace BuiltFrom

variable {types : TypeMap} {entries : List Entry} {expected : Option Ty} {built : Ty}

theorem known (h : BuiltFrom types entries expected built) : built.isUnknown = false := by
  cases h <;> rfl

theorem sized (h : BuiltFrom types entries expected built) :
    ∃ base, built = .array base (elementTotal entries) := by
  cases h with
  | entries hwhole hscalar hsize => exact ⟨_, rfl⟩
  | empty hentries hexpected hscalar =>
      subst hentries
      exact ⟨_, rfl⟩

/-- An entry that is an array cannot be made up into a scalar. -/
theorem not_holdsArray (h : BuiltFrom types entries expected built) {value : Expr}
    (hvalue : .plain value ∈ entries) : ¬HoldsArray types value := by
  rintro ⟨base, size, hty⟩
  cases h with
  | entries hwhole hscalar hsize =>
      have hall : ∀ ty ∈ Ty.unifyAll (entries.map (Entry.typeIn types)), ty.isScalar = true := by
        rw [hwhole]
        rintro ty ⟨⟩
        exact hscalar
      have hentry := Ty.isScalar_of_unifyAll hall (List.mem_map_of_mem hvalue)
      rw [Entry.typeIn, hty] at hentry
      cases hentry
  | empty hentries hexpected hscalar =>
      rw [hentries] at hvalue
      cases hvalue

end BuiltFrom

/-- The rule of a constructor, in terms of recorded types. -/
theorem builtType_known_iff {types : TypeMap} {entries : List Entry} {size : Option Nat}
    (hsize : SizeLoss types entries ∧ size = none ∨
      ¬SizeLoss types entries ∧ size = some (elementTotal entries))
    {expected : Option Ty} {built : Ty}
    (hbuilt : builtType (Ty.unifyAll (entries.map (Entry.typeIn types))) size expected = built) :
    built.isUnknown = false ↔ BuiltFrom types entries expected built := by
  refine ⟨fun hknown => ?_, BuiltFrom.known⟩
  rw [← hbuilt] at hknown
  obtain ⟨whole, n, harray, hscalar, ⟨hwhole, hcount⟩ | ⟨hnone, rfl, m, hexpected⟩⟩ :=
    builtType_of_known hknown
  · rw [← hbuilt, harray]
    rcases hsize with ⟨-, hlost⟩ | ⟨hkept, htotal⟩
    · cases hlost.symm.trans hcount
    · cases htotal.symm.trans hcount
      exact .entries hwhole hscalar hkept
  · have hentries : entries = [] := by
      cases entries with
      | nil => rfl
      | cons entry rest => cases hnone
    rw [← hbuilt, harray]
    exact .empty hentries hexpected hscalar

/-- What the type of a constructor, `built`, tells about its elements, once the constructor and all
that is within it are typed. -/
structure ElementSpec (node : Node) (entries : List Entry) (expected : Option Ty) (built : Ty)
    (final : Pass) : Prop where
  recorded : final.types.get? node.id = some built
  elements_recorded : ∀ value ∈ elementsOf entries, (final.types.get? value.id).isSome = true
  known_iff : built.isUnknown = false ↔ BuiltFrom final.types entries expected built
  /-- No entry is an array. -/
  entries_flat : built.isUnknown = false → ∀ value, .plain value ∈ entries →
    ¬HoldsArray final.types value
  /-- An element that is an array stands in the body of a range. -/
  elements_flat_iff : built.isUnknown = false →
    ((∀ value ∈ elementsOf entries, ¬HoldsArray final.types value) ↔
      ∀ value ∈ entries.flatMap Entry.bodyElements, ¬HoldsArray final.types value)
  /-- If there is none, the constructor has as many elements as it stands for. -/
  exact : (∀ value ∈ entries.flatMap Entry.bodyElements, ¬HoldsArray final.types value) →
    ∀ base n, built = .array base n → n = scalarTotal final.types entries

theorem ElementSpec.of_known_iff {node : Node} {entries : List Entry} {expected : Option Ty}
    {built : Ty} {final : Pass} (recorded : final.types.get? node.id = some built)
    (elements_recorded : ∀ value ∈ elementsOf entries, (final.types.get? value.id).isSome = true)
    (known_iff : built.isUnknown = false ↔ BuiltFrom final.types entries expected built) :
    ElementSpec node entries expected built final := by
  have entries_flat : built.isUnknown = false → ∀ value, .plain value ∈ entries →
      ¬HoldsArray final.types value := fun hknown value hvalue =>
    (known_iff.mp hknown).not_holdsArray hvalue
  have elements_flat_iff : built.isUnknown = false →
      ((∀ value ∈ elementsOf entries, ¬HoldsArray final.types value) ↔
        ∀ value ∈ entries.flatMap Entry.bodyElements, ¬HoldsArray final.types value) := by
    intro hknown
    simp only [mem_elementsOf, or_imp, forall_and]
    exact ⟨And.right, fun h => ⟨entries_flat hknown, h⟩⟩
  refine ⟨recorded, elements_recorded, known_iff, entries_flat, elements_flat_iff, ?_⟩
  intro hflat base n hbuilt
  have hknown : built.isUnknown = false := by rw [hbuilt]; rfl
  obtain ⟨base', hsized⟩ := (known_iff.mp hknown).sized
  rw [scalarTotal_eq entries ((elements_flat_iff hknown).mpr hflat)]
  exact (Ty.array.inj (hbuilt.symm.trans hsized)).2

/-- The types of entries decide whether a constructor has a type, those of the elements in ranges do
not. -/
theorem Infer.array_elementSpec (ctx : Context) (loops : List String) (expected : Option Ty)
    {node : Node} {entries : List Entry} {pass : Pass}
    (distinct : (Expr.array node entries).ids.Nodup)
    (untyped : ∀ id ∈ (Expr.array node entries).ids, pass.types.get? id = none) :
    let outcome := (Infer.expr ctx loops expected (.array node entries)).run pass
    ElementSpec node entries expected outcome.1 outcome.2 := by
  have hfresh := (Expr.array node entries).fresh_steps distinct untyped loops expected
  have hrecorded : Recorded ctx _ ((Expr.array node entries).steps loops expected) :=
    hfresh.recorded
  have hparts : Recorded ctx _ (entrySteps loops node.id entries) :=
    hrecorded.mono (List.subset_append_left _ _)
  rw [Infer.run_expr distinct untyped]
  refine .of_known_iff hrecorded.get?_self ?_ ?_
  · intro value hvalue
    have hmem := elementsOf_subset entries hvalue
    rw [← typed_entrySteps loops node.id entries] at hmem
    obtain ⟨loops', expected', hstep⟩ := Step.exists_node hmem
    rw [hparts loops' expected' value hstep]
    rfl
  · rw [Expr.verdict, constructorVerdict_type, contributions_types hparts]
    exact builtType_known_iff (total?_contributions_eq hparts) rfl

/-! ## An array in the body of a range -/

/-- The entries of `[([1, 2], i = 1, 2)]`. -/
def pairsInRange : List Entry :=
  let number (index : Nat) (text : String) : Expr := .literal (.ofIndex index) (.integer text)
  let pair : Expr := .array (.ofIndex 1) [.plain (number 2 "1"), .plain (number 3 "2")]
  [.impliedDo (.ofWidth 0 6) [.plain pair] ⟨.ofWidth 0 1, "i"⟩ (number 4 "1") (number 5 "2") none]

theorem pairsInRange_elementSpec :
    let outcome := (Infer.expr ⟨.ofScope .empty, {}⟩ [] none
      (.array (.ofIndex 0) pairsInRange)).run .empty
    (Expr.array (.ofIndex 0) pairsInRange).ids.Nodup ∧
      (∀ id ∈ (Expr.array (.ofIndex 0) pairsInRange).ids, Pass.empty.types.get? id = none) ∧
      ElementSpec (.ofIndex 0) pairsInRange none outcome.1 outcome.2 := by
  have distinct : (Expr.array (.ofIndex 0) pairsInRange).ids.Nodup := by decide
  exact ⟨distinct, fun _ _ => rfl, Infer.array_elementSpec _ _ _ distinct fun _ _ => rfl⟩

/-- Four integers are taken for an array of two. -/
theorem not_elements_flat :
    ¬∀ (ctx : Context) (loops : List String) (expected : Option Ty) (node : Node)
      (entries : List Entry) (pass : Pass), (Expr.array node entries).ids.Nodup →
      (∀ id ∈ (Expr.array node entries).ids, pass.types.get? id = none) →
      let outcome := (Infer.expr ctx loops expected (.array node entries)).run pass
      (∃ base size, outcome.1 = .array base size) →
      ∀ value ∈ elementsOf entries, ¬HoldsArray outcome.2.types value := by
  intro h
  refine h ⟨.ofScope .empty, {}⟩ [] none (.ofIndex 0) pairsInRange .empty (by decide)
    (fun _ _ => rfl) ⟨.integer, 2, by decide⟩ _ List.mem_cons_self ⟨.integer, 2, by decide⟩

end FortranTyping

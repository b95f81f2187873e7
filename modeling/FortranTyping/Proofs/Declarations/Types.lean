import FortranTyping.Proofs.Literals.Range
import FortranTyping.Proofs.Ty.WellFormed

/-!
# Rules for declared types

What a declaration says about the type of an entity, as rules that leave open how it is computed:
which shape is in force, which type an element has, and how many elements there are or why they
cannot be counted. The computed type follows the rules, which settle every declaration but one with
bounds at both ends of the range of literals.
-/

namespace FortranTyping

/-! ## Shapes in force -/

/-- An entity's own shape is in force, or else the shape of the first dimension attribute. -/
inductive DeclaredEntity.HasShape (declared : DeclaredEntity) : Option Shape → Prop where
  | own {shape : Shape} (hown : declared.entity.shape = some shape) : HasShape declared (some shape)
  | inherited {shape : Shape} {before after : List Attribute}
      (hown : declared.entity.shape = none)
      (hattributes : declared.declaration.attributes = before ++ .dimension shape :: after)
      (hfirst : ∀ shape', .dimension shape' ∉ before) : HasShape declared (some shape)
  | none (hown : declared.entity.shape = none)
      (hattributes : ∀ shape, .dimension shape ∉ declared.declaration.attributes) :
      HasShape declared none

theorem Attribute.shape?_eq_some_iff {a : Attribute} {shape : Shape} :
    a.shape? = some shape ↔ a = .dimension shape := by
  cases a <;> simp [shape?]

theorem Attribute.shape?_eq_none_iff {a : Attribute} :
    a.shape? = none ↔ ∀ shape, .dimension shape ≠ a := by
  cases a <;> simp [shape?]

theorem Declaration.dimension?_eq_some_iff {declaration : Declaration} {shape : Shape} :
    declaration.dimension? = some shape ↔
      ∃ before after, declaration.attributes = before ++ .dimension shape :: after ∧
        ∀ shape', .dimension shape' ∉ before := by
  unfold dimension?
  rw [List.findSome?_eq_some_iff]
  constructor
  · rintro ⟨before, a, after, hattributes, hshape, hfirst⟩
    cases Attribute.shape?_eq_some_iff.mp hshape
    refine ⟨before, after, hattributes, fun shape' hmem => ?_⟩
    cases hfirst _ hmem
  · rintro ⟨before, after, hattributes, hfirst⟩
    refine ⟨before, .dimension shape, after, hattributes, rfl, fun a hmem => ?_⟩
    refine Attribute.shape?_eq_none_iff.mpr fun shape' hshape => ?_
    exact hfirst shape' (hshape ▸ hmem)

theorem Declaration.dimension?_eq_none_iff {declaration : Declaration} :
    declaration.dimension? = none ↔ ∀ shape, .dimension shape ∉ declaration.attributes := by
  unfold dimension?
  rw [List.findSome?_eq_none_iff]
  constructor
  · intro h shape hmem
    cases h _ hmem
  · intro h a hmem
    refine Attribute.shape?_eq_none_iff.mpr fun shape hshape => ?_
    exact h shape (hshape ▸ hmem)

theorem DeclaredEntity.hasShape_iff {declared : DeclaredEntity} {shape : Option Shape} :
    declared.HasShape shape ↔ declared.shape? = shape := by
  unfold shape?
  constructor
  · intro h
    cases h with
    | own hown => simp [hown]
    | inherited hown hattributes hfirst =>
        have hdimension := Declaration.dimension?_eq_some_iff.mpr ⟨_, _, hattributes, hfirst⟩
        simp [hown, hdimension]
    | none hown hattributes =>
        have hdimension := Declaration.dimension?_eq_none_iff.mpr hattributes
        simp [hown, hdimension]
  · rintro rfl
    cases hown : declared.entity.shape with
    | some shape => exact .own hown
    | none =>
        cases hdimension : declared.declaration.dimension? with
        | none => exact .none hown (Declaration.dimension?_eq_none_iff.mp hdimension)
        | some shape =>
            obtain ⟨before, after, hattributes, hfirst⟩ :=
              Declaration.dimension?_eq_some_iff.mp hdimension
            exact .inherited hown hattributes hfirst

/-! ## Elements -/

/-- The type that a keyword and its selectors give to a single element. -/
inductive TypeSpec.HasElement (options : Options) (spec : TypeSpec) : Ty → Prop where
  | integer (hkeyword : spec.keyword.value = .integer) : HasElement options spec .integer
  | real (hkeyword : spec.keyword.value = .real ∨ spec.keyword.value = .doublePrecision) :
      HasElement options spec .real
  | complex (hkeyword : spec.keyword.value = .complex) : HasElement options spec .complex
  | logical (hkeyword : spec.keyword.value = .logical) : HasElement options spec .logical
  | plainCharacter (hkeyword : spec.keyword.value = .character) (hlength : spec.length = none) :
      HasElement options spec (.character (some options.defaultCharacterLength))
  | character {length : Expr} {value : Int} {capacity : Nat}
      (hkeyword : spec.keyword.value = .character) (hlength : spec.length = some length)
      (hvalue : length.integerValue? = some value) (hcapacity : (capacity : Int) = max 0 value) :
      HasElement options spec (.character (some capacity))
  | unsizedCharacter {length : Expr} (hkeyword : spec.keyword.value = .character)
      (hlength : spec.length = some length) (hvalue : length.integerValue? = none) :
      HasElement options spec (.character none)

theorem TypeSpec.hasElement_iff {options : Options} {spec : TypeSpec} {ty : Ty} :
    spec.HasElement options ty ↔ spec.elementType options = ty := by
  unfold elementType
  constructor
  · intro h
    cases h with
    | integer hkeyword | complex hkeyword | logical hkeyword => rw [hkeyword]
    | real hkeyword => rcases hkeyword with hkeyword | hkeyword <;> rw [hkeyword]
    | plainCharacter hkeyword hlength => rw [hkeyword, hlength]
    | @character length value capacity hkeyword hlength hvalue hcapacity =>
        have htoNat : value.toNat = capacity := by omega
        simp only [hkeyword, hlength, declaredLength?, hvalue, Option.map_some, htoNat]
    | unsizedCharacter hkeyword hlength hvalue =>
        simp only [hkeyword, hlength, declaredLength?, hvalue, Option.map_none]
  · rintro rfl
    cases hkeyword : spec.keyword.value with
    | integer => exact .integer hkeyword
    | real => exact .real (.inl hkeyword)
    | doublePrecision => exact .real (.inr hkeyword)
    | complex => exact .complex hkeyword
    | logical => exact .logical hkeyword
    | character =>
        cases hlength : spec.length with
        | none => exact .plainCharacter hkeyword hlength
        | some length =>
            cases hvalue : length.integerValue? with
            | none =>
                simp only [declaredLength?, hvalue, Option.map_none]
                exact .unsizedCharacter hkeyword hlength hvalue
            | some value =>
                simp only [declaredLength?, hvalue, Option.map_some]
                exact .character hkeyword hlength hvalue (by omega)

/-! ## Sizes -/

/-- The number of elements of a shape, or the reason for which they are not counted. The rank comes
first, then a missing upper bound, then bounds without a value. -/
inductive Shape.HasSize : Shape → Except SkipReason Nat → Prop where
  | rank {shape : Shape} (hrank : shape.length ≠ 1) : HasSize shape (.error (.rank shape.length))
  | deferred {dimension : Dimension} (hupper : dimension.upper = none) :
      HasSize [dimension] (.error .deferredShape)
  | nonLiteral {dimension : Dimension} {bound : Expr} (hupper : dimension.upper ≠ none)
      (hbound : bound ∈ dimension.bounds) (hvalue : bound.integerValue? = none) :
      HasSize [dimension] (.error .nonLiteralBound)
  | counted {dimension : Dimension} {bound : Expr} {lower upper : Int}
      (hlower : dimension.lower.elim (lower = 1) (·.integerValue? = some lower))
      (hbound : dimension.upper = some bound) (hupper : bound.integerValue? = some upper)
      (hfits : Count.integersBetween lower upper < Count.limit) :
      HasSize [dimension] (.ok (Count.integersBetween lower upper))

/-- The bounds are the two ends of the range of literals. -/
def Dimension.SpansRange (dimension : Dimension) : Prop :=
  ∃ lower upper, dimension.lower = some lower ∧ dimension.upper = some upper ∧
    lower.integerValue? = some lowest ∧ upper.integerValue? = some highest

section

variable {dimension : Dimension} {bound : Expr} {lower upper : Int}

theorem valueOrOne?_eq_some_iff {e : Option Expr} {n : Int} :
    valueOrOne? e = some n ↔ e.elim (n = 1) (·.integerValue? = some n) := by
  cases e with
  | none => simp [valueOrOne?, eq_comm]
  | some e => rfl

/-- The bounds have values, and the size is the number of integers between them. -/
theorem Shape.size_of_values (hbound : dimension.upper = some bound)
    (hlower : valueOrOne? dimension.lower = some lower) (hupper : bound.integerValue? = some upper) :
    Shape.size [dimension] = if Count.integersBetween lower upper < Count.limit
      then .ok (Count.integersBetween lower upper) else .error .nonLiteralBound := by
  have hextent : dimension.extent? bound = Count.between? lower upper := by
    simp [Dimension.extent?, hlower, hupper]
  simp only [size, hbound, hextent]
  by_cases hfits : Count.integersBetween lower upper < Count.limit
  · rw [if_pos hfits, Count.between?_eq_some_iff.mpr ⟨hfits, rfl⟩]
  · have hnone : Count.between? lower upper = none := by
      rw [Option.eq_none_iff_forall_ne_some]
      exact fun n hn => hfits (Count.between?_eq_some_iff.mp hn).1
    rw [if_neg hfits, hnone]

theorem Shape.size_of_nonLiteral (hbound : dimension.upper = some bound)
    (hvalues : valueOrOne? dimension.lower = none ∨ bound.integerValue? = none) :
    Shape.size [dimension] = .error .nonLiteralBound := by
  have hextent : dimension.extent? bound = none := by
    rcases hvalues with hlower | hupper
    · simp [Dimension.extent?, hlower]
    · simp [Dimension.extent?, hupper]
  simp only [size, hbound, hextent]

/-- A dimension with an upper bound has a bound without a value if and only if one of the two values
is missing. An absent lower bound is no bound. -/
theorem Dimension.exists_nonLiteral_iff (hbound : dimension.upper = some bound) :
    (∃ e ∈ dimension.bounds, e.integerValue? = none) ↔
      valueOrOne? dimension.lower = none ∨ bound.integerValue? = none := by
  cases hlower : dimension.lower with
  | none => simp [bounds, hlower, hbound, valueOrOne?]
  | some lower => simp [bounds, hlower, hbound, valueOrOne?]

theorem Dimension.spansRange_iff (hbound : dimension.upper = some bound)
    (hlower : valueOrOne? dimension.lower = some lower) (hupper : bound.integerValue? = some upper) :
    dimension.SpansRange ↔ lower = lowest ∧ upper = highest := by
  constructor
  · rintro ⟨lower', upper', hlower', hupper', hlowest, hhighest⟩
    rw [hlower', valueOrOne?, hlowest] at hlower
    cases hbound.symm.trans hupper'
    exact ⟨(Option.some.inj hlower).symm, Option.some.inj (hupper.symm.trans hhighest)⟩
  · rintro ⟨rfl, rfl⟩
    cases hdimension : dimension.lower with
    | none =>
        rw [hdimension] at hlower
        exact absurd hlower (by decide)
    | some e =>
        rw [hdimension] at hlower
        exact ⟨e, bound, hdimension, hbound, hlower, hupper⟩

end

theorem Shape.size_of_spansRange {dimension : Dimension} (h : dimension.SpansRange) :
    Shape.size [dimension] = .error .nonLiteralBound := by
  obtain ⟨lower, upper, hlower, hupper, hlowest, hhighest⟩ := h
  have hlimit : Count.limit ≤ Count.integersBetween lowest highest :=
    (Count.limit_le_integersBetween_iff (lower.integerValue?_inRange hlowest)
      (upper.integerValue?_inRange hhighest)).mpr ⟨rfl, rfl⟩
  have hvalue : valueOrOne? dimension.lower = some lowest := by
    rw [hlower]
    exact hlowest
  rw [Shape.size_of_values hupper hvalue hhighest, if_neg (Nat.not_lt.mpr hlimit)]

theorem Shape.size_of_hasSize {shape : Shape} {result : Except SkipReason Nat}
    (h : shape.HasSize result) : shape.size = result := by
  cases h with
  | rank hrank =>
      unfold size
      split
      · exact absurd rfl hrank
      · rfl
  | deferred hupper => simp only [size, hupper]
  | @nonLiteral dimension e hupper he hvalue =>
      cases hbound : dimension.upper with
      | none => exact absurd hbound hupper
      | some bound =>
          exact size_of_nonLiteral hbound
            ((Dimension.exists_nonLiteral_iff hbound).mp ⟨e, he, hvalue⟩)
  | counted hlower hbound hupper hfits =>
      rw [size_of_values hbound (valueOrOne?_eq_some_iff.mpr hlower) hupper, if_pos hfits]

/-- The rules give the size of every shape, unless it spans the range of literals. -/
theorem Shape.hasSize_or_spansRange (shape : Shape) :
    shape.HasSize shape.size ∨ ∃ dimension, shape = [dimension] ∧ dimension.SpansRange := by
  by_cases hrank : shape.length = 1
  · obtain ⟨dimension, rfl⟩ := List.length_eq_one_iff.mp hrank
    cases hbound : dimension.upper with
    | none =>
        left
        rw [size_of_hasSize (.deferred hbound)]
        exact .deferred hbound
    | some bound =>
        by_cases hliteral : ∃ e ∈ dimension.bounds, e.integerValue? = none
        · left
          obtain ⟨e, he, hvalue⟩ := hliteral
          have hsize : Shape.HasSize [dimension] (.error .nonLiteralBound) :=
            .nonLiteral (by simp [hbound]) he hvalue
          rwa [size_of_hasSize hsize]
        · rw [Dimension.exists_nonLiteral_iff hbound, not_or] at hliteral
          obtain ⟨lower, hlower⟩ := Option.ne_none_iff_exists'.mp hliteral.1
          obtain ⟨upper, hupper⟩ := Option.ne_none_iff_exists'.mp hliteral.2
          by_cases hfits : Count.integersBetween lower upper < Count.limit
          · left
            rw [size_of_values hbound hlower hupper, if_pos hfits]
            exact .counted (valueOrOne?_eq_some_iff.mp hlower) hbound hupper hfits
          · right
            refine ⟨dimension, rfl, (Dimension.spansRange_iff hbound hlower hupper).mpr ?_⟩
            exact (Count.limit_le_integersBetween_iff (valueOrOne?_inRange hlower)
              (bound.integerValue?_inRange hupper)).mp (Nat.not_lt.mp hfits)
  · left
    rw [size_of_hasSize (.rank hrank)]
    exact .rank hrank

/-! ## Declared types -/

/-- The type that a declaration gives to an entity, or the reason for which it gives none. -/
inductive DeclaredEntity.HasType (options : Options) (declared : DeclaredEntity) :
    Except SkipReason Ty → Prop where
  | scalar {element : Ty} (hshape : declared.HasShape none)
      (helement : declared.declaration.typeSpec.HasElement options element) :
      HasType options declared (.ok element)
  | array {shape : Shape} {element : Ty} {size : Nat} (hshape : declared.HasShape (some shape))
      (hsize : shape.HasSize (.ok size))
      (helement : declared.declaration.typeSpec.HasElement options element) :
      HasType options declared (.ok (.array element size))
  | skipped {shape : Shape} {reason : SkipReason} (hshape : declared.HasShape (some shape))
      (hsize : shape.HasSize (.error reason)) : HasType options declared (.error reason)

/-- The result of computing the type of an entity is what the rules say, and is flat. -/
structure DeclaredTypeSpec (options : Options) (declared : DeclaredEntity)
    (result : Except SkipReason Ty) : Prop where
  /-- No rule says anything else. -/
  rules : ∀ result', declared.HasType options result' → result' = result
  /-- Some rule says so, unless the bounds are too far apart. -/
  settled : declared.HasType options result ∨
    ∃ dimension, declared.HasShape (some [dimension]) ∧ dimension.SpansRange
  /-- A type is a scalar or an array of scalars. -/
  flat : ∀ ty, result = .ok ty →
    ty.isScalar = true ∨ ∃ base size, ty = .array base size ∧ base.isScalar = true

namespace DeclaredEntity

variable {options : Options} {declared : DeclaredEntity}

theorem type_of_shape {shape : Shape} (h : declared.shape? = some shape) :
    declared.type options =
      shape.size.map (.array (declared.declaration.typeSpec.elementType options)) := by
  have hscalar := declared.declaration.typeSpec.elementType_isScalar options
  have harray : Ty.arrayOf (declared.declaration.typeSpec.elementType options) =
      .array (declared.declaration.typeSpec.elementType options) :=
    funext fun size => Ty.arrayOf_of_isScalar size hscalar
  simp only [type, h, harray]

theorem type_of_hasType {result : Except SkipReason Ty} (h : declared.HasType options result) :
    declared.type options = result := by
  cases h with
  | scalar hshape helement =>
      rw [hasShape_iff] at hshape
      rw [TypeSpec.hasElement_iff] at helement
      simp only [type, hshape, helement]
  | array hshape hsize helement =>
      rw [type_of_shape (hasShape_iff.mp hshape), Shape.size_of_hasSize hsize,
        TypeSpec.hasElement_iff.mp helement]
      rfl
  | skipped hshape hsize =>
      rw [type_of_shape (hasShape_iff.mp hshape), Shape.size_of_hasSize hsize]
      rfl

/-- The rules give the type of every entity, unless its shape spans the range of literals. -/
theorem hasType_or_spansRange (options : Options) (declared : DeclaredEntity) :
    declared.HasType options (declared.type options) ∨
      ∃ dimension, declared.HasShape (some [dimension]) ∧ dimension.SpansRange := by
  have helement : declared.declaration.typeSpec.HasElement options _ :=
    TypeSpec.hasElement_iff.mpr rfl
  cases hshape : declared.shape? with
  | none =>
      left
      have htype := HasType.scalar (hasShape_iff.mpr hshape) helement
      rwa [type_of_hasType htype]
  | some shape =>
      rcases shape.hasSize_or_spansRange with hsize | ⟨dimension, rfl, hspans⟩
      · left
        rw [type_of_shape hshape]
        cases hresult : shape.size with
        | error reason => exact .skipped (hasShape_iff.mpr hshape) (hresult ▸ hsize)
        | ok size => exact .array (hasShape_iff.mpr hshape) (hresult ▸ hsize) helement
      · exact .inr ⟨dimension, hasShape_iff.mpr hshape, hspans⟩

/-- The computed type is the declared one. -/
theorem type_declaredTypeSpec (options : Options) (declared : DeclaredEntity) :
    DeclaredTypeSpec options declared (declared.type options) where
  rules _ h := (type_of_hasType h).symm
  settled := hasType_or_spansRange options declared
  flat _ h := declared.type_cases h

end DeclaredEntity

/-- Bounds that leave out one end of the range can be counted. -/
example (dimension : Dimension) (bound : Expr) (hbound : dimension.upper = some bound)
    (hlower : valueOrOne? dimension.lower = some (-9223372036854775807))
    (hupper : bound.integerValue? = some 9223372036854775807) :
    Shape.size [dimension] = .ok 18446744073709551615 := by
  rw [Shape.size_of_values hbound hlower hupper, Count.integersBetween_eq,
    Count.tripCount_eq Int.one_ne_zero]
  rfl

end FortranTyping

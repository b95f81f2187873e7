import FortranTyping.Proofs.Constructor.Fold
import FortranTyping.Proofs.Counts
import FortranTyping.Proofs.Walk.Tasks

/-!
# The size of a constructor

The number of elements that a constructor writes out, ranges within ranges included, is counted here
without bounds. A constructor that is given a size has exactly this number of elements, and the
size is given up only where a control of some range has no value, a stride is zero, or a number on
the way does not fit into a count.
-/

namespace FortranTyping

/-! ## Element counts -/

/-- How often the body of a range is repeated. Without literal controls this is taken for zero. -/
noncomputable def rangeTrips (start stop : Expr) (stride : Option Expr) : Nat :=
  match loopValues? start stop stride with
  | some (first, last, step) => Count.tripCount first last step
  | none => 0

mutual

noncomputable def Entry.elementCount : Entry → Nat
  | .plain _ => 1
  | .impliedDo _ body _ start stop stride => rangeTrips start stop stride * elementTotal body
termination_by structural entry => entry

/-- The number of elements that entries stand for together. -/
noncomputable def elementTotal : List Entry → Nat
  | [] => 0
  | entry :: rest => entry.elementCount + elementTotal rest
termination_by structural entries => entries

end

mutual

/-- The range that an entry is, if it is one, with those in its body at any depth. A constructor that
is an element has its ranges for itself. -/
def Entry.ranges : Entry → List Entry
  | .plain _ => []
  | range@(.impliedDo _ body _ _ _ _) => range :: rangesOf body
termination_by structural entry => entry

def rangesOf : List Entry → List Entry
  | [] => []
  | entry :: rest => entry.ranges ++ rangesOf rest
termination_by structural entries => entries

end

/-! ## Conditions on ranges -/

namespace Entry

def controls : Entry → List Expr
  | plain _ => []
  | impliedDo _ _ _ start stop stride => start :: stop :: stride.toList

/-- The stride of a range is absent, or its value is not zero. -/
def advances : Entry → Bool
  | plain _ => true
  | impliedDo _ _ _ _ _ stride => valueOrOne? stride != some 0

/-- All controls are integers and literals, and the loop variable is changed from trip to trip. -/
structure LiteralControls (types : TypeMap) (entry : Entry) : Prop where
  integers : ∀ control ∈ entry.controls, types.get? control.id = some .integer
  values : ∀ control ∈ entry.controls, control.integerValue?.isSome = true
  advances : entry.advances = true

/-- The number of trips, the sum over the body and their product are within the limit. -/
def Fits : Entry → Prop
  | plain _ => True
  | impliedDo _ body _ start stop stride =>
      rangeTrips start stop stride < Count.limit ∧ elementTotal body < Count.limit ∧
        rangeTrips start stop stride * elementTotal body < Count.limit

end Entry

/-! ## Ranges -/

theorem loopValues?_isSome_iff {start stop : Expr} {stride : Option Expr} :
    (loopValues? start stop stride).isSome = true ↔
      ∀ control ∈ start :: stop :: stride.toList, control.integerValue?.isSome = true := by
  cases stride with
  | none =>
      cases hstart : start.integerValue? <;> cases hstop : stop.integerValue? <;>
        simp [loopValues?, valueOrOne?, hstart, hstop]
  | some stride =>
      cases hstart : start.integerValue? <;> cases hstop : stop.integerValue? <;>
        cases hstride : stride.integerValue? <;>
          simp [loopValues?, valueOrOne?, hstart, hstop, hstride]

/-- The stride is the last of the values of a loop. -/
theorem valueOrOne?_of_loopValues? {start stop : Expr} {stride : Option Expr}
    {first last step : Int} (h : loopValues? start stop stride = some (first, last, step)) :
    valueOrOne? stride = some step := by
  cases hstart : start.integerValue? <;> cases hstop : stop.integerValue? <;>
    cases hstride : valueOrOne? stride <;> simp_all [loopValues?]

theorem loopTrips_eq_ok_iff {start stop : Expr} {stride : Option Expr} {trips : Nat} :
    loopTrips start stop stride = .ok trips ↔
      (∀ control ∈ start :: stop :: stride.toList, control.integerValue?.isSome = true) ∧
        valueOrOne? stride ≠ some 0 ∧ rangeTrips start stop stride < Count.limit ∧
        trips = rangeTrips start stop stride := by
  rw [← loopValues?_isSome_iff]
  cases hvalues : loopValues? start stop stride with
  | none => simp [loopTrips, hvalues]
  | some values =>
      obtain ⟨first, last, step⟩ := values
      have hstep := valueOrOne?_of_loopValues? hvalues
      have htrips : loopTrips start stop stride = .ok trips ↔
          Count.trips? first last step = some trips := by
        simp only [loopTrips, hvalues]
        cases Count.trips? first last step <;> simp
      rw [htrips, Count.trips?_eq_some_iff, hstep]
      simp [rangeTrips, hvalues]

theorem rangeVerdict_count_eq_some_iff {options : Options} {owner : NodeId} {span : Span}
    {wellFormed : Bool} {perTrip : Option Nat} {trips : Except SkipReason Nat} {n : Nat} :
    (rangeVerdict options owner span wellFormed perTrip trips).contribution.count = some n ↔
      wellFormed = true ∧ ∃ times each, trips = .ok times ∧ perTrip = some each ∧
        times * each < Count.limit ∧ n = times * each := by
  cases wellFormed with
  | false => simp [rangeVerdict]
  | true =>
      cases trips with
      | error reason => simp [rangeVerdict]
      | ok times =>
          cases perTrip with
          | none => simp [rangeVerdict]
          | some each => simp [rangeVerdict, Count.mul?_eq_some_iff, Nat.mul_comm]

section

variable {ctx : Context} {types : TypeMap} {loops : List String}

theorem strideFits_iff {stride : Option Expr}
    (h : Recorded ctx types (strideSteps loops stride)) :
    strideFits ctx loops stride = true ↔
      ∀ control ∈ stride.toList, types.get? control.id = some .integer := by
  cases stride with
  | none => simp [strideFits]
  | some stride =>
      have hstride := (h.mono (List.subset_append_left _ _)).get?_self
      simp [strideFits, hstride]

theorem controlsFit_iff {owner : NodeId} {span : Span} {body : List Entry}
    {loopVariable : Located String} {start stop : Expr} {stride : Option Expr}
    (h : Recorded ctx types
      ((Entry.impliedDo span body loopVariable start stop stride).steps loops owner)) :
    ((start.verdict ctx loops none).type == .integer &&
        (stop.verdict ctx loops none).type == .integer && strideFits ctx loops stride) = true ↔
      ∀ control ∈ start :: stop :: stride.toList, types.get? control.id = some .integer := by
  have hstart : types.get? start.id = some (start.verdict ctx loops none).type :=
    h loops none start (by simp [Entry.steps, start.node_mem_steps])
  have hstop : types.get? stop.id = some (stop.verdict ctx loops none).type :=
    h loops none stop (by simp [Entry.steps, stop.node_mem_steps])
  have hstride : Recorded ctx types (strideSteps loops stride) :=
    h.mono fun step hstep => by simp [Entry.steps, hstep]
  simp only [Bool.and_eq_true, beq_iff_eq, strideFits_iff hstride, List.forall_mem_cons, hstart, hstop,
    Option.some.injEq, and_assoc]

/-- A range has a number of elements if its trips and the elements of each trip have. -/
theorem Entry.range_count_eq_some_iff {owner : NodeId} {span : Span} {body : List Entry}
    {loopVariable : Located String} {start stop : Expr} {stride : Option Expr}
    (h : Recorded ctx types
      ((Entry.impliedDo span body loopVariable start stop stride).steps loops owner)) {n : Nat} :
    ((Entry.impliedDo span body loopVariable start stop stride).verdict ctx loops
        owner).contribution.count = some n ↔
      (Entry.impliedDo span body loopVariable start stop stride).LiteralControls types ∧
        rangeTrips start stop stride < Count.limit ∧
        ∃ each, Contribution.total?
            (contributions ctx (foldCase loopVariable.value :: loops) owner body) = some each ∧
          rangeTrips start stop stride * each < Count.limit ∧
          n = rangeTrips start stop stride * each := by
  simp only [Entry.verdict, rangeVerdict_count_eq_some_iff, loopTrips_eq_ok_iff]
  rw [controlsFit_iff h]
  constructor
  · rintro ⟨hintegers, times, each, ⟨hvalues, hstride, htrips, rfl⟩, heach, hproduct, rfl⟩
    exact ⟨⟨hintegers, hvalues, bne_iff_ne.mpr hstride⟩, htrips, each, heach, hproduct, rfl⟩
  · rintro ⟨hliteral, htrips, each, heach, hproduct, rfl⟩
    exact ⟨hliteral.integers, _, each,
      ⟨hliteral.values, bne_iff_ne.mp hliteral.advances, htrips, rfl⟩, heach, hproduct, rfl⟩

end

/-! ## Counting entries -/

section

variable {ctx : Context} {types : TypeMap}

-- The induction is on the entries alone: an element counts once, whatever is within it.
mutual

theorem Entry.count_eq_some_iff {loops : List String} {owner : NodeId} {n : Nat} :
    (entry : Entry) → Recorded ctx types (entry.steps loops owner) →
      ((entry.verdict ctx loops owner).contribution.count = some n ↔
        (∀ range ∈ entry.ranges, range.LiteralControls types ∧ range.Fits) ∧ n = entry.elementCount)
  | .plain value, _ => by
      simp [Entry.verdict, Contribution.ofElement, Entry.ranges, Entry.elementCount, eq_comm]
  | .impliedDo span body loopVariable start stop stride, h => by
      have hsteps : Recorded ctx types
          (entrySteps (foldCase loopVariable.value :: loops) owner body) :=
        h.mono fun step hstep => by simp [Entry.steps, hstep]
      have hbody := fun each => total?_contributions_eq_some_iff (n := each) body hsteps
      simp only [Entry.range_count_eq_some_iff h, hbody, Entry.ranges, List.forall_mem_cons,
        Entry.elementCount]
      constructor
      · rintro ⟨hliteral, htrips, each, ⟨hranges, htotal, rfl⟩, hproduct, rfl⟩
        exact ⟨⟨⟨hliteral, htrips, htotal, hproduct⟩, hranges⟩, rfl⟩
      · rintro ⟨⟨⟨hliteral, htrips, htotal, hproduct⟩, hranges⟩, rfl⟩
        exact ⟨hliteral, htrips, _, ⟨hranges, htotal, rfl⟩, hproduct, rfl⟩
termination_by structural entry => entry

theorem total?_contributions_eq_some_iff {loops : List String} {owner : NodeId} {n : Nat} :
    (entries : List Entry) → Recorded ctx types (entrySteps loops owner entries) →
      (Contribution.total? (contributions ctx loops owner entries) = some n ↔
        (∀ range ∈ rangesOf entries, range.LiteralControls types ∧ range.Fits) ∧
          elementTotal entries < Count.limit ∧ n = elementTotal entries)
  | [], _ => by
      have hlimit : 0 < Count.limit := by decide
      simp [Contribution.total?, contributions, Count.total?, rangesOf, elementTotal, hlimit,
        eq_comm]
  | entry :: rest, h => by
      have hentry := fun first => entry.count_eq_some_iff (n := first)
        (h.mono (List.subset_append_left _ _))
      have hrest := fun last => total?_contributions_eq_some_iff (n := last) rest
        (h.mono (List.subset_append_right _ _))
      simp only [Contribution.total?] at hrest
      simp only [Contribution.total?, contributions, List.map_cons, Count.total?_cons_eq_some_iff,
        hentry, hrest, rangesOf, List.forall_mem_append, elementTotal]
      constructor
      · rintro ⟨first, last, ⟨hfirst, rfl⟩, ⟨hlast, -, rfl⟩, htotal, rfl⟩
        exact ⟨⟨hfirst, hlast⟩, htotal, rfl⟩
      · rintro ⟨⟨hfirst, hlast⟩, htotal, rfl⟩
        exact ⟨_, _, ⟨hfirst, rfl⟩, ⟨hlast, by omega, rfl⟩, htotal, rfl⟩
termination_by structural entries => entries

end

end

/-! ## Whole constructors -/

/-- The reasons for which the size of a constructor is given up. -/
inductive SizeLoss (types : TypeMap) (entries : List Entry) : Prop where
  | control {range : Entry} {control : Expr} (hrange : range ∈ rangesOf entries)
      (hcontrol : control ∈ range.controls)
      (h : types.get? control.id ≠ some .integer ∨ control.integerValue? = none)
  | stride {range : Entry} (hrange : range ∈ rangesOf entries) (h : range.advances = false)
  | overflow {range : Entry} (hrange : range ∈ rangesOf entries) (h : ¬range.Fits)
  | total (h : Count.limit ≤ elementTotal entries)

theorem not_sizeLoss_iff {types : TypeMap} {entries : List Entry} :
    ¬SizeLoss types entries ↔
      (∀ range ∈ rangesOf entries, range.LiteralControls types ∧ range.Fits) ∧
        elementTotal entries < Count.limit := by
  constructor
  · intro h
    refine ⟨fun range hrange => ⟨⟨?_, ?_, ?_⟩, ?_⟩, ?_⟩
    · intro control hcontrol
      by_contra hinteger
      exact h (.control hrange hcontrol (.inl hinteger))
    · intro control hcontrol
      by_contra hvalue
      exact h (.control hrange hcontrol (.inr (Option.not_isSome_iff_eq_none.mp hvalue)))
    · by_contra hstride
      exact h (.stride hrange (Bool.not_eq_true _ ▸ hstride))
    · by_contra hfits
      exact h (.overflow hrange hfits)
    · by_contra htotal
      exact h (.total (Nat.not_lt.mp htotal))
  · rintro ⟨hranges, htotal⟩ hloss
    cases hloss with
    | @control range control hrange hcontrol h =>
        have hliteral := (hranges range hrange).1
        rcases h with h | h
        · exact h (hliteral.integers control hcontrol)
        · have hvalue := hliteral.values control hcontrol
          rw [h] at hvalue
          cases hvalue
    | @stride range hrange h =>
        exact Bool.false_ne_true (h.symm.trans (hranges range hrange).1.advances)
    | @overflow range hrange h => exact h (hranges range hrange).2
    | total h => omega

namespace SizeSpec

variable {node : Node} {entries : List Entry} {final : Pass}

end SizeSpec

/-- The number of elements is lost for one of the reasons, and is exact otherwise. -/
theorem total?_contributions_eq {ctx : Context} {types : TypeMap} {loops : List String}
    {owner : NodeId} {entries : List Entry}
    (h : Recorded ctx types (entrySteps loops owner entries)) :
    SizeLoss types entries ∧
        Contribution.total? (contributions ctx loops owner entries) = none ∨
      ¬SizeLoss types entries ∧
        Contribution.total? (contributions ctx loops owner entries) =
          some (elementTotal entries) := by
  by_cases hloss : SizeLoss types entries
  · left
    refine ⟨hloss, Option.eq_none_iff_forall_not_mem.mpr fun n hn => ?_⟩
    obtain ⟨hranges, htotal, -⟩ := (total?_contributions_eq_some_iff entries h).mp hn
    exact not_sizeLoss_iff.mpr ⟨hranges, htotal⟩ hloss
  · right
    obtain ⟨hranges, htotal⟩ := not_sizeLoss_iff.mp hloss
    exact ⟨hloss, (total?_contributions_eq_some_iff entries h).mpr ⟨hranges, htotal, rfl⟩⟩

end FortranTyping

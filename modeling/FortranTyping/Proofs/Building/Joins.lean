import FortranTyping.Proofs.Building.Covering
import Mathlib.Order.Bounds.Basic

/-!
# Joins as least spans

Spans are ordered by containment, and the join of two spans is the least one that contains both. Of
any number of spans, in any order and grouping, the least span that contains all of them comes out,
and on the way no step is given ends in the wrong order. An empty span counts like any other, since
it has a place too.
-/

namespace FortranTyping

namespace Span

/-! ## The order -/

theorem eq_of_ends {a b : Span} (hstart : a.start = b.start) (hstop : a.stop = b.stop) :
    a = b := by
  cases a
  cases b
  rw [mk.injEq]
  exact ⟨hstart, hstop⟩

/-- The spans within a span are below it. -/
instance : PartialOrder Span where
  le inner outer := outer.Contains inner
  le_refl s := ⟨Nat.le_refl _, Nat.le_refl _⟩
  le_trans _ _ _ hab hbc := ⟨Nat.le_trans hbc.1 hab.1, Nat.le_trans hab.2 hbc.2⟩
  le_antisymm _ _ hab hba :=
    eq_of_ends (Nat.le_antisymm hba.1 hab.1) (Nat.le_antisymm hab.2 hba.2)

instance : SemilatticeSup Span where
  sup := join
  le_sup_left := contains_join_left
  le_sup_right := contains_join_right
  sup_le _ _ _ ha hb := ⟨Nat.le_min.mpr ⟨ha.1, hb.1⟩, Nat.max_le.mpr ⟨ha.2, hb.2⟩⟩

theorem contains_join_iff (outer a b : Span) :
    outer.Contains (a.join b) ↔ outer.Contains a ∧ outer.Contains b :=
  sup_le_iff (a := a)

/-- The least span that contains all of `parts`. -/
def IsCover (whole : Span) (parts : List Span) : Prop :=
  IsLeast {outer : Span | ∀ part ∈ parts, outer.Contains part} whole

namespace IsCover

variable {a b : Span} {parts parts' : List Span}

theorem iff_contains :
    a.IsCover parts ↔ ∀ outer : Span, outer.Contains a ↔ ∀ part ∈ parts, outer.Contains part :=
  -- the spans that contain all parts are their upper bounds
  isLUB_iff_le_iff (s := {part | part ∈ parts})

theorem singleton (a : Span) : a.IsCover [a] := by
  refine iff_contains.mpr fun outer => ?_
  rw [List.forall_mem_singleton]

theorem join (ha : a.IsCover parts) (hb : b.IsCover parts') :
    (a.join b).IsCover (parts ++ parts') := by
  refine iff_contains.mpr fun outer => ?_
  rw [contains_join_iff, iff_contains.mp ha, iff_contains.mp hb, List.forall_mem_append]

theorem joinAll (ha : a.IsCover parts) (spans : List Span) :
    (a.joinAll spans).IsCover (parts ++ spans) := by
  induction spans generalizing a parts with
  | nil => rwa [List.append_nil]
  | cons s spans ih =>
      rw [List.append_cons]
      exact ih (ha.join (.singleton s))

/-- The spans that are covered matter, but neither their order nor how often they are there. -/
theorem unique (ha : a.IsCover parts) (hb : b.IsCover parts')
    (h : ∀ part, part ∈ parts ↔ part ∈ parts') : a = b := by
  refine IsLeast.unique ha ?_
  simp only [h]
  exact hb

end IsCover

/-! ## Steps through the check of the ends -/

/-- Spans are the ranges whose ends pass the check. -/
theorem ofBounds_eq_ok_iff {start stop : Nat} {s : Span} :
    ofBounds start stop = .ok s ↔ s.start = start ∧ s.stop = stop := by
  constructor
  · intro h
    unfold ofBounds at h
    split at h
    · cases h
      exact ⟨rfl, rfl⟩
    · cases h
  · rintro ⟨rfl, rfl⟩
    exact dif_pos s.start_le_stop

/-- The join of two spans, if its ends pass the check. -/
def checkedJoin (a b : Span) : Except Reversed Span :=
  ofBounds (min a.start b.start) (max a.stop b.stop)

theorem checkedJoin_eq (a b : Span) : checkedJoin a b = .ok (a.join b) :=
  ofBounds_eq_ok_iff.mpr ⟨rfl, rfl⟩

/-! ## Any number of spans -/

theorem foldlM_checkedJoin (s : Span) (spans : List Span) :
    spans.foldlM checkedJoin s = .ok (s.joinAll spans) := by
  induction spans generalizing s with
  | nil => rfl
  | cons t spans ih =>
      rw [List.foldlM_cons, checkedJoin_eq]
      exact ih (s.join t)

theorem joinAll_isCover (s : Span) (spans : List Span) : (s.joinAll spans).IsCover (s :: spans) :=
  (IsCover.singleton s).joinAll spans

theorem exists_start_eq_joinAll (s : Span) (spans : List Span) :
    ∃ part ∈ s :: spans, part.start = (s.joinAll spans).start := by
  obtain ⟨part, hpart, hle⟩ := (joinAll_start_le_iff s spans _).mp (Nat.le_refl _)
  exact ⟨part, hpart, Nat.le_antisymm hle (contains_joinAll hpart).1⟩

theorem exists_stop_eq_joinAll (s : Span) (spans : List Span) :
    ∃ part ∈ s :: spans, part.stop = (s.joinAll spans).stop := by
  obtain ⟨part, hpart, hle⟩ := (le_joinAll_stop_iff s spans _).mp (Nat.le_refl _)
  exact ⟨part, hpart, Nat.le_antisymm (contains_joinAll hpart).2 hle⟩

/-! ## Any order and grouping -/

/-- A way to join spans, two at a time. -/
inductive Grouping where
  | single (s : Span)
  | pair (left right : Grouping)

namespace Grouping

/-- The spans that are joined, from left to right. -/
def spans : Grouping → List Span
  | single s => [s]
  | pair left right => left.spans ++ right.spans

/-- What comes out, if the ends pass the check at each step. -/
def result : Grouping → Except Reversed Span
  | single s => .ok s
  | pair left right => do checkedJoin (← left.result) (← right.result)

theorem exists_cover (g : Grouping) : ∃ whole, g.result = .ok whole ∧ whole.IsCover g.spans := by
  induction g with
  | single s => exact ⟨s, rfl, .singleton s⟩
  | pair left right ihleft ihright =>
      obtain ⟨a, hleft, ha⟩ := ihleft
      obtain ⟨b, hright, hb⟩ := ihright
      refine ⟨a.join b, ?_, ha.join hb⟩
      rw [result, hleft, hright]
      exact checkedJoin_eq a b

theorem result_eq {g : Grouping} {s : Span} {rest : List Span}
    (h : ∀ part, part ∈ g.spans ↔ part ∈ s :: rest) : g.result = .ok (s.joinAll rest) := by
  obtain ⟨whole, hresult, hwhole⟩ := g.exists_cover
  rw [hresult, hwhole.unique (joinAll_isCover s rest) h]

end Grouping

end Span

/-! ## Laws -/

/-- Containment and joins, of two spans and of any number of them. -/
structure JoinLaws : Prop where
  /-- Every span comes from the check of its ends, and nothing else does. -/
  ofBounds_iff : ∀ start stop s, Span.ofBounds start stop = .ok s ↔ s.start = start ∧ s.stop = stop
  refl : ∀ a : Span, a.Contains a
  trans : ∀ a b c : Span, a.Contains b → b.Contains c → a.Contains c
  antisymm : ∀ a b : Span, a.Contains b → b.Contains a → a = b
  /-- The ends of a join pass the check. -/
  checked : ∀ a b : Span, a.checkedJoin b = .ok (a.join b)
  contains_join : ∀ outer a b : Span,
    outer.Contains (a.join b) ↔ outer.Contains a ∧ outer.Contains b
  /-- The check is passed at each step if spans are joined one after the other. -/
  folded : ∀ (s : Span) (rest : List Span), rest.foldlM Span.checkedJoin s = .ok (s.joinAll rest)
  least : ∀ (s : Span) (rest : List Span), (s.joinAll rest).IsCover (s :: rest)
  /-- Joins have no ends of their own, so they fit wherever their parts do. -/
  ends : ∀ (s : Span) (rest : List Span),
    (∃ part ∈ s :: rest, part.start = (s.joinAll rest).start) ∧
      ∃ part ∈ s :: rest, part.stop = (s.joinAll rest).stop
  /-- The same spans, in whatever order and grouping and however often, pass the check at each step
  and have the same join. -/
  grouped : ∀ (g : Span.Grouping) (s : Span) (rest : List Span),
    (∀ part, part ∈ g.spans ↔ part ∈ s :: rest) → g.result = .ok (s.joinAll rest)
  /-- A composite node takes the room of its parts and no more, those of an implied-do without its
  initial value. -/
  binary : ∀ (b : Builder) op left right,
    ((Build.binary op left right).run b).1.span.IsCover [left.span, right.span]
  element : ∀ (b : Builder) text subscripts,
    ((Build.element text subscripts).run b).1.span.IsCover
      (.ofWidth b.cursor text.utf8ByteSize :: subscripts.map Expr.span)
  array : ∀ (b : Builder) entries, entries ≠ [] →
    ((Build.array entries).run b).1.span.IsCover (entries.map Entry.span)
  impliedDo : ∀ (b : Builder) body text start stop stride,
    ((Build.impliedDo body text start stop stride).run b).1.span.IsCover
      (.ofWidth b.cursor text.utf8ByteSize :: stop.span ::
        (body.map Entry.span ++ stride.toList.map Expr.span))

theorem Span.joinLaws : JoinLaws where
  ofBounds_iff _ _ _ := ofBounds_eq_ok_iff
  refl := le_refl
  trans a b c hab hbc := le_trans (α := Span) hbc hab
  antisymm a b hab hba := le_antisymm (α := Span) hba hab
  checked := checkedJoin_eq
  contains_join := contains_join_iff
  folded := foldlM_checkedJoin
  least := joinAll_isCover
  ends s rest := ⟨exists_start_eq_joinAll s rest, exists_stop_eq_joinAll s rest⟩
  grouped _ _ _ := Grouping.result_eq
  binary _ _ left right := joinAll_isCover left.span [right.span]
  element _ _ _ := joinAll_isCover _ _
  array b entries hentries := by
    cases entries with
    | nil => exact absurd rfl hentries
    | cons entry rest => exact joinAll_isCover entry.span (rest.map Entry.span)
  impliedDo _ _ _ _ stop _ := joinAll_isCover _ (stop.span :: _)

/-- Empty spans before, between and behind the others. -/
example :
    let empty (place : Nat) : Span.Grouping := .single (.ofWidth place 0)
    let left : Span.Grouping := .pair (empty 7) (.single (.ofWidth 2 3))
    let right : Span.Grouping := .pair (empty 1) (empty 4)
    (Span.Grouping.pair left right).result = .ok (.ofWidth 1 6) :=
  rfl

end FortranTyping

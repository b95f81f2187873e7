import FortranTyping.Source.Builder
import Mathlib.Data.List.Basic
import Mathlib.Order.MinMax

/-!
# Places of composite nodes

A composite node covers its parts, whatever the order in which they were built. There is one
exception: an implied-do does not take the place of its initial value into account, and covers it
only if another of its parts begins no later.
-/

namespace FortranTyping

/-! ## Containment and joins -/

namespace Span

theorem contains_join_left (a b : Span) : (a.join b).Contains a :=
  ⟨Nat.min_le_left _ _, Nat.le_max_left _ _⟩

theorem contains_join_right (a b : Span) : (a.join b).Contains b :=
  ⟨Nat.min_le_right _ _, Nat.le_max_right _ _⟩

/-- A join begins where the first of its spans does. -/
theorem joinAll_start_le_iff (s : Span) (spans : List Span) (n : Nat) :
    (s.joinAll spans).start ≤ n ↔ ∃ part ∈ s :: spans, part.start ≤ n := by
  induction spans generalizing s with
  | nil => simp [joinAll]
  | cons t spans ih =>
      have hcons : s.joinAll (t :: spans) = (s.join t).joinAll spans := rfl
      rw [hcons, ih]
      simp only [List.exists_mem_cons_iff, join, min_le_iff, or_assoc]

/-- A join ends where the last of its spans does. -/
theorem le_joinAll_stop_iff (s : Span) (spans : List Span) (n : Nat) :
    n ≤ (s.joinAll spans).stop ↔ ∃ part ∈ s :: spans, n ≤ part.stop := by
  induction spans generalizing s with
  | nil => simp [joinAll]
  | cons t spans ih =>
      have hcons : s.joinAll (t :: spans) = (s.join t).joinAll spans := rfl
      rw [hcons, ih]
      simp only [List.exists_mem_cons_iff, join, le_max_iff, or_assoc]

theorem contains_joinAll {s part : Span} {spans : List Span} (h : part ∈ s :: spans) :
    (s.joinAll spans).Contains part :=
  ⟨(joinAll_start_le_iff s spans _).mpr ⟨part, h, Nat.le_refl _⟩,
    (le_joinAll_stop_iff s spans _).mpr ⟨part, h, Nat.le_refl _⟩⟩

/-- A join ends before a place if all of its spans do. -/
theorem joinAll_stop_lt {s : Span} {spans : List Span} {n : Nat}
    (h : ∀ part ∈ s :: spans, part.stop < n) : (s.joinAll spans).stop < n := by
  by_contra hn
  obtain ⟨part, hpart, hle⟩ := (le_joinAll_stop_iff s spans n).mp (Nat.not_lt.mp hn)
  exact absurd (h part hpart) (Nat.not_lt.mpr hle)

end Span

/-! ## Composite nodes -/

namespace Build

theorem run_element (b : Builder) (text : String) (subscripts : List Expr) :
    let name : Located String := ⟨.ofWidth b.cursor text.utf8ByteSize, text⟩
    (element text subscripts).run b =
      (.element ⟨⟨b.nextId⟩, name.span.joinAll (subscripts.map Expr.span)⟩ name subscripts,
        ⟨b.nextId + 1, b.cursor + text.utf8ByteSize + 1⟩) := rfl

theorem run_impliedDo (b : Builder) (body : List Entry) (text : String) (start stop : Expr)
    (stride : Option Expr) :
    let loopVariable : Located String := ⟨.ofWidth b.cursor text.utf8ByteSize, text⟩
    (impliedDo body text start stop stride).run b =
      (.impliedDo ((loopVariable.span.join stop.span).joinAll
          (body.map Entry.span ++ stride.toList.map Expr.span)) body loopVariable start stop stride,
        ⟨b.nextId, b.cursor + text.utf8ByteSize + 1⟩) := rfl

/-- The brackets cover the entries, if there are any between them. -/
theorem array_covers (b : Builder) {entries : List Entry} {entry : Entry} (h : entry ∈ entries) :
    ((array entries).run b).1.span.Contains entry.span := by
  cases entries with
  | nil => cases h
  | cons first rest => exact Span.contains_joinAll (List.mem_map_of_mem h)

/-- The join that an implied-do takes for its place covers all that goes into it. -/
theorem loop_covers {loopVariable stop part : Span} {others : List Span}
    (h : part ∈ loopVariable :: stop :: others) :
    ((loopVariable.join stop).joinAll others).Contains part := by
  change (loopVariable.joinAll (stop :: others)).Contains part
  exact Span.contains_joinAll h

/-- The loop variable is placed behind the initial value, and so cannot help to cover it. -/
theorem loop_covers_start_iff {start stop : Span} {others : List Span} {cursor width : Nat}
    (h : start.stop < cursor) :
    (((Span.ofWidth cursor width).join stop).joinAll others).Contains start ↔
      ∃ part ∈ stop :: others, part.start ≤ start.start := by
  have hjoin : ((Span.ofWidth cursor width).join stop).joinAll others =
      (Span.ofWidth cursor width).joinAll (stop :: others) := rfl
  have hbehind : ¬(Span.ofWidth cursor width).start ≤ start.start := by
    have := start.start_le_stop
    simp only [Span.ofWidth]
    omega
  have hstop : start.stop ≤ (Span.ofWidth cursor width).stop := by
    simp only [Span.ofWidth]
    omega
  rw [hjoin, Span.Contains, Span.joinAll_start_le_iff, Span.le_joinAll_stop_iff,
    List.exists_mem_cons_iff, or_iff_right hbehind]
  exact and_iff_left ⟨_, List.mem_cons_self, hstop⟩

/-- What the nodes that a builder makes of given parts cover, in any state of the builder. -/
structure CoverSpec (b : Builder) : Prop where
  unary : ∀ op operand, ∃ node, ((unary op operand).run b).1 = .unary node op operand ∧
    node.span.Contains operand.span
  binary : ∀ op left right, ∃ node, ((binary op left right).run b).1 = .binary node op left right ∧
    node.span.Contains left.span ∧ node.span.Contains right.span
  paren : ∀ inner, ∃ node, ((paren inner).run b).1 = .paren node inner ∧
    node.span.Contains inner.span
  element : ∀ text subscripts, ∃ node name,
    ((element text subscripts).run b).1 = .element node name subscripts ∧
      node.span.Contains name.span ∧ ∀ e ∈ subscripts, node.span.Contains e.span
  array : ∀ entries, ∃ node, ((array entries).run b).1 = .array node entries ∧
    ∀ entry ∈ entries, node.span.Contains entry.span
  impliedDo : ∀ body text start stop stride, ∃ span loopVariable,
    ((impliedDo body text start stop stride).run b).1 =
        .impliedDo span body loopVariable start stop stride ∧
      span.Contains loopVariable.span ∧ (∀ entry ∈ body, span.Contains entry.span) ∧
      span.Contains stop.span ∧ ∀ e ∈ stride, span.Contains e.span
  /-- An initial value that was built before is covered just if the final value, the stride or an
  entry begins no later. -/
  impliedDo_start : ∀ body text start stop stride, start.span.stop < b.cursor →
    (((Build.impliedDo body text start stop stride).run b).1.span.Contains start.span ↔
      ∃ part ∈ stop.span :: (body.map Entry.span ++ stride.toList.map Expr.span),
        part.start ≤ start.span.start)

theorem coverSpec (b : Builder) : CoverSpec b where
  unary op operand := ⟨_, rfl, Nat.le_refl _, Nat.le_refl _⟩
  binary op left right :=
    ⟨_, rfl, Span.contains_join_left _ _, Span.contains_join_right _ _⟩
  paren inner := ⟨_, rfl, Nat.le_refl _, Nat.le_refl _⟩
  element text subscripts := by
    rw [run_element]
    refine ⟨_, _, rfl, Span.contains_joinAll List.mem_cons_self, fun e he => ?_⟩
    exact Span.contains_joinAll (List.mem_cons_of_mem _ (List.mem_map_of_mem he))
  array entries := ⟨_, rfl, fun entry hentry => array_covers b hentry⟩
  impliedDo body text start stop stride := by
    rw [run_impliedDo]
    refine ⟨_, _, rfl, loop_covers ?_, fun entry hentry => loop_covers ?_, loop_covers ?_,
      fun e he => loop_covers ?_⟩
    · exact List.mem_cons_self
    · simp [List.mem_map_of_mem hentry]
    · simp
    · have hmem : e.span ∈ stride.toList.map Expr.span :=
        List.mem_map_of_mem (Option.mem_toList.mpr he)
      simp [hmem]
  impliedDo_start body text start stop stride hstart := by
    rw [run_impliedDo]
    exact loop_covers_start_iff hstart

/-- In `(i, i = 1, 2)`, if the initial value is built first, it lies before the place of the
whole. -/
theorem not_impliedDo_covers_start :
    ¬∀ (b : Builder) (body : List Entry) (text : String) (start stop : Expr)
      (stride : Option Expr), start.span.stop < b.cursor → stop.span.stop < b.cursor →
      (∀ entry ∈ body, entry.span.stop < b.cursor) → (∀ e ∈ stride, e.span.stop < b.cursor) →
      ((impliedDo body text start stop stride).run b).1.span.Contains start.span := by
  intro h
  let first := (literal (.integer "1")).run {}
  let element := (reference "i").run first.2
  let last := (literal (.integer "2")).run element.2
  have hcovers := h last.2 [.plain element.1] "i" first.1 last.1 none (by decide) (by decide)
    (by decide) (by simp)
  revert hcovers
  decide

end Build

end FortranTyping

/-!
# Spans of source text

Half-open ranges of byte offsets, ordered by containment, and values located at one. `join` covers
two ranges and `joinAll` a whole list. Neither can fail, because the order of the ends is part of
the type and only `ofBounds` has to check it.
-/

namespace FortranTyping

/-- The half-open range of byte offsets from `start` to `stop`. -/
structure Span where
  start : Nat
  stop : Nat
  start_le_stop : start ≤ stop
  deriving DecidableEq

namespace Span

/-- Two offsets that do not bound a range, because the first lies behind the second. -/
structure Reversed where
  start : Nat
  stop : Nat
  deriving DecidableEq, Repr

def Reversed.message (bounds : Reversed) : String :=
  s!"span must have positive length (got span {bounds.start}..{bounds.stop})"

def ofBounds (start stop : Nat) : Except Reversed Span :=
  if h : start ≤ stop then .ok ⟨start, stop, h⟩ else .error ⟨start, stop⟩

/-- The range of `width` bytes that begins at `start`. -/
def ofWidth (start width : Nat) : Span :=
  ⟨start, start + width, Nat.le_add_right start width⟩

def length (s : Span) : Nat :=
  s.stop - s.start

def isEmpty (s : Span) : Bool :=
  s.start == s.stop

def Contains (outer inner : Span) : Prop :=
  outer.start ≤ inner.start ∧ inner.stop ≤ outer.stop

instance (outer inner : Span) : Decidable (outer.Contains inner) :=
  inferInstanceAs (Decidable (_ ∧ _))

/-- The smallest range containing both. -/
def join (a b : Span) : Span where
  start := min a.start b.start
  stop := max a.stop b.stop
  start_le_stop := by have := a.start_le_stop; omega

/-- The smallest range containing `s` and all of `spans`. -/
def joinAll (s : Span) (spans : List Span) : Span :=
  spans.foldl join s

/-- The same beginning, and an end no earlier than `stop`. -/
def extendTo (s : Span) (stop : Nat) : Span where
  start := s.start
  stop := max s.stop stop
  start_le_stop := by have := s.start_le_stop; omega

def text (s : Span) : String :=
  s!"{s.start}..{s.stop}"

end Span

/-- A value found at a place in the source. -/
structure Located (α : Type) where
  span : Span
  value : α

def Located.map {α β : Type} (f : α → β) (x : Located α) : Located β :=
  ⟨x.span, f x.value⟩

end FortranTyping

import FortranTyping.Capacity

/-!
# Counts

Array sizes and character lengths are kept below `2 ^ 64`. A sum or product that reaches this
limit is not known, and neither is one with an unknown part.
-/

namespace FortranTyping.Count

def limit : Nat :=
  capacity 64

def known? (n : Nat) : Option Nat :=
  if n < limit then some n else none

def add? (m n : Nat) : Option Nat :=
  known? (m + n)

def mul? (m n : Nat) : Option Nat :=
  known? (m * n)

/-- The sum of counts, each of which may be unknown. -/
def total? : List (Option Nat) → Option Nat
  | [] => some 0
  | count :: counts => do add? (← count) (← total? counts)

/-- How many integers lie from `lower` to `upper`, both included. -/
def between? (lower upper : Int) : Option Nat :=
  known? (upper - lower + 1).toNat

/-- How often a loop from `start` to `stop` runs, stepping by `stride`. A stride of zero has no
trip count. -/
def trips? (start stop stride : Int) : Option Nat :=
  if stride = 0 then none else known? ((stop - start + stride).tdiv stride).toNat

end FortranTyping.Count

/-!
# Capacity of words

How many values fit into a number of bits. All limits on integers and counts are stated with it.
-/

namespace FortranTyping

/-- Two to the power of `bits`. -/
def capacity (bits : Nat) : Nat :=
  Nat.pow 2 bits

end FortranTyping

/-!
# Severity

How serious a diagnostic is, from a note to an error.
-/

namespace FortranTyping

inductive Severity where
  | note
  | warning
  | error
  deriving DecidableEq, Repr

namespace Severity

def text : Severity → String
  | note => "note"
  | warning => "warning"
  | error => "error"

def rank : Severity → Nat
  | note => 0
  | warning => 1
  | error => 2

instance : Ord Severity where
  compare a b := compare a.rank b.rank

instance : Max Severity where
  max a b := if a.rank ≤ b.rank then b else a

end Severity

end FortranTyping

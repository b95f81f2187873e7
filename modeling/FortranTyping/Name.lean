/-!
# Names

Fortran does not distinguish upper and lower case in names. Only the letters of ASCII have a case
here; all other characters stand for themselves.
-/

namespace FortranTyping

/-- The form in which two spellings of a name are compared. -/
def foldCase (name : String) : String :=
  name.map Char.toLower

def SameName (a b : String) : Prop :=
  foldCase a = foldCase b

instance (a b : String) : Decidable (SameName a b) :=
  inferInstanceAs (Decidable (_ = _))

end FortranTyping

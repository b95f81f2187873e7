import FortranTyping.Diagnostic.Basic

/-!
# Options

What a check takes for granted and what it is to report.
-/

namespace FortranTyping

structure Options where
  /-- The length of a `character` declaration without a length selector. -/
  defaultCharacterLength : Nat := 1
  /-- Report references without a declaration. -/
  reportUnresolved : Bool := false
  /-- Report what is left unchecked. -/
  reportSkipped : Bool := false
  /-- Say nothing about what is built from unknown types. -/
  suppressCascades : Bool := true

namespace Options

/-- Whether a fault of something built from these types is worth a report. -/
def reports (options : Options) (inputs : List Ty) : Bool :=
  !(options.suppressCascades && inputs.any Ty.isUnknown)

/-- The note that something is left unchecked, where such notes are wanted. -/
def skip (options : Options) (span : Span) (expr : Option NodeId) (reason : SkipReason) :
    List Diagnostic :=
  if options.reportSkipped then [.of span (.skipped expr reason)] else []

end Options

end FortranTyping

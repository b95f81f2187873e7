import FortranTyping.Infer.Verdict
import FortranTyping.Ty.Assignment

/-!
# Array constructors

The typing rule of an array constructor. Its entries are first reduced to contributions, an element
type with a number of elements; the types unify into the base and the numbers add up to the size.
Where the type of the variable is known, the entries are checked against it instead of one another.
-/

namespace FortranTyping

/-- What an entry adds to its array. Reports about the entry name `expr`, which is the constructor
if the entry is an implied-do range. -/
structure Contribution where
  expr : NodeId
  span : Span
  type : Ty
  count : Option Nat

namespace Contribution

def ofElement (element : Node) (type : Ty) : Contribution :=
  ⟨element.id, element.span, type, some 1⟩

/-- The number of elements of several entries together. -/
def total? (contributions : List Contribution) : Option Nat :=
  Count.total? (contributions.map Contribution.count)

end Contribution

/-! ## Implied-do ranges -/

/-- The values of start, stop and stride, if all are literals. -/
def loopValues? (start stop : Expr) (stride : Option Expr) : Option (Int × Int × Int) := do
  some (← start.integerValue?, ← stop.integerValue?, ← valueOrOne? stride)

/-- The number of trips of a loop, or the reason why it cannot be told. -/
def loopTrips (start stop : Expr) (stride : Option Expr) : Except SkipReason Nat :=
  match loopValues? start stop stride with
  | none => .error .nonLiteralLoopBound
  | some (first, last, step) =>
      match Count.trips? first last step with
      | none => .error .zeroStride
      | some trips => .ok trips

/-- What a range adds to its array, with the note that its number of elements cannot be told. -/
structure RangeVerdict where
  contribution : Contribution
  reports : List Diagnostic

/-- A range within the constructor `owner`, whose controls are integers or are not (`wellFormed`)
and whose body has `perTrip` elements. Its elements count as integers. -/
def rangeVerdict (options : Options) (owner : NodeId) (span : Span) (wellFormed : Bool)
    (perTrip : Option Nat) (trips : Except SkipReason Nat) : RangeVerdict :=
  if wellFormed then
    match trips with
    | .error reason => ⟨⟨owner, span, .integer, none⟩, options.skip span (some owner) reason⟩
    | .ok trips => ⟨⟨owner, span, .integer, perTrip.bind (Count.mul? · trips)⟩, []⟩
  else ⟨⟨owner, span, .unknown none, none⟩, []⟩

/-! ## Element types -/

/-- Unifies the types of the entries with `base`, the type of those before them. Only the first
break is reported, and none unless `report`. -/
def unifyEntries (options : Options) (report : Bool) (base : Ty) :
    List Contribution → Ty × List Diagnostic
  | [] => (base, [])
  | entry :: entries =>
      let unified := base.unify entry.type
      if report && unified.isUnknown && options.reports [base, entry.type] then
        ((unifyEntries options false unified entries).1,
          [.of entry.span (.constructorElement entry.expr base entry.type)])
      else unifyEntries options report unified entries

/-- The type of all entries together, if there are any, with the report of the first break. -/
def unifiedType (options : Options) (report : Bool) : List Contribution → Option Ty × List Diagnostic
  | [] => (none, [])
  | entry :: entries =>
      let unified := unifyEntries options report entry.type entries
      (some unified.1, unified.2)

/-- The type of the whole. An empty constructor takes its element type from the variable. -/
def builtType (base : Option Ty) (size : Option Nat) (expected : Option Ty) : Ty :=
  match base, size with
  | none, _ =>
      match expected with
      | some (.array base _) => .arrayOf base 0
      | _ => .unknown (some "empty array constructor")
  | some _, none => .unknown (some "array constructor size is not known")
  | some base, some size => .arrayOf base size

/-- The reports about entries that an array of `base` does not take. -/
def misfits (options : Options) (base : Ty) (entries : List Contribution) : List Diagnostic :=
  (entries.filter fun entry => !base.accepts entry.type && options.reports [entry.type]).map
    fun entry => .of entry.span (.constructorElement entry.expr base entry.type)

/-- The reports about a constructor of type `built` that is stored into a variable of type
`expected`: about its entries, or about the whole if there is nothing to say about them. -/
def storeReports (options : Options) (node : Node) (entries : List Contribution)
    (expected built : Ty) : List Diagnostic :=
  if expected.accepts built then []
  else
    let entryReports := match expected with
      | .array base _ => misfits options base entries
      | _ => []
    if !entryReports.isEmpty then entryReports
    else if options.reports [built] then
      [.of node.span (.mismatch node.id expected built)]
    else []

def constructorVerdict (options : Options) (node : Node) (entries : List Contribution)
    (expected : Option Ty) : Verdict :=
  let unified := unifiedType options (!expected.any Ty.isArray) entries
  let built := builtType unified.1 (Contribution.total? entries) expected
  ⟨built, unified.2 ++ expected.elim [] (storeReports options node entries · built)⟩

end FortranTyping

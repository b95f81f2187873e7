import FortranTyping.Infer.Unit
import FortranTyping.Source.Builder
import FortranTyping.Source.Outline
import FortranTyping.Proofs.Counts
import FortranTyping.Proofs.Literals.Numerals
import FortranTyping.Proofs.Literals.Kinds
import FortranTyping.Proofs.Literals.Range
import FortranTyping.Proofs.Declarations.Types
import FortranTyping.Proofs.Walk.Postorder
import FortranTyping.Proofs.Walk.Steps
import FortranTyping.Proofs.Walk.Memory
import FortranTyping.Proofs.Walk.Unit
import FortranTyping.Proofs.Walk.Traversal
import FortranTyping.Proofs.Walk.Growth
import FortranTyping.Proofs.Walk.Inserts
import FortranTyping.Proofs.Walk.Recording
import FortranTyping.Proofs.Walk.Tasks
import FortranTyping.Proofs.Walk.Order
import FortranTyping.Proofs.Reports.Findings
import FortranTyping.Proofs.Reports.Agreement
import FortranTyping.Proofs.Reports.Locality
import FortranTyping.Proofs.Reports.Operations
import FortranTyping.Proofs.Literals.Overflow
import FortranTyping.Proofs.Literals.Value
import FortranTyping.Proofs.Loops.Scopes
import FortranTyping.Proofs.Loops.References
import FortranTyping.Proofs.Declarations.References
import FortranTyping.Proofs.Trees.Mapping
import FortranTyping.Proofs.Trees.Names
import FortranTyping.Proofs.Trees.Parentheses
import FortranTyping.Proofs.TwoRuns.Coupling
import FortranTyping.Proofs.Constructor.Fold
import FortranTyping.Proofs.TwoRuns.Cascade
import FortranTyping.Proofs.TwoRuns.Constructors
import FortranTyping.Proofs.TwoRuns.Spelling
import FortranTyping.Proofs.TwoRuns.Wrapped
import FortranTyping.Proofs.TwoRuns.Parentheses
import FortranTyping.Proofs.TwoRuns.Switches
import FortranTyping.Proofs.TwoRuns.Expectations
import FortranTyping.Proofs.TwoRuns.Regrouping
import FortranTyping.Proofs.Ty.Acceptance
import FortranTyping.Proofs.Ty.LeastBound
import FortranTyping.Proofs.Ty.Unification
import FortranTyping.Proofs.Ty.Laws
import FortranTyping.Proofs.Constructor.Size
import FortranTyping.Proofs.Constructor.Permutation
import FortranTyping.Proofs.Constructor.Store
import FortranTyping.Proofs.Constructor.Break
import FortranTyping.Proofs.Constructor.Elements
import FortranTyping.Proofs.Reports.Notes
import FortranTyping.Proofs.Walk.Closure
import FortranTyping.Proofs.Unknown.Rules
import FortranTyping.Proofs.Unknown.Origin
import FortranTyping.Proofs.Stores.Value
import FortranTyping.Proofs.Stores.Mismatch
import FortranTyping.Proofs.Building.Covering
import FortranTyping.Proofs.Building.Sessions
import FortranTyping.Proofs.Building.Identities
import FortranTyping.Proofs.Building.Declarations
import FortranTyping.Proofs.Building.Joins
import FortranTyping.Proofs.Ty.Order
import FortranTyping.Proofs.Declarations.Scopes
import FortranTyping.Proofs.TwoRuns.WellFormed
import FortranTyping.Proofs.Stores.Concatenation
import FortranTyping.Proofs.Stores.Capacity

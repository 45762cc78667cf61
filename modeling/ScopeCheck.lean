import ScopeCheck.Check.Run
import ScopeCheck.Table.Listing
import ScopeCheck.Reporter
import ScopeCheck.Proofs.Table.CallTarget
import ScopeCheck.Proofs.Table.Representation
import ScopeCheck.Proofs.Table.StackOfMaps
import ScopeCheck.Proofs.Table.Listings
import ScopeCheck.Proofs.Unfolding
import ScopeCheck.Proofs.Lexical
import ScopeCheck.Proofs.Mirror
import ScopeCheck.Proofs.Agreement
import ScopeCheck.Proofs.Outcome
import ScopeCheck.Proofs.FirstOffence
import ScopeCheck.Proofs.Traversal
import ScopeCheck.Proofs.Judgement
import ScopeCheck.Proofs.Unreachable
import ScopeCheck.Proofs.Declarations
import ScopeCheck.Proofs.Assembly
import ScopeCheck.Proofs.NestingLimit
import ScopeCheck.Proofs.BottomUp
import ScopeCheck.Proofs.Table.LeftScopes
import ScopeCheck.Proofs.TwoRuns
import ScopeCheck.Proofs.Logging
import ScopeCheck.Proofs.TopLevel
import ScopeCheck.Proofs.Appending
import ScopeCheck.Proofs.SameSteps
import ScopeCheck.Proofs.Correspondence
import ScopeCheck.Proofs.SyntaxTree
import ScopeCheck.Proofs.Relabelling
import ScopeCheck.Proofs.Links
import ScopeCheck.Proofs.Bracketing
import ScopeCheck.Proofs.FrameTree
import ScopeCheck.Proofs.Insertion
import ScopeCheck.Proofs.Table.LateVariables
import ScopeCheck.Proofs.Table.Persistence
import ScopeCheck.Proofs.Table.Nested
import ScopeCheck.Proofs.Desugaring
import ScopeCheck.Proofs.Wrapping
import ScopeCheck.Proofs.Findings
import ScopeCheck.Proofs.Course

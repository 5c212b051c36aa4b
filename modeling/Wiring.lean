import Wiring.Diagnostic.Journal
import Wiring.Diagnostic.Json
import Wiring.Json.Parser
import Wiring.Json.Printer
import Wiring.Options.Json
import Wiring.Options.Load
import Wiring.Plan.Json
import Wiring.Planning
import Wiring.Proofs.Diagnostic.Reported
import Wiring.Proofs.Catalog.WellFormed
import Wiring.Proofs.Planning
import Wiring.Proofs.Resolution.Derivation
import Wiring.Proofs.Resolution.Termination
import Wiring.Proofs.Resolution.Growth
import Wiring.Proofs.Resolution.Service
import Wiring.Proofs.Resolution.Eager
import Wiring.Proofs.Resolution.Sharing
import Wiring.Proofs.Resolution.Graph
import Wiring.Proofs.Resolution.Cycles
import Wiring.Proofs.Injector.Scopes
import Wiring.Proofs.Resolution.Access
import Wiring.Proofs.Resolution.Effect
import Wiring.Proofs.Resolution.Affects
import Wiring.Proofs.Resolution.Order
import Wiring.Proofs.Resolution.Layout
import Wiring.Proofs.Expr.Nodes
import Wiring.Proofs.Resolution.Failures
import Wiring.Proofs.Expr.Likeness
import Wiring.Proofs.Injector.Twins
import Wiring.Proofs.Resolution.Lockstep
import Wiring.Proofs.Injector.Interception
import Wiring.Proofs.Resolution.Construction
import Wiring.Proofs.Resolution.Weaving
import Wiring.Proofs.Resolution.Keeping
import Wiring.Proofs.Expr.Evaluation
import Wiring.Proofs.Interception.Chain
import Wiring.Proofs.Interception.Capture
import Wiring.Proofs.Name
import Wiring.Proofs.Injector.Identifiers
import Wiring.Proofs.RoundTrip
import Wiring.Proofs.Catalog.Lineage
import Wiring.Proofs.Reordering
import Wiring.Proofs.Resolution.Hoisting
import Wiring.Proofs.Resolution.Placement
import Wiring.Proofs.Resolution.Origin
import Wiring.Proofs.Resolution.Guarding
import Wiring.Proofs.Resolution.Precedence
import Wiring.Proofs.Parallel
import Wiring.Proofs.Resolution.Independence
import Wiring.Proofs.FirstOfEach
import Wiring.Proofs.Catalog.Modules
import Wiring.Proofs.Catalog.Classes
import Wiring.Proofs.Injector.Flattening
import Wiring.Proofs.Matcher
import Wiring.Proofs.Injector.Annotation
import Wiring.Proofs.Interception.Guards
import Wiring.Proofs.Expr.Text
import Wiring.Proofs.Pattern.Glob
import Wiring.Proofs.Pattern.Namespace

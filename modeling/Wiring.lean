import Wiring.Container.Builder
import Wiring.Container.Typed
import Wiring.Options.Document
import Wiring.Options.Environment
import Wiring.Proofs.Action
import Wiring.Proofs.Client.Accessors
import Wiring.Proofs.Client.Cursor
import Wiring.Proofs.Container.Accounting
import Wiring.Proofs.Container.Admission
import Wiring.Proofs.Container.Announcements
import Wiring.Proofs.Container.Caching
import Wiring.Proofs.Container.CleanReport
import Wiring.Proofs.Container.Constructions
import Wiring.Proofs.Container.Enrolment
import Wiring.Proofs.Container.Faults
import Wiring.Proofs.Container.History
import Wiring.Proofs.Container.Independence
import Wiring.Proofs.Container.Ledger
import Wiring.Proofs.Container.Occasions
import Wiring.Proofs.Container.Portraits
import Wiring.Proofs.Container.Preparation
import Wiring.Proofs.Container.Prewarming
import Wiring.Proofs.Container.Reach
import Wiring.Proofs.Container.Refinement
import Wiring.Proofs.Container.Resolution
import Wiring.Proofs.Container.Resumption
import Wiring.Proofs.Container.Services
import Wiring.Proofs.Container.Session
import Wiring.Proofs.Container.Singletons
import Wiring.Proofs.Container.Transients
import Wiring.Proofs.Container.Transparency
import Wiring.Proofs.Container.Typing
import Wiring.Proofs.Container.Validation
import Wiring.Proofs.Container.Warm
import Wiring.Proofs.Elementwise
import Wiring.Proofs.Factory.Caching
import Wiring.Proofs.Factory.Calm
import Wiring.Proofs.Factory.Conduct
import Wiring.Proofs.Factory.Constructions
import Wiring.Proofs.Factory.Discretion
import Wiring.Proofs.Factory.Evaluation
import Wiring.Proofs.Factory.Handling
import Wiring.Proofs.Factory.Initialization
import Wiring.Proofs.Factory.Simulation
import Wiring.Proofs.Factory.Steps
import Wiring.Proofs.Injection
import Wiring.Proofs.Injection.Activity
import Wiring.Proofs.Injection.Lineage
import Wiring.Proofs.Injection.Occasions
import Wiring.Proofs.Injection.Portraits
import Wiring.Proofs.Injection.Products
import Wiring.Proofs.Injection.Singletons
import Wiring.Proofs.Plan.Arena
import Wiring.Proofs.Plan.BuildOrder
import Wiring.Proofs.Plan.CallCount
import Wiring.Proofs.Plan.Depth
import Wiring.Proofs.Plan.Layout
import Wiring.Proofs.Plan.Report
import Wiring.Proofs.Plan.Sharing
import Wiring.Proofs.Plan.Unfolding
import Wiring.Proofs.Plan.WellFormed
import Wiring.Proofs.Program
import Wiring.Proofs.Program.Callees
import Wiring.Proofs.Program.Listing
import Wiring.Proofs.Program.Operations
import Wiring.Proofs.Program.Outline
import Wiring.Proofs.Program.SlotOrder
import Wiring.Proofs.Registry.Catalogue
import Wiring.Proofs.Registry.Coherence
import Wiring.Proofs.Registry.Dependency
import Wiring.Proofs.Registry.Numbering
import Wiring.Proofs.Registry.Reordering
import Wiring.Proofs.Registry.Selection
import Wiring.Proofs.Service.Key
import Wiring.Proofs.Survey.Derivation
import Wiring.Proofs.Survey.Discipline
import Wiring.Proofs.Survey.Failures
import Wiring.Proofs.Survey.Resolvable
import Wiring.Proofs.Survey.Walk
import Wiring.Proofs.Options.Environment
import Wiring.Proofs.Options.Settings
import Wiring.Proofs.Settings.Listing
import Wiring.Proofs.Settings.Value
import Wiring.Proofs.Text.Case
import Wiring.Settings.Table

import ModuleWiring.Main
import ModuleWiring.Proofs.AcceptedHeaders
import ModuleWiring.Proofs.Aftermath
import ModuleWiring.Proofs.Agreement
import ModuleWiring.Proofs.Application
import ModuleWiring.Proofs.AttachmentPolicy
import ModuleWiring.Proofs.Completeness
import ModuleWiring.Proofs.Course
import ModuleWiring.Proofs.DynamicImports
import ModuleWiring.Proofs.EmptyRanges
import ModuleWiring.Proofs.ExitCode
import ModuleWiring.Proofs.Histories
import ModuleWiring.Proofs.Hosting
import ModuleWiring.Proofs.ImportNames
import ModuleWiring.Proofs.ImportOrder
import ModuleWiring.Proofs.Optional
import ModuleWiring.Proofs.Persistence
import ModuleWiring.Proofs.PolicyChoice
import ModuleWiring.Proofs.RangeGrammar
import ModuleWiring.Proofs.Reexports
import ModuleWiring.Proofs.Refusals
import ModuleWiring.Proofs.Removal
import ModuleWiring.Proofs.Scan
import ModuleWiring.Proofs.SelfService
import ModuleWiring.Proofs.Singletons
import ModuleWiring.Proofs.Subsets
import ModuleWiring.Proofs.Termination
import ModuleWiring.Proofs.Tracking
import ModuleWiring.Proofs.Untracked
import ModuleWiring.Proofs.Upkeep
import ModuleWiring.Proofs.UsesClosure
import ModuleWiring.Proofs.ValidUniverses
import ModuleWiring.Proofs.VersionGrammar
import ModuleWiring.Proofs.WellFormed
import ModuleWiring.Proofs.WrittenHeaders
import ModuleWiring.Proofs.WrittenRanges
import ModuleWiring.Proofs.WrittenVersions

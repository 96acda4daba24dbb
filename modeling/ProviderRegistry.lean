import ProviderRegistry.CommandLine.Run
import ProviderRegistry.Element.Check
import ProviderRegistry.Factory.Generator
import ProviderRegistry.Main
import ProviderRegistry.Marking
import ProviderRegistry.Registry.Aggregate
import ProviderRegistry.Registry.Line
import ProviderRegistry.Round
import ProviderRegistry.Settings.Load
import ProviderRegistry.World.Access
import ProviderRegistry.World.Text
import ProviderRegistry.Proofs.Aggregates
import ProviderRegistry.Proofs.Utf8
import ProviderRegistry.Proofs.Files
import ProviderRegistry.Proofs.Lines
import ProviderRegistry.Proofs.Outputs
import ProviderRegistry.Proofs.Writing
import ProviderRegistry.Proofs.Merging
import ProviderRegistry.Proofs.Generating
import ProviderRegistry.Proofs.Frames
import ProviderRegistry.Proofs.Loading
import ProviderRegistry.Proofs.Iterations
import ProviderRegistry.Proofs.Sharing
import ProviderRegistry.Proofs.Processing
import ProviderRegistry.Proofs.Rounds
import ProviderRegistry.Proofs.Names
import ProviderRegistry.Proofs.Sources
import ProviderRegistry.Proofs.Resolving
import ProviderRegistry.Proofs.Readers
import ProviderRegistry.Proofs.ProviderNames
import ProviderRegistry.Proofs.Scanning
import ProviderRegistry.Proofs.Declarations
import ProviderRegistry.Proofs.Importing
import ProviderRegistry.Proofs.Binding
import ProviderRegistry.Proofs.Forgetting
import ProviderRegistry.Proofs.Referring
import ProviderRegistry.Proofs.Mirroring
import ProviderRegistry.Proofs.LocalImports
import ProviderRegistry.Proofs.FactoryModules
import ProviderRegistry.Proofs.Placing
import ProviderRegistry.Proofs.Overwriting
import ProviderRegistry.Proofs.Reports
import ProviderRegistry.Proofs.Restarting
import ProviderRegistry.Proofs.Linearising
import ProviderRegistry.Proofs.Inheriting
import ProviderRegistry.Proofs.Abstractness
import ProviderRegistry.Proofs.Effects
import ProviderRegistry.Proofs.Unreadable
import ProviderRegistry.Proofs.Routes
import ProviderRegistry.Proofs.Walking
import ProviderRegistry.Proofs.Agreeing
import ProviderRegistry.Proofs.Deleting
import ProviderRegistry.Proofs.SourceFiles
import ProviderRegistry.Proofs.Rejecting
import ProviderRegistry.Proofs.Asking
import ProviderRegistry.Proofs.Arrivals
import ProviderRegistry.Proofs.Unimportable
import ProviderRegistry.Proofs.Histories
import ProviderRegistry.Proofs.Rereading
import ProviderRegistry.Proofs.Decorating
import ProviderRegistry.Proofs.Spelling
import ProviderRegistry.Proofs.Assigning
import ProviderRegistry.Proofs.Remembering
import ProviderRegistry.Proofs.Aggregating
import ProviderRegistry.Proofs.Shadowing
import ProviderRegistry.Proofs.Candidates
import ProviderRegistry.Proofs.OnePerName
import ProviderRegistry.Proofs.TextOrder
import ProviderRegistry.Proofs.FactoryText
import ProviderRegistry.Proofs.SnakeCase
import ProviderRegistry.Proofs.RoundTrip
import ProviderRegistry.Proofs.Creating
import ProviderRegistry.Proofs.Traversing

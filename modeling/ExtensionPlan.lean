import ExtensionPlan.Glob.Search
import ExtensionPlan.Toggle
import ExtensionPlan.Configuration
import ExtensionPlan.Cuda
import ExtensionPlan.Json.Reader
import ExtensionPlan.Locator
import ExtensionPlan.Package.Basic
import ExtensionPlan.Plan
import ExtensionPlan.PathForm
import ExtensionPlan.Artifact.Directive
import ExtensionPlan.Artifact.Compilation
import ExtensionPlan.CommandLine.Response
import ExtensionPlan.World.Snapshot
import ExtensionPlan.Main
import ExtensionPlan.Proofs.Run
import ExtensionPlan.Proofs.Path.Distinct
import ExtensionPlan.Proofs.Path.Spelling
import ExtensionPlan.Proofs.Path.Descent
import ExtensionPlan.Proofs.Tree.Walk
import ExtensionPlan.Proofs.Tree.Enumeration
import ExtensionPlan.Proofs.World.Walk
import ExtensionPlan.Proofs.Artifact.Growth
import ExtensionPlan.Proofs.Configuration
import ExtensionPlan.Proofs.Package
import ExtensionPlan.Proofs.Package.Assignment
import ExtensionPlan.Proofs.Package.Comment
import ExtensionPlan.Proofs.Package.Located
import ExtensionPlan.Proofs.Toolchain
import ExtensionPlan.Proofs.Plan.Linking
import ExtensionPlan.Proofs.Glob.Escape
import ExtensionPlan.Proofs.Glob.Search
import ExtensionPlan.Proofs.Library
import ExtensionPlan.Proofs.Artifact.Directives
import ExtensionPlan.Proofs.Plan.Directives
import ExtensionPlan.Proofs.Plan.LinkKinds
import ExtensionPlan.Proofs.Glob.Descent
import ExtensionPlan.Proofs.Path.Order
import ExtensionPlan.Proofs.Path.Ancestors
import ExtensionPlan.Proofs.Glob.Entries
import ExtensionPlan.Proofs.Glob.Enumeration
import ExtensionPlan.Proofs.SourceSet
import ExtensionPlan.Proofs.Artifact.Compilation
import ExtensionPlan.Proofs.Toolchain.Populated
import ExtensionPlan.Proofs.Toolchain.Inquiry
import ExtensionPlan.Proofs.Plan.Suffix
import ExtensionPlan.Proofs.World.Variables
import ExtensionPlan.Proofs.Configuration.Reading
import ExtensionPlan.Proofs.Plan.Dependence
import ExtensionPlan.Proofs.Plan.Trace
import ExtensionPlan.Proofs.Plan.Announcement
import ExtensionPlan.Proofs.CommandLine.Overrides
import ExtensionPlan.Proofs.CommandLine.Octets
import ExtensionPlan.Proofs.CommandLine.Precedence
import ExtensionPlan.Proofs.CommandLine.EmptyVariables
import ExtensionPlan.Proofs.Configuration.Strictness
import ExtensionPlan.Proofs.Plan.Archive
import ExtensionPlan.Proofs.Text.Lines
import ExtensionPlan.Proofs.Text.Utf8
import ExtensionPlan.Proofs.Path.Octets
import ExtensionPlan.Proofs.PathForm
import ExtensionPlan.Proofs.Plan.Interchange
import ExtensionPlan.Proofs.Description
import ExtensionPlan.Proofs.Library.Preference
import ExtensionPlan.Proofs.Library.Regular
import ExtensionPlan.Proofs.Artifact.Shown
import ExtensionPlan.Proofs.Plan.ReadBack
import ExtensionPlan.Proofs.Plan.Silence
import ExtensionPlan.Proofs.CommandLine.Output
import ExtensionPlan.Proofs.Package.Failure
import ExtensionPlan.Proofs.Toolchain.Origin
import ExtensionPlan.Proofs.Configuration.Beside
import ExtensionPlan.Proofs.Package.Seen
import ExtensionPlan.Proofs.FlagSet
import ExtensionPlan.Proofs.FlagSet.Text
import ExtensionPlan.Proofs.Artifact.Flags
import ExtensionPlan.Proofs.Text.LastLine
import ExtensionPlan.Proofs.Locator.Answer
import ExtensionPlan.Proofs.Path.Resolved
import ExtensionPlan.Proofs.Configuration.Resolved
import ExtensionPlan.Proofs.Glob.Rooted
import ExtensionPlan.Proofs.Plan.Spelling
import ExtensionPlan.Proofs.Artifact.Arguments
import ExtensionPlan.Proofs.Artifact.Includes
import ExtensionPlan.Proofs.Library.LinkName
import ExtensionPlan.Proofs.Library.Denoted
import ExtensionPlan.Proofs.Library.Held
import ExtensionPlan.Proofs.Toolchain.Cuda
import ExtensionPlan.Proofs.Glob.Validity
import ExtensionPlan.Proofs.Glob.Concatenation
import ExtensionPlan.Proofs.SourceSet.Rejection
import ExtensionPlan.Proofs.Configuration.SearchList
import ExtensionPlan.Proofs.Configuration.Listing
import ExtensionPlan.Proofs.Library.Pattern
import ExtensionPlan.Proofs.Library.Literal
import ExtensionPlan.Proofs.Library.Order

import NodeForge.Main
import NodeForge.Proofs.Outcome
import NodeForge.Proofs.Document.Sameness
import NodeForge.Proofs.Document.Entries
import NodeForge.Proofs.Document.Parts
import NodeForge.Proofs.Document.Copies
import NodeForge.Proofs.Document.Slots
import NodeForge.Proofs.Document.Settled
import NodeForge.Proofs.Document.Runs
import NodeForge.Proofs.Document.Order
import NodeForge.Proofs.Document.Spelling
import NodeForge.Proofs.Reference.Pointer
import NodeForge.Proofs.Reference.Equations
import NodeForge.Proofs.Reference.Expansion
import NodeForge.Proofs.Reference.Targets
import NodeForge.Proofs.Reference.Ways
import NodeForge.Proofs.Reference.Visits
import NodeForge.Proofs.Reference.Ends
import NodeForge.Proofs.OpenApi.Mention
import NodeForge.Proofs.Text.Order
import NodeForge.Proofs.Text.Bytes
import NodeForge.Proofs.Text.Rows
import NodeForge.Proofs.Text.Lines
import NodeForge.Proofs.Endpoint
import NodeForge.Proofs.Naming.Candidate
import NodeForge.Proofs.Naming.Turns
import NodeForge.Proofs.Naming.Collisions
import NodeForge.Proofs.OpenApi.Rows
import NodeForge.Proofs.OpenApi.Accounting
import NodeForge.Proofs.OpenApi.Lookup
import NodeForge.Proofs.OpenApi.Declarations
import NodeForge.Proofs.Schema.Form
import NodeForge.Proofs.Schema.Steps
import NodeForge.Proofs.Schema.Nodes
import NodeForge.Proofs.Schema.Clashes
import NodeForge.Proofs.Schema.Mandatory
import NodeForge.Proofs.Schema.Shares
import NodeForge.Proofs.Schema.Normal
import NodeForge.Proofs.Schema.Joining
import NodeForge.Proofs.Schema.Composition
import NodeForge.Proofs.Schema.Plain
import NodeForge.Proofs.Schema.Contributions
import NodeForge.Proofs.Schema.KeysApart
import NodeForge.Proofs.Schema.Association
import NodeForge.Proofs.Schema.MergedRows
import NodeForge.Proofs.Schema.Grouping
import NodeForge.Proofs.OpenApi.Parameters
import NodeForge.Proofs.OpenApi.ParameterNames
import NodeForge.Proofs.OpenApi.DeclaredBodies
import NodeForge.Proofs.OpenApi.Bodies
import NodeForge.Proofs.OpenApi.Locality
import NodeForge.Proofs.OpenApi.Alike
import NodeForge.Proofs.OpenApi.OlderStyle
import NodeForge.Proofs.Naming.Stems
import NodeForge.Proofs.Naming.Refolding
import NodeForge.Proofs.Naming.Plural
import NodeForge.Proofs.Naming.Stripping
import NodeForge.Proofs.Naming.Styles
import NodeForge.Proofs.Node.Sameness
import NodeForge.Proofs.Node.RoundTrip
import NodeForge.Proofs.Source.Fields
import NodeForge.Proofs.Source.Statements
import NodeForge.Proofs.Source.Collections
import NodeForge.Proofs.Text.Braces
import NodeForge.Proofs.Source.Chains
import NodeForge.Proofs.Source.Reach
import NodeForge.Proofs.Source.Keys
import NodeForge.Proofs.Source.Exports
import NodeForge.Proofs.Source.Closure
import NodeForge.Proofs.Source.Choices
import NodeForge.Proofs.Outline.Ids
import NodeForge.Proofs.Outline.Buckets
import NodeForge.Proofs.Outline.RouteParameters
import NodeForge.Proofs.Source.Constants
import NodeForge.Proofs.Source.Template
import NodeForge.Proofs.Source.Scope
import NodeForge.Proofs.Outline.Routes
import NodeForge.Proofs.Source.Queries
import NodeForge.Proofs.Store.Files
import NodeForge.Proofs.CommandLine.Steps
import NodeForge.Proofs.CommandLine.Output
import NodeForge.Proofs.Source.Literals
import NodeForge.Proofs.Source.Tokens
import NodeForge.Proofs.Source.Confined
import NodeForge.Proofs.Source.Defaults

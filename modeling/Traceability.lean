import Traceability.Text.Blank
import Traceability.Text.Alphanumeric
import Traceability.Text.Capital
import Traceability.Sorted.Set
import Traceability.Sorted.Map
import Traceability.Sorted.Search
import Traceability.Number.Numeral
import Traceability.Number.Shortest
import Traceability.Filter.Evaluation
import Traceability.Filter.Cache
import Traceability.Item
import Traceability.Relationship
import Traceability.Registry
import Traceability.Diagnostic
import Traceability.Session
import Traceability.View.Format
import Traceability.Watch
import Traceability.Yaml.Scalar
import Traceability.Yaml.Scan
import Traceability.Yaml.Value
import Traceability.Markdown.Entity
import Traceability.Markdown.Html
import Traceability.Markdown.Reference
import Traceability.Main
import Traceability.Proofs.Sorted.Lookup
import Traceability.Proofs.Sorted.Search
import Traceability.Proofs.Registry.Effects
import Traceability.Proofs.Resolution.Links
import Traceability.Proofs.Relationship.Opposites
import Traceability.Proofs.Resolution.Outcome
import Traceability.Proofs.Registry.Log
import Traceability.Proofs.Registry.Refinement
import Traceability.Proofs.Session.Run
import Traceability.Proofs.Session.Closure
import Traceability.Proofs.Session.Duplicates
import Traceability.Proofs.Folder.Sources
import Traceability.Proofs.Project.Classification
import Traceability.Proofs.Session.Follows
import Traceability.Proofs.Project.Refresh
import Traceability.Proofs.Project.History
import Traceability.Proofs.Matrix.Pages
import Traceability.Proofs.Filter.Grammar
import Traceability.Proofs.Filter.Reading
import Traceability.Proofs.Graph.Paths
import Traceability.Proofs.Graph.Exploration
import Traceability.Proofs.Graph.Walk
import Traceability.Proofs.Session.Graphs
import Traceability.Proofs.Project.ReadingOrder
import Traceability.Proofs.Filter.Acceptance
import Traceability.Proofs.Text.Trimmed
import Traceability.Proofs.Filter.NextToken
import Traceability.Proofs.Filter.Scanning
import Traceability.Proofs.Filter.Composition
import Traceability.Proofs.Session.Filters
import Traceability.Proofs.Matrix.Transpose
import Traceability.Proofs.Session.Matrices
import Traceability.Proofs.Relationship.Directions
import Traceability.Proofs.Graph.Edges
import Traceability.Proofs.Session.Edges
import Traceability.Proofs.Resolution.References
import Traceability.Proofs.Session.Check
import Traceability.Proofs.Filter.Recency
import Traceability.Proofs.Session.Answers
import Traceability.Proofs.Filter.Names
import Traceability.Proofs.Filter.Dependence
import Traceability.Proofs.Session.Names
import Traceability.Proofs.Project.Repetition
import Traceability.Proofs.Watch.Relevance
import Traceability.Proofs.Relationship.Acceptance
import Traceability.Proofs.Text.Lines
import Traceability.Proofs.Directive.WellFormed
import Traceability.Proofs.Directive.Written
import Traceability.Proofs.Directive.Locality
import Traceability.Proofs.Filter.Truncation
import Traceability.Proofs.Filter.Completion
import Traceability.Proofs.Filter.Faults
import Traceability.Proofs.Filter.Spacing
import Traceability.Proofs.Filter.Coherence
import Traceability.Proofs.Filter.Literal
import Traceability.Proofs.Session.Literal
import Traceability.Proofs.Matrix.Overflow
import Traceability.Proofs.Project.Partition
import Traceability.Proofs.View.Dot
import Traceability.Proofs.Markdown.Fences
import Traceability.Proofs.Fenced.Body
import Traceability.Proofs.Fenced.Written
import Traceability.Proofs.Matrix.Insertion
import Traceability.Proofs.Session.Admission
import Traceability.Proofs.Item.Tags
import Traceability.Proofs.Session.Attribution
import Traceability.Proofs.View.Table
import Traceability.Proofs.View.Wrapping
import Traceability.Proofs.Listing.Texts

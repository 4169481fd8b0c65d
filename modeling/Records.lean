import Records.Settings
import Records.Config.Reader
import Records.Config.Resolve
import Records.Sql.Print
import Records.Http.Answer
import Records.Proofs.Text.Blank
import Records.Proofs.Text.Split
import Records.Proofs.Text.Utf8
import Records.Proofs.Text.Percent
import Records.Proofs.Text.Lowercase
import Records.Proofs.Number.Numeral
import Records.Proofs.Number.Rounding
import Records.Proofs.Number.Shortest
import Records.Proofs.Number.Padded
import Records.Proofs.Number.Places
import Records.Proofs.Uuid
import Records.Proofs.Calendar
import Records.Proofs.Calendar.Layouts
import Records.Proofs.Calendar.Chronology
import Records.Proofs.Json.Fields
import Records.Proofs.Json.Order
import Records.Proofs.Filter.Path
import Records.Proofs.Params.Notation
import Records.Proofs.Params.Spelling
import Records.Proofs.Params.Splitting
import Records.Proofs.Params.Kept
import Records.Proofs.Config.Sound
import Records.Proofs.Config.Columns
import Records.Proofs.Config.References
import Records.Proofs.Query.Resolution
import Records.Proofs.Query.Assembly
import Records.Proofs.Query.Acceptance
import Records.Proofs.Store.Evaluation
import Records.Proofs.Store.Pages
import Records.Proofs.Store.Projection
import Records.Proofs.Store.Listing
import Records.Proofs.Store.Trash
import Records.Proofs.Store.Sorting
import Records.Proofs.Store.Stable
import Records.Proofs.Store.Lookup
import Records.Proofs.Store.Changes
import Records.Proofs.Store.Removal
import Records.Proofs.Store.Addressing
import Records.Proofs.Store.Keys
import Records.Proofs.Store.Insertion
import Records.Proofs.Store.Fresh
import Records.Proofs.Store.Created
import Records.Proofs.Store.ThreeValued
import Records.Proofs.Store.Partition
import Records.Proofs.Store.Filtering
import Records.Proofs.Store.Exclusion
import Records.Proofs.Store.Negation
import Records.Proofs.Store.Ranges
import Records.Proofs.Store.Search
import Records.Proofs.Sql.Shape
import Records.Proofs.Sql.Token
import Records.Proofs.Sql.Grammar
import Records.Proofs.Sql.Comparison
import Records.Proofs.Sql.Meaning
import Records.Proofs.Sql.Statement
import Records.Proofs.Sql.Steps
import Records.Proofs.Sql.Placeholders
import Records.Proofs.Sql.Numbering
import Records.Proofs.Sql.Identifiers
import Records.Proofs.Sql.Aliases
import Records.Proofs.Sql.Correlation
import Records.Proofs.Sql.Like
import Records.Proofs.Sql.Paging
import Records.Proofs.Sql.Wire
import Records.Proofs.Listing
import Records.Proofs.Calls
import Records.Proofs.KeyForms
import Records.Proofs.Http.Handlers
import Records.Proofs.Http.Effects
import Records.Proofs.Http.Asked
import Records.Proofs.Http.Items
import Records.Proofs.Http.Reaching
import Records.Proofs.Http.Flavors
import Records.Proofs.Store.History
import Records.Proofs.Store.Provenance
import Records.Proofs.Store.Shape
import Records.Proofs.Writing

import StreamTable.Session.Run
import StreamTable.Config.Reading
import StreamTable.Version
import StreamTable.Proofs.Template.Filling
import StreamTable.Proofs.Template.Segments
import StreamTable.Proofs.Expr.Leaves
import StreamTable.Proofs.Value.Literals
import StreamTable.Proofs.Condition.Emission
import StreamTable.Proofs.Condition.Ordinals
import StreamTable.Proofs.Condition.Holes
import StreamTable.Proofs.Condition.Rendering
import StreamTable.Proofs.Condition.Filter
import StreamTable.Proofs.Condition.Joining
import StreamTable.Proofs.Condition.Clauses
import StreamTable.Proofs.Condition.Bindings
import StreamTable.Proofs.Table.Changes
import StreamTable.Proofs.Table.Settling
import StreamTable.Proofs.Table.Accounting
import StreamTable.Proofs.Table.Merging
import StreamTable.Proofs.Table.Queries
import StreamTable.Proofs.Query.Tokens
import StreamTable.Proofs.Query.Literals
import StreamTable.Proofs.Query.Nesting
import StreamTable.Proofs.Condition.Structure
import StreamTable.Proofs.Condition.Conjunct
import StreamTable.Proofs.Selection.Layout
import StreamTable.Proofs.Selection.References
import StreamTable.Proofs.Selection.LastValue
import StreamTable.Proofs.Document.Assignment
import StreamTable.Proofs.Table.KeyedStore
import StreamTable.Proofs.Table.Contents
import StreamTable.Proofs.Table.Batching
import StreamTable.Proofs.Condition.Typing
import StreamTable.Proofs.Selection.QueryText
import StreamTable.Proofs.Selection.Assembly
import StreamTable.Proofs.BinaryFloat.Rounding
import StreamTable.Proofs.Decimal.Shortest
import StreamTable.Proofs.Decimal.Positional
import StreamTable.Proofs.Table.StoredRows
import StreamTable.Proofs.Table.FoundRows
import StreamTable.Proofs.Cursor.Queue
import StreamTable.Proofs.Text.Replace
import StreamTable.Proofs.Config.ContainerLink
import StreamTable.Proofs.Table.Traces
import StreamTable.Proofs.Table.Replacements
import StreamTable.Proofs.Expr.Searches
import StreamTable.Proofs.Condition.ReadBack
import StreamTable.Proofs.Selection.SubSelects
import StreamTable.Proofs.Selection.Qualifiers
import StreamTable.Proofs.Selection.OutputNames
import StreamTable.Proofs.Table.Records
import StreamTable.Proofs.Table.Concatenation
import StreamTable.Proofs.Table.Handling
import StreamTable.Proofs.Table.BindFailures
import StreamTable.Proofs.Table.OncePerRecord
import StreamTable.Proofs.Table.Addresses
import StreamTable.Proofs.Value.ExactTypes
import StreamTable.Proofs.Table.QueryTexts
import StreamTable.Proofs.Table.UpdatedDocuments
import StreamTable.Proofs.Table.MergedRows
import StreamTable.Proofs.Selection.GeneratedNames
import StreamTable.Proofs.Metrics.Counting
import StreamTable.Proofs.Metrics.Reconciliation
import StreamTable.Proofs.Metrics.Scopes
import StreamTable.Proofs.Table.Calls
import StreamTable.Proofs.Table.Reports
import StreamTable.Proofs.Metrics.AverageRows

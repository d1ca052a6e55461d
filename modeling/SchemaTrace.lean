import SchemaTrace.Main
import SchemaTrace.Provider.Memory
import SchemaTrace.Proofs.Schema.Members
import SchemaTrace.Proofs.Schema.QualifiedName
import SchemaTrace.Proofs.Schema.Restriction
import SchemaTrace.Proofs.SortedMap.Lookup
import SchemaTrace.Proofs.Model.Index
import SchemaTrace.Proofs.Model.Lookup
import SchemaTrace.Proofs.Closure.Reach
import SchemaTrace.Proofs.Closure.Walk
import SchemaTrace.Proofs.Closure.Entered
import SchemaTrace.Proofs.Closure.Exact
import SchemaTrace.Proofs.Closure.Subschema
import SchemaTrace.Proofs.Memo.Operations
import SchemaTrace.Proofs.Memo.Run
import SchemaTrace.Proofs.Memo.SingleFlight
import SchemaTrace.Proofs.Memo.Waiters
import SchemaTrace.Proofs.Text.Position
import SchemaTrace.Proofs.Needle.Occurrence
import SchemaTrace.Proofs.Comment.Annotation
import SchemaTrace.Proofs.Comment.Index
import SchemaTrace.Proofs.Convention.Subset
import SchemaTrace.Proofs.Evidence.Collect
import SchemaTrace.Proofs.Evidence.Exact
import SchemaTrace.Proofs.Evidence.Local
import SchemaTrace.Proofs.Snapshot.History
import SchemaTrace.Proofs.Snapshot.Recovery
import SchemaTrace.Proofs.Closure.Union
import SchemaTrace.Proofs.Extractor.History
import SchemaTrace.Proofs.Reference.Extend
import SchemaTrace.Proofs.Implementation.Merged
import SchemaTrace.Proofs.Schema.Stable
import SchemaTrace.Proofs.Closure.Stable
import SchemaTrace.Proofs.Document.Record
import SchemaTrace.Proofs.Schema.Settled
import SchemaTrace.Proofs.Schema.ShapeReading
import SchemaTrace.Proofs.Schema.Reading
import SchemaTrace.Proofs.Schema.RoundTrip
import SchemaTrace.Proofs.Order.StableSort
import SchemaTrace.Proofs.Schema.Order
import SchemaTrace.Proofs.Schema.Merge
import SchemaTrace.Proofs.Closure.Sorted
import SchemaTrace.Proofs.Comment.Clean
import SchemaTrace.Proofs.Comment.Mention
import SchemaTrace.Proofs.Comment.Exact
import SchemaTrace.Proofs.Comment.Scan
import SchemaTrace.Proofs.Comment.Written
import SchemaTrace.Proofs.Comment.Documentation
import SchemaTrace.Proofs.Comment.LineEnds
import SchemaTrace.Proofs.Evidence.LineEnds
import SchemaTrace.Proofs.Snapshot.Tree
import SchemaTrace.Proofs.Snapshot.Scope
import SchemaTrace.Proofs.Closure.Failure
import SchemaTrace.Proofs.Coverage.Agreement
import SchemaTrace.Proofs.Configuration.Merging
import SchemaTrace.Proofs.Configuration.Validity
import SchemaTrace.Proofs.Configuration.Plan
import SchemaTrace.Proofs.Implementation.Leaves
import SchemaTrace.Proofs.Configuration.Instances
import SchemaTrace.Proofs.Configuration.Sharing
import SchemaTrace.Proofs.Closure.BareReference
import SchemaTrace.Proofs.Report.Reading
import SchemaTrace.Proofs.Needle.Exact
import SchemaTrace.Proofs.Comment.Token
import SchemaTrace.Proofs.Comment.Normal
import SchemaTrace.Proofs.Closure.Turn
import SchemaTrace.Proofs.Comment.Content
import SchemaTrace.Proofs.Model.Listing
import SchemaTrace.Proofs.Needle.Template
import SchemaTrace.Proofs.Closure.Run
import SchemaTrace.Proofs.Evidence.Success
import SchemaTrace.Proofs.Schema.Documents
import SchemaTrace.Proofs.Configuration.Building
import SchemaTrace.Proofs.Comment.Closing
import SchemaTrace.Proofs.Snapshot.Listing
import SchemaTrace.Proofs.Text.LineSearch

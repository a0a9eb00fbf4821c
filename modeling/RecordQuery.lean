import RecordQuery.Main
import RecordQuery.Record.Listing
import RecordQuery.Proofs.Text
import RecordQuery.Proofs.Filter.Token
import RecordQuery.Proofs.Filter.Group
import RecordQuery.Proofs.Filter.Spelling
import RecordQuery.Proofs.Filter.Rendering
import RecordQuery.Proofs.Filter.Batch
import RecordQuery.Proofs.Filter.Tree
import RecordQuery.Proofs.Filter.Meaning
import RecordQuery.Proofs.Filter.Concatenation
import RecordQuery.Proofs.Filter.Composition
import RecordQuery.Proofs.Filter.Remainder
import RecordQuery.Proofs.Filter.Threshold
import RecordQuery.Proofs.Filter.Parentheses
import RecordQuery.Proofs.Filter.Definable
import RecordQuery.Proofs.Sorting.Definable
import RecordQuery.Proofs.Sorting.Order
import RecordQuery.Proofs.Record.Bisimulation
import RecordQuery.Proofs.Table
import RecordQuery.Proofs.Query.Request
import RecordQuery.Proofs.Query.Checking
import RecordQuery.Proofs.Query.Steps
import RecordQuery.Proofs.Query.Paging
import RecordQuery.Proofs.Record.Normal
import RecordQuery.Proofs.Filter.Mention
import RecordQuery.Proofs.Record.Refinement
import RecordQuery.Proofs.Record.Optional
import RecordQuery.Proofs.Command.Faults
import RecordQuery.Proofs.Sorting.Agreement
import RecordQuery.Proofs.Filter.Comparison
import RecordQuery.Proofs.Filter.Membership
import RecordQuery.Proofs.Sorting.Iteration
import RecordQuery.Proofs.Filter.Duality
import RecordQuery.Proofs.Filter.Negation
import RecordQuery.Proofs.Sorting.Spelling
import RecordQuery.Proofs.Sorting.Preorder
import RecordQuery.Proofs.Query.Repetition
import RecordQuery.Proofs.Filter.Verdict
import RecordQuery.Proofs.Record.Document
import RecordQuery.Proofs.Number.Decimal
import RecordQuery.Proofs.Record.Related
import RecordQuery.Proofs.Record.Values
import RecordQuery.Proofs.Record.Numbers
import RecordQuery.Proofs.Calendar.Ordinal
import RecordQuery.Proofs.Calendar.Spelling
import RecordQuery.Proofs.Record.Moments
import RecordQuery.Proofs.Filter.Closing
import RecordQuery.Proofs.Filter.Place
import RecordQuery.Proofs.Filter.Calls
import RecordQuery.Proofs.Record.Registration

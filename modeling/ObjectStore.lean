import ObjectStore.Attempt
import ObjectStore.Bytes.Codec
import ObjectStore.Bytes.Cursor
import ObjectStore.Bytes.Hex
import ObjectStore.Bytes.Text
import ObjectStore.Bytes.Word
import ObjectStore.CommandLine.Arguments
import ObjectStore.CommandLine.Invocation
import ObjectStore.CommandLine.Report
import ObjectStore.CommandLine.Run
import ObjectStore.Config.Basic
import ObjectStore.Decimal.Nearest
import ObjectStore.Decimal.Reading
import ObjectStore.Decimal.Shortest
import ObjectStore.Decimal.Signed
import ObjectStore.Definition
import ObjectStore.Diagnostics
import ObjectStore.Dictionary.Basic
import ObjectStore.Dictionary.File
import ObjectStore.EntityStore
import ObjectStore.EntityStore.Image
import ObjectStore.EntityStore.Tables
import ObjectStore.Enumeration
import ObjectStore.Error
import ObjectStore.Error.Catalogue
import ObjectStore.Graph
import ObjectStore.Handler.Access
import ObjectStore.Handler.Basic
import ObjectStore.Handler.Object
import ObjectStore.Handler.Slots
import ObjectStore.Host.Basic
import ObjectStore.Host.Disk
import ObjectStore.Host.Fault
import ObjectStore.Host.Path
import ObjectStore.Ident
import ObjectStore.Json.Basic
import ObjectStore.Layout
import ObjectStore.Loading
import ObjectStore.Main
import ObjectStore.Member.Basic
import ObjectStore.Member.Kind
import ObjectStore.Migration.Chunk
import ObjectStore.Migration.Conversion
import ObjectStore.ObjectIds
import ObjectStore.Primitive
import ObjectStore.Proofs.Attempt.Sequences
import ObjectStore.Proofs.Bytes.Codec
import ObjectStore.Proofs.Bytes.Truncation
import ObjectStore.Proofs.Dictionary.Building
import ObjectStore.Proofs.Dictionary.RoundTrip
import ObjectStore.Proofs.Dictionary.Versions
import ObjectStore.Proofs.EntityStore.Image
import ObjectStore.Proofs.EntityStore.LastWrite
import ObjectStore.Proofs.EntityStore.RootList
import ObjectStore.Proofs.EntityStore.Writes
import ObjectStore.Proofs.Handler.Answers
import ObjectStore.Proofs.Handler.Canonical
import ObjectStore.Proofs.Handler.Comparing
import ObjectStore.Proofs.Handler.Content
import ObjectStore.Proofs.Handler.Derived
import ObjectStore.Proofs.Handler.Lawful
import ObjectStore.Proofs.Handler.Naming
import ObjectStore.Proofs.Handler.Reading
import ObjectStore.Proofs.Handler.Repeating
import ObjectStore.Proofs.Handler.Restoring
import ObjectStore.Proofs.Handler.RoundTrip
import ObjectStore.Proofs.Handler.Slots
import ObjectStore.Proofs.Host.Reopening
import ObjectStore.Proofs.Identity.Bijection
import ObjectStore.Proofs.Identity.Calls
import ObjectStore.Proofs.Identity.Undoing
import ObjectStore.Proofs.Layout.Arrangement
import ObjectStore.Proofs.Layout.Derivation
import ObjectStore.Proofs.Layout.Stability
import ObjectStore.Proofs.Layout.Tiling
import ObjectStore.Proofs.Loading.Binding
import ObjectStore.Proofs.Loading.Changes
import ObjectStore.Proofs.Loading.Duplicates
import ObjectStore.Proofs.Loading.Failure
import ObjectStore.Proofs.Loading.Permuting
import ObjectStore.Proofs.Loading.Phases
import ObjectStore.Proofs.Loading.Placing
import ObjectStore.Proofs.Loading.Repeating
import ObjectStore.Proofs.Loading.Resolving
import ObjectStore.Proofs.Loading.Success
import ObjectStore.Proofs.Loading.Undoing
import ObjectStore.Proofs.Loading.Unresolved
import ObjectStore.Proofs.Loading.Updating
import ObjectStore.Proofs.Member.Rendering
import ObjectStore.Proofs.Migration.Evolution
import ObjectStore.Proofs.Migration.Exactness
import ObjectStore.Proofs.Migration.Merging
import ObjectStore.Proofs.Migration.Previewing
import ObjectStore.Proofs.Migration.Recordwise
import ObjectStore.Proofs.Migration.Survivors
import ObjectStore.Proofs.Migration.Translation
import ObjectStore.Proofs.Record.Canonical
import ObjectStore.Proofs.Record.Chunk
import ObjectStore.Proofs.Record.Garbled
import ObjectStore.Proofs.Record.Lengths
import ObjectStore.Proofs.Record.Places
import ObjectStore.Proofs.Record.Primitives
import ObjectStore.Proofs.Record.References
import ObjectStore.Proofs.Record.Splitting
import ObjectStore.Proofs.Record.Values
import ObjectStore.Proofs.Record.Variable
import ObjectStore.Proofs.Refactoring.Candidates
import ObjectStore.Proofs.Refactoring.Resolution
import ObjectStore.Proofs.Refactoring.Rounds
import ObjectStore.Proofs.Refactoring.Similarity
import ObjectStore.Proofs.Registry.Invariant
import ObjectStore.Proofs.Registry.Registration
import ObjectStore.Proofs.Session.Atomicity
import ObjectStore.Proofs.Session.Bindings
import ObjectStore.Proofs.Session.Check
import ObjectStore.Proofs.Session.History
import ObjectStore.Proofs.Session.Integrity
import ObjectStore.Proofs.Session.Layouts
import ObjectStore.Proofs.Session.Numbering
import ObjectStore.Proofs.Session.Origins
import ObjectStore.Proofs.Session.Reachability
import ObjectStore.Proofs.Session.Recall
import ObjectStore.Proofs.Session.Refusal
import ObjectStore.Proofs.Session.Reload
import ObjectStore.Proofs.Session.Resolution
import ObjectStore.Proofs.Session.Runs
import ObjectStore.Proofs.Session.Storing
import ObjectStore.Proofs.Session.Unreadable
import ObjectStore.Proofs.Storing.Appending
import ObjectStore.Proofs.Storing.Chunk
import ObjectStore.Proofs.Storing.Closure
import ObjectStore.Proofs.Storing.Issuing
import ObjectStore.Proofs.Storing.Naming
import ObjectStore.Proofs.Storing.References
import ObjectStore.Proofs.Storing.Reloading
import ObjectStore.Proofs.Storing.Repeating
import ObjectStore.Proofs.Storing.Validity
import ObjectStore.Proofs.Traversal.Coverage
import ObjectStore.Proofs.Traversal.Distance
import ObjectStore.Proofs.Traversal.Interruption
import ObjectStore.Proofs.Traversal.Order
import ObjectStore.Proofs.Traversal.Queue
import ObjectStore.Proofs.Traversal.Segments
import ObjectStore.Record.Basic
import ObjectStore.Record.Chunk
import ObjectStore.Record.Reading
import ObjectStore.Refactoring.Matching
import ObjectStore.Refactoring.NameSimilarity
import ObjectStore.Refactoring.Similarity
import ObjectStore.Refactoring.Table
import ObjectStore.Registry
import ObjectStore.Session.Basic
import ObjectStore.Session.Check
import ObjectStore.Session.Opening
import ObjectStore.Storing
import ObjectStore.Suggestion
import ObjectStore.Text.Outline
import ObjectStore.Text.Printable
import ObjectStore.Text.Quoted
import ObjectStore.Toml.Basic
import ObjectStore.Toml.Document
import ObjectStore.Toml.Moment
import ObjectStore.Toml.Number
import ObjectStore.Toml.Scalar
import ObjectStore.Toml.Scan
import ObjectStore.Toml.Table
import ObjectStore.Traversal.Walk
import ObjectStore.Traversal.Worklist

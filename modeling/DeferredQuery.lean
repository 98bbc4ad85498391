import DeferredQuery.Builder.Transcript
import DeferredQuery.Chain.Step
import DeferredQuery.Operand.Document
import DeferredQuery.Path.Reader
import DeferredQuery.Proofs.Chain.History
import DeferredQuery.Proofs.Chain.Landing
import DeferredQuery.Proofs.Variation.Noninterference
import DeferredQuery.Repository
import DeferredQuery.Schema.Document
import DeferredQuery.Proofs.Chain.Recorded
import DeferredQuery.Proofs.Chain.Failure
import DeferredQuery.Proofs.Chain.Grounded
import DeferredQuery.Proofs.Query.Resolution
import DeferredQuery.Proofs.Query.Terminals
import DeferredQuery.Proofs.Chain.Appending
import DeferredQuery.Proofs.Variation.Transparency
import DeferredQuery.Proofs.Chain.Needed
import DeferredQuery.Proofs.Text.Brackets
import DeferredQuery.Proofs.Chain.Bracketed
import DeferredQuery.Proofs.Query.KeyFilter
import DeferredQuery.Proofs.Chain.Reentry
import DeferredQuery.Proofs.Query.Replaying
import DeferredQuery.Proofs.Query.BaseAlias
import DeferredQuery.Proofs.Chain.Waiting
import DeferredQuery.Proofs.Query.Grouping
import DeferredQuery.Proofs.Chain.Traversal
import DeferredQuery.Proofs.Chain.Criteria
import DeferredQuery.Proofs.Chain.Operands
import DeferredQuery.Proofs.Text.Scanning
import DeferredQuery.Proofs.Operand.Decoding
import DeferredQuery.Proofs.Part.Stopping
import DeferredQuery.Proofs.Query.SchemaWalk
import DeferredQuery.Proofs.Path.Spelling
import DeferredQuery.Proofs.Path.Strays
import DeferredQuery.Proofs.Number.Reading
import DeferredQuery.Proofs.Json.Reading
import DeferredQuery.Proofs.Json.Records
import DeferredQuery.Proofs.Schema.Loading
import DeferredQuery.Proofs.Instant.Calendar
import DeferredQuery.Proofs.Instant.Reading
import DeferredQuery.Proofs.Number.Decimals
import DeferredQuery.Proofs.Operand.Loading

import QueryParams.Main
import QueryParams.Proofs.Binding.Registry
import QueryParams.Proofs.Binding.Registration
import QueryParams.Proofs.Extraction.Resolution
import QueryParams.Query.Analyzer
import QueryParams.Value.Conversion
import QueryParams.Proofs.Extraction.Run
import QueryParams.Proofs.Extraction.Bindings
import QueryParams.Proofs.Extraction.Cleaning
import QueryParams.Proofs.Quotation
import QueryParams.Proofs.Quotation.Ranges
import QueryParams.Proofs.Canonical.Division
import QueryParams.Proofs.Canonical.Survey
import QueryParams.Proofs.Extraction.Stream
import QueryParams.Proofs.Canonical.Form
import QueryParams.Proofs.Canonical.Query
import QueryParams.Proofs.Canonical.Reading
import QueryParams.Proofs.Canonical.Unchanged
import QueryParams.Proofs.Extraction.Coverage
import QueryParams.Proofs.Literal.Inert
import QueryParams.Proofs.Literal.Untouched
import QueryParams.Proofs.Count.Query
import QueryParams.Proofs.Placeholder.Greatest
import QueryParams.Proofs.Placeholder.Runs
import QueryParams.Proofs.Extraction.Splice
import QueryParams.Proofs.Refusal.Placeholder
import QueryParams.Proofs.Refusal.Walk
import QueryParams.Proofs.Refusal.Query
import QueryParams.Proofs.Refusal.Keyword
import QueryParams.Proofs.Numbering.Expressions
import QueryParams.Proofs.Numbering.Positions
import QueryParams.Proofs.Numbering.Names
import QueryParams.Proofs.Binding.Written
import QueryParams.Proofs.Binding.Decoration
import QueryParams.Proofs.Command.Keys
import QueryParams.Proofs.Command.Prepare
import QueryParams.Proofs.Query.Paging
import QueryParams.Proofs.Query.Record
import QueryParams.Proofs.Value.RoundTrip

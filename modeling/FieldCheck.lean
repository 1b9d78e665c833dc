import FieldCheck.Action
import FieldCheck.Bundle
import FieldCheck.Catalogs
import FieldCheck.Check
import FieldCheck.CommandLine
import FieldCheck.Descriptor
import FieldCheck.Discovery
import FieldCheck.Engine
import FieldCheck.Fault
import FieldCheck.FieldType
import FieldCheck.FieldType.Accepts
import FieldCheck.FilePath
import FieldCheck.Files
import FieldCheck.Item
import FieldCheck.Json
import FieldCheck.Json.Reader
import FieldCheck.Json.Writer
import FieldCheck.Locale
import FieldCheck.Log
import FieldCheck.Main
import FieldCheck.Messages
import FieldCheck.Number.Decimal
import FieldCheck.Number.Double
import FieldCheck.Number.Numeral
import FieldCheck.Number.Quantity
import FieldCheck.Number.Shortest
import FieldCheck.Outcome
import FieldCheck.Path
import FieldCheck.Proofs.Action
import FieldCheck.Proofs.Descriptor.Canonical
import FieldCheck.Proofs.Descriptor.Meaning
import FieldCheck.Proofs.Json.Reading
import FieldCheck.Proofs.Number.Literal
import FieldCheck.Proofs.Number.Whole
import FieldCheck.Proofs.Rpc.Classification
import FieldCheck.Proofs.Schema
import FieldCheck.Proofs.Service.Calls
import FieldCheck.Proofs.Service.FailedReload
import FieldCheck.Proofs.Service.Loading
import FieldCheck.Proofs.Service.Reloading
import FieldCheck.Records
import FieldCheck.Requirement
import FieldCheck.Rpc
import FieldCheck.Rpc.Answer
import FieldCheck.Rpc.Method
import FieldCheck.Rpc.Request
import FieldCheck.Schema
import FieldCheck.Server
import FieldCheck.Service
import FieldCheck.Service.Batch
import FieldCheck.Settings
import FieldCheck.Sha256
import FieldCheck.Text.Blank
import FieldCheck.Text.DecimalDigit
import FieldCheck.Text.Hex
import FieldCheck.Text.Lines
import FieldCheck.Text.Percent
import FieldCheck.Text.Printable
import FieldCheck.Text.Quoted
import FieldCheck.Text.Utf8
import FieldCheck.Uri
import FieldCheck.Uri.Host
import FieldCheck.Value
import FieldCheck.Value.Display
import FieldCheck.World
import FieldCheck.Proofs.Check.Aggregation
import FieldCheck.Proofs.Check.Discovery
import FieldCheck.Proofs.Check.Extension
import FieldCheck.Proofs.Number.Order
import FieldCheck.Proofs.Service.Staleness
import FieldCheck.Proofs.Service.Unseen
import FieldCheck.Proofs.Service.Reporting
import FieldCheck.Proofs.Rpc.EntryPoints
import FieldCheck.Proofs.Catalogs.Location
import FieldCheck.Proofs.Catalogs.Cache
import FieldCheck.Proofs.Number.Rounding
import FieldCheck.Proofs.Json.Grammar
import FieldCheck.Proofs.Json.Numbers
import FieldCheck.Proofs.Json.Parts
import FieldCheck.Proofs.Json.Writing
import FieldCheck.Proofs.Rpc.Responses
import FieldCheck.Proofs.Server.Serving
import FieldCheck.Proofs.Json.Strictness
import FieldCheck.Proofs.Server.Conformance
import FieldCheck.Proofs.Server.Refusals
import FieldCheck.Proofs.Service.Course
import FieldCheck.Proofs.Service.Renewal
import FieldCheck.Proofs.Service.Refetching
import FieldCheck.Proofs.Check.Faults
import FieldCheck.Proofs.Service.Faults
import FieldCheck.Proofs.Rpc.Parameters
import FieldCheck.Proofs.Service.Wording
import FieldCheck.Proofs.Descriptor.Overlong
import FieldCheck.Proofs.Number.Range
import FieldCheck.Proofs.FieldType.Integers
import FieldCheck.Proofs.Service.Pointwise
import FieldCheck.Proofs.Number.Differences
import FieldCheck.Proofs.Service.Debounce
import FieldCheck.Proofs.Locale
import FieldCheck.Proofs.Catalogs.Configuration
import FieldCheck.Proofs.Json.Extent
import FieldCheck.Proofs.Json.LineEnds
import FieldCheck.Proofs.Records.Sources
import FieldCheck.Proofs.Records.Failures
import FieldCheck.Proofs.Service.BatchFile
import FieldCheck.Proofs.Check.Overruns
import FieldCheck.Proofs.Check.Mistakes
import FieldCheck.Proofs.Rpc.UnknownMethods
import FieldCheck.Proofs.Check.Search
import FieldCheck.Proofs.Check.Locality
import FieldCheck.Proofs.Descriptor.Marker
import FieldCheck.Proofs.Catalogs.Ages
import FieldCheck.Proofs.Descriptor.Grammar
import FieldCheck.Proofs.Check.Trace
import FieldCheck.Proofs.Service.Isolation
import FieldCheck.Proofs.FieldType.Numerals
import FieldCheck.Proofs.Messages

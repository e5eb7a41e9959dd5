import SeriesPivot.Assoc
import SeriesPivot.Binary64.Basic
import SeriesPivot.Binary64.Shortest
import SeriesPivot.Calendar.Date
import SeriesPivot.Calendar.Instant
import SeriesPivot.Calendar.Read
import SeriesPivot.Client.Basic
import SeriesPivot.Client.Url
import SeriesPivot.CommandLine.Arguments
import SeriesPivot.CommandLine.Program
import SeriesPivot.CommandLine.Table
import SeriesPivot.Descriptor.Basic
import SeriesPivot.Descriptor.Codec
import SeriesPivot.Descriptor.Time
import SeriesPivot.Descriptor.Tokens
import SeriesPivot.Document
import SeriesPivot.Http.Error
import SeriesPivot.Http.Header
import SeriesPivot.Http.Route
import SeriesPivot.Http.Service
import SeriesPivot.Http.Uri
import SeriesPivot.Json.Basic
import SeriesPivot.Json.Decode
import SeriesPivot.Json.Print
import SeriesPivot.Json.Source
import SeriesPivot.Keyed
import SeriesPivot.Main
import SeriesPivot.Pivot
import SeriesPivot.Plan.Basic
import SeriesPivot.Plan.Clauses
import SeriesPivot.Plan.Compile
import SeriesPivot.Plan.Encode
import SeriesPivot.Proofs.Assoc
import SeriesPivot.Proofs.Binary64.Arithmetic
import SeriesPivot.Proofs.Binary64.Positional
import SeriesPivot.Proofs.Binary64.ReadBack
import SeriesPivot.Proofs.Binary64.Rounding
import SeriesPivot.Proofs.Binary64.Text
import SeriesPivot.Proofs.Calendar.Date
import SeriesPivot.Proofs.Calendar.Literal
import SeriesPivot.Proofs.CommandLine.Tables
import SeriesPivot.Proofs.Descriptor.Normal
import SeriesPivot.Proofs.Descriptor.RoundTrip
import SeriesPivot.Proofs.Document
import SeriesPivot.Proofs.Document.Paths
import SeriesPivot.Proofs.Http.Requests
import SeriesPivot.Proofs.Http.Routes
import SeriesPivot.Proofs.Json.Canonical
import SeriesPivot.Proofs.Json.Ordered
import SeriesPivot.Proofs.Json.Quotation
import SeriesPivot.Proofs.Json.ReadBack
import SeriesPivot.Proofs.Json.Reading
import SeriesPivot.Proofs.Json.Records
import SeriesPivot.Proofs.Json.Shape
import SeriesPivot.Proofs.Keyed
import SeriesPivot.Proofs.Pivot.Cells
import SeriesPivot.Proofs.Pivot.Epoch
import SeriesPivot.Proofs.Pivot.Groups
import SeriesPivot.Proofs.Pivot.Identities
import SeriesPivot.Proofs.Pivot.OuterJoin
import SeriesPivot.Proofs.Pivot.Reordering
import SeriesPivot.Proofs.Pivot.Repetition
import SeriesPivot.Proofs.Pivot.Tags
import SeriesPivot.Proofs.Pivot.Times
import SeriesPivot.Proofs.Pivot.Tuples
import SeriesPivot.Proofs.Plan.Building
import SeriesPivot.Proofs.Plan.FilterOrder
import SeriesPivot.Proofs.Plan.Groupings
import SeriesPivot.Proofs.Plan.Limits
import SeriesPivot.Proofs.Plan.Literals
import SeriesPivot.Proofs.Plan.Projections
import SeriesPivot.Proofs.Plan.Serving
import SeriesPivot.Proofs.Plan.Sharing
import SeriesPivot.Proofs.Plan.Sources
import SeriesPivot.Proofs.Plan.TimeRange
import SeriesPivot.Proofs.Plan.Verbatim
import SeriesPivot.Proofs.Provider.FanOut
import SeriesPivot.Proofs.Provider.Insertion
import SeriesPivot.Proofs.Provider.Lifecycle
import SeriesPivot.Proofs.Provider.Overwriting
import SeriesPivot.Proofs.Provider.Points
import SeriesPivot.Proofs.Settings.Precedence
import SeriesPivot.Proofs.Statement.Form
import SeriesPivot.Proofs.Statement.Reading
import SeriesPivot.Proofs.Statement.Single
import SeriesPivot.Proofs.Store.Batches
import SeriesPivot.Proofs.Store.Lines
import SeriesPivot.Proofs.Store.Responses
import SeriesPivot.Proofs.Store.Results
import SeriesPivot.Proofs.Text
import SeriesPivot.Proofs.Text.Digits
import SeriesPivot.Provider.Basic
import SeriesPivot.Provider.Error
import SeriesPivot.Provider.FanOut
import SeriesPivot.Provider.Insertion
import SeriesPivot.Provider.Response
import SeriesPivot.Provider.Run
import SeriesPivot.Settings.Basic
import SeriesPivot.Settings.Codec
import SeriesPivot.Settings.Load
import SeriesPivot.Settings.Template
import SeriesPivot.Sha256
import SeriesPivot.Statement
import SeriesPivot.Store.Basic
import SeriesPivot.Store.Error
import SeriesPivot.Store.LineProtocol
import SeriesPivot.Store.Point
import SeriesPivot.Store.Response
import SeriesPivot.Store.Series
import SeriesPivot.Text.Base64
import SeriesPivot.Text.Basic
import SeriesPivot.Text.Percent
import SeriesPivot.Text.Quoted
import SeriesPivot.Toml.Basic
import SeriesPivot.Toml.Read
import SeriesPivot.Toml.Scalar
import SeriesPivot.Toml.Source
import SeriesPivot.Toml.Strings

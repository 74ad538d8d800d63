import BrokerQuery.Broker.Client
import BrokerQuery.Broker.Error
import BrokerQuery.Broker.Handle
import BrokerQuery.Broker.Http
import BrokerQuery.Broker.Metadata
import BrokerQuery.Broker.Row
import BrokerQuery.Broker.Session
import BrokerQuery.Calendar.Date
import BrokerQuery.Calendar.Moment
import BrokerQuery.Calendar.Reader
import BrokerQuery.Command.Build
import BrokerQuery.Command.Error
import BrokerQuery.Command.Execute
import BrokerQuery.CommandLine.Basic
import BrokerQuery.CommandLine.Options
import BrokerQuery.CommandLine.Reader
import BrokerQuery.CommandLine.Usage
import BrokerQuery.Config.Error
import BrokerQuery.Config.FileSystem
import BrokerQuery.Config.Load
import BrokerQuery.Config.Settings
import BrokerQuery.Environment.Basic
import BrokerQuery.Environment.File
import BrokerQuery.Filter.Basic
import BrokerQuery.Filter.Build
import BrokerQuery.Filter.Error
import BrokerQuery.Filter.Operand
import BrokerQuery.Filter.Wire
import BrokerQuery.Having
import BrokerQuery.Json.Basic
import BrokerQuery.Json.Numeral
import BrokerQuery.Json.Reader
import BrokerQuery.Json.Writer
import BrokerQuery.Json.Written
import BrokerQuery.Main
import BrokerQuery.Number.Binary64
import BrokerQuery.Number.Layout
import BrokerQuery.Number.Numeral
import BrokerQuery.Number.Shortest
import BrokerQuery.Number.Whole
import BrokerQuery.PostAggregation
import BrokerQuery.Program
import BrokerQuery.Proofs.Broker.Address
import BrokerQuery.Proofs.Broker.Knowledge
import BrokerQuery.Proofs.Broker.Override
import BrokerQuery.Proofs.Broker.Retry
import BrokerQuery.Proofs.Calendar.Date
import BrokerQuery.Proofs.Calendar.Formats
import BrokerQuery.Proofs.Calendar.Moment
import BrokerQuery.Proofs.Calendar.Written
import BrokerQuery.Proofs.Command.Building
import BrokerQuery.Proofs.Command.Conditions
import BrokerQuery.Proofs.Command.DryRun
import BrokerQuery.Proofs.Command.Effects
import BrokerQuery.Proofs.Command.Rows
import BrokerQuery.Proofs.CommandLine.Accepted
import BrokerQuery.Proofs.CommandLine.FilterText
import BrokerQuery.Proofs.CommandLine.RoundTrip
import BrokerQuery.Proofs.Config.Layers
import BrokerQuery.Proofs.Config.Settings
import BrokerQuery.Proofs.Fallible
import BrokerQuery.Proofs.Filter.Built
import BrokerQuery.Proofs.Filter.Canonical
import BrokerQuery.Proofs.Filter.Lowering
import BrokerQuery.Proofs.Filter.Meaning
import BrokerQuery.Proofs.Filter.Membership
import BrokerQuery.Proofs.FirstOccurrence
import BrokerQuery.Proofs.Having
import BrokerQuery.Proofs.Joining
import BrokerQuery.Proofs.Json.Reading
import BrokerQuery.Proofs.Json.Rereading
import BrokerQuery.Proofs.Json.RoundTrip
import BrokerQuery.Proofs.Json.Visible
import BrokerQuery.Proofs.PostAggregation
import BrokerQuery.Proofs.Query.Aggregations
import BrokerQuery.Proofs.Query.Attachment
import BrokerQuery.Proofs.Query.Clauses
import BrokerQuery.Proofs.Query.Decoding
import BrokerQuery.Proofs.Query.Document
import BrokerQuery.Proofs.Query.Entries
import BrokerQuery.Proofs.Query.Having
import BrokerQuery.Proofs.Query.Interleaving
import BrokerQuery.Proofs.Query.Intervals
import BrokerQuery.Proofs.Query.Lowering
import BrokerQuery.Proofs.Query.References
import BrokerQuery.Proofs.Query.Source
import BrokerQuery.Proofs.Query.Zones
import BrokerQuery.Proofs.Text
import BrokerQuery.Proofs.Text.Utf8
import BrokerQuery.Proofs.Url.Path
import BrokerQuery.Proofs.Url.Percent
import BrokerQuery.Query.Aggregation
import BrokerQuery.Query.Basic
import BrokerQuery.Query.Error
import BrokerQuery.Query.Granularity
import BrokerQuery.Query.Interval
import BrokerQuery.Query.Limit
import BrokerQuery.Query.Step
import BrokerQuery.Query.Wire
import BrokerQuery.Text.Blank
import BrokerQuery.Text.Letter
import BrokerQuery.Text.Split
import BrokerQuery.Text.Utf8
import BrokerQuery.TimeZone.Names
import BrokerQuery.TimeZone.Resolve
import BrokerQuery.Url.Basic
import BrokerQuery.Url.Host
import BrokerQuery.Url.Percent
import BrokerQuery.Url.Punycode

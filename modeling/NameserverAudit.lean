import NameserverAudit.Address.Basic
import NameserverAudit.Address.Literal
import NameserverAudit.Address.Printer
import NameserverAudit.Address.Reader
import NameserverAudit.Auditor
import NameserverAudit.Command.Arguments
import NameserverAudit.Command.Flag
import NameserverAudit.Command.Run
import NameserverAudit.Command.Word
import NameserverAudit.Disk
import NameserverAudit.Exchange.Journal
import NameserverAudit.Exchange.Message
import NameserverAudit.Exchange.Procedure
import NameserverAudit.Exchange.Query
import NameserverAudit.Exchange.Script
import NameserverAudit.Json.Display
import NameserverAudit.Json.Printer
import NameserverAudit.Json.Reader
import NameserverAudit.Json.Value
import NameserverAudit.Latency.Archive
import NameserverAudit.Latency.Ledger
import NameserverAudit.Latency.Measurement
import NameserverAudit.Latency.Pool
import NameserverAudit.Latency.Preference
import NameserverAudit.Latency.Probe
import NameserverAudit.Latency.Register
import NameserverAudit.Main
import NameserverAudit.Name.Canonical
import NameserverAudit.Name.DomainName
import NameserverAudit.Name.Host
import NameserverAudit.Name.Punycode
import NameserverAudit.Notice
import NameserverAudit.Number.Decimal
import NameserverAudit.Number.Double
import NameserverAudit.Number.Reading
import NameserverAudit.Pass
import NameserverAudit.Report.Advice
import NameserverAudit.Report.Results
import NameserverAudit.Report.Table
import NameserverAudit.Server
import NameserverAudit.Service.Answer
import NameserverAudit.Service.Request
import NameserverAudit.Service.Session
import NameserverAudit.Settings
import NameserverAudit.Surroundings
import NameserverAudit.Text.Blank
import NameserverAudit.Text.Case
import NameserverAudit.Text.CaseTable
import NameserverAudit.Text.Digit
import NameserverAudit.Text.Lines
import NameserverAudit.Text.Printable
import NameserverAudit.Text.Quoted
import NameserverAudit.Text.Split
import NameserverAudit.Text.TextSet
import NameserverAudit.Text.Utf8
import NameserverAudit.Time.Calendar
import NameserverAudit.Time.Instant
import NameserverAudit.Time.Iso
import NameserverAudit.Verdict.Basic
import NameserverAudit.Verdict.DomainList
import NameserverAudit.Verdict.Expected
import NameserverAudit.Walk.Basic
import NameserverAudit.Walk.Collection
import NameserverAudit.Walk.Descent
import NameserverAudit.Walk.Referral
import NameserverAudit.Zone.Directory
import NameserverAudit.Zone.Field
import NameserverAudit.Zone.MasterFile
import NameserverAudit.Zone.RecordData
import NameserverAudit.Zone.RecordType
import NameserverAudit.Zone.Template
import NameserverAudit.Zone.Token
import NameserverAudit.Zone.Ttl
import NameserverAudit.Proofs.Address.Canonical
import NameserverAudit.Proofs.Address.Digits
import NameserverAudit.Proofs.Address.Grammar
import NameserverAudit.Proofs.Address.NormalForm
import NameserverAudit.Proofs.Address.Reading
import NameserverAudit.Proofs.Address.Spelling
import NameserverAudit.Proofs.Command.Precedence
import NameserverAudit.Proofs.Command.Reports
import NameserverAudit.Proofs.Command.Said
import NameserverAudit.Proofs.Command.Untouched
import NameserverAudit.Proofs.Exchange.Discipline
import NameserverAudit.Proofs.Exchange.FormatErrors
import NameserverAudit.Proofs.Exchange.History
import NameserverAudit.Proofs.Exchange.Posing
import NameserverAudit.Proofs.Exchange.Procedures
import NameserverAudit.Proofs.Exchange.Steady
import NameserverAudit.Proofs.Json.Numbers
import NameserverAudit.Proofs.Json.RoundTrip
import NameserverAudit.Proofs.Json.Strings
import NameserverAudit.Proofs.Latency.Foreseen
import NameserverAudit.Proofs.Latency.LastWrite
import NameserverAudit.Proofs.Latency.Lookup
import NameserverAudit.Proofs.Latency.Pool
import NameserverAudit.Proofs.Latency.PreferenceOrder
import NameserverAudit.Proofs.Latency.Probing
import NameserverAudit.Proofs.Latency.Ranking
import NameserverAudit.Proofs.Latency.Reprobe
import NameserverAudit.Proofs.Latency.RoundTrip
import NameserverAudit.Proofs.Latency.Rounds
import NameserverAudit.Proofs.Latency.Saved
import NameserverAudit.Proofs.Latency.Table
import NameserverAudit.Proofs.Latency.Turns
import NameserverAudit.Proofs.Latency.Unbroken
import NameserverAudit.Proofs.Lists
import NameserverAudit.Proofs.Name.Host
import NameserverAudit.Proofs.Name.HostStyle
import NameserverAudit.Proofs.Name.Pieces
import NameserverAudit.Proofs.Name.Reading
import NameserverAudit.Proofs.Name.Within
import NameserverAudit.Proofs.Number.Decimal
import NameserverAudit.Proofs.Number.Rounding
import NameserverAudit.Proofs.Pass.Independence
import NameserverAudit.Proofs.Pass.OwnExpectation
import NameserverAudit.Proofs.Pass.Stopping
import NameserverAudit.Proofs.Pass.Totality
import NameserverAudit.Proofs.Pass.Watch
import NameserverAudit.Proofs.Report.Results
import NameserverAudit.Proofs.Report.Table
import NameserverAudit.Proofs.Service.Requests
import NameserverAudit.Proofs.Service.Routes
import NameserverAudit.Proofs.Text.Canonical
import NameserverAudit.Proofs.Text.Pieces
import NameserverAudit.Proofs.Text.Spelling
import NameserverAudit.Proofs.Text.Utf8
import NameserverAudit.Proofs.Time.Dates
import NameserverAudit.Proofs.Time.RoundTrip
import NameserverAudit.Proofs.Time.Spans
import NameserverAudit.Proofs.Verdict.Exact
import NameserverAudit.Proofs.Verdict.Grammar
import NameserverAudit.Proofs.Walk.Asking
import NameserverAudit.Proofs.Walk.Axes
import NameserverAudit.Proofs.Walk.Collection
import NameserverAudit.Proofs.Walk.Cuts
import NameserverAudit.Proofs.Walk.Delegated
import NameserverAudit.Proofs.Walk.Families
import NameserverAudit.Proofs.Walk.Orderly
import NameserverAudit.Proofs.Walk.Origins
import NameserverAudit.Proofs.Walk.Provenance
import NameserverAudit.Proofs.Walk.Refusal
import NameserverAudit.Proofs.Walk.Responses
import NameserverAudit.Proofs.Walk.Start
import NameserverAudit.Proofs.Walk.Steady
import NameserverAudit.Proofs.Walk.Step
import NameserverAudit.Proofs.Zone.Comments
import NameserverAudit.Proofs.Zone.Covering
import NameserverAudit.Proofs.Zone.Deepest
import NameserverAudit.Proofs.Zone.Delegations
import NameserverAudit.Proofs.Zone.Facts
import NameserverAudit.Proofs.Zone.Families
import NameserverAudit.Proofs.Zone.Lines
import NameserverAudit.Proofs.Zone.Records
import NameserverAudit.Proofs.Zone.RootServers
import NameserverAudit.Proofs.Zone.Servers

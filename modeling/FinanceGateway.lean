import FinanceGateway.App.Extract
import FinanceGateway.App.Form
import FinanceGateway.App.Handler
import FinanceGateway.App.Response
import FinanceGateway.App.Route
import FinanceGateway.App.Serve
import FinanceGateway.App.Upload
import FinanceGateway.Call.Basic
import FinanceGateway.Call.Service
import FinanceGateway.Decimal.Layout
import FinanceGateway.Decimal.Reading
import FinanceGateway.Decimal.Shortest
import FinanceGateway.Dictionary
import FinanceGateway.Dispatch.Client
import FinanceGateway.Dispatch.Credential
import FinanceGateway.Dispatch.Execute
import FinanceGateway.Dispatch.Execution
import FinanceGateway.Dispatch.Plan
import FinanceGateway.Dispatch.Scope
import FinanceGateway.Dispatch.World
import FinanceGateway.Failure.ApiError
import FinanceGateway.Failure.Details
import FinanceGateway.Finance.Account
import FinanceGateway.Finance.Goal
import FinanceGateway.Finance.Health
import FinanceGateway.Finance.Reference
import FinanceGateway.Finance.Sms
import FinanceGateway.Finance.Statement
import FinanceGateway.Finance.Transaction
import FinanceGateway.Finance.User
import FinanceGateway.Gate.Guard
import FinanceGateway.Gate.Header
import FinanceGateway.Gate.Session
import FinanceGateway.Http.Mime
import FinanceGateway.Http.Outgoing
import FinanceGateway.Http.Status
import FinanceGateway.Json.Codec
import FinanceGateway.Json.DecodeError
import FinanceGateway.Json.Draft
import FinanceGateway.Json.Flaw
import FinanceGateway.Json.Printer
import FinanceGateway.Json.Record
import FinanceGateway.Json.Scan
import FinanceGateway.Json.Value
import FinanceGateway.Main
import FinanceGateway.Rehearsal.Backend
import FinanceGateway.Rehearsal.Stage
import FinanceGateway.Startup.Config
import FinanceGateway.Startup.Console
import FinanceGateway.Startup.Log
import FinanceGateway.Text.Base64
import FinanceGateway.Text.Blank
import FinanceGateway.Text.Charset
import FinanceGateway.Text.Form
import FinanceGateway.Text.Glyph
import FinanceGateway.Text.Hex
import FinanceGateway.Text.Percent
import FinanceGateway.Text.Quoted
import FinanceGateway.Text.Utf8
import FinanceGateway.Toml.Branch
import FinanceGateway.Toml.Document
import FinanceGateway.Toml.Number
import FinanceGateway.Toml.Statement
import FinanceGateway.Toml.Text
import FinanceGateway.Toml.Value
import FinanceGateway.Url.Address
import FinanceGateway.Url.Host
import FinanceGateway.Url.Punycode
import FinanceGateway.Proofs.App.Access
import FinanceGateway.Proofs.App.Handling
import FinanceGateway.Proofs.App.Landing
import FinanceGateway.Proofs.Call.Landing
import FinanceGateway.Proofs.Call.Place
import FinanceGateway.Proofs.Dispatch.Alone
import FinanceGateway.Proofs.Dispatch.Cancellation
import FinanceGateway.Proofs.Dispatch.Credentials
import FinanceGateway.Proofs.Dispatch.Isolation
import FinanceGateway.Proofs.Dispatch.Runs
import FinanceGateway.Proofs.Dispatch.Sending
import FinanceGateway.Proofs.Dispatch.Steps
import FinanceGateway.Proofs.Dispatch.Turns
import FinanceGateway.Proofs.Outcome
import FinanceGateway.Proofs.Text.Blank
import FinanceGateway.Proofs.Text.Percent
import FinanceGateway.Proofs.Text.Utf8
import FinanceGateway.Proofs.Url.Below
import FinanceGateway.Proofs.Url.Join
import FinanceGateway.Proofs.Url.Segments
import FinanceGateway.Proofs.Dispatch.Faults
import FinanceGateway.Proofs.Dispatch.Outcomes
import FinanceGateway.Proofs.Gate.Verdict
import FinanceGateway.Proofs.App.Relaying
import FinanceGateway.Proofs.App.Routing
import FinanceGateway.Proofs.App.Separation
import FinanceGateway.Proofs.App.Shortcut
import FinanceGateway.Proofs.App.SignedOut
import FinanceGateway.Proofs.Decimal.Whole
import FinanceGateway.Proofs.Dictionary
import FinanceGateway.Proofs.Json.Codecs
import FinanceGateway.Proofs.Json.Records
import FinanceGateway.Proofs.Finance.Records
import FinanceGateway.Proofs.Finance.RoundTrip
import FinanceGateway.Proofs.Finance.Sparse
import FinanceGateway.Proofs.Entries
import FinanceGateway.Proofs.Call.Template
import FinanceGateway.Proofs.Call.Substitution
import FinanceGateway.Proofs.Failure.Details
import FinanceGateway.Proofs.Http.Mime
import FinanceGateway.Proofs.App.Form
import FinanceGateway.Proofs.App.Upload
import FinanceGateway.Proofs.Http.Multipart
import FinanceGateway.Proofs.App.Forwarding
import FinanceGateway.Proofs.Dispatch.Authorization
import FinanceGateway.Proofs.Dispatch.Launch
import FinanceGateway.Proofs.Call.Building
import FinanceGateway.Proofs.Url.Extension
import FinanceGateway.Proofs.Dispatch.Admission
import FinanceGateway.Proofs.Text.Lossy
import FinanceGateway.Proofs.Text.Form
import FinanceGateway.Proofs.Url.Query
import FinanceGateway.Proofs.Dispatch.Query
import FinanceGateway.Proofs.App.Passing
import FinanceGateway.Proofs.App.Filter
import FinanceGateway.Proofs.Decimal.Scaled
import FinanceGateway.Proofs.Json.Numbers
import FinanceGateway.Proofs.Json.Texts
import FinanceGateway.Proofs.Json.Given
import FinanceGateway.Proofs.Json.Numerals
import FinanceGateway.Proofs.Json.Printing
import FinanceGateway.Proofs.Json.Reread
import FinanceGateway.Proofs.Finance.Requests
import FinanceGateway.Proofs.App.Writing
import FinanceGateway.Proofs.Gate.Patterns
import FinanceGateway.Proofs.Gate.Presented
import FinanceGateway.Proofs.Startup.StaticSession
import FinanceGateway.Proofs.App.Together
import FinanceGateway.Proofs.App.Redirects
import FinanceGateway.Proofs.App.StatedStatus
import FinanceGateway.Proofs.Gate.BlankSuccess
import FinanceGateway.Proofs.Toml.Section
import FinanceGateway.Proofs.Startup.Answering
import FinanceGateway.Proofs.Gate.Assets
import FinanceGateway.Proofs.Failure.FieldErrors
import FinanceGateway.Proofs.Json.Kept
import FinanceGateway.Proofs.Startup.HealthCheck
import FinanceGateway.Proofs.Toml.Keys
import FinanceGateway.Proofs.Startup.Settings
import FinanceGateway.Proofs.Startup.Partial

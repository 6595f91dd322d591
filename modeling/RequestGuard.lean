import RequestGuard.Calendar.Day
import RequestGuard.Calendar.Instant
import RequestGuard.Calendar.Pattern
import RequestGuard.Calendar.Spelling
import RequestGuard.Calendar.Timestamp
import RequestGuard.Guard.Basic
import RequestGuard.Guard.Interceptor
import RequestGuard.Json.Basic
import RequestGuard.Json.Fault
import RequestGuard.Json.Read
import RequestGuard.Json.Skip
import RequestGuard.Json.Token
import RequestGuard.Json.Written
import RequestGuard.Number.Binary64
import RequestGuard.Number.Notation
import RequestGuard.Number.Numeral
import RequestGuard.Number.Shortest
import RequestGuard.Proofs.Schema.Visit
import RequestGuard.Request.Data
import RequestGuard.Request.FieldValue
import RequestGuard.Request.Fields
import RequestGuard.Request.Method
import RequestGuard.Request.Payload
import RequestGuard.Schema.Coercion
import RequestGuard.Schema.Literal
import RequestGuard.Schema.Mailbox
import RequestGuard.Schema.Node
import RequestGuard.Schema.Report
import RequestGuard.Schema.Run
import RequestGuard.Schema.Scope
import RequestGuard.Service.Accounts
import RequestGuard.Service.Failure
import RequestGuard.Service.Gate
import RequestGuard.Service.Inspection
import RequestGuard.Service.Intake
import RequestGuard.Service.Message
import RequestGuard.Service.Resource
import RequestGuard.Service.Settings
import RequestGuard.Service.Site
import RequestGuard.Service.Tally
import RequestGuard.Service.UrlEncoded
import RequestGuard.Text.Blank
import RequestGuard.Text.Hex
import RequestGuard.Text.Lines
import RequestGuard.Text.Quoted
import RequestGuard.Text.Split
import RequestGuard.Text.Unprinted
import RequestGuard.Text.Utf8
import RequestGuard.Proofs.Schema.Outcome
import RequestGuard.Proofs.Schema.Fate
import RequestGuard.Proofs.Schema.Forgiveness
import RequestGuard.Proofs.Schema.Extension
import RequestGuard.Proofs.Schema.Settling
import RequestGuard.Proofs.Schema.Footprint
import RequestGuard.Proofs.Schema.FixedPoint
import RequestGuard.Proofs.Guard.Again
import RequestGuard.Proofs.Schema.Conjunction
import RequestGuard.Proofs.Guard.Reliance
import RequestGuard.Proofs.Service.Crossing
import RequestGuard.Proofs.Service.Wiring
import RequestGuard.Proofs.Schema.Rewording
import RequestGuard.Proofs.Schema.Repetition
import RequestGuard.Proofs.Schema.Independence
import RequestGuard.Proofs.Schema.Flattening
import RequestGuard.Proofs.Request.Lookup
import RequestGuard.Proofs.Schema.Application
import RequestGuard.Proofs.Service.Accounts
import RequestGuard.Proofs.Guard.Frame
import RequestGuard.Proofs.Schema.Grammar
import RequestGuard.Proofs.Schema.Place
import RequestGuard.Proofs.Request.Verb
import RequestGuard.Proofs.Service.Counting
import RequestGuard.Proofs.Service.QuerySourced
import RequestGuard.Proofs.Number.Rounding
import RequestGuard.Proofs.Request.FromJson
import RequestGuard.Proofs.Schema.Writing
import RequestGuard.Proofs.Text.Lines
import RequestGuard.Proofs.Schema.Origin
import RequestGuard.Proofs.Service.Details
import RequestGuard.Proofs.Guard.Wording
import RequestGuard.Proofs.Service.Intake
import RequestGuard.Proofs.Schema.Address
import RequestGuard.Proofs.Schema.Deciding
import RequestGuard.Proofs.Calendar.Day
import RequestGuard.Proofs.Calendar.Reading
import RequestGuard.Proofs.Calendar.Parts
import RequestGuard.Proofs.Calendar.Spelling
import RequestGuard.Proofs.Calendar.Order
import RequestGuard.Proofs.Calendar.Agreement
import RequestGuard.Proofs.Calendar.LeapSecond
import RequestGuard.Proofs.Calendar.RoundTrip
import RequestGuard.Proofs.Number.Integers
import RequestGuard.Proofs.Calendar.Epoch
import RequestGuard.Proofs.Number.Value
import RequestGuard.Proofs.Number.Nearest
import RequestGuard.Proofs.Json.Structure
import RequestGuard.Proofs.Json.Equality
import RequestGuard.Proofs.Request.Equality
import RequestGuard.Proofs.Schema.Whole
import RequestGuard.Proofs.Text.Utf8
import RequestGuard.Proofs.Json.Token
import RequestGuard.Proofs.Json.RoundTrip
import RequestGuard.Proofs.Request.Wire
import RequestGuard.Proofs.Text.Case
import RequestGuard.Proofs.Guard.Coverage

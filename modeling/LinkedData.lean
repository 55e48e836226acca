import LinkedData.Text.Affix
import LinkedData.Text.Alphanumeric
import LinkedData.Text.Blank
import LinkedData.Text.Fields
import LinkedData.Binary64.Decimal
import LinkedData.Binary64.Shortest
import LinkedData.Json.Reader
import LinkedData.Json.Printer
import LinkedData.Timestamp.Printer
import LinkedData.Timestamp.Reader
import LinkedData.Value.Conventions
import LinkedData.Triple.Document
import LinkedData.Triple.Encoder
import LinkedData.Query.Basic
import LinkedData.Result.Tuples
import LinkedData.Result.Reach
import LinkedData.Store.Script
import LinkedData.Literal.Summary
import LinkedData.Session.Content
import LinkedData.Session.Query
import LinkedData.Command.Directory
import LinkedData.Main
import LinkedData.Proofs.Literal.Custom
import LinkedData.Proofs.Query.Captured
import LinkedData.Proofs.Query.Retrofit
import LinkedData.Proofs.Query.StoredPattern
import LinkedData.Proofs.Result.Restored
import LinkedData.Proofs.Value.RoundTrip
import LinkedData.Proofs.Timestamp.Again
import LinkedData.Proofs.Result.Handles
import LinkedData.Proofs.Literal.Wire
import LinkedData.Proofs.Triple.Edges
import LinkedData.Proofs.Triple.Rearranged
import LinkedData.Proofs.Triple.Isolated
import LinkedData.Proofs.Triple.Source
import LinkedData.Proofs.Literal.Separator
import LinkedData.Proofs.Result.Reported
import LinkedData.Proofs.Triple.Statements
import LinkedData.Proofs.Result.Unlink
import LinkedData.Proofs.Result.Order
import LinkedData.Proofs.Result.Expansion
import LinkedData.Proofs.Session.Failures
import LinkedData.Proofs.Session.Databases
import LinkedData.Proofs.Session.Refinements
import LinkedData.Proofs.Session.Refusals
import LinkedData.Proofs.Session.Known
import LinkedData.Proofs.Query.Branches
import LinkedData.Proofs.Query.Addition
import LinkedData.Proofs.Query.Shown
import LinkedData.Proofs.Query.Union
import LinkedData.Proofs.Pattern.Grammar
import LinkedData.Proofs.Query.Scope
import LinkedData.Proofs.Pattern.FilterText
import LinkedData.Proofs.Pattern.Regular
import LinkedData.Proofs.Result.Nameless
import LinkedData.Proofs.Result.LocalName
import LinkedData.Proofs.Result.NormalForm

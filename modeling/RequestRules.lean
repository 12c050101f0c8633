import RequestRules.Json.Reader
import RequestRules.Main
import RequestRules.Setting.Writing
import RequestRules.Text.Cursor
import RequestRules.Proofs.Text
import RequestRules.Proofs.Grammar.Header
import RequestRules.Proofs.Grammar.Address
import RequestRules.Proofs.Grammar.Written
import RequestRules.Proofs.Grammar.RoundTrip
import RequestRules.Proofs.Descriptor
import RequestRules.Proofs.Registry.Run
import RequestRules.Proofs.Registry.Lookup
import RequestRules.Proofs.Outcome
import RequestRules.Proofs.Rejection
import RequestRules.Proofs.Schema
import RequestRules.Proofs.Inventory
import RequestRules.Proofs.Configuration
import RequestRules.Proofs.Hub
import RequestRules.Proofs.Registry.Ownership
import RequestRules.Proofs.Registry.Processing
import RequestRules.Proofs.Hub.Restart
import RequestRules.Proofs.Program
import RequestRules.Proofs.Descriptor.WellFormed
import RequestRules.Proofs.Grammar.Parts
import RequestRules.Proofs.Descriptor.Url
import RequestRules.Proofs.Grammar.Append
import RequestRules.Proofs.Descriptor.Append
import RequestRules.Proofs.Registry.Coverage
import RequestRules.Proofs.Number.Numeral
import RequestRules.Proofs.Number.Decimal
import RequestRules.Proofs.Number.Rational
import RequestRules.Proofs.Calendar.Date
import RequestRules.Proofs.Calendar.Moment
import RequestRules.Proofs.Value
import RequestRules.Proofs.Value.Meaning
import RequestRules.Proofs.Descriptor.Lookup
import RequestRules.Proofs.Json.Text
import RequestRules.Proofs.Json
import RequestRules.Proofs.Document
import RequestRules.Proofs.Hub.Run
import RequestRules.Proofs.Configuration.Failure
import RequestRules.Proofs.Inventory.Order
import RequestRules.Proofs.Program.Printed
import RequestRules.Proofs.Grammar.Candidates
import RequestRules.Proofs.Pattern
import RequestRules.Proofs.Pattern.Polling
import RequestRules.Proofs.Pattern.Brackets
import RequestRules.Proofs.Grammar.Reread
import RequestRules.Proofs.Pattern.Address
import RequestRules.Proofs.Program.Ending
import RequestRules.Proofs.Grammar.Fragment
import RequestRules.Proofs.Grammar.Strays
import RequestRules.Proofs.Pattern.Sending
import RequestRules.Proofs.Inventory.Facet
import RequestRules.Proofs.Inventory.Generation
import RequestRules.Proofs.Item
import RequestRules.Proofs.Descriptor.Lasting
import RequestRules.Proofs.Grammar.Transformation
import RequestRules.Proofs.Pattern.Calling
import RequestRules.Proofs.Inventory.Accepted
import RequestRules.Proofs.Inventory.Fault
import RequestRules.Proofs.Text.Cursor
import RequestRules.Proofs.Files.Path
import RequestRules.Proofs.Json.Layout
import RequestRules.Proofs.Document.Writing
import RequestRules.Proofs.Yaml.Include

import GuestHarness.Main
import GuestHarness.Recorder
import GuestHarness.Proofs.Session.Cache
import GuestHarness.Proofs.Session.Transparency
import GuestHarness.Proofs.Import.Agreement
import GuestHarness.Proofs.Import.Aliasing
import GuestHarness.Proofs.Wasm.Operands
import GuestHarness.Proofs.Wasm.Exchange
import GuestHarness.Proofs.Wasm.ImportCalls
import GuestHarness.Proofs.Wasm.Typed
import GuestHarness.Proofs.Wasm.Preservation
import GuestHarness.Proofs.Wasm.TypedCalls
import GuestHarness.Proofs.Wasm.Validity
import GuestHarness.Proofs.Emission.Loggers
import GuestHarness.Proofs.Emission.Trace
import GuestHarness.Proofs.Emission.Requests
import GuestHarness.Proofs.Emission.Accounts
import GuestHarness.Proofs.Emission.Order
import GuestHarness.Proofs.Import.Building
import GuestHarness.Proofs.Wasm.States
import GuestHarness.Proofs.Wasm.Failures
import GuestHarness.Proofs.Loading.Outcomes
import GuestHarness.Proofs.Fault.Provenance
import GuestHarness.Proofs.Loading.Stages
import GuestHarness.Proofs.Wasm.Growth
import GuestHarness.Proofs.Wasm.Histories
import GuestHarness.Proofs.Wasm.Bounds
import GuestHarness.Proofs.Loading.Memories
import GuestHarness.Proofs.Loading.Bounds
import GuestHarness.Proofs.Wasm.Metering
import GuestHarness.Proofs.Fuel.Supply
import GuestHarness.Proofs.Fault.Refusals
import GuestHarness.Proofs.Wasm.Exports
import GuestHarness.Proofs.Session.Isolation
import GuestHarness.Proofs.Emission.Sources
import GuestHarness.Proofs.Import.Registrations
import GuestHarness.Proofs.Session.Handles
import GuestHarness.Proofs.Emission.Exported
import GuestHarness.Proofs.Wasm.Hosts
import GuestHarness.Proofs.Emission.Redirection
import GuestHarness.Proofs.CommandLine.Modes
import GuestHarness.Proofs.Json.Numerals
import GuestHarness.Proofs.Json.Spelling
import GuestHarness.Proofs.Wasm.Consumption
import GuestHarness.Proofs.Fuel.Accounting
import GuestHarness.Proofs.Decimal.Digits
import GuestHarness.Proofs.Json.Codecs
import GuestHarness.Proofs.Decimal.Rounding
import GuestHarness.Proofs.Decimal.Shortest
import GuestHarness.Proofs.Decimal.Literals
import GuestHarness.Proofs.Value.Texts
import GuestHarness.Proofs.Decimal.Closeness
import GuestHarness.Proofs.Json.Scaling
import GuestHarness.Proofs.Json.Floats
import GuestHarness.Proofs.Text.Reading
import GuestHarness.Proofs.Emission.Recording
import GuestHarness.Proofs.CommandLine.Acceptance
import GuestHarness.Proofs.Loading.Classes
import GuestHarness.Proofs.Import.Offences
import GuestHarness.Proofs.Calls.Introspection
import GuestHarness.Proofs.Calls.Ways
import GuestHarness.Proofs.CommandLine.Arguments
import GuestHarness.Proofs.Value.Integers
import GuestHarness.Proofs.Json.Members
import GuestHarness.Proofs.Logging.Drafts
import GuestHarness.Proofs.Logging.Variables
import GuestHarness.Proofs.Loading.Variables
import GuestHarness.Proofs.Import.Descriptions
import GuestHarness.Proofs.Files.Paths
import GuestHarness.Proofs.CommandLine.Lookup

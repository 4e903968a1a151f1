import ScanCircuit.Main
import ScanCircuit.Session
import ScanCircuit.Proofs.Circuit.Expansion
import ScanCircuit.Proofs.Circuit.Schedule
import ScanCircuit.Proofs.Circuit.Valuation
import ScanCircuit.Proofs.Movement
import ScanCircuit.Proofs.Circuit.Drafting
import ScanCircuit.Proofs.Circuit.Planned
import ScanCircuit.Proofs.Circuit.Coverage
import ScanCircuit.Proofs.Circuit.Inventory
import ScanCircuit.Proofs.Circuit.Components
import ScanCircuit.Proofs.Circuit.Transition
import ScanCircuit.Proofs.Circuit.Recognition
import ScanCircuit.Proofs.Circuit.Recovery
import ScanCircuit.Proofs.Circuit.Lines
import ScanCircuit.Proofs.Circuit.Wording
import ScanCircuit.Proofs.Circuit.Unambiguity
import ScanCircuit.Proofs.Encoding
import ScanCircuit.Proofs.Json.Grammar
import ScanCircuit.Proofs.Json.Reading
import ScanCircuit.Proofs.Spelling
import ScanCircuit.Proofs.Validation
import ScanCircuit.Proofs.Loading
import ScanCircuit.Proofs.Layouts
import ScanCircuit.Proofs.Files.Effects
import ScanCircuit.Proofs.Files.Staging
import ScanCircuit.Proofs.Command.Outputs
import ScanCircuit.Proofs.Command.Delivery
import ScanCircuit.Proofs.Cover
import ScanCircuit.Proofs.Circuit.Renumbering
import ScanCircuit.Proofs.Circuit.Tally
import ScanCircuit.Proofs.Declarations
import ScanCircuit.Proofs.Circuit.Layout
import ScanCircuit.Proofs.Circuit.Comments
import ScanCircuit.Proofs.Circuit.Wrapping
import ScanCircuit.Proofs.Circuit.Nesting
import ScanCircuit.Proofs.Listing
import ScanCircuit.Proofs.Transposition
import ScanCircuit.Proofs.Command.Footprint
import ScanCircuit.Proofs.CommandLine
import ScanCircuit.Proofs.Text.Decoding
import ScanCircuit.Proofs.Command.Channels
import ScanCircuit.Proofs.FiniteSets

import FlowDisasm.Main
import FlowDisasm.Proofs.Bytes.Overlay
import FlowDisasm.Proofs.Exploration.Accounting
import FlowDisasm.Proofs.Exploration.ControlFlow
import FlowDisasm.Proofs.Exploration.FixedPoint
import FlowDisasm.Proofs.Exploration.History
import FlowDisasm.Proofs.Exploration.OrderIndependence
import FlowDisasm.Proofs.Exploration.Places
import FlowDisasm.Proofs.Exploration.Provenance
import FlowDisasm.Proofs.Exploration.Strides
import FlowDisasm.Proofs.Exploration.Termination
import FlowDisasm.Proofs.Image
import FlowDisasm.Proofs.Bytes.Rows
import FlowDisasm.Proofs.Listing.Blocks
import FlowDisasm.Proofs.Module.Relocation
import FlowDisasm.Proofs.X86.Forms
import FlowDisasm.Proofs.X86.Quiet
import FlowDisasm.Proofs.X86.Branches
import FlowDisasm.Proofs.Text.Hex
import FlowDisasm.Proofs.Text.HexDump
import FlowDisasm.Proofs.Bytes.Fields
import FlowDisasm.Proofs.Listing.Rendering
import FlowDisasm.Proofs.Listing.Coverage
import FlowDisasm.Proofs.Listing.Lossless
import FlowDisasm.Proofs.Listing.References
import FlowDisasm.Proofs.Module.FixupGrammar
import FlowDisasm.Proofs.Bytes.Cursor
import FlowDisasm.Proofs.SymbolMap.Written
import FlowDisasm.Proofs.SymbolMap.RoundTrip
import FlowDisasm.Proofs.Exploration.Replay
import FlowDisasm.Proofs.Exploration.DataIndependence
import FlowDisasm.Proofs.Exploration.BaseIndependence
import FlowDisasm.Proofs.Exploration.Determinism
import FlowDisasm.Proofs.Exploration.Destinations
import FlowDisasm.Proofs.Exploration.Progress
import FlowDisasm.Proofs.Exploration.ImageEnd
import FlowDisasm.Proofs.Listing.Labels
import FlowDisasm.Proofs.Listing.NewerProcessor
import FlowDisasm.Proofs.Listing.MissingData
import FlowDisasm.Proofs.Module.FixupPages
import FlowDisasm.Proofs.Module.Guarded
import FlowDisasm.Proofs.Module.Loading
import FlowDisasm.Proofs.Module.Rebasing
import FlowDisasm.Proofs.Bytes.Words
import FlowDisasm.Proofs.Module.RecordTable
import FlowDisasm.Proofs.Bytes.Sums
import FlowDisasm.Proofs.Module.RelocationSums
import FlowDisasm.Proofs.Module.RefusedRelocation
import FlowDisasm.Proofs.Exploration.Masking
import FlowDisasm.Proofs.Listing.AssumedMode
import FlowDisasm.Proofs.Module.Refusals
import FlowDisasm.Proofs.X86.Locality
import FlowDisasm.Proofs.Guarded
import FlowDisasm.Proofs.SymbolMap.Chain
import FlowDisasm.Proofs.SymbolMap.GuardedReader
import FlowDisasm.Proofs.X86.Targets
import FlowDisasm.Proofs.Command.Location
import FlowDisasm.Proofs.Command.Number
import FlowDisasm.Proofs.X86.TargetText
import FlowDisasm.Proofs.ImageAccess
import FlowDisasm.Proofs.Module.HeaderRoundTrip
import FlowDisasm.Proofs.X86.FirstOperands
import FlowDisasm.Proofs.Exploration.FarTargets
import FlowDisasm.Proofs.Text.Pieces
import FlowDisasm.Proofs.Address
import FlowDisasm.Proofs.RealMode
import FlowDisasm.Proofs.Text.Plain
import FlowDisasm.Proofs.X86.Mnemonics
import FlowDisasm.Proofs.Listing.Printable
import FlowDisasm.Proofs.Listing.Columns
import FlowDisasm.Proofs.Bytes.InPlace
import FlowDisasm.Proofs.Bytes.Integers
import FlowDisasm.Proofs.Bytes.Operations
import FlowDisasm.Proofs.Listing.Lines

import SpirvInspector.Bytes
import SpirvInspector.CommandLine.Help
import SpirvInspector.CommandLine.Parse
import SpirvInspector.CommandLine.Spec
import SpirvInspector.Decode.Operands
import SpirvInspector.Diagnostic.Diagnostic
import SpirvInspector.Diagnostic.Excerpt
import SpirvInspector.Diagnostic.Inquiry
import SpirvInspector.Diagnostic.Location
import SpirvInspector.Grammar.Enumerant
import SpirvInspector.Grammar.InstructionForm
import SpirvInspector.Grammar.Opcode
import SpirvInspector.Grammar.OperandKind
import SpirvInspector.Grammar.OperandShape
import SpirvInspector.Host.FileTree
import SpirvInspector.Host.Log
import SpirvInspector.Host.Path
import SpirvInspector.Host.Status
import SpirvInspector.Load.Inspection
import SpirvInspector.Load.Loader
import SpirvInspector.Load.Placement
import SpirvInspector.Main
import SpirvInspector.Module.Header
import SpirvInspector.Module.Instruction
import SpirvInspector.Module.Layout
import SpirvInspector.Module.Listing
import SpirvInspector.Parse.Frame
import SpirvInspector.Parse.Outcome
import SpirvInspector.Parse.Parser
import SpirvInspector.Parse.Sink
import SpirvInspector.Parse.Trace
import SpirvInspector.Proofs.CommandLine.Spellings
import SpirvInspector.Proofs.CommandLine.Steps
import SpirvInspector.Proofs.CommandLine.Turns
import SpirvInspector.Proofs.Decode.Accounting
import SpirvInspector.Proofs.Decode.Appending
import SpirvInspector.Proofs.Decode.Completeness
import SpirvInspector.Proofs.Decode.Confinement
import SpirvInspector.Proofs.Decode.Recursion
import SpirvInspector.Proofs.Decode.Shortfall
import SpirvInspector.Proofs.Decode.Soundness
import SpirvInspector.Proofs.Decode.Throwing
import SpirvInspector.Proofs.Diagnostic.Dump
import SpirvInspector.Proofs.Diagnostic.Excerpt
import SpirvInspector.Proofs.Format.ByteOrder
import SpirvInspector.Proofs.Format.Conformity
import SpirvInspector.Proofs.Format.Encoding
import SpirvInspector.Proofs.Grammar.Descriptions
import SpirvInspector.Proofs.Load.Agreement
import SpirvInspector.Proofs.Load.Completion
import SpirvInspector.Proofs.Load.Conservation
import SpirvInspector.Proofs.Load.Filing
import SpirvInspector.Proofs.Load.LayoutLanguage
import SpirvInspector.Proofs.Load.Limit
import SpirvInspector.Proofs.Load.Sections
import SpirvInspector.Proofs.Load.Visibility
import SpirvInspector.Proofs.Load.WellFormed
import SpirvInspector.Proofs.Load.Words
import SpirvInspector.Proofs.Module.Lines
import SpirvInspector.Proofs.Parse.Attribution
import SpirvInspector.Proofs.Parse.Composition
import SpirvInspector.Proofs.Parse.Delivery
import SpirvInspector.Proofs.Parse.Frames
import SpirvInspector.Proofs.Parse.Observers
import SpirvInspector.Proofs.Parse.OperandLoop
import SpirvInspector.Proofs.Parse.Protocol
import SpirvInspector.Proofs.Parse.RaggedTail
import SpirvInspector.Proofs.Parse.Relocation
import SpirvInspector.Proofs.Parse.Returning
import SpirvInspector.Proofs.Parse.RoundTrip
import SpirvInspector.Proofs.Parse.Rounds
import SpirvInspector.Proofs.Parse.Scan
import SpirvInspector.Proofs.Parse.Throwing
import SpirvInspector.Proofs.Parse.Tracing
import SpirvInspector.Proofs.Stats.Tallies
import SpirvInspector.Proofs.Stream.Counters
import SpirvInspector.Proofs.Stream.Reading
import SpirvInspector.Proofs.Stream.Runs
import SpirvInspector.Proofs.Stream.Shifts
import SpirvInspector.Proofs.Stream.Splits
import SpirvInspector.Proofs.Stream.Strings
import SpirvInspector.Proofs.Stream.Words
import SpirvInspector.Proofs.Text.BitSet
import SpirvInspector.Proofs.Text.Integers
import SpirvInspector.Proofs.Text.Numerals
import SpirvInspector.Proofs.Text.Sheets
import SpirvInspector.Proofs.Text.Tables
import SpirvInspector.Proofs.Tool.CommandLines
import SpirvInspector.Proofs.Tool.Groups
import SpirvInspector.Proofs.Tool.Independence
import SpirvInspector.Proofs.Tool.InstructionLimit
import SpirvInspector.Proofs.Tool.OptionOrder
import SpirvInspector.Stats.Report
import SpirvInspector.Stats.Sampler
import SpirvInspector.Stats.Usage
import SpirvInspector.Stream.Cursor
import SpirvInspector.Stream.Endian
import SpirvInspector.Stream.Fault
import SpirvInspector.Text.Binary64
import SpirvInspector.Text.BitSet
import SpirvInspector.Text.Color
import SpirvInspector.Text.Digits
import SpirvInspector.Text.Integer
import SpirvInspector.Text.Table
import SpirvInspector.Tool.Inspect
import SpirvInspector.Tool.Options

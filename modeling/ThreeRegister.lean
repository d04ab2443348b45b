import ThreeRegister.Allocation.Operations
import ThreeRegister.Allocation.Session
import ThreeRegister.CommandLine.Assignment
import ThreeRegister.CommandLine.Command
import ThreeRegister.CommandLine.Directory
import ThreeRegister.CommandLine.Environment
import ThreeRegister.CommandLine.Flags
import ThreeRegister.Generation
import ThreeRegister.Machine.Bank
import ThreeRegister.Machine.Instruction
import ThreeRegister.Machine.Register
import ThreeRegister.Machine.Run
import ThreeRegister.Main
import ThreeRegister.Memory
import ThreeRegister.Native.Assembly
import ThreeRegister.Native.Instruction
import ThreeRegister.NextUse.Distance
import ThreeRegister.NextUse.Entry
import ThreeRegister.NextUse.Table
import ThreeRegister.Operation
import ThreeRegister.OutOfRange
import ThreeRegister.Policy
import ThreeRegister.Program
import ThreeRegister.RegisterFile.Basic
import ThreeRegister.RegisterFile.Binding
import ThreeRegister.RegisterFile.Validity
import ThreeRegister.RegisterFile.Victim
import ThreeRegister.Source.Instruction
import ThreeRegister.Source.Parser
import ThreeRegister.Source.Run
import ThreeRegister.Text
import ThreeRegister.Text.Blank
import ThreeRegister.Text.Casing
import ThreeRegister.Text.Decimal
import ThreeRegister.Text.Hex
import ThreeRegister.Text.Line
import ThreeRegister.Text.Printable
import ThreeRegister.Text.Quoted
import ThreeRegister.Text.Scalar
import ThreeRegister.Proofs.Lookup
import ThreeRegister.Proofs.FirstOccurrence
import ThreeRegister.Proofs.RegisterFile.Consistency
import ThreeRegister.Proofs.Allocation.Outcome
import ThreeRegister.Proofs.Allocation.Calls
import ThreeRegister.Proofs.Machine.Run
import ThreeRegister.Proofs.Allocation.Realization
import ThreeRegister.Proofs.Generation.Instruction
import ThreeRegister.Proofs.NextUse.Table
import ThreeRegister.Proofs.NextUse.Renaming
import ThreeRegister.Proofs.RegisterFile.Renaming
import ThreeRegister.Proofs.Generation.Simulation
import ThreeRegister.Proofs.Generation.Trace
import ThreeRegister.Proofs.Generation.Correctness
import ThreeRegister.Proofs.Generation.Failure
import ThreeRegister.Proofs.Generation.Comparison
import ThreeRegister.Proofs.Generation.Totality
import ThreeRegister.Proofs.Native.Processor
import ThreeRegister.Proofs.Native.Decoding
import ThreeRegister.Proofs.Native.Execution
import ThreeRegister.Proofs.Native.Lowering
import ThreeRegister.Proofs.Native.Layout
import ThreeRegister.Proofs.Native.Correctness
import ThreeRegister.Proofs.Generation.Renaming
import ThreeRegister.Proofs.Text.Blank
import ThreeRegister.Proofs.Text.Line
import ThreeRegister.Proofs.Source.Grammar
import ThreeRegister.Proofs.Source.RoundTrip
import ThreeRegister.Proofs.Machine.Initialization
import ThreeRegister.Proofs.Generation.Initialization
import ThreeRegister.Proofs.NextUse.ClosedForm
import ThreeRegister.Proofs.Allocation.Transparency
import ThreeRegister.Proofs.RegisterFile.Validity
import ThreeRegister.Proofs.Allocation.Recency
import ThreeRegister.Proofs.Generation.Vocabulary
import ThreeRegister.Proofs.Generation.Report
import ThreeRegister.Proofs.Native.Acceptance
import ThreeRegister.Proofs.NextUse.NextRead
import ThreeRegister.Proofs.Generation.Refusal
import ThreeRegister.Proofs.Text.Casing
import ThreeRegister.Proofs.Operation
import ThreeRegister.Proofs.Arithmetic
import ThreeRegister.Proofs.Machine.Composition
import ThreeRegister.Proofs.Generation.Fragment
import ThreeRegister.Proofs.Generation.Foresight
import ThreeRegister.Proofs.Machine.Listing
import ThreeRegister.Proofs.Allocation.Spilling
import ThreeRegister.Proofs.Native.Numbering
import ThreeRegister.Proofs.Allocation.Journal
import ThreeRegister.Proofs.Generation.Destination
import ThreeRegister.Proofs.CommandLine.Assignment
import ThreeRegister.Proofs.Generation.Comparison

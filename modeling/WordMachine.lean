import WordMachine.Text.Layout
import WordMachine.Text.WordCharacter
import WordMachine.Text.UpperCase
import WordMachine.Text.Numeral
import WordMachine.Text.Utf8
import WordMachine.Register
import WordMachine.Memory
import WordMachine.Arithmetic
import WordMachine.Disassembly
import WordMachine.Machine.Basic
import WordMachine.Machine.Monitor
import WordMachine.Assembly.Session
import WordMachine.CommandLine.FileTree
import WordMachine.CommandLine.Log
import WordMachine.CommandLine.Switches
import WordMachine.CommandLine.Tool
import WordMachine.Main
import WordMachine.Proofs.Assembly.Operands
import WordMachine.Proofs.Assembly.Passes
import WordMachine.Proofs.Assembly.Agreement
import WordMachine.Proofs.Execution
import WordMachine.Proofs.Ranges
import WordMachine.Proofs.Skipping
import WordMachine.Proofs.Attempts
import WordMachine.Proofs.Assembly.StraightLine
import WordMachine.Proofs.Assembly.Reading
import WordMachine.Proofs.Disassembly.Blocks
import WordMachine.Proofs.Disassembly.RoundTrip
import WordMachine.Proofs.Assembly.Grammar
import WordMachine.Proofs.Text.UpperCase
import WordMachine.Proofs.Assembly.Acceptance
import WordMachine.Proofs.RunState
import WordMachine.Proofs.Breakpoints
import WordMachine.Proofs.Changes
import WordMachine.Proofs.Stops
import WordMachine.Proofs.Assembly.Joining
import WordMachine.Proofs.Assembly.History
import WordMachine.Proofs.CommandLine.Endings
import WordMachine.Proofs.Tracing
import WordMachine.Proofs.Recordings
import WordMachine.Proofs.Assembly.RawAssembler
import WordMachine.Proofs.BinaryForm
import WordMachine.Proofs.CommandLine.Sources
import WordMachine.Proofs.Runs
import WordMachine.Proofs.Restarts
import WordMachine.Proofs.Assembly.FirstError
import WordMachine.Proofs.Assembly.ListedWords
import WordMachine.Proofs.Assembly.References
import WordMachine.Proofs.Disassembly.Lines
import WordMachine.Proofs.Disassembly.Coverage
import WordMachine.Proofs.Images
import WordMachine.Proofs.Calls
import WordMachine.Proofs.Stack
import WordMachine.Proofs.Cells
import WordMachine.Proofs.Arithmetic.Wide
import WordMachine.Proofs.Arithmetic.Laws
import WordMachine.Proofs.Assembly.ListedLines
import WordMachine.Proofs.Assembly.LineEnds
import WordMachine.Proofs.CommandLine.Deliveries
import WordMachine.Proofs.CommandLine.RunStatus
import WordMachine.Proofs.CommandLine.Interference
import WordMachine.Proofs.Assembly.Packing
import WordMachine.Proofs.Dumps
import WordMachine.Proofs.Spellings
import WordMachine.Proofs.TraceRows

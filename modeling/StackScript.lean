import StackScript.Main
import StackScript.Proofs.Bytecode.RoundTrip
import StackScript.Proofs.Bytecode.Locality
import StackScript.Proofs.Bytecode.ListingReading
import StackScript.Proofs.Evaluation.Correctness
import StackScript.Proofs.Machine.Calls
import StackScript.Proofs.Parse.Recovery
import StackScript.Proofs.Parse.ErrorCount
import StackScript.Proofs.Parse.Tallest
import StackScript.Proofs.Parse.Progress
import StackScript.Proofs.Parse.Nesting
import StackScript.Proofs.Machine.Consistency
import StackScript.Proofs.Machine.Failures
import StackScript.Proofs.Compile.Writing
import StackScript.Proofs.Bytecode.Offsets
import StackScript.Proofs.Compile.WellFormed
import StackScript.Proofs.Compile.FallThrough
import StackScript.Proofs.Bytecode.ListingLines
import StackScript.Proofs.Machine.Debugging
import StackScript.Proofs.Source.Reporting
import StackScript.Proofs.Token.Layout
import StackScript.Proofs.Source.StatementSpans
import StackScript.Proofs.Tree.Text
import StackScript.Proofs.Compile.Pruning
import StackScript.Proofs.Compile.Extending
import StackScript.Proofs.Compile.Renaming
import StackScript.Proofs.Compile.Refusals
import StackScript.Proofs.Machine.Snapshots
import StackScript.Proofs.Compile.NumberLiterals
import StackScript.Proofs.Source.LineTable
import StackScript.Proofs.Diagnostic.Carets
import StackScript.Proofs.Diagnostic.JsonLine
import StackScript.Proofs.Diagnostic.Styles
import StackScript.Proofs.Compile.Ledger
import StackScript.Proofs.Compile.LiveLocals
import StackScript.Proofs.Compile.Restoring
import StackScript.Proofs.Parse.CounterBalance

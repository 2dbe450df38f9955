import CallForms.Text.Blank
import CallForms.Text.DecimalDigit
import CallForms.Text.Lines
import CallForms.Text.Utf8
import CallForms.Json.Printer
import CallForms.Tree.Same
import CallForms.Tree.Layout
import CallForms.Diagnostic.Collection
import CallForms.Compilation
import CallForms.Source.Session
import CallForms.Expr.Session
import CallForms.Disk.Folder
import CallForms.CommandLine.Command
import CallForms.Main
import CallForms.Proofs.Expr.Tokens
import CallForms.Proofs.Reader.Inverse
import CallForms.Proofs.Reader.FirstFailure
import CallForms.Proofs.Source.Layout
import CallForms.Proofs.Compilation.Code
import CallForms.Proofs.Compilation.Meaning
import CallForms.Proofs.Compilation.Conservation
import CallForms.Proofs.Source.Place
import CallForms.Proofs.Source.Stray
import CallForms.Proofs.Source.Pieces
import CallForms.Proofs.Source.Interleaving
import CallForms.Proofs.Compilation.Outcome
import CallForms.Proofs.Compilation.Pointing
import CallForms.Proofs.Reader.Overflow
import CallForms.Proofs.Lowering.Lossless
import CallForms.Proofs.Places.Reading
import CallForms.Proofs.Places.Independence
import CallForms.Proofs.Compilation.Composition
import CallForms.Proofs.Compilation.Respacing
import CallForms.Proofs.Source.Beneath
import CallForms.Proofs.Diagnostic.Caret
import CallForms.Proofs.Reader.Extent
import CallForms.Proofs.Json.Printing
import CallForms.Proofs.CommandLine.Checking
import CallForms.Proofs.Compilation.Delimiting
import CallForms.Proofs.Lowering.Appending
import CallForms.Proofs.Lowering.Refusal
import CallForms.Proofs.Lowering.Remnant
import CallForms.Proofs.Rendering.Refusal
import CallForms.Proofs.Reader.Headroom
import CallForms.Proofs.Compilation.Headroom
import CallForms.Proofs.CommandLine.Stored
import CallForms.Proofs.Source.Resuming
import CallForms.Proofs.CommandLine.Delivery
import CallForms.Proofs.CommandLine.Dumping
import CallForms.Proofs.Source.Bearings
import CallForms.Proofs.Reader.Recovery

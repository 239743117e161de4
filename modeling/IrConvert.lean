import IrConvert.Text.Basic
import IrConvert.Text.Lines
import IrConvert.Text.Excerpt
import IrConvert.Text.Utf8
import IrConvert.Text.Letter
import IrConvert.Text.Terminal
import IrConvert.Outcome
import IrConvert.Dialect
import IrConvert.Source
import IrConvert.Ir.Token
import IrConvert.Ir.Token.Scan
import IrConvert.Ir.Token.Step
import IrConvert.Ir.Operation
import IrConvert.Ir.Operation.Read
import IrConvert.Ir.Operation.Mlir
import IrConvert.Ir.Operation.Llvm
import IrConvert.Storage.Store
import IrConvert.Storage.Path
import IrConvert.Storage.Directory
import IrConvert.Failure
import IrConvert.Event
import IrConvert.Run
import IrConvert.Registry
import IrConvert.Builtin
import IrConvert.Conversion
import IrConvert.CommandLine.Command
import IrConvert.CommandLine.Given
import IrConvert.CommandLine.Reading
import IrConvert.CommandLine.Options
import IrConvert.CommandLine.Help
import IrConvert.Surroundings
import IrConvert.Service
import IrConvert.Tool
import IrConvert.Main
import IrConvert.Bytes.Walk
import IrConvert.Bytes.Reading
import IrConvert.Bytes.Scan
import IrConvert.Proofs.Text.Lines
import IrConvert.Proofs.Text.Rows
import IrConvert.Proofs.Text.Excerpt
import IrConvert.Proofs.Dialect.Written
import IrConvert.Proofs.Dialect.Concatenation
import IrConvert.Proofs.Dialect.Undeclared
import IrConvert.Proofs.Dialect.Shown
import IrConvert.Proofs.Dialect.Lexing
import IrConvert.Proofs.Dialect.Lexed
import IrConvert.Proofs.Source.Division
import IrConvert.Proofs.Source.Blank
import IrConvert.Proofs.Source.Comment
import IrConvert.Proofs.Source.Content
import IrConvert.Proofs.Source.Operations
import IrConvert.Proofs.Conversion.Split
import IrConvert.Proofs.Conversion.Stable
import IrConvert.Proofs.Conversion.Seam
import IrConvert.Proofs.Conversion.Gate
import IrConvert.Proofs.Registry.History
import IrConvert.Proofs.CommandLine.Arguments
import IrConvert.Proofs.CommandLine.Selection
import IrConvert.Proofs.CommandLine.Clashes
import IrConvert.Proofs.CommandLine.Raised
import IrConvert.Proofs.CommandLine.Selected
import IrConvert.Proofs.CommandLine.Selectable
import IrConvert.Proofs.Storage.Lawful
import IrConvert.Proofs.Service.Steps
import IrConvert.Proofs.Service.Atomicity
import IrConvert.Proofs.Service.Endings
import IrConvert.Proofs.Service.Known
import IrConvert.Proofs.Tool.Exit
import IrConvert.Proofs.Conversion.Emptiness
import IrConvert.Proofs.CommandLine.Leading
import IrConvert.Proofs.Registry.Order
import IrConvert.Proofs.Tool.Verbosity
import IrConvert.Proofs.CommandLine.Permuted
import IrConvert.Proofs.Bytes.Encoding
import IrConvert.Proofs.Bytes.Reading
import IrConvert.Proofs.Bytes.Chunks
import IrConvert.Proofs.Bytes.Operations
import IrConvert.Proofs.Bytes.Refusals

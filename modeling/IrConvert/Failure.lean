import IrConvert.CommandLine.Given
import IrConvert.Dialect
import IrConvert.Ir.Token
import IrConvert.Storage.Store

namespace IrConvert

open Storage (Endpoint)

/-- Every reason for which a run fails, apart from a command line that cannot be read. -/
inductive Failure where
  /-- A source that is blank has nothing to convert. -/
  | noOperations
  | undeclared (operation : Dialect.Undeclared)
  | unreadable (fault : Ir.Fault)
  /-- A converter of one's own gives its causes itself, the outermost first. -/
  | reported (causes : List Text)
  | unknownConverter (name : Text)
  | noChunks
  | chunksFailed (failed total : Nat)
  | noneSelected
  | severalSelected (names : List Text)
  | notRead (input : Endpoint) (fault : Storage.Fault)
  | notWritten (output : Endpoint) (fault : Storage.Fault)
deriving DecidableEq

namespace Failure

def readingMessage : Endpoint → Text
  | .standard => "Failed to read from stdin"
  | .file path => "Failed to read input file " ++ path.quoted

def writingMessage : Endpoint → Text
  | .standard => "Failed to write to stdout"
  | .file path => "Failed to write output file " ++ path.quoted

/-- The outermost cause comes first. -/
def causes : Failure → List Text
  | noOperations => ["Input does not contain any operations"]
  | undeclared operation => [operation.message]
  | unreadable fault => [fault.message]
  | reported causes => causes
  | unknownConverter name => ["Unknown translation: " ++ name]
  | noChunks => ["Input does not contain any chunks"]
  | chunksFailed failed total =>
    [Text.ofNat failed ++ " of " ++ Text.ofNat total ++ " chunks failed to translate"]
  | noneSelected => ["No translation selected"]
  | severalSelected names =>
    ["Only one translation can be selected, got: " ++ Text.joinWith ", " names]
  | notRead input fault => [readingMessage input, fault.message]
  | notWritten output fault => [writingMessage output, fault.message]

def message (failure : Failure) : Text := Text.joinWith ": " failure.causes

end Failure

/-- Why a tool does not do what it was asked for. -/
inductive Stop where
  | usage (error : CommandLine.UsageError)
  | failure (failure : Failure)
  | crash
deriving DecidableEq

end IrConvert

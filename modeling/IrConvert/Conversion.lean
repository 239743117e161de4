import IrConvert.Registry
import IrConvert.Source

namespace IrConvert

/-- What a command line asks for. A word that names an input or an output is kept as it was
given. -/
structure Options where
  converter : Text
  input : Text
  output : Text
  splitInput : Bool
  debug : Bool
deriving DecidableEq

/-- Converts standard input as a whole to standard output. -/
def Options.forConverter (name : Text) : Options :=
  { converter := name, input := ['-'], output := ['-'], splitInput := false, debug := false }

/-- The output on a chunk, closed by a newline, or nothing if the conversion failed; the failure
is logged under the index of the chunk. -/
def Converter.attempt (converter : Converter) (index : Nat) (chunk : Text) :
    Run (Option Text) :=
  let run := converter.convert chunk
  match run.outcome with
  | .done output => ⟨run.log, .done (some output.withNewline)⟩
  | .failed failure => ⟨run.log ++ [.chunkFailed index failure], .done none⟩
  | .crashed => ⟨run.log, .crashed⟩

def Converter.attemptEach (converter : Converter) (index : Nat) :
    List Text → Run (List (Option Text))
  | [] => pure []
  | chunk :: others => do
    let output? ← converter.attempt index chunk
    return output? :: (← converter.attemptEach (index + 1) others)

def Converter.convertWhole (converter : Converter) (source : Text) : Run Text :=
  Text.withNewline <$> converter.convert source

def Converter.convertChunks (converter : Converter) (source : Text) : Run Text := do
  let chunks := Source.contents source
  Run.emit (.split chunks.length)
  if chunks.isEmpty then Run.fail .noChunks
  else
    let outputs ← converter.attemptEach 0 chunks
    let failed := outputs.countP (·.isNone)
    if failed = 0 then return Source.joinChunks (outputs.filterMap id)
    else Run.fail (.chunksFailed failed chunks.length)

def Registry.convert (registry : Registry) (options : Options) (source : Text) : Run Text :=
  match registry.get? options.converter with
  | none => Run.fail (.unknownConverter options.converter)
  | some converter => do
    Run.emit (.converting converter.name)
    if options.splitInput then converter.convertChunks source
    else converter.convertWhole source

end IrConvert

import IrConvert.CommandLine.Options
import IrConvert.Conversion
import IrConvert.Surroundings

namespace IrConvert

open Storage (Endpoint)

namespace Service

variable {m : Type → Type} [Monad m] [Surroundings m]

def fail {α : Type} (failure : Failure) : ExceptT Stop m α := throw (.failure failure)

def emit (event : Event) : ExceptT Stop m Unit := liftM (Surroundings.emit event : m Unit)

def readBytes : Endpoint → m (Except Storage.Fault ByteArray)
  | .standard => Surroundings.readStandard
  | .file path => Surroundings.readFile path

def writeText (text : Text) : Endpoint → m (Except Storage.Fault Unit)
  | .standard => Surroundings.writeStandard text
  | .file path => Surroundings.writeFile path text

/-- The source, which has to be valid UTF-8. -/
def readSource (input : Endpoint) : ExceptT Stop m Text := do
  match ← liftM (readBytes input : m _) with
  | .error fault => fail (.notRead input fault)
  | .ok bytes =>
    match Text.decode? bytes with
    | some text => return text
    | none => fail (.notRead input .notUtf8)

def writeOutput (text : Text) (output : Endpoint) : ExceptT Stop m Unit := do
  match ← liftM (writeText text output : m _) with
  | .error fault => fail (.notWritten output fault)
  | .ok () => return

/-- The events of a run are emitted however it ends. -/
def perform {α : Type} (run : Run α) : ExceptT Stop m α := do
  run.log.forM emit
  match run.outcome with
  | .done value => return value
  | .failed failure => fail failure
  | .crashed => throw .crash

end Service

def Options.shownFrom (options : Options) : Level := if options.debug then .debug else .info

open Service in
/-- The output is written last, so that a request that fails has written nothing. -/
def Registry.serve {m : Type → Type} [Monad m] [Surroundings m] (registry : Registry)
    (about : Text) (arguments : List Text) : ExceptT Stop m Unit := do
  let options ← ExceptT.mk (pure (registry.optionsOf (registry.command about) arguments))
  liftM (Surroundings.showFrom options.shownFrom : m Unit)
  emit (.reading options.input)
  let source ← readSource (.ofWord options.input)
  let output ← perform (registry.convert options source)
  emit (.writing options.output)
  writeOutput output (.ofWord options.output)

end IrConvert

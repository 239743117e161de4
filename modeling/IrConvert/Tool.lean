import IrConvert.CommandLine.Help
import IrConvert.Service

namespace IrConvert.Tool

def about : Text := "MLIR Translation Testing Tool"

inductive Exit where
  | success
  | failure
  | usage
  | crash
deriving DecidableEq

def Exit.code : Exit → Nat
  | success => 0
  | failure => 1
  | usage => 2
  | crash => 101

variable {Module : Type} {m : Type → Type} [Monad m] [Surroundings m]

def registry (host : Host Module) : Except Refusal Registry :=
  Registry.unrefused (Registry.empty.registerEach (Builtin.converters host))

def printed (text : Text) : m Exit := do
  let _ ← Surroundings.writeStandard text
  return .success

def reported (message : Text) (exit : Exit) : m Exit := do
  Surroundings.writeError ("error: " ++ message ++ ['\n'])
  return exit

/-- The exit status of a request. To ask for the help text or the version is a success. -/
def conclude (command : CommandLine.Command) : Except Stop Unit → m Exit
  | .ok () => return .success
  | .error (.usage .helpAsked) => printed command.helpText
  | .error (.usage .versionAsked) => printed command.versionText
  | .error (.usage _) => reported "the command line cannot be used, see --help" .usage
  | .error (.failure failure) => reported failure.message .failure
  | .error .crash => reported "the conversion crashed" .crash

/-- The words are those after the name of the program. -/
def runOn (host : Host Module) (words : List Text) : m Exit := do
  match registry host with
  | .error refusal => reported refusal.message .failure
  | .ok registry =>
    let command := registry.command about
    conclude command (← (registry.serve about (command.name :: words)).run)

def run (words : List Text) : m Exit := runOn Ir.host words

end IrConvert.Tool

import IrConvert.Failure
import IrConvert.Text.Terminal

namespace IrConvert.Ir

inductive Pass where
  | convertFuncToLlvm
  | convertMlirToLlvmir
deriving DecidableEq

def Pass.flag : Pass → Text
  | convertFuncToLlvm => "--convert-func-to-llvm"
  | convertMlirToLlvmir => "--convert-mlir-to-llvmir"

inductive Target where
  | mlir
  | llvmIr
deriving DecidableEq

def Target.passes : Target → List Pass
  | mlir => []
  | llvmIr => [.convertFuncToLlvm, .convertMlirToLlvmir]

end IrConvert.Ir

namespace IrConvert

inductive Level where
  | debug
  | info
  | error
deriving DecidableEq

namespace Level

def rank : Level → Nat
  | debug => 0
  | info => 1
  | error => 2

def name : Level → Text
  | debug => "DEBUG"
  | info => "INFO"
  | error => "ERROR"

def shownAt (level threshold : Level) : Bool := threshold.rank ≤ level.rank

end Level

inductive Event where
  | reading (input : Text)
  | writing (output : Text)
  | converting (name : Text)
  | split (chunks : Nat)
  | chunkFailed (index : Nat) (failure : Failure)
  | runningPasses (passes : List Ir.Pass)
deriving DecidableEq

namespace Event

def level : Event → Level
  | chunkFailed _ _ => .error
  | _ => .debug

def message : Event → Text
  | reading input => "Reading input from " ++ input
  | writing output => "Writing output to " ++ output
  | converting name => "Translating with --" ++ name
  | split chunks => "Split input into " ++ Text.ofNat chunks ++ " chunks"
  | chunkFailed index failure =>
    "Chunk " ++ Text.ofNat index ++ " failed: " ++ failure.message
  | runningPasses passes =>
    "Running passes: [" ++ Text.joinWith ", " (passes.map (·.flag.quoted)) ++ "]"

/-- The level is aligned to the right in five columns, and nothing in the message is left for a
terminal to obey. -/
def render (event : Event) : Text :=
  Text.spaces (5 - event.level.name.length) ++ event.level.name ++ [' ']
    ++ event.message.spellOut ++ ['\n']

end Event

end IrConvert

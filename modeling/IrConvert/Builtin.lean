import IrConvert.Ir.Operation.Llvm
import IrConvert.Ir.Operation.Mlir
import IrConvert.Ir.Operation.Read
import IrConvert.Registry
import IrConvert.Run
import IrConvert.Source

namespace IrConvert

/-- Reads a source into a module, and brings a module into the form of a target and writes it. What
it reads has passed a gate. -/
structure Host (Module : Type) where
  read : Text → Run Module
  write : Ir.Target → Module → Run Text

/-- Lets a source through or says why not. -/
def gate (source : Text) : Outcome Failure Unit :=
  if Source.isBlank source then .failed .noOperations
  else (Dialect.verify source).mapReason .undeclared

def Host.convert {Module : Type} (host : Host Module) (target : Ir.Target) (source : Text) :
    Run Text := do
  Run.ofOutcome (gate source)
  let module ← host.read source
  Run.emit (.runningPasses target.passes)
  host.write target module

namespace Ir

def write? (operations : List Operation) : Target → Option Text
  | .mlir => (Operation.module operations).mlir? 0
  | .llvmIr => (Operation.module operations).llvm?

def host : Host (List Operation) where
  read source := Run.ofOutcome ((Ir.read source).mapReason .unreadable)
  write target operations := Run.ofOutcome (Outcome.ofOption (write? operations target))

end Ir

namespace Builtin

def converter {Module : Type} (host : Host Module) : Ir.Target → Converter
  | .llvmIr =>
    { name := "mlir-to-llvmir"
      description := "Translate MLIR to LLVMIR"
      convert := host.convert .llvmIr }
  | .mlir =>
    { name := "mlir-to-mlir"
      description := "Parse MLIR and print it back (round trip)"
      convert := host.convert .mlir }

def converters {Module : Type} (host : Host Module) : List Converter :=
  [.llvmIr, .mlir].map (converter host)

end Builtin

inductive Registration where
  | one (converter : Converter)
  | builtins

namespace Registry

def apply (registry : Registry) : Registration → Registry × Option Refusal
  | .one converter => registry.registerEach [converter]
  | .builtins => registry.registerEach (Builtin.converters Ir.host)

/-- The registry after some steps, whether or not they were refused. -/
def after (registry : Registry) (steps : List Registration) : Registry :=
  steps.foldl (fun registry step => (registry.apply step).1) registry

/-- No registry is made of steps of which one was refused. -/
def unrefused : Registry × Option Refusal → Except Refusal Registry
  | (registry, none) => .ok registry
  | (_, some refusal) => .error refusal

def make (steps : List Registration) : Except Refusal Registry :=
  steps.foldlM (fun registry step => unrefused (registry.apply step)) empty

end Registry

end IrConvert

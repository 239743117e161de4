import IrConvert.Storage.Path
import IrConvert.Tool

namespace IrConvert.Console

/-- The console keeps the level from which on events are shown. -/
abbrev Session := StateT Level IO

/-- The fault for the number that the operating system gives to an error. Some calls give the
number negated. -/
def faultOf (number : UInt32) (description : String) : Storage.Fault :=
  match min number (0 - number) with
  | 2 => .notFound
  | 20 => .notADirectory
  | 21 => .isADirectory
  | 36 => .nameTooLong
  | _ => .other description.toList

def fault (error : IO.Error) : Storage.Fault :=
  match error with
  | .noFileOrDirectory _ number details => faultOf number details
  | .inappropriateType _ number details => faultOf number details
  | .invalidArgument _ number details => faultOf number details
  | other => .other other.toString.toList

def attempt {α : Type} (action : IO α) : Session (Except Storage.Fault α) := do
  match ← (action.toBaseIO : BaseIO _) with
  | .ok value => return .ok value
  | .error error => return .error (fault error)

/-- No path with a fault of its own reaches the operating system. -/
def attemptAt {α : Type} (path : Text) (action : String → IO α) :
    Session (Except Storage.Fault α) :=
  match Storage.Path.fault? path with
  | some fault => return .error fault
  | none => attempt (action (String.ofList path))

partial def readToEnd (stream : IO.FS.Stream) (start : ByteArray) : IO ByteArray := do
  let more ← stream.read 65536
  if more.isEmpty then return start else readToEnd stream (start ++ more)

def display (stream : IO.FS.Stream) (text : Text) : IO Unit := do
  stream.putStr (String.ofList text)
  stream.flush

instance : Surroundings Session where
  readStandard := attempt do readToEnd (← IO.getStdin) .empty
  readFile path := attemptAt path fun name => IO.FS.readBinFile name
  writeStandard text := attempt do display (← IO.getStdout) text
  writeFile path text := attemptAt path fun name => IO.FS.writeBinFile name text.encode
  writeError text := do display (← IO.getStderr) text
  showFrom level := set level
  emit event := do
    if event.level.shownAt (← get) then display (← IO.getStderr) event.render

end IrConvert.Console

def main (words : List String) : IO UInt32 := do
  let (exit, _) ←
    (IrConvert.Tool.run (words.map (·.toList)) : IrConvert.Console.Session _).run .info
  return exit.code.toUInt32

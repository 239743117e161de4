import IrConvert.CommandLine.Given
import IrConvert.Text.Basic

namespace IrConvert.CommandLine

inductive Word where
  /-- After this word every word is positional. -/
  | escape
  | long (name : Text) (value : Option Text)
  | short (letters : Text)
  | plain (text : Text)
deriving DecidableEq

namespace Word

/-- What stands after the first equals sign. -/
def attached? (text : Text) : Option Text := (text.dropWhile (· != '=')).tail?

/-- A dash alone is a plain word. -/
def ofText : Text → Word
  | ['-', '-'] => escape
  | '-' :: '-' :: rest => long (rest.takeWhile (· != '=')) (attached? rest)
  | ['-'] => plain ['-']
  | '-' :: letters => short letters
  | text => plain text

end Word

/-- An option with its value once that has come. It is entered only when the next known option or
positional word comes, or the end, so the error of a word between them comes before its own. -/
structure Pending where
  id : Text
  value : Option Text
deriving DecidableEq

structure Progress where
  given : Given
  pending : Option Pending
  escaped : Bool
deriving DecidableEq

namespace Progress

def start : Progress := ⟨.nothing, none, false⟩

def settle (progress : Progress) : Except UsageError Given :=
  match progress.pending with
  | none => .ok progress.given
  | some ⟨_, none⟩ => .error .missingValue
  | some ⟨id, some value⟩ => progress.given.addValue id value

def continueWith (progress : Progress) (given : Given) : Progress :=
  { progress with given, pending := none }

def enterFlag (progress : Progress) (id : Text) : Except UsageError Progress := do
  return progress.continueWith (← (← progress.settle).addFlag id)

def enterValue (progress : Progress) (id value : Text) : Except UsageError Progress := do
  return progress.continueWith (← (← progress.settle).addValue id value)

def await (progress : Progress) (id : Text) : Except UsageError Progress := do
  return { progress with given := ← progress.settle, pending := some ⟨id, none⟩ }

def leave (progress : Progress) (error : UsageError) : Except UsageError Progress := do
  let _ ← progress.settle
  .error error

def enter (progress : Progress) (argument : Argument) (value : Option Text) :
    Except UsageError Progress :=
  match argument.action, value with
  | .storeValue, some value => progress.enterValue argument.id value
  | .storeValue, none => progress.await argument.id
  | _, some _ => .error .unwantedValue
  | .raiseFlag, none => progress.enterFlag argument.id
  | .showHelp, none => progress.leave .helpAsked
  | .showVersion, none => progress.leave .versionAsked

def long (command : Command) (progress : Progress) (name : Text) (value : Option Text) :
    Except UsageError Progress :=
  match command.ofLong? name with
  | some argument => progress.enter argument value
  | none => .error .unknown

/-- What is left of a word is the value of an option in it; an equals sign before the value does
not belong to it. -/
def shortValue : Text → Option Text
  | [] => none
  | '=' :: value => some value
  | value => some value

/-- Letters stand for an argument each, up to one that takes a value. -/
def short (command : Command) (progress : Progress) : Text → Except UsageError Progress
  | [] => .ok progress
  | letter :: rest =>
    match command.ofShort? letter with
    | none => .error .unknown
    | some argument =>
      if argument.takesValue then progress.enter argument (shortValue rest)
      else do short command (← progress.enter argument none) rest

/-- A word for the first positional argument that has none yet. -/
def positional (command : Command) (progress : Progress) (text : Text) :
    Except UsageError Progress :=
  match command.positionals.find? fun argument => !progress.given.has argument.id with
  | some argument => progress.enterValue argument.id text
  | none => .error .unknown

/-- A plain word goes to an option that waits for its value. -/
def plain (command : Command) (progress : Progress) (text : Text) :
    Except UsageError Progress :=
  match progress.pending with
  | some ⟨id, none⟩ => .ok { progress with pending := some ⟨id, some text⟩ }
  | _ => progress.positional command text

def step (command : Command) (progress : Progress) (text : Text) :
    Except UsageError Progress :=
  if progress.escaped then progress.positional command text
  else match Word.ofText text with
    | .escape => .ok { progress with escaped := true }
    | .long name value => progress.long command name value
    | .short letters => progress.short command letters
    | .plain text => progress.plain command text

end Progress

namespace Command

def readWords (command : Command) (words : List Text) : Except UsageError Given := do
  let progress ← words.foldlM (Progress.step command) .start
  progress.settle

/-- The first word is the name of the program, whatever it is. -/
def read (command : Command) (arguments : List Text) : Except UsageError Given := do
  let given ← command.readWords arguments.tail
  match command.groupError? given with
  | some error => .error error
  | none => return given

end Command

end IrConvert.CommandLine

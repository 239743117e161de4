import IrConvert.Text.Basic

namespace IrConvert.CommandLine

inductive Action where
  | raiseFlag
  | storeValue
  | showHelp
  | showVersion
deriving DecidableEq

/-- An argument with neither a long nor a short name is positional. -/
structure Argument where
  id : Text
  long : Option Text
  short : Option Char
  help : Text
  action : Action
  required : Bool
  defaults : List Text
deriving DecidableEq

namespace Argument

def flag (id long help : Text) : Argument :=
  { id, long, short := none, help, action := .raiseFlag, required := false, defaults := [] }

def isPositional (argument : Argument) : Bool := argument.long.isNone && argument.short.isNone

def takesValue (argument : Argument) : Bool := argument.action == .storeValue

def helpFlag : Argument :=
  { id := "help", long := some "help", short := some 'h', help := "Print help"
    action := .showHelp, required := false, defaults := [] }

def versionFlag : Argument :=
  { id := "version", long := some "version", short := some 'V', help := "Print version"
    action := .showVersion, required := false, defaults := [] }

end Argument

/-- Of a required group at least one argument has to be given, of an exclusive one at most
one. -/
structure Group where
  id : Text
  members : List Text
  required : Bool
  exclusive : Bool
deriving DecidableEq

structure Command where
  name : Text
  about : Text
  version : Text
  arguments : List Argument
  groups : List Group
deriving DecidableEq

namespace Command

/-- Every command can be asked for its help text and its version. -/
def allArguments (command : Command) : List Argument :=
  command.arguments ++ [Argument.helpFlag, Argument.versionFlag]

/-- The ids of the arguments and of the groups. -/
def ids (command : Command) : List Text :=
  command.allArguments.map (·.id) ++ command.groups.map (·.id)

def positionals (command : Command) : List Argument :=
  command.arguments.filter (·.isPositional)

def ofLong? (command : Command) (name : Text) : Option Argument :=
  command.allArguments.find? (·.long == some name)

def ofShort? (command : Command) (letter : Char) : Option Argument :=
  command.allArguments.find? (·.short == some letter)

/-- The same command without demands on its groups. -/
def relaxed (command : Command) : Command :=
  { command with
    groups := command.groups.map ({ · with required := false, exclusive := false }) }

end Command

end IrConvert.CommandLine

import IrConvert.CommandLine.Command
import IrConvert.Text.Basic
import IrConvert.Text.Lines
import IrConvert.Text.Terminal

namespace IrConvert.CommandLine

/-- A description starts a new row where an `n` stands in braces. -/
def breakRows : Text → Text
  | '\x7b' :: 'n' :: '\x7d' :: rest => '\n' :: breakRows rest
  | c :: rest => c :: breakRows rest
  | [] => []

/-- Moves every row but the first to a column. -/
def hang (column : Nat) (text : Text) : Text :=
  text.flatMap fun c => if c = '\n' then '\n' :: Text.spaces column else [c]

namespace Argument

/-- The name of a value is the id in capitals. -/
def valueName (argument : Argument) : Text := argument.id.map Char.toUpper

def shortLabel (argument : Argument) : Text :=
  match argument.short with
  | some letter => Text.strong ['-', letter] ++ ", "
  | none => Text.spaces 4

def longLabel (argument : Argument) : Text :=
  match argument.long with
  | some name => Text.strong ("--" ++ name)
  | none => []

def valueLabel (argument : Argument) : Text :=
  if argument.takesValue then " <" ++ argument.valueName ++ ">" else []

def label (argument : Argument) : Text :=
  if argument.isPositional then "[" ++ argument.valueName ++ "]"
  else argument.shortLabel ++ argument.longLabel ++ argument.valueLabel

def labelWidth (argument : Argument) : Nat := argument.label.plain.width

def defaultNote (argument : Argument) : Text :=
  if argument.defaults.isEmpty then []
  else "[default: " ++ Text.joinWith [' '] argument.defaults ++ "]"

def description (argument : Argument) : Text :=
  Text.joinWith [' '] ([breakRows argument.help, argument.defaultNote].filter (!·.isEmpty))

def plainHelp (argument : Argument) : Text := argument.help.plain

/-- The description stands two columns to the right of the widest label. -/
def row (width : Nat) (argument : Argument) : Text :=
  Text.spaces 2 ++ argument.label ++ Text.spaces (width + 2 - argument.labelWidth)
    ++ hang (width + 4) argument.description

def rows (arguments : List Argument) : List Text :=
  let width := (arguments.map (·.labelWidth)).foldl max 0
  arguments.map (row width)

end Argument

namespace Command

def usageGroups (command : Command) : Text :=
  (command.groups.filter (·.required)).flatMap fun group =>
    "<" ++ Text.joinWith ['|'] (group.members.map fun name => Text.plain ("--" ++ name)) ++ "> "

def usage (command : Command) : Text :=
  Text.heading "Usage:" ++ [' '] ++ Text.strong command.name ++ " [OPTIONS] "
    ++ command.usageGroups ++ Text.joinWith [' '] (command.positionals.map (·.label))

/-- The same text without its first row if that is blank. -/
def withoutBlankStart (text : Text) : Text :=
  match text.rows with
  | first :: second :: others =>
    if first.trim.isEmpty then Text.joinRows (second :: others) else text
  | _ => text

def styledHelpText (command : Command) : Text :=
  withoutBlankStart <| Text.closeRows
    ([breakRows command.about, [], command.usage, [], Text.heading "Arguments:"]
      ++ Argument.rows command.positionals
      ++ [[], Text.heading "Options:"]
      ++ Argument.rows (command.allArguments.filter (!·.isPositional)))

def helpText (command : Command) : Text := command.styledHelpText.plain

def versionText (command : Command) : Text := command.name ++ [' '] ++ command.version ++ ['\n']

end Command

end IrConvert.CommandLine

import IrConvert.Builtin
import IrConvert.CommandLine.Reading
import IrConvert.Conversion
import IrConvert.Failure

namespace IrConvert

open CommandLine

/-- No use can be made of a command in which an id stands for two things. -/
def CommandLine.Command.checked (command : Command) : Except Stop Command :=
  if command.ids.Nodup then .ok command else .error .crash

def standardWord : Text := ['-']

namespace Options

def inputArgument : Argument :=
  { id := "input", long := none, short := none
    help := "The input file (- is interpreted as stdin)"
    action := .storeValue, required := false, defaults := [standardWord] }

def outputArgument : Argument :=
  { id := "output", long := some "output", short := some 'o'
    help := "The output file (- is interpreted as stdout)"
    action := .storeValue, required := false, defaults := [standardWord] }

def splitArgument : Argument :=
  .flag "split_input_file" "split-input-file"
    "Split the input on `// -----` and translate each chunk separately"

def debugArgument : Argument := .flag "debug" "debug" "Print debug information"

def arguments : List Argument := [inputArgument, outputArgument, splitArgument, debugArgument]

/-- The options that every tool has are a group of their own, without demands. -/
def group : Group :=
  { id := "TranslateArgs", members := arguments.map (·.id), required := false, exclusive := false }

end Options

namespace Registry

def arguments (registry : Registry) : List Argument :=
  registry.converters.map fun converter =>
    .flag converter.name converter.name converter.description

def group (registry : Registry) : Group :=
  { id := "translation", members := registry.names, required := true, exclusive := true }

def groups (registry : Registry) : List Group :=
  if registry.isEmpty then [] else [registry.group]

def command (registry : Registry) (about : Text) : Command :=
  { name := "graphblas-translate"
    about
    version := "0.1.0"
    arguments := registry.arguments ++ Options.arguments
    groups := registry.groups ++ [Options.group] }

/-- The options that a command line gives. Which converter is asked for is decided by the
registry, whatever the command line has made sure of. -/
def options (registry : Registry) (given : Given) : Except Failure Options :=
  match registry.names.filter given.flags.contains with
  | [] => .error .noneSelected
  | [name] => .ok
    { converter := name
      input := (given.value? Options.inputArgument.id).getD standardWord
      output := (given.value? Options.outputArgument.id).getD standardWord
      splitInput := given.flags.contains Options.splitArgument.id
      debug := given.flags.contains Options.debugArgument.id }
  | names => .error (.severalSelected names)

def optionsOf (registry : Registry) (command : Command) (arguments : List Text) :
    Except Stop Options := do
  let command ← command.checked
  match command.read arguments with
  | .error error => .error (.usage error)
  | .ok given =>
    match registry.options given with
    | .error failure => .error (.failure failure)
    | .ok options => .ok options

def readOptions (registry : Registry) (arguments : List Text) : Except Stop Options :=
  registry.optionsOf (registry.command []) arguments

end Registry

end IrConvert

import IrConvert.CommandLine.Command

namespace IrConvert.CommandLine

/-- Why a command line is not run. To ask for the help text or the version is one reason. -/
inductive UsageError where
  | helpAsked
  | versionAsked
  | unknown
  /-- Something is given twice, or two arguments exclude each other. -/
  | conflict
  /-- A flag has a value. -/
  | unwantedValue
  | missingValue
  | missingRequired
deriving DecidableEq

/-- The flags that are raised and the values of the other arguments, by id. -/
structure Given where
  flags : List Text
  values : List (Text × Text)
deriving DecidableEq

namespace Given

def nothing : Given := ⟨[], []⟩

def has (given : Given) (id : Text) : Bool :=
  given.flags.contains id || given.values.any (·.1 == id)

def value? (given : Given) (id : Text) : Option Text := given.values.lookup id

def addFlag (given : Given) (id : Text) : Except UsageError Given :=
  if given.has id then .error .conflict
  else .ok { given with flags := given.flags ++ [id] }

def addValue (given : Given) (id value : Text) : Except UsageError Given :=
  if given.has id then .error .conflict
  else .ok { given with values := given.values ++ [(id, value)] }

end Given

namespace Group

def present (group : Group) (given : Given) : List Text := group.members.filter given.has

def exclusiveError? (group : Group) (given : Given) : Option UsageError :=
  if group.exclusive && 1 < (group.present given).length then some .conflict else none

def requiredError? (group : Group) (given : Given) : Option UsageError :=
  if group.required && (group.present given).isEmpty then some .missingRequired else none

end Group

/-- All groups are asked whether too much is given before any is asked whether too little is. -/
def Command.groupError? (command : Command) (given : Given) : Option UsageError :=
  command.groups.findSome? (·.exclusiveError? given)
    <|> command.groups.findSome? (·.requiredError? given)

end IrConvert.CommandLine

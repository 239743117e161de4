import IrConvert.Storage.Path
import IrConvert.Storage.Store

namespace IrConvert.Storage

inductive Node where
  | file (content : ByteArray)
  | directory

/-- Everything in a directory and the directories below it, by the names that lead there. -/
structure Directory where
  entries : List (List Text × Node)

namespace Directory

def empty : Directory := ⟨[]⟩

/-- Of what lies outside, only the directories above and the root are known. -/
def isAbove (names : List Text) : Bool := names == [Path.root] || names.all (· == Path.parent)

def node? (directory : Directory) (names : List Text) : Option Node :=
  if isAbove names then some .directory else directory.entries.lookup names

def moved (names : List Text) (name : Text) : List Text :=
  if name == [] || name == ['.'] then names
  else if name == Path.parent then
    if names == [Path.root] then names
    else if isAbove names then names ++ [Path.parent]
    else names.dropLast
  else names ++ [name]

/-- A name is only looked at in a directory, so a name that is too long is no fault elsewhere. -/
def enter (directory : Directory) (names : List Text) (name : Text) :
    Except Fault (List Text) :=
  match directory.node? names with
  | none => .error .notFound
  | some (.file _) => .error .notADirectory
  | some .directory =>
    if Path.nameTooLong name then .error .nameTooLong else .ok (moved names name)

def walk (directory : Directory) (start names : List Text) : Except Fault (List Text) :=
  names.foldlM directory.enter start

def read (directory : Directory) (path : Text) : Except Fault ByteArray := do
  let names ← directory.walk (Path.start path) (← Path.names path)
  match directory.node? names with
  | none => .error .notFound
  | some .directory => .error .isADirectory
  | some (.file content) => .ok content

def put (directory : Directory) (names : List Text) (node : Node) : Directory :=
  ⟨(names, node) :: directory.entries.filter (·.1 != names)⟩

/-- The place of a file that is to be written. There may be none yet, but the directory that it
goes into has to be there. -/
def target (directory : Directory) (path : Text) : Except Fault (List Text) := do
  let names ← Path.names path
  let above ← directory.walk (Path.start path) (Path.withoutSlashes names).dropLast
  let within ← directory.enter above []
  if Path.namesADirectory names then .error .isADirectory
  else directory.enter within (names.getLastD [])

def write (directory : Directory) (path : Text) (content : ByteArray) :
    Except Fault Directory := do
  let names ← directory.target path
  match directory.node? names with
  | some .directory => .error .isADirectory
  | _ => .ok (directory.put names (.file content))

instance : Store Directory := ⟨read, write⟩

end Directory

end IrConvert.Storage

import IrConvert.Storage.Store
import IrConvert.Text.Lines
import IrConvert.Text.Utf8

namespace IrConvert.Storage.Path

def root : Text := ['/']

def parent : Text := ['.', '.']

def limit : Nat := 4095

def nameLimit : Nat := 255

def nameTooLong (name : Text) : Bool := nameLimit < name.byteCount

/-- What is wrong with a path whatever it is to lead to. An empty path leads nowhere. -/
def fault? (path : Text) : Option Fault :=
  if path.contains '\x00' then some .nulInName
  else if path.isEmpty then some .notFound
  else if limit < path.byteCount then some .nameTooLong
  else none

/-- The names in a path, which may be empty. -/
def names (path : Text) : Except Fault (List Text) :=
  match fault? path with
  | some fault => .error fault
  | none => .ok (Text.cutAt '/' path)

def start (path : Text) : List Text := if path.head? == some '/' then [root] else []

/-- A path that ends in a slash or in dots can only name a directory. -/
def namesADirectory (names : List Text) : Bool :=
  names.getLast?.any fun name => name == [] || name == ['.'] || name == parent

def withoutSlashes (names : List Text) : List Text := (names.reverse.dropWhile (·.isEmpty)).reverse

end IrConvert.Storage.Path

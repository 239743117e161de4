import IrConvert.Text.Basic

namespace IrConvert.Storage

inductive Fault where
  | notFound
  | notADirectory
  | isADirectory
  | nameTooLong
  | nulInName
  | notUtf8
  | other (description : Text)
deriving DecidableEq

def Fault.message : Fault → Text
  | notFound => "No such file or directory (os error 2)"
  | notADirectory => "Not a directory (os error 20)"
  | isADirectory => "Is a directory (os error 21)"
  | nameTooLong => "File name too long (os error 36)"
  | nulInName => "file name contained an unexpected NUL byte"
  | notUtf8 => "stream did not contain valid UTF-8"
  | other description => description

inductive Endpoint where
  | standard
  | file (path : Text)
deriving DecidableEq

/-- On the command line `-` is the standard stream and any other word is a path. -/
def Endpoint.ofWord (word : Text) : Endpoint := if word = ['-'] then standard else file word

/-- Files with their contents, under paths. A file that is written is made or replaced. -/
class Store (σ : Type) where
  read : σ → Text → Except Fault ByteArray
  write : σ → Text → ByteArray → Except Fault σ

end IrConvert.Storage

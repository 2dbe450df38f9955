import CallForms.Disk.Path
import CallForms.Source.Lexer
import CallForms.Text.Utf8

namespace CallForms

namespace Disk

inductive Obstacle where
  | notFound
  | notDirectory
  | isDirectory
  | nameTooLong
  | nulCharacter
  deriving DecidableEq, Repr

inductive Entry where
  | file (octets : List UInt8)
  | directory
  deriving DecidableEq, Repr

inductive Fault where
  | barred (obstacle : Obstacle) (path : Path)
  | undecodable (fault : Text.Utf8.Fault)
  deriving DecidableEq, Repr

def Fault.message : Fault → String
  | .barred .notFound path => s!"[Errno 2] No such file or directory: {Text.quote path.text}"
  | .barred .notDirectory path => s!"[Errno 20] Not a directory: {Text.quote path.text}"
  | .barred .isDirectory path => s!"[Errno 21] Is a directory: {Text.quote path.text}"
  | .barred .nameTooLong path => s!"[Errno 36] File name too long: {Text.quote path.text}"
  | .barred .nulCharacter _ => "embedded null byte"
  | .undecodable fault => fault.message

end Disk

structure Disk where
  entry : Path → Except Disk.Obstacle Disk.Entry
  saving : Path → Option Disk.Obstacle

namespace Disk

def has (disk : Disk) (path : Path) : Except Fault Bool :=
  match disk.entry path with
  | .ok _ => .ok true
  | .error .nameTooLong => .error (.barred .nameTooLong path)
  | .error _ => .ok false

def textOf (octets : List UInt8) : Except Fault String :=
  match Text.Utf8.decode octets with
  | .ok text => .ok (String.ofList (Text.unifyLineEnds text.toList))
  | .error fault => .error (.undecodable fault)

def read (disk : Disk) (path : Path) : Except Fault String :=
  match disk.entry path with
  | .ok (.file octets) => textOf octets
  | .ok .directory => .error (.barred .isDirectory path)
  | .error obstacle => .error (.barred obstacle path)

end Disk

end CallForms

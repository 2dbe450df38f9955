import CallForms.Disk.Basic

namespace CallForms

inductive Place where
  | near (up : Nat) (names : List String)
  | far (names : List String)
  deriving DecidableEq, Repr

namespace Place

def ofRoot (root : String) : Place :=
  if root = "" then .near 0 [] else .far []

def step (name : String) : Place → Place
  | .near up names =>
    if name ≠ ".." then .near up (names ++ [name])
    else if names = [] then .near (up + 1) []
    else .near up names.dropLast
  | .far names => if name ≠ ".." then .far (names ++ [name]) else .far names.dropLast

end Place

structure Folder where
  entries : List (Place × Disk.Entry)

namespace Folder

def empty : Folder :=
  ⟨[]⟩

def system : List (List String × Disk.Entry) :=
  (["bin", "dev", "etc", "home", "lib", "opt", "proc", "root", "sbin", "sys", "tmp", "usr",
    "var"].map fun name => ([name], .directory)) ++ [(["dev", "null"], .file [])]

def at? (folder : Folder) (place : Place) : Option Disk.Entry :=
  match place with
  | .near _ [] => some .directory
  | .far [] => some .directory
  | .near _ _ => folder.entries.lookup place
  | .far names => system.lookup names

def around : Place → List Place
  | .near up names => (List.range names.length).map fun depth => .near up (names.take depth)
  | .far names => (List.range names.length).map fun depth => .far (names.take depth)

def insert (folder : Folder) (path : Path) (entry : Disk.Entry) : Folder :=
  let place := path.names.foldl (fun place name => place.step name) (.ofRoot path.root)
  ⟨(place, entry) :: (around place).map (·, .directory) ++ folder.entries⟩

def nameLimit : Nat :=
  255

def pathLimit : Nat :=
  4095

def follow (folder : Folder) : Place → List String → Except Disk.Obstacle Place
  | place, [] => .ok place
  | place, name :: rest =>
    match folder.at? place with
    | none => .error .notFound
    | some (.file _) => .error .notDirectory
    | some .directory =>
      if nameLimit < name.utf8ByteSize then .error .nameTooLong
      else folder.follow (place.step name) rest

def locate (folder : Folder) (path : Path) : Except Disk.Obstacle Place :=
  if path.text.toList.contains (Char.ofNat 0) then .error .nulCharacter
  else if pathLimit < path.text.utf8ByteSize then .error .nameTooLong
  else folder.follow (.ofRoot path.root) path.names

def disk (folder : Folder) : Disk where
  entry path := do
    let place ← folder.locate path
    match folder.at? place with
    | some entry => return entry
    | none => .error .notFound
  saving path :=
    match folder.locate path with
    | .error obstacle => some obstacle
    | .ok place => if folder.at? place = some .directory then some .isDirectory else none

def changed? (folder : Folder) (path : Path) (octets : List UInt8) : Option (List String) :=
  match folder.locate path with
  | .ok (.near 0 names) =>
    if folder.at? (.near 0 names) = some (.file octets) then none else some names
  | _ => none

end Folder

end CallForms

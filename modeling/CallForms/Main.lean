import CallForms.Allowance
import CallForms.CommandLine.Command
import CallForms.Disk.Observed

namespace CallForms.CommandLine

def Command.paths : Command → List Path
  | .compile file expr output =>
    let saved := (output.map Path.ofString).toList
    let read := if expr.isSome then [] else (file.map Path.ofString).toList
    read ++ saved ++ saved.map Path.parent
  | .dump file _ => [.ofString file]
  | .check files _ => files.map .ofString

def look (path : Path) : IO (Except Disk.Obstacle Disk.Entry) := do
  if path.text.toList.contains (Char.ofNat 0) then return .error .nulCharacter
  try
    return .ok (.file (← IO.FS.readBinFile path.text).toList)
  catch
    | .noFileOrDirectory .. => return .error .notFound
    | .inappropriateType _ 21 _ => return .ok .directory
    | .inappropriateType .. => return .error .notDirectory
    | .invalidArgument .. => return .error .nameTooLong
    | other => throw other

def observe (arguments : List String) : IO Disk := do
  match Command.ofArguments arguments with
  | .error _ => return .observed []
  | .ok command => return .observed (← command.paths.mapM fun path => return (path, ← look path))

end CallForms.CommandLine

open CallForms in
def main (arguments : List String) : IO UInt32 := do
  let outcome := CommandLine.run Allowance.usual.room (← CommandLine.observe arguments) arguments
  if let some (path, content) := outcome.saved then IO.FS.writeFile path.text content
  IO.print outcome.stdout
  IO.eprint outcome.stderr
  match outcome.exit with
  | .ok code => return code.toUInt32
  | .error fault =>
    IO.eprintln fault.message
    return 1

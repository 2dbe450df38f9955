import CallForms.CommandLine.Usage
import CallForms.Compilation
import CallForms.Diagnostic.Collection
import CallForms.Disk.Basic
import CallForms.Json.Printer

namespace CallForms.CommandLine

inductive Stage where
  | tokens
  | source
  | target
  deriving DecidableEq, Repr

inductive Command where
  | compile (file : Option String) (expr : Option String) (output : Option String)
  | dump (file : String) (stage : Stage)
  | check (files : List String) (json : Bool)
  deriving DecidableEq, Repr

structure Outcome where
  exit : Except Disk.Fault Nat
  stdout : String := ""
  stderr : String := ""
  saved : Option (Path × String) := none

namespace Outcome

def fault (f : Disk.Fault) : Outcome :=
  ⟨.error f, "", "", none⟩

def print (line : String) : Outcome :=
  ⟨.ok 0, line ++ "\n", "", none⟩

def fail (line : String) : Outcome :=
  ⟨.ok 1, "", line ++ "\n", none⟩

end Outcome

inductive Fetched where
  | missing (path : Path)
  | fault (fault : Disk.Fault)
  | source (source : Source)

def fetch (disk : Disk) (file : String) : Fetched :=
  let path := Path.ofString file
  match disk.has path with
  | .error f => .fault f
  | .ok false => .missing path
  | .ok true =>
    match disk.read path with
    | .error f => .fault f
    | .ok text => .source ⟨text, some file⟩

def missingLine (path : Path) : String :=
  s!"Error: File not found: {path.text}"

def withSource (disk : Disk) (file : String) (next : Source → Outcome) : Outcome :=
  match fetch disk file with
  | .missing path => .fail (missingLine path)
  | .fault f => .fault f
  | .source s => next s

def deliver (disk : Disk) (output : Option String) (code : String) : Outcome :=
  match output.filter (· ≠ "") with
  | none => .print code
  | some name =>
    let path := Path.ofString name
    match disk.saving path with
    | some obstacle => .fault (.barred obstacle path)
    | none => ⟨.ok 0, s!"Compiled to: {name}\n", "", some (path, code ++ "\n")⟩

def compileSource (room : Nat) (disk : Disk) (output : Option String) (s : Source) : Outcome :=
  match s.compile room with
  | .ok code => deliver disk output code
  | .error f => .fail f.diagnostic.format

def runCompile (room : Nat) (disk : Disk) (file expr output : Option String) : Outcome :=
  match expr, file with
  | some text, _ => compileSource room disk output ⟨text, some "<expr>"⟩
  | none, some file => withSource disk file (compileSource room disk output)
  | none, none => .fail "Error: give a FILE or -e SOURCE"

def Stage.json (c : Compilation) : Stage → Json
  | .tokens => .array (c.tokens.map Token.toJson)
  | .source => c.program.toTree.toJson
  | .target => c.target.toJson

def runDump (room : Nat) (disk : Disk) (file : String) (stage : Stage) : Outcome :=
  withSource disk file fun s =>
    match s.stages room with
    | .ok c => .print (stage.json c).pretty
    | .error f => .fail f.diagnostic.format

structure Findings where
  diagnostics : List Diagnostic := []
  missing : List Path := []

namespace Findings

def missingText (found : Findings) : String :=
  block (found.missing.map missingLine)

def addDiagnostic (found : Findings) (d : Diagnostic) : Findings :=
  ⟨found.diagnostics ++ [d], found.missing⟩

def addMissing (found : Findings) (path : Path) : Findings :=
  ⟨found.diagnostics, found.missing ++ [path]⟩

end Findings

def survey (room : Nat) (disk : Disk) (found : Findings) :
    List String → Except (Disk.Fault × Findings) Findings
  | [] => .ok found
  | file :: rest =>
    match fetch disk file with
    | .missing path => survey room disk (found.addMissing path) rest
    | .fault f => .error (f, found)
    | .source s =>
      match s.compile room with
      | .ok _ => survey room disk found rest
      | .error f => survey room disk (found.addDiagnostic f.diagnostic) rest

def report (count : Nat) (json : Bool) (found : Findings) : Outcome :=
  let errors := Diagnostic.errorCount found.diagnostics
  let exit := .ok (if errors = 0 ∧ found.missing = [] then 0 else 1)
  if json then
    ⟨exit, (Diagnostic.collectionJson found.diagnostics).pretty ++ "\n", found.missingText, none⟩
  else if errors = 0 then
    ⟨exit, s!"OK: {count - found.missing.length} file(s), no errors\n", found.missingText, none⟩
  else
    ⟨exit, "", found.missingText ++ Diagnostic.formatAll found.diagnostics ++ "\n", none⟩

def runCheck (room : Nat) (disk : Disk) (files : List String) (json : Bool) : Outcome :=
  match survey room disk {} files with
  | .ok found => report files.length json found
  | .error (f, found) => ⟨.error f, "", found.missingText, none⟩

def Command.run (room : Nat) (disk : Disk) : Command → Outcome
  | .compile file expr output => runCompile room disk file expr output
  | .dump file stage => runDump room disk file stage
  | .check files json => runCheck room disk files json

def Stage.ofName : Option String → Stage
  | some "tokens" => .tokens
  | some "ast" => .source
  | _ => .target

def Command.ofWord? (word : String) (arguments : List String) :
    Except Refusal (Option (Command × List String)) := do
  if word = "compile" then
    let f ← compileGrammar.parse arguments
    return some (.compile (f.operand.bind List.head?) (f.value? "-e") (f.value? "-o"), f.extras)
  else if word = "dump" then
    let f ← dumpGrammar.parse arguments
    return ((f.operand.bind List.head?).map
      fun file => (.dump file (.ofName (f.value? "-s")), f.extras))
  else if word = "check" then
    let f ← checkGrammar.parse arguments
    return some (.check (f.operand.getD []) (f.has "--json"), f.extras)
  else return none

def Command.ofArguments (arguments : List String) : Except Refusal Command := do
  let top ← topGrammar.parse arguments
  let required := topGrammar.refuse "the following arguments are required: action"
  match top.operand with
  | some (word :: rest) =>
    match ← Command.ofWord? word rest with
    | some (command, extras) =>
      match top.extras ++ extras with
      | [] => return command
      | left => .error (topGrammar.refuse ("unrecognized arguments: " ++ " ".intercalate left))
    | none => .error required
  | _ => .error required

def run (room : Nat) (disk : Disk) (arguments : List String) : Outcome :=
  match Command.ofArguments arguments with
  | .ok command => command.run room disk
  | .error (.help text) => ⟨.ok 0, text, "", none⟩
  | .error (.error text) => ⟨.ok 2, "", text, none⟩

-- Compiling a file takes a frame of its own beside those of compiling its text.
def compileFile (room : Nat) (disk : Disk) (file : String) :
    Except Disk.Fault (Except Fault String) := do
  let path := Path.ofString file
  let text ← disk.read path
  return (Source.mk text (some path.text)).compile (room - 1)

end CallForms.CommandLine

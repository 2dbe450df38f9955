import CallForms.CommandLine.Grammar

namespace CallForms.CommandLine

def block (lines : List String) : String :=
  String.join (lines.map (· ++ "\n"))

def program : String :=
  "python -m sexpc"

def helpSwitch : Switch :=
  ⟨["-h", "--help"], .help⟩

def stageNames : List String :=
  ["tokens", "ast", "cast"]

def actionNames : List String :=
  ["compile", "dump", "check"]

def topUsage : String :=
  block ["usage: python -m sexpc [-h] \x7bcompile,dump,check\x7d ..."]

def compileUsage : String :=
  block ["usage: python -m sexpc compile [-h] [-e SOURCE] [-o FILE] [file]"]

def dumpUsage : String :=
  block ["usage: python -m sexpc dump [-h] [-s \x7btokens,ast,cast\x7d] file"]

def checkUsage : String :=
  block ["usage: python -m sexpc check [-h] [--json] FILE [FILE ...]"]

def topGrammar : Grammar where
  program := program
  switches := [helpSwitch]
  operand := "action"
  arity := .word actionNames
  usage := topUsage
  help := topUsage ++ block [
    "",
    "Compile S-expression calls to C-style calls",
    "",
    "positional arguments:",
    "  \x7bcompile,dump,check\x7d",
    "    compile             Compile a file or expression",
    "    dump                Print an intermediate stage as JSON",
    "    check               Check source files for errors",
    "",
    "options:",
    "  -h, --help            show this help message and exit"]

def compileGrammar : Grammar where
  program := program ++ " compile"
  switches := [helpSwitch, ⟨["-e", "--expr"], .take none⟩, ⟨["-o", "--output"], .take none⟩]
  operand := "file"
  arity := .optional
  usage := compileUsage
  help := compileUsage ++ block [
    "",
    "positional arguments:",
    "  file                  Source file",
    "",
    "options:",
    "  -h, --help            show this help message and exit",
    "  -e SOURCE, --expr SOURCE",
    "                        Compile SOURCE instead of a file",
    "  -o FILE, --output FILE",
    "                        Write the generated code to FILE"]

def dumpGrammar : Grammar where
  program := program ++ " dump"
  switches := [helpSwitch, ⟨["-s", "--stage"], .take (some stageNames)⟩]
  operand := "file"
  arity := .one
  usage := dumpUsage
  help := dumpUsage ++ block [
    "",
    "positional arguments:",
    "  file                  Source file",
    "",
    "options:",
    "  -h, --help            show this help message and exit",
    "  -s \x7btokens,ast,cast\x7d, --stage \x7btokens,ast,cast\x7d",
    "                        Stage to print (default: cast)"]

def checkGrammar : Grammar where
  program := program ++ " check"
  switches := [helpSwitch, ⟨["--json"], .turnOn⟩]
  operand := "FILE"
  arity := .many
  usage := checkUsage
  help := checkUsage ++ block [
    "",
    "positional arguments:",
    "  FILE        Source files",
    "",
    "options:",
    "  -h, --help  show this help message and exit",
    "  --json      Print diagnostics as JSON"]

end CallForms.CommandLine

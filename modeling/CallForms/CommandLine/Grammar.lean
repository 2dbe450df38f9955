import CallForms.Text.DecimalDigit
import CallForms.Text.Quoted

namespace CallForms.CommandLine

inductive Effect where
  | help
  | turnOn
  | take (choices : Option (List String))
  deriving DecidableEq, Repr

structure Switch where
  names : List String
  effect : Effect
  deriving DecidableEq, Repr

inductive Arity where
  | one
  | optional
  | many
  | word (choices : List String)
  deriving DecidableEq, Repr

structure Grammar where
  program : String
  switches : List Switch
  operand : String
  arity : Arity
  usage : String
  help : String

inductive Refusal where
  | help (text : String)
  | error (text : String)
  deriving DecidableEq, Repr

inductive Reading where
  | dashes
  | value
  | unknown
  | switch (switch : Switch) (short : Bool) (attached : Option (List Char))
  deriving DecidableEq, Repr

structure Found where
  switches : List (Switch × List String) := []
  operand : Option (List String) := none
  extras : List String := []
  deriving DecidableEq, Repr

def words (arguments : List String) : List String :=
  arguments.erase "--"

namespace Switch

def title (s : Switch) : String :=
  "/".intercalate s.names

def takesValue (s : Switch) : Bool :=
  match s.effect with
  | .take _ => true
  | _ => false

end Switch

def quotedList (words : List String) : String :=
  ", ".intercalate (words.map Text.quote)

def invalidChoice (value : String) (choices : List String) : String :=
  s!"invalid choice: {Text.quote value} (choose from {quotedList choices})"

def isNegativeNumber (argument : List Char) : Bool :=
  match argument with
  | '-' :: rest =>
    let digits := rest.takeWhile Text.isDecimalDigit
    match rest.dropWhile Text.isDecimalDigit with
    | '.' :: fraction =>
      let behind := fraction.dropWhile Text.isDecimalDigit
      fraction.head?.any Text.isDecimalDigit && (behind == [] || behind == ['\n'])
    | behind => digits != [] && (behind == [] || behind == ['\n'])
  | _ => false

namespace Grammar

def named (g : Grammar) : List (String × Switch) :=
  g.switches.flatMap fun s => s.names.map (·, s)

def lookup (g : Grammar) (name : List Char) : Option Switch :=
  g.named.lookup (String.ofList name)

def splitSign (argument : List Char) : List Char × Option (List Char) :=
  match argument.dropWhile (· ≠ '=') with
  | _ :: behind => (argument.takeWhile (· ≠ '='), some behind)
  | [] => (argument, none)

def refuse (g : Grammar) (message : String) : Refusal :=
  .error (g.usage ++ s!"{g.program}: error: {message}\n")

def refuseSwitch (g : Grammar) (s : Switch) (message : String) : Refusal :=
  g.refuse s!"argument {s.title}: {message}"

def refuseValue (g : Grammar) (s : Switch) (value : String) : Refusal :=
  g.refuseSwitch s s!"ignored explicit argument {Text.quote value}"

def readLong (g : Grammar) (argument : List Char) : Except Refusal Reading :=
  let (start, attached) := splitSign argument
  match g.named.filter fun (name, _) => start.isPrefixOf name.toList with
  | [] => .ok .unknown
  | [(_, s)] => .ok (.switch s false attached)
  | several =>
    let names := ", ".intercalate (several.map (·.1))
    .error (g.refuse s!"ambiguous option: {String.ofList argument} could match {names}")

def readUnknown (argument : List Char) : Reading :=
  if isNegativeNumber argument || argument.contains ' ' then .value else .unknown

def read (g : Grammar) (argument : List Char) : Except Refusal Reading :=
  match argument with
  | '-' :: second :: rest =>
    let short := second ≠ '-'
    match g.lookup argument with
    | some s => .ok (.switch s short none)
    | none =>
      let (name, attached) := splitSign argument
      match attached.bind fun _ => g.lookup name with
      | some s => .ok (.switch s short attached)
      | none =>
        if short then
          match g.lookup ['-', second] with
          | some s => .ok (.switch s true (some rest))
          | none => .ok (readUnknown argument)
        else
          match g.readLong argument with
          | .ok .unknown => .ok (readUnknown argument)
          | other => other
  | _ => .ok .value

def readAll (g : Grammar) : List String → Except Refusal (List (String × Reading))
  | [] => .ok []
  | argument :: rest =>
    if argument = "--" then .ok ((argument, .dashes) :: rest.map (·, .value))
    else do
      let reading ← g.read argument.toList
      let later ← g.readAll rest
      return (argument, reading) :: later

structure Bundle where
  switches : List (Switch × List String)
  usesNext : Bool := false

def Bundle.add (b : Bundle) (s : Switch) : Bundle :=
  ⟨(s, []) :: b.switches, b.usesNext⟩

def bare (g : Grammar) (s : Switch) (next : Option (String × Reading)) : Except Refusal Bundle :=
  match s.takesValue, next with
  | false, _ => .ok ⟨[(s, [])], false⟩
  | true, some (value, .value) => .ok ⟨[(s, words [value])], true⟩
  | true, _ => .error (g.refuseSwitch s "expected one argument")

def attached (g : Grammar) (next : Option (String × Reading)) (s : Switch) (short : Bool) :
    List Char → Except Refusal Bundle
  | [] => if s.takesValue then .ok ⟨[(s, [""])], false⟩ else .error (g.refuseValue s "")
  | letter :: rest =>
    let text := String.ofList (letter :: rest)
    if s.takesValue then .ok ⟨[(s, words [text])], false⟩
    else
      match short, g.lookup ['-', letter], rest with
      | true, some s', [] => (g.bare s' next).map (·.add s)
      | true, some s', _ :: _ => (g.attached next s' true rest).map (·.add s)
      | _, _, _ => .error (g.refuseValue s text)

def bundle (g : Grammar) (next : Option (String × Reading)) (s : Switch) (short : Bool) :
    Option (List Char) → Except Refusal Bundle
  | none => g.bare s next
  | some text => g.attached next s short text

def accept (g : Grammar) : List (Switch × List String) → Except Refusal Unit
  | [] => .ok ()
  | (s, given) :: rest =>
    match s.effect with
    | .help => .error (.help g.help)
    | .turnOn => g.accept rest
    | .take none => g.accept rest
    | .take (some choices) =>
      match given.find? (!choices.contains ·) with
      | some word => .error (g.refuseSwitch s (invalidChoice word choices))
      | none => g.accept rest

def span? (g : Grammar) : List Reading → Option Nat
  | [] => none
  | .dashes :: [] => if g.arity = .optional then some 1 else none
  | .dashes :: rest =>
    match g.arity with
    | .one => some 2
    | .optional => some 2
    | .many => some (rest.length + 1)
    | .word _ => some (rest.length + 1)
  | readings =>
    let values := (readings.takeWhile (· == .value)).length
    let dashes := if readings[values]? = some .dashes then 1 else 0
    match g.arity with
    | .one => some (1 + if values = 1 then dashes else 0)
    | .optional => some (1 + if values = 1 then dashes else 0)
    | .many => some (if dashes = 1 then readings.length else values)
    | .word _ => some readings.length

def settle (g : Grammar) (arguments : List String) : Except Refusal (List String) :=
  match g.arity, arguments with
  | .word choices, word :: rest =>
    if choices.contains word then .ok (word :: rest)
    else .error (g.refuse s!"argument {g.operand}: {invalidChoice word choices}")
  | .word _, [] => .ok []
  | _, _ => .ok (words arguments)

end Grammar

namespace Found

def extra (f : Found) (argument : String) : Found :=
  ⟨f.switches, f.operand, f.extras ++ [argument]⟩

def bundle (f : Found) (b : Grammar.Bundle) : Found :=
  ⟨f.switches ++ b.switches, f.operand, f.extras⟩

def settle (f : Found) (operand : List String) : Found :=
  ⟨f.switches, some operand, f.extras⟩

def value? (f : Found) (name : String) : Option String :=
  (f.switches.filter (·.1.names.contains name)).getLast?.map (·.2.headD "")

def has (f : Found) (name : String) : Bool :=
  f.switches.any (·.1.names.contains name)

end Found

namespace Grammar

def gather (g : Grammar) (found : Found) : List (String × Reading) → Except Refusal Found
  | [] => .ok found
  | (argument, .unknown) :: rest => g.gather (found.extra argument) rest
  | (_, .switch s short text) :: rest => do
    let b ← g.bundle rest.head? s short text
    g.accept b.switches
    if b.usesNext then g.gather (found.bundle b) rest.tail else g.gather (found.bundle b) rest
  | (argument, reading) :: rest =>
    match found.operand, g.span? (reading :: rest.map (·.2)) with
    | none, some count => do
      let operand ← g.settle (argument :: (rest.take (count - 1)).map (·.1))
      g.gather (found.settle operand) (rest.drop (count - 1))
    | _, _ => g.gather (found.extra argument) rest
termination_by arguments => arguments.length
decreasing_by
  all_goals simp only [List.length_cons, List.length_tail, List.length_drop]
  all_goals omega

def parse (g : Grammar) (arguments : List String) : Except Refusal Found := do
  let found ← g.gather {} (← g.readAll arguments)
  if found.operand.isNone && g.arity ≠ .optional then
    .error (g.refuse s!"the following arguments are required: {g.operand}")
  else return found

end Grammar

end CallForms.CommandLine

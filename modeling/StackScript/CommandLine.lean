import StackScript.Diagnostic.Codes
import StackScript.Diagnostic.Json
import StackScript.Diagnostic.Terminal
import StackScript.Machine.Debugger
import StackScript.Machine.Snapshot
import StackScript.Script
import StackScript.Tree.Json

/-! The command line: what its arguments ask for, and what a command prints. A command is a
function from the files that it may read to its output, so that only the reading of files
and the printing need the outside world.
-/

namespace StackScript.CommandLine

/-- Where the source of a command comes from. -/
inductive Input
  | inline (code : String)
  | file (path : String)
  | missing
deriving DecidableEq, Repr

/-- What is to be done. -/
inductive Command
  | run (input : Input)
  | disasm (input : Input)
  | ast (input : Input)
  | debug (input : Input) (steps : Option Nat)
  | explain (code : String)
  | version
deriving DecidableEq, Repr

/-- A command and how its errors are reported. -/
structure Invocation where
  command : Command
  json : Bool
deriving DecidableEq, Repr

/-- The arguments seen so far. Colour and logging have flags of their own, which change
nothing where errors do not go to a terminal.
-/
structure Arguments where
  json : Bool
  version : Bool
  eval : Option String
  steps : Option Nat
  words : List String

/-- A number of steps: digits, perhaps behind a plus. -/
def readSteps? (text : String) : Option Nat :=
  let digits :=
    match text.toList with
    | '+' :: rest => rest
    | all => all
  if digits.isEmpty || !digits.all Char.isDigit then none
  else
    let value := Binary64.digitsValue digits
    if value < UInt64.size then some value else none

/-- The text behind a start that both have in common. -/
def behind? (start : List Char) (text : List Char) : Option String :=
  if start.isPrefixOf text then some (String.ofList (text.drop start.length)) else none

/-- Takes a value that is needed: the one at hand, or else the next argument. -/
def withValue (rest : List String) (value : Option String) : Option (String × List String) :=
  match value, rest with
  | some value, rest => some (value, rest)
  | none, value :: rest => some (value, rest)
  | none, [] => none

/-- Reads letters behind a dash: flags, and at the end perhaps the source, which is the text
behind its letter or else the next argument.
-/
def readLetters (found : Arguments) (rest : List String)
    : List Char → Option (Arguments × List String)
  | [] => some (found, rest)
  | 'v' :: letters => readLetters found rest letters
  | 'V' :: letters => readLetters { found with version := true } rest letters
  | 'e' :: letters => do
      let value :=
        match letters with
        | [] => none
        | '=' :: text => some (String.ofList text)
        | text => some (String.ofList text)
      let (code, rest) ← withValue rest value
      return ({ found with eval := some code }, rest)
  | _ => none

/-- Reads one argument and the values that it takes from those behind it. -/
def readOne (found : Arguments) (word : String) (rest : List String)
    : Option (Arguments × List String) :=
  match word.toList with
  | ['-', '-'] => some ({ found with words := found.words ++ rest }, [])
  | '-' :: '-' :: option =>
      match String.ofList option with
      | "json" => some ({ found with json := true }, rest)
      | "no-color" => some (found, rest)
      | "verbose" => some (found, rest)
      | "version" => some ({ found with version := true }, rest)
      | "eval" => do
          let (code, rest) ← withValue rest none
          return ({ found with eval := some code }, rest)
      | "steps" => do
          let (count, rest) ← withValue rest none
          return ({ found with steps := some (← readSteps? count) }, rest)
      | _ =>
          match behind? "eval=".toList option, behind? "steps=".toList option with
          | some code, _ => some ({ found with eval := some code }, rest)
          | none, some count => do
              return ({ found with steps := some (← readSteps? count) }, rest)
          | none, none => none
  | '-' :: letter :: letters => readLetters found rest (letter :: letters)
  | _ => some ({ found with words := found.words ++ [word] }, rest)

/-- Reads arguments, each of which takes at most the one behind it. -/
def readArguments (found : Arguments) : Nat → List String → Option Arguments
  | _, [] => some found
  | 0, _ => none
  | count + 1, word :: rest => do
      let (found, rest) ← readOne found word rest
      readArguments found count rest

/-- The source that arguments give: inline, or else in a file. -/
def inputOf? (found : Arguments) (words : List String) : Option Input :=
  match found.eval, words with
  | some code, [] => some (.inline code)
  | none, [path] => some (.file path)
  | none, [] => some .missing
  | _, _ => none

/-- What the arguments ask for, if they ask for something. -/
def parse? (args : List String) : Option Invocation := do
  let found ← readArguments ⟨false, false, none, none, []⟩ args.length args
  if found.version then return ⟨.version, found.json⟩
  match found.words with
  | "run" :: words => return ⟨.run (← inputOf? found words), found.json⟩
  | "disasm" :: words => return ⟨.disasm (← inputOf? found words), found.json⟩
  | "ast" :: words => return ⟨.ast (← inputOf? found words), found.json⟩
  | "debug" :: words => return ⟨.debug (← inputOf? found words) found.steps, found.json⟩
  | ["explain", code] => return ⟨.explain code, found.json⟩
  | _ => none

/-- What a command leaves behind. -/
structure Transcript where
  exitCode : Nat
  stdout : String
  stderr : String
deriving DecidableEq, Repr

/-- The text of a file, or why it cannot be read. -/
abbrev Files := String → Except String String

/-- The text in the bytes of a file. -/
def decodeFile (bytes : ByteArray) : Except String String :=
  match String.fromUTF8? bytes with
  | some text => .ok text
  | none => .error "stream did not contain valid UTF-8"

/-- A report as it is printed. -/
def reportText (json : Bool) (report : Diagnostic) : String :=
  if json then report.jsonLine ++ "\n" else report.render false

/-- The end of a command that reports errors, after what it printed by then. -/
def failure (json : Bool) (stdout : String) (reports : List Diagnostic) : Transcript :=
  ⟨1, stdout, String.join (reports.map (reportText json))⟩

/-- The end of a command that succeeds. -/
def success (stdout : String) : Transcript := ⟨0, stdout, ""⟩

/-- The source of a command. -/
def readInput (files : Files) : Input → Except (List Diagnostic) String
  | .inline code => .ok code
  | .file path =>
      match files path with
      | .ok text => .ok text
      | .error reason => .error [.ofMessage ("cannot read " ++ path ++ ": " ++ reason)]
  | .missing =>
      .error [(Diagnostic.ofMessage "no input").suggest "pass a file or -e '<code>'"]

/-- The script of a command. -/
def readScript (files : Files) (input : Input) : Except (List Diagnostic) Script := do
  let source ← readInput files input
  match Script.read source with
  | .ok script => return script
  | .error reports => throw (reports.map (·.inSource source))

/-- The program of a command. -/
def readProgram (files : Files) (input : Input) : Except (List Diagnostic) Program := do
  let script ← readScript files input
  match script.compile with
  | .ok program => return program
  | .error error => throw [error.diagnostic]

/-- Where a step of a debugger failed. -/
def failureNote (function ip : Nat) : String :=
  let place := if function = 0 then "main" else "function " ++ toString function
  "in " ++ place ++ " at offset " ++ paddedOffset ip

/-- The line that a debugger prints for a step. -/
def stepRecord (number : Nat) (line : Option Nat) (state : State Capture) : String :=
  let record :=
    Json.object
      [("line", .ofOption .nat line), ("output", .string state.sink.shown),
        ("state", state.snapshot), ("step", .nat number)]
  record.sorted.compact ++ "\n"

/-- Runs a debugger for a number of steps, or to the end, with one line for each step. Output
is part of the line of the step that wrote it.
-/
def debugSteps (json : Bool) (limit : Option Nat) (taken : Nat) (stdout : String)
    (debugger : Debugger Capture) : Transcript :=
  if limit.any (· ≤ taken) then success stdout
  else
    match _running : debugger.step with
    | (outcome, after) =>
        let stdout := stdout ++ stepRecord (taken + 1) debugger.currentLine? after.state
        let drained := { after with state := { after.state with sink := after.state.sink.drain } }
        match outcome with
        | .halted _ => success stdout
        | .failed fault =>
            let note := failureNote debugger.state.function debugger.state.ip
            failure json stdout [fault.diagnostic.note note]
        | .running => debugSteps json limit (taken + 1) stdout drained
termination_by debugger.machine.weight debugger.state
decreasing_by exact Debugger.weight_lt_of_step _running

/-- Carries out a command. -/
def execute (files : Files) (invocation : Invocation) : Transcript :=
  let json := invocation.json
  match invocation.command with
  | .version => success "spoodle 0.1.0\n"
  | .explain code =>
      match CodeEntry.findAnyCase? code with
      | some entry => success entry.long
      | none => failure json "" [.ofMessage ("unknown error code '" ++ code ++ "'")]
  | .ast input =>
      match readScript files input with
      | .ok script => success (script.toJson.indented 0 ++ "\n")
      | .error reports => failure json "" reports
  | .disasm input =>
      match readProgram files input with
      | .error reports => failure json "" reports
      | .ok program =>
          match Listing.ofProgram program with
          | .ok listing => success listing.text
          | .error error => failure json "" [(Fault.malformed error).diagnostic]
  | .run input =>
      match readProgram files input with
      | .error reports => failure json "" reports
      | .ok program =>
          match (Machine.mk program Limits.default).run (State.initial program (.empty none)) with
          | (.ok value, last) => success (last.sink.shown ++ value.display ++ "\n")
          | (.error fault, last) =>
              failure json (Capture.shown last.sink) [fault.diagnostic]
  | .debug input steps =>
      match readProgram files input with
      | .error reports => failure json "" reports
      | .ok program =>
          match Debugger.start program (Capture.empty none) with
          | .ok debugger => debugSteps json steps 0 "" debugger
          | .error error => failure json "" [(Fault.malformed error).diagnostic]

/-- The file that a command reads, if it reads one. -/
def path? (invocation : Invocation) : Option String :=
  match invocation.command with
  | .run (.file path) => some path
  | .disasm (.file path) => some path
  | .ast (.file path) => some path
  | .debug (.file path) _ => some path
  | _ => none

end StackScript.CommandLine

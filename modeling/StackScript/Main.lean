import StackScript.CommandLine

/-! The program: reads the file that its arguments name, carries out the command and prints
what the command leaves behind.
-/

namespace StackScript.CommandLine

/-- A system error in words and by its number, which may be given with its sign changed. -/
def systemReason (code : UInt32) (details : String) : String :=
  let number := if code < 0x80000000 then code else 0 - code
  details.capitalize ++ " (os error " ++ toString number ++ ")"

/-- Why a file cannot be read, as the system says it. -/
def fileReason : IO.Error → String
  | .noFileOrDirectory _ code details => systemReason code details
  | .permissionDenied _ code details => systemReason code details
  | .inappropriateType _ code details => systemReason code details
  | error => toString error

/-- The text of a file. -/
def readFile (path : String) : IO (Except String String) := do
  match ← (IO.FS.readBinFile path).toBaseIO with
  | .ok bytes => return decodeFile bytes
  | .error error => return .error (fileReason error)

/-- What the arguments are expected to be. -/
def usage : String :=
  "usage: (run | disasm | ast) [FILE | -e CODE] [--json] [--no-color] [-v]\n"
    ++ "       debug [FILE | -e CODE] [--steps N] [--json] [--no-color] [-v]\n"
    ++ "       explain CODE [--json]\n"
    ++ "       --version\n"

end StackScript.CommandLine

open StackScript.CommandLine

/-- Carries out the command that the arguments ask for. -/
def main (args : List String) : IO UInt32 := do
  match parse? args with
  | none =>
      IO.eprint usage
      return 2
  | some invocation =>
      let content ←
        match path? invocation with
        | some path => readFile path
        | none => pure (.error "")
      let transcript := execute (fun _ => content) invocation
      IO.print transcript.stdout
      IO.eprint transcript.stderr
      return transcript.exitCode.toUInt32

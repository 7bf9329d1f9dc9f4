import Script.CommandLine.Outcome
/-!
# The program

Reads the arguments and the file that they name, and writes the outcome of the call.
-/

namespace Script.CommandLine

def ReadError.ofError : IO.Error → ReadError
  | .noFileOrDirectory .. => .missing
  | .inappropriateType _ code _ =>
    if code = 20 ∨ code = -20 then .notDirectory else .isDirectory
  | .permissionDenied .. => .other "Permission denied (os error 13)"
  | error => .other (toString error)

def readContent (path : String) : IO (Except ReadError ByteArray) := do
  try
    return .ok (← IO.FS.readBinFile path)
  catch error =>
    return .error (.ofError error)

def readNamed (arguments : List String) : IO (Except ReadError ByteArray) :=
  match Request.ofArguments arguments with
  | .run _ path => readContent path
  | _ => pure (.error .missing)

end Script.CommandLine

def main (arguments : List String) : IO UInt32 := do
  let content ← Script.CommandLine.readNamed arguments
  let outcome := Script.CommandLine.call Script.ampleRounds (fun _ => content) arguments
  (← IO.getStdout).write outcome.output
  (← IO.getStderr).putStr outcome.errors
  return outcome.exitCode.toUInt32

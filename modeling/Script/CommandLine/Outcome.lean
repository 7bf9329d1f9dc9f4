import Script.CommandLine.Request
import Script.Run.Program
/-!
# Runs from the command line

The outcome of a call is an exit code with what has been written to standard output and to
standard error.  Records of the log go to standard error, so standard output holds nothing but
output of the program and a last line that tells of its success.
-/

namespace Script.CommandLine

inductive ReadError
  | missing
  | isDirectory
  | notDirectory
  | notText
  | other (reason : String)
deriving DecidableEq

def ReadError.message : ReadError → String
  | missing => "No such file or directory (os error 2)"
  | isDirectory => "Is a directory (os error 21)"
  | notDirectory => "Not a directory (os error 20)"
  | notText => "stream did not contain valid UTF-8"
  | other reason => reason

structure Outcome where
  exitCode : Nat
  output : ByteArray
  errors : String

def versionText : String := "quill 0.1.0\n"

def usageText : String := "Usage: quill [OPTIONS] <FILE>\n"

def helpText : String :=
  "A tiny tree-walking interpreter for the quill scripting language\n\n" ++
    usageText ++
    "\nArguments:\n" ++
    "  <FILE>  Program to run\n" ++
    "\nOptions:\n" ++
    "  -d, --debug    Dump tokens and the parsed program before evaluating\n" ++
    "  -h, --help     Print help\n" ++
    "  -V, --version  Print version\n"

def logText (log : Log) : String :=
  String.join <| log.events.toList.map fun event =>
    "[" ++ event.level.name ++ "] " ++ event.message ++ "\n"

def textOf (content : Except ReadError ByteArray) : Except ReadError String := do
  match String.fromUTF8? (← content) with
  | some text => .ok text
  | none => .error .notText

def runFile (rounds : Nat) (dumps : Bool) (path : String) (content : Except ReadError ByteArray) :
    Outcome :=
  match textOf content with
  | .error error =>
    ⟨1, .empty, "error: cannot read '" ++ path ++ "': " ++ error.message ++ "\n"⟩
  | .ok source =>
    let threshold := if dumps then Level.info else Level.error
    let start := (Log.empty threshold).record (.readFile path)
    let report := runProgram rounds dumps none start source
    match report.conclusion with
    | .success => ⟨0, report.output ++ "finished\n".toUTF8, logText report.log⟩
    | .failure failure =>
      ⟨1, report.output, logText (report.log.record (.runFailed failure.message))⟩
    | .abort _ => ⟨1, report.output, logText report.log⟩

def call (rounds : Nat) (read : String → Except ReadError ByteArray) (arguments : List String) :
    Outcome :=
  match Request.ofArguments arguments with
  | .run dumps path => runFile rounds dumps path (read path)
  | .version => ⟨0, versionText.toUTF8, ""⟩
  | .help => ⟨0, helpText.toUTF8, ""⟩
  | .misuse => ⟨2, .empty, usageText⟩

end Script.CommandLine

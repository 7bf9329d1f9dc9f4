import Script.Evaluation.Response
import Script.Run.Sink
/-!
# Writing while a program runs

A run works on the state of the evaluation and on a sink.  It fails when the sink takes no more.
-/

namespace Script

inductive Failure
  | scanning (error : ScanError)
  | parsing (error : GrammarError)
  | sinkFull
deriving DecidableEq

def Failure.message : Failure → String
  | scanning error => "lexing failed: " ++ error.message
  | parsing error => "parsing failed: " ++ error.message
  | sinkFull => "sink full"

inductive Halt
  | failed (failure : Failure)
  | aborted (abort : Evaluation.Abort)
deriving DecidableEq

structure Console where
  state : Evaluation.State
  sink : Sink

abbrev Run (α : Type) := Step Halt Console α

namespace Run

def note (event : Event) : Run Unit :=
  modify fun console => { console with state := console.state.note event }

/-- Writes a line.  What the sink does not take of it is lost, and the run fails. -/
def emit (line : String) : Run Unit := fun console =>
  let bytes := (line ++ "\n").toUTF8
  if console.sink.accepts bytes then .ok () { console with sink := console.sink.write bytes }
  else .error (.failed .sinkFull) { console with sink := console.sink.write bytes }

def respond (rounds : Nat) (node : Node) : Run Evaluation.Response := fun console =>
  match Evaluation.respond rounds node console.state with
  | .ok response state => .ok response { console with state }
  | .error abort state => .error (.aborted abort) { console with state }

def perform (rounds : Nat) (node : Node) : Run Unit := do
  let response ← respond rounds node
  response.lines.forM emit

/-- Evaluates statements one after the other.  A fault of one does not keep the next from being
evaluated. -/
def performAll (rounds : Nat) (program : List Node) : Run Unit := do
  note (.evaluating program.length)
  program.forM (perform rounds)

end Run

end Script

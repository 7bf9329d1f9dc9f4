import Script.Run.Console
/-!
# Sessions

A session evaluates several texts one after the other on one state.  What one text has declared
is there for the next ones.
-/

namespace Script.Session

open Evaluation (State Guarded)

inductive Submission
  | unreadable (error : ScanError)
  | evaluated (output : ByteArray) (error : Option GrammarError)

/-- Evaluates statements and gives their output.  A sink without a capacity takes all of it. -/
def perform (rounds : Nat) (program : List Node) : Guarded ByteArray := fun state =>
  match Run.performAll rounds program ⟨state, .empty none⟩ with
  | .ok _ console => .ok console.sink.written console.state
  | .error (.failed _) console => .ok console.sink.written console.state
  | .error (.aborted abort) console => .error abort console.state

/-- Evaluates a text.  Statements before an error in the program are evaluated, and nothing at all
if the text can not be turned into tokens. -/
def submit (rounds : Nat) (source : String) : Guarded Submission := do
  match scan source with
  | .error error => pure (.unreadable error)
  | .ok tokens => do
    modify (·.note (.scanned tokens.length))
    let found := parse tokens
    modify fun state => found.events.foldl State.note state
    let output ← perform rounds found.statements
    pure (.evaluated output found.error?)

end Script.Session

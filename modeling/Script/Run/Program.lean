import Script.Run.Console
/-!
# Running a program

A program is run in three stages, and each stage is entered only if the one before it has
succeeded as a whole: its text becomes tokens, the tokens become statements, and the statements
are evaluated.  On demand tokens and statements are written before the statements are evaluated.
-/

namespace Script

namespace Run

def dumpTokens (dumps : Bool) (tokens : List Token) : Run Unit :=
  if dumps then tokens.forM fun token => emit token.render else pure ()

def dumpStatements (dumps : Bool) (statements : List Node) : Run Unit :=
  if dumps then statements.forM fun node => emit ("ast: " ++ node.render) else pure ()

/-- Turns a text into tokens.  An error is written after the tokens before it. -/
def tokens (dumps : Bool) (source : String) : Run (List Token) := do
  note (.scanning source.utf8ByteSize)
  match scan source with
  | .error error => do
    dumpTokens dumps error.tokens
    emit error.message
    throw (.failed (.scanning error))
  | .ok tokens => do
    note (.scanned tokens.length)
    dumpTokens dumps tokens
    pure tokens

/-- Turns tokens into statements.  An error is written after the statements before it. -/
def statements (dumps : Bool) (tokens : List Token) : Run (List Node) := do
  note (.parsing tokens.length)
  let found := parse tokens
  found.events.forM note
  note (.programRead found.statements.length found.error?.isSome)
  dumpStatements dumps found.statements
  match found.error? with
  | some error => do
    emit ("parsing error: " ++ error.message)
    throw (.failed (.parsing error))
  | none => pure found.statements

def program (rounds : Nat) (dumps : Bool) (source : String) : Run Unit := do
  let tokens ← tokens dumps source
  let statements ← statements dumps tokens
  performAll rounds statements

end Run

inductive Conclusion
  | success
  | failure (failure : Failure)
  | abort (abort : Evaluation.Abort)
deriving DecidableEq

structure Report where
  output : ByteArray
  conclusion : Conclusion
  log : Log

/-- Runs a program on a fresh state and a sink of the given capacity, and goes on with a log. -/
def runProgram (rounds : Nat) (dumps : Bool) (capacity : Option Nat) (log : Log)
    (source : String) : Report :=
  match Run.program rounds dumps source ⟨.fresh log, .empty capacity⟩ with
  | .ok _ console => ⟨console.sink.written, .success, console.state.log⟩
  | .error (.failed failure) console =>
    ⟨console.sink.written, .failure failure, console.state.log⟩
  | .error (.aborted abort) console => ⟨console.sink.written, .abort abort, console.state.log⟩

/-- A number of rounds that no loop reaches on an actual machine. -/
def ampleRounds : Nat := 4611686018427387904

end Script

import Script.Evaluation.Fault
import Script.Grammar.Parse
import Script.Node.Render
/-!
# The log

The stages of a run record what they do.  A record has a level, and a log keeps the records up to
a threshold.
-/

namespace Script

inductive Level
  | error
  | warn
  | info
  | debug
deriving DecidableEq

namespace Level

def name : Level → String
  | error => "ERROR"
  | warn => "WARN"
  | info => "INFO"
  | debug => "DEBUG"

def rank : Level → Nat
  | error => 0
  | warn => 1
  | info => 2
  | debug => 3

end Level

inductive Event
  | readFile (path : String)
  | scanning (bytes : Nat)
  | scanned (tokens : Nat)
  | parsing (tokens : Nat)
  | parseFailed (failure : ParseFailure)
  | parsed (statements : Nat)
  | programRead (statements : Nat) (failed : Bool)
  | evaluating (statements : Nat)
  | statement (node : Node)
  | depthAfterStatement (depth : Nat)
  | pushed (depth : Nat)
  | popped (depth : Nat)
  | functionDeclared (name : String)
  | mismatch (mismatch : Evaluation.Mismatch)
  | runFailed (reason : String)

namespace Event

def level : Event → Level
  | runFailed _ => .error
  | mismatch _ => .warn
  | readFile _ | scanning _ | parsing _ | programRead _ _ | evaluating _ | functionDeclared _ =>
    .info
  | scanned _ | parseFailed _ | parsed _ | statement _ | depthAfterStatement _ | pushed _
  | popped _ => .debug

def message : Event → String
  | readFile path => "read " ++ path
  | scanning bytes => "lexing " ++ toString bytes ++ " bytes"
  | scanned tokens => "lexed " ++ toString tokens ++ " tokens"
  | parsing tokens => "parsing " ++ toString tokens ++ " tokens"
  | parseFailed failure =>
    "parse failed at token " ++ toString failure.position ++ ": " ++ failure.error.message
  | parsed statements => "parsed " ++ toString statements ++ " top-level statements"
  | programRead statements failed =>
    "parsed " ++ toString statements ++ " statements (failed: " ++ toString failed ++ ")"
  | evaluating statements => "evaluating " ++ toString statements ++ " statements"
  | statement node => "eval: " ++ node.render
  | depthAfterStatement depth => "scope depth after statement: " ++ toString depth
  | pushed depth => "pushed scope, depth " ++ toString depth
  | popped depth => "popped scope, depth " ++ toString depth
  | functionDeclared name => "declared function " ++ name
  | mismatch m => m.message
  | runFailed reason => reason

end Event

def Parse.events (parse : Parse) : List Event :=
  (parse.failure.map Event.parseFailed).toList ++ [.parsed parse.statements.length]

/-- The records up to the level `threshold`, oldest first. -/
structure Log where
  threshold : Level
  events : Array Event

namespace Log

def empty (threshold : Level) : Log := ⟨threshold, #[]⟩

/-- Records an event, unless its level is beyond the threshold. -/
def record (log : Log) (event : Event) : Log :=
  if event.level.rank ≤ log.threshold.rank then { log with events := log.events.push event }
  else log

end Log

end Script

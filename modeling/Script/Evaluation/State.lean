import Script.Log
import Script.Scopes
/-!
# The state of an evaluation

Evaluation works on a stack of scopes and on a table of functions.  Beside them it collects the
mismatches of the current statement and keeps a log, on which nothing else depends.
-/

namespace Script.Evaluation

structure Function where
  signature : Signature
  body : List Node

structure State where
  scopes : Scopes
  functions : List Function
  reports : Array Mismatch
  log : Log

namespace State

def fresh (log : Log) : State := ⟨.fresh, [], #[], log⟩

def note (state : State) (event : Event) : State := { state with log := state.log.record event }

def report (state : State) (mismatch : Mismatch) : State :=
  let noted := state.note (.mismatch mismatch)
  { noted with reports := noted.reports.push mismatch }

def push (state : State) : State :=
  let pushed := { state with scopes := state.scopes.push }
  pushed.note (.pushed pushed.scopes.depth)

/-- Closes the innermost scope, which leaves the given scopes. -/
def leave (state : State) (scopes : Scopes) : State :=
  let left := { state with scopes }
  left.note (.popped scopes.depth)

def declares (state : State) (name : String) : Bool :=
  state.functions.any (·.signature.name = name)

def declare (state : State) (function : Function) : State :=
  let noted := state.note (.functionDeclared function.signature.name)
  { noted with functions := noted.functions ++ [function] }

@[simp] theorem scopes_note (state : State) (event : Event) :
    (state.note event).scopes = state.scopes := rfl

@[simp] theorem functions_note (state : State) (event : Event) :
    (state.note event).functions = state.functions := rfl

@[simp] theorem reports_note (state : State) (event : Event) :
    (state.note event).reports = state.reports := rfl

@[simp] theorem scopes_report (state : State) (mismatch : Mismatch) :
    (state.report mismatch).scopes = state.scopes := rfl

@[simp] theorem functions_report (state : State) (mismatch : Mismatch) :
    (state.report mismatch).functions = state.functions := rfl

@[simp] theorem reports_report (state : State) (mismatch : Mismatch) :
    (state.report mismatch).reports = state.reports.push mismatch := rfl

@[simp] theorem scopes_push (state : State) : state.push.scopes = state.scopes.push := rfl

@[simp] theorem functions_push (state : State) : state.push.functions = state.functions := rfl

@[simp] theorem reports_push (state : State) : state.push.reports = state.reports := rfl

@[simp] theorem scopes_leave (state : State) (scopes : Scopes) :
    (state.leave scopes).scopes = scopes := rfl

@[simp] theorem functions_leave (state : State) (scopes : Scopes) :
    (state.leave scopes).functions = state.functions := rfl

@[simp] theorem reports_leave (state : State) (scopes : Scopes) :
    (state.leave scopes).reports = state.reports := rfl

@[simp] theorem scopes_declare (state : State) (function : Function) :
    (state.declare function).scopes = state.scopes := rfl

@[simp] theorem functions_declare (state : State) (function : Function) :
    (state.declare function).functions = state.functions ++ [function] := rfl

@[simp] theorem reports_declare (state : State) (function : Function) :
    (state.declare function).reports = state.reports := rfl

end State

end Script.Evaluation

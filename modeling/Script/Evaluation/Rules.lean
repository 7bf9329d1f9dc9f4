import Script.Evaluation.Operation
import Script.Evaluation.State
import Script.Step
/-!
# Rules of evaluation

An evaluation is a step on states.  It stops early with a fault, which ends the statement that is
evaluated, or because it can not be carried on at all.  Here are the rules of the single
constructs of the language, each given the evaluations of its parts.
-/

namespace Script.Evaluation

/-- Why an evaluation can not be carried to its end.  A loop may need more rounds than it is given.
A scope stack that is popped or addressed outside its frames would be a flaw of the evaluation
itself. -/
inductive Abort
  | exhausted
  | brokenStack
deriving DecidableEq

inductive Stop
  | fault (fault : Fault)
  | abort (abort : Abort)
deriving DecidableEq

abbrev Eval (α : Type) := Step Stop State α

/-- An evaluation that no fault stops. -/
abbrev Guarded (α : Type) := Step Abort State α

/-- The result of a node: its value, or a jump that has to be taken up by what surrounds it. -/
inductive Signal
  | value (value : Value)
  | jump (jump : Jump)
  | leave
deriving DecidableEq

/-- The value of a node in a place where no jump can be taken up. -/
def Signal.toValue : Signal → Except Fault Value
  | value v => .ok v
  | jump j => .error (.jumpOutsideLoop j)
  | leave => .error .returnOutsideFunction

def fail {α : Type} (fault : Fault) : Eval α := throw (.fault fault)

/-- Reports a mismatch and gives `false` in place of a result. -/
def report (mismatch : Mismatch) : Eval Value := do
  modify (·.report mismatch)
  pure (.boolean false)

@[simp] theorem fail_apply {α : Type} (fault : Fault) (state : State) :
    (fail fault : Eval α) state = .error (.fault fault) state := rfl

@[simp] theorem report_apply (mismatch : Mismatch) (state : State) :
    report mismatch state = .ok (.boolean false) (state.report mismatch) := rfl

def settle : Answer → Eval Value
  | .value v => pure v
  | .mismatch mismatch => report mismatch
  | .fault fault => fail fault

/-- Asks for a value where a jump can not be taken up. -/
def asValue (evaluation : Eval Signal) : Eval Value := do
  match (← evaluation).toValue with
  | .ok v => pure v
  | .error fault => fail fault

theorem asValue_apply (evaluation : Eval Signal) (state : State) :
    asValue evaluation state =
      match evaluation state with
      | .ok signal after =>
        match signal.toValue with
        | .ok v => .ok v after
        | .error fault => .error (.fault fault) after
      | .error stop after => .error stop after := by
  simp only [asValue, Step.bind_apply]
  cases evaluation state with
  | ok signal after => cases signal <;> rfl
  | error stop after => rfl

/-- Asks for the truth value of a condition.  Anything but a boolean is reported and does not
hold. -/
def holds (construct : Construct) (condition : Eval Value) : Eval Bool := do
  let v ← condition
  match v.asBoolean? with
  | some b => pure b
  | none => do
    let _ ← report (.condition construct v.ty)
    pure false

def variableValue (name : String) : Eval Value := do
  match (← get).scopes.get? name with
  | some v => pure v
  | none => fail (.undefined name)

theorem variableValue_apply (name : String) (state : State) :
    variableValue name state =
      match state.scopes.get? name with
      | some v => .ok v state
      | none => .error (.fault (.undefined name)) state := by
  simp only [variableValue, Step.bind_apply, Step.get_apply]
  cases state.scopes.get? name <;> rfl

/-- Declares a variable in the innermost scope.  The name is checked before the initial value is
evaluated, its type after that. -/
def declareVariable (name : String) (ascription : Option Ty) (initial : Eval Value) :
    Eval Value := do
  if (← get).scopes.innermostBinds name then fail (.redeclared name)
  else do
    let v ← initial
    match ascription.filter (· ≠ v.ty) with
    | some ty => fail (.mismatch (.initial name ty v.ty))
    | none => do
      modify fun state => { state with scopes := state.scopes.insert name v }
      pure v

/-- Gives a variable a new value, in the frame that binds it before the value is evaluated. -/
def assignVariable (name : String) (value : Eval Value) : Eval Value := do
  match (← get).scopes.find? name with
  | none => fail (.undefined name)
  | some frame => do
    let v ← value
    let state ← get
    match state.scopes.set? frame name v with
    | none => throw (.abort .brokenStack)
    | some scopes => do
      set { state with scopes }
      pure v

/-- The first name that repeats an earlier one, where the names `seen` are earlier than all. -/
def firstRepeat? (seen : List String) : List String → Option String
  | [] => none
  | name :: names => if name ∈ seen then some name else firstRepeat? (name :: seen) names

def declareFunction (function : Function) : Eval Unit := do
  if (← get).declares function.signature.name then fail (.redeclared function.signature.name)
  else
    match firstRepeat? [] (function.signature.parameters.map (·.name)) with
    | some name => fail (.redeclared name)
    | none => modify (·.declare function)

/-- Runs an evaluation and gives its fault, if it ends with one, as the result. -/
def attempt {α : Type} (evaluation : Eval α) : Guarded (Except Fault α) := fun state =>
  match evaluation state with
  | .ok a after => .ok (.ok a) after
  | .error (.fault fault) after => .ok (.error fault) after
  | .error (.abort abort) after => .error abort after

/-- Runs an evaluation in a scope of its own, which is closed also after a fault. -/
def inScope {α : Type} (evaluation : Eval α) : Eval α := fun state =>
  match attempt evaluation state.push with
  | .error abort after => .error (.abort abort) after
  | .ok result after =>
    match after.scopes.pop? with
    | none => .error (.abort .brokenStack) after
    | some outer =>
      match result with
      | .ok a => .ok a (after.leave outer)
      | .error fault => .error (.fault fault) (after.leave outer)

/-- Repeats `body` as long as `condition` holds, for at most the given number of rounds. -/
def repeatWhile (condition : Eval Bool) (body : Eval Signal) : (rounds : Nat) → Eval Signal
  | 0 => throw (.abort .exhausted)
  | rounds + 1 => do
    if ← condition then
      match ← body with
      | .value _ | .jump .nextRound => repeatWhile condition body rounds
      | .jump .breakLoop => pure (.value .void)
      | .leave => pure .leave
    else pure (.value .void)

end Script.Evaluation

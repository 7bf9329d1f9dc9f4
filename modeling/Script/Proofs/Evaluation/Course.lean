import Script.Run.Console
/-!
# The course of an evaluation

While a tree is evaluated its parts are, each on the state that has been left by what was evaluated
before it, and some of them never or more than once.  The course of an evaluation has all of these
evaluations in the order in which they begin, also if the whole ends with a fault or not within its
rounds.  So what holds at each of them holds throughout a run.

What becomes of a state in the course of evaluations is told by chronicles: relations between two
states and what is visited from the one to the other.
-/

namespace Script

/-- The state in which a step has ended, whichever way. -/
def Step.last {ε σ α : Type} : EStateM.Result ε σ α → σ
  | .ok _ after => after
  | .error _ after => after

@[simp] theorem Step.last_ok {ε σ α : Type} (a : α) (after : σ) :
    Step.last (.ok a after : EStateM.Result ε σ α) = after := rfl

@[simp] theorem Step.last_error {ε σ α : Type} (reason : ε) (after : σ) :
    Step.last (.error reason after : EStateM.Result ε σ α) = after := rfl

namespace Evaluation

structure Visit where
  node : Node
  state : State

/-- What is visited after an evaluation, provided that it has a result. -/
def thereafter {α : Type} (evaluation : Eval α) (visits : α → State → List Visit)
    (state : State) : List Visit :=
  match evaluation state with
  | .ok a after => visits a after
  | .error _ _ => []

theorem thereafter_of_ok {α : Type} {evaluation : Eval α} {visits : α → State → List Visit}
    {state after : State} {a : α} (h : evaluation state = .ok a after) :
    thereafter evaluation visits state = visits a after := by
  unfold thereafter
  rw [h]

theorem thereafter_of_error {α : Type} {evaluation : Eval α} {visits : α → State → List Visit}
    {state after : State} {stop : Stop} (h : evaluation state = .error stop after) :
    thereafter evaluation visits state = [] := by
  unfold thereafter
  rw [h]

def courseOfLoop (condition : Eval Bool) (body : Eval Signal)
    (ofCondition ofBody : State → List Visit) : (rounds : Nat) → State → List Visit
  | 0, _ => []
  | rounds + 1, state =>
    ofCondition state ++ thereafter condition (fun
      | false, _ => []
      | true, state => ofBody state ++ thereafter body (fun
        | .value _, state | .jump .nextRound, state =>
          courseOfLoop condition body ofCondition ofBody rounds state
        | .jump .breakLoop, _ | .leave, _ => []) state) state

mutual

/-- The evaluation of a node on a state and those of its parts. -/
def course (rounds : Nat) (node : Node) (state : State) : List Visit :=
  ⟨node, state⟩ ::
    match node with
    | .declaration name _ initial =>
      if state.scopes.innermostBinds name then [] else course rounds initial state
    | .assignment name value =>
      if (state.scopes.find? name).isSome then course rounds value state else []
    | .binary _ left right =>
      course rounds left state ++
        thereafter (asValue (eval rounds left)) (fun _ state => course rounds right state) state
    | .unary _ operand => course rounds operand state
    | .conditional condition onTrue onFalse =>
      course rounds condition state ++
        thereafter (asValue (eval rounds condition)) (fun v state =>
          match v.asBoolean? with
          | some true => course rounds onTrue state
          | some false => course rounds onFalse state
          | none => []) state
    | .ifChain chain => courseOfChain rounds chain state
    | .whileLoop condition body =>
      courseOfLoop (holds .whileLoop (asValue (eval rounds condition)))
        (inScope (evalBody rounds .void body)) (fun state => course rounds condition state)
        (fun state => courseOfBody rounds body state.push) rounds state
    | .returnValue value => course rounds value state
    | _ => []

def courseOfChain (rounds : Nat) (chain : Chain) (state : State) : List Visit :=
  match chain with
  | .done => []
  | .when condition body others =>
    course rounds condition state ++
      thereafter (holds .ifLink (asValue (eval rounds condition))) (fun
        | true, state => courseOfBody rounds body state.push
        | false, state => courseOfChain rounds others state) state
  | .always body _ => courseOfBody rounds body state.push

def courseOfBody (rounds : Nat) (body : List Node) (state : State) : List Visit :=
  match body with
  | [] => []
  | statement :: others =>
    course rounds statement state ++
      thereafter (eval rounds statement) (fun
        | .value _, state => courseOfBody rounds others state
        | .jump _, _ | .leave, _ => []) state

end

/-- Whether a relation between two states, and the visits from the one to the other, goes on from
evaluation to evaluation, depends on scopes and functions only, and is untouched by the opening of a
scope and by the end of one. -/
structure Chronicle (related : State → List Visit → State → Prop) : Prop where
  refl (state : State) : related state [] state
  trans {first second third : State} {visits others : List Visit} :
    related first visits second → related second others third →
      related first (visits ++ others) third
  congr {first first' second second' : State} {visits : List Visit} :
    related first visits second → first.scopes = first'.scopes →
      first.functions = first'.functions → second.scopes = second'.scopes →
        second.functions = second'.functions → related first' visits second'
  opened {state after : State} {visits : List Visit} :
    related state.push visits after → related state visits after
  closed {state after : State} {visits : List Visit} {outer : Scopes} :
    related state visits after → after.scopes.pop? = some outer →
      related state visits (after.leave outer)

/-- Whether a relation holds between the state before an evaluation, what is visited, and the state
after it, whichever way the evaluation ends. -/
def Chronicles {α : Type} (related : State → List Visit → State → Prop)
    (visits : State → List Visit) (evaluation : Eval α) : Prop :=
  ∀ state, related state (visits state) (Step.last (evaluation state))

/-- Whether an evaluation visits nothing and is as if nothing had happened. -/
def Silent {α : Type} (related : State → List Visit → State → Prop) (evaluation : Eval α) : Prop :=
  Chronicles related (fun _ => []) evaluation

namespace Chronicle

variable {related : State → List Visit → State → Prop} {α β : Type} {visits : State → List Visit}

theorem pure (chronicle : Chronicle related) (a : α) : Silent related (pure a) := chronicle.refl

theorem fail (chronicle : Chronicle related) (fault : Fault) :
    Silent related (fail fault : Eval α) :=
  chronicle.refl

theorem report (chronicle : Chronicle related) (mismatch : Mismatch) :
    Silent related (report mismatch) :=
  fun state => chronicle.congr (chronicle.refl state) rfl rfl rfl rfl

theorem bind (chronicle : Chronicle related) {first : Eval α} {next : α → Eval β}
    {others : α → State → List Visit} (hfirst : Chronicles related visits first)
    (hnext : ∀ a, Chronicles related (others a) (next a)) :
    Chronicles related (fun state => visits state ++ thereafter first others state)
      (first >>= next) := by
  intro state
  have hvisits := hfirst state
  rw [Step.bind_apply]
  cases hrun : first state with
  | ok a after =>
      simp only [thereafter_of_ok hrun]
      rw [hrun] at hvisits
      exact chronicle.trans hvisits (hnext a after)
  | error stop after =>
      simp only [thereafter_of_error hrun, List.append_nil]
      rw [hrun] at hvisits
      exact hvisits

theorem bind_silent (chronicle : Chronicle related) {first : Eval α} {next : α → Eval β}
    (hfirst : Chronicles related visits first) (hnext : ∀ a, Silent related (next a)) :
    Chronicles related visits (first >>= next) := by
  intro state
  have hvisits := hfirst state
  rw [Step.bind_apply]
  cases hrun : first state with
  | ok a after =>
      rw [hrun] at hvisits
      have hboth := chronicle.trans hvisits (hnext a after)
      rwa [List.append_nil] at hboth
  | error stop after =>
      rw [hrun] at hvisits
      exact hvisits

theorem map (chronicle : Chronicle related) {evaluation : Eval α} (f : α → β)
    (h : Chronicles related visits evaluation) : Chronicles related visits (f <$> evaluation) :=
  chronicle.bind_silent h fun a => chronicle.pure (f a)

theorem settle (chronicle : Chronicle related) (answer : Answer) :
    Silent related (settle answer) := by
  cases answer with
  | value v => exact chronicle.pure v
  | mismatch mismatch => exact chronicle.report mismatch
  | fault fault => exact chronicle.fail fault

theorem asValue (chronicle : Chronicle related) {evaluation : Eval Signal}
    (h : Chronicles related visits evaluation) :
    Chronicles related visits (asValue evaluation) := by
  apply chronicle.bind_silent h
  intro signal
  cases signal.toValue with
  | ok v => exact chronicle.pure v
  | error fault => exact chronicle.fail fault

theorem holds (chronicle : Chronicle related) {condition : Eval Value} (construct : Construct)
    (h : Chronicles related visits condition) :
    Chronicles related visits (holds construct condition) := by
  apply chronicle.bind_silent h
  intro v
  cases v.asBoolean? with
  | some b => exact chronicle.pure b
  | none => exact chronicle.bind_silent (chronicle.report _) fun _ => chronicle.pure false

theorem variableValue (chronicle : Chronicle related) (name : String) :
    Silent related (variableValue name) := by
  intro state
  rw [variableValue_apply]
  cases state.scopes.get? name <;> exact chronicle.refl state

theorem inScope (chronicle : Chronicle related) {evaluation : Eval α}
    (h : Chronicles related visits evaluation) :
    Chronicles related (fun state => visits state.push) (inScope evaluation) := by
  intro state
  have hvisits := chronicle.opened (h state.push)
  unfold Evaluation.inScope attempt
  cases hrun : evaluation state.push with
  | ok a after =>
      rw [hrun, Step.last_ok] at hvisits
      cases hpop : after.scopes.pop? with
      | none => simpa only [hpop, Step.last_error] using hvisits
      | some outer => simpa only [hpop, Step.last_ok] using chronicle.closed hvisits hpop
  | error stop after =>
      rw [hrun, Step.last_error] at hvisits
      cases stop with
      | abort abort => exact hvisits
      | fault fault =>
          cases hpop : after.scopes.pop? with
          | none => simpa only [hpop, Step.last_error] using hvisits
          | some outer => simpa only [hpop, Step.last_error] using chronicle.closed hvisits hpop

theorem repeatWhile (chronicle : Chronicle related) {condition : Eval Bool} {body : Eval Signal}
    {ofCondition ofBody : State → List Visit}
    (hcondition : Chronicles related ofCondition condition)
    (hbody : Chronicles related ofBody body) (left : Nat) :
    Chronicles related (courseOfLoop condition body ofCondition ofBody left)
      (repeatWhile condition body left) := by
  induction left with
  | zero => exact chronicle.refl
  | succ left ih =>
      apply chronicle.bind hcondition
      intro b
      cases b with
      | false => exact chronicle.pure _
      | true =>
          apply chronicle.bind hbody
          intro signal
          cases signal with
          | value v => exact ih
          | leave => exact chronicle.pure _
          | jump jump =>
              cases jump with
              | breakLoop => exact chronicle.pure _
              | nextRound => exact ih

end Chronicle

end Evaluation

namespace Run

open Evaluation

/-- The course of evaluating statements one after the other.  It goes on after a fault, and ends
where the sink is full. -/
def courseOfEach (rounds : Nat) : (statements : List Node) → Console → List Visit
  | [], _ => []
  | node :: others, console =>
    course rounds node (console.state.note (.statement node)) ++
      match perform rounds node console with
      | .ok _ after => courseOfEach rounds others after
      | .error _ _ => []

def courseOfProgram (rounds : Nat) (program : List Node) (console : Console) : List Visit :=
  courseOfEach rounds program (Step.last (note (.evaluating program.length) console))

/-- The course of programs that are evaluated one after the other on one state.  The next one is
evaluated also if the sink has been full. -/
def courseOfAll (rounds : Nat) : (programs : List (List Node)) → Console → List Visit
  | [], _ => []
  | program :: others, console =>
    courseOfProgram rounds program console ++
      match performAll rounds program console with
      | .ok _ after => courseOfAll rounds others after
      | .error (.failed _) after => courseOfAll rounds others after
      | .error (.aborted _) _ => []

def consoleAfter (rounds : Nat) : (programs : List (List Node)) → Console → Console
  | [], console => console
  | program :: others, console =>
    match performAll rounds program console with
    | .ok _ after => consoleAfter rounds others after
    | .error (.failed _) after => consoleAfter rounds others after
    | .error (.aborted _) after => after

theorem state_forM_emit (lines : List String) (console : Console) :
    (Step.last (lines.forM emit console)).state = console.state := by
  induction lines generalizing console with
  | nil => rfl
  | cons line others ih =>
      have hline : (Step.last (emit line console)).state = console.state := by
        simp only [emit]
        split <;> rfl
      change (Step.last ((emit line >>= fun _ => others.forM emit) console)).state = console.state
      rw [Step.bind_apply]
      cases hrun : emit line console with
      | ok result after =>
          rw [hrun] at hline
          exact (ih after).trans hline
      | error halt after =>
          rw [hrun] at hline
          exact hline

/-- A response has been found before its lines are written. -/
theorem state_perform (rounds : Nat) (node : Node) (console : Console) :
    (Step.last (perform rounds node console)).state =
      (Step.last (respond rounds node console)).state := by
  rw [perform, Step.bind_apply]
  cases respond rounds node console with
  | ok response after => exact state_forM_emit response.lines after
  | error halt after => rfl

theorem scopes_respond (rounds : Nat) (node : Node) (console : Console) :
    (Step.last (eval rounds node (console.state.note (.statement node)))).scopes =
        (Step.last (respond rounds node console)).state.scopes ∧
      (Step.last (eval rounds node (console.state.note (.statement node)))).functions =
        (Step.last (respond rounds node console)).state.functions := by
  rw [respond, respond_apply, asValue_apply]
  cases eval rounds node (console.state.note (.statement node)) with
  | error stop after => cases stop <;> exact ⟨rfl, rfl⟩
  | ok signal after => cases signal <;> exact ⟨rfl, rfl⟩

variable {related : State → List Visit → State → Prop}

theorem related_courseOfEach (chronicle : Chronicle related) {rounds : Nat} {program : List Node}
    (h : ∀ node ∈ program, Chronicles related (course rounds node) (eval rounds node))
    (console : Console) :
    related console.state (courseOfEach rounds program console)
      (Step.last (program.forM (perform rounds) console)).state := by
  induction program generalizing console with
  | nil => exact chronicle.refl console.state
  | cons node others ih =>
      obtain ⟨hnode, hothers⟩ := List.forall_mem_cons.1 h
      obtain ⟨hscopes, hfunctions⟩ := scopes_respond rounds node console
      rw [← state_perform] at hscopes hfunctions
      have hfirst : related console.state
          (course rounds node (console.state.note (.statement node)))
          (Step.last (perform rounds node console)).state :=
        chronicle.congr (hnode _) rfl rfl hscopes hfunctions
      rw [courseOfEach]
      change related _ _
        (Step.last ((perform rounds node >>= fun _ => others.forM (perform rounds)) console)).state
      rw [Step.bind_apply]
      cases hrun : perform rounds node console with
      | ok result after =>
          rw [hrun] at hfirst
          exact chronicle.trans hfirst (ih hothers after)
      | error halt after =>
          rw [hrun] at hfirst
          simp only [List.append_nil]
          exact hfirst

theorem related_courseOfAll (chronicle : Chronicle related) (rounds : Nat)
    (programs : List (List Node)) (h : ∀ program ∈ programs, ∀ node ∈ program,
      Chronicles related (course rounds node) (eval rounds node)) (console : Console) :
    related console.state (courseOfAll rounds programs console)
      (consoleAfter rounds programs console).state := by
  induction programs generalizing console with
  | nil => exact chronicle.refl console.state
  | cons program others ih =>
      obtain ⟨hprogram, hothers⟩ := List.forall_mem_cons.1 h
      have hfirst : related console.state (courseOfProgram rounds program console)
          (Step.last (performAll rounds program console)).state :=
        chronicle.congr (related_courseOfEach chronicle hprogram
          (Step.last (note (.evaluating program.length) console))) rfl rfl rfl rfl
      rw [courseOfAll, consoleAfter]
      cases hrun : performAll rounds program console with
      | ok result after =>
          rw [hrun] at hfirst
          exact chronicle.trans hfirst (ih hothers after)
      | error halt after =>
          rw [hrun] at hfirst
          cases halt with
          | failed failure => exact chronicle.trans hfirst (ih hothers after)
          | aborted abort =>
              simp only [List.append_nil]
              exact hfirst

end Run

end Script

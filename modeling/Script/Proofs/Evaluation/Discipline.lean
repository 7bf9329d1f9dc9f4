import Script.Evaluation.Response
import Script.Proofs.Scopes
import Script.Run.Console
/-!
# Scope discipline

However an evaluation ends, the frames around it are those from before it: a scope that has been
opened is closed by then, after a jump or a fault as well as after a value.  Only variables that the
tree declares or assigns to are affected.
-/

namespace Script

mutual

/-- The names that a tree declares or assigns to.  What stands in the body of a function does not
count, since it is not evaluated. -/
def Node.targets : Node → List String
  | .declaration name _ initial => name :: initial.targets
  | .assignment name value => name :: value.targets
  | .binary _ left right => left.targets ++ right.targets
  | .unary _ operand => operand.targets
  | .conditional condition onTrue onFalse =>
    condition.targets ++ (onTrue.targets ++ onFalse.targets)
  | .ifChain chain => chain.targets
  | .whileLoop condition body => condition.targets ++ targetsOfBody body
  | .returnValue value => value.targets
  | _ => []

def Chain.targets : Chain → List String
  | .done => []
  | .when condition body others => condition.targets ++ (targetsOfBody body ++ others.targets)
  | .always body others => targetsOfBody body ++ others.targets

def targetsOfBody : List Node → List String
  | [] => []
  | statement :: others => statement.targets ++ targetsOfBody others

end

namespace Evaluation

/-- Whether an evaluation that has started on the scopes `before` has ended properly: the scopes are
kept but for the variables among `targets`, and the stack has not been misused. -/
def Ends {α : Type} (targets : List String) (before : Scopes) : EStateM.Result Stop State α → Prop
  | .ok _ after => before.Keeps targets after.scopes
  | .error (.fault _) after => before.Keeps targets after.scopes
  | .error (.abort abort) _ => abort = .exhausted

def Disciplined {α : Type} (targets : List String) (evaluation : Eval α) : Prop :=
  ∀ state, Ends targets state.scopes (evaluation state)

theorem Ends.trans {α : Type} {targets : List String} {before middle : Scopes}
    {result : EStateM.Result Stop State α} (first : before.Keeps targets middle)
    (second : Ends targets middle result) : Ends targets before result := by
  cases result with
  | ok a after => exact first.trans second
  | error stop after =>
      cases stop with
      | fault fault => exact first.trans second
      | abort abort => exact second

/-- Where there is no result, it does not matter what the result would have been for. -/
theorem Ends.of_error {α β : Type} {targets : List String} {before : Scopes} {stop : Stop}
    {after : State} (h : Ends targets before (.error stop after : EStateM.Result Stop State α)) :
    Ends targets before (.error stop after : EStateM.Result Stop State β) := by
  cases stop with
  | fault fault => exact h
  | abort abort => exact h

namespace Disciplined

variable {α β : Type} {targets : List String}

theorem pure (a : α) : Disciplined targets (pure a) := fun state => .refl targets state.scopes

theorem fail (fault : Fault) : Disciplined targets (fail fault : Eval α) :=
  fun state => .refl targets state.scopes

theorem report (mismatch : Mismatch) : Disciplined targets (report mismatch) :=
  fun state => .refl targets state.scopes

theorem get : Disciplined targets (get : Eval State) := fun state => .refl targets state.scopes

theorem bind {first : Eval α} {next : α → Eval β} (hfirst : Disciplined targets first)
    (hnext : ∀ a, Disciplined targets (next a)) : Disciplined targets (first >>= next) := by
  intro state
  have hends := hfirst state
  rw [Step.bind_apply]
  cases hrun : first state with
  | ok a after =>
      rw [hrun] at hends
      exact Ends.trans hends (hnext a after)
  | error stop after =>
      rw [hrun] at hends
      exact hends.of_error

theorem map {evaluation : Eval α} (f : α → β) (h : Disciplined targets evaluation) :
    Disciplined targets (f <$> evaluation) :=
  bind h fun a => pure (f a)

theorem asValue {evaluation : Eval Signal} (h : Disciplined targets evaluation) :
    Disciplined targets (asValue evaluation) := by
  apply bind h
  intro signal
  cases signal.toValue with
  | ok v => exact pure v
  | error fault => exact fail fault

theorem settle (answer : Answer) : Disciplined targets (settle answer) := by
  cases answer with
  | value v => exact pure v
  | mismatch mismatch => exact report mismatch
  | fault fault => exact fail fault

theorem holds {condition : Eval Value} (construct : Construct)
    (h : Disciplined targets condition) : Disciplined targets (holds construct condition) := by
  apply bind h
  intro v
  cases v.asBoolean? with
  | some b => exact pure b
  | none => exact bind (report _) fun _ => pure false

theorem variableValue (name : String) : Disciplined targets (variableValue name) := by
  apply bind get
  intro state
  cases state.scopes.get? name with
  | some v => exact pure v
  | none => exact fail _

theorem declareVariable {initial : Eval Value} {name : String} (mem : name ∈ targets)
    (ascription : Option Ty) (h : Disciplined targets initial) :
    Disciplined targets (declareVariable name ascription initial) := by
  have hinsert : ∀ v : Value, Disciplined targets (do
      modify fun state => { state with scopes := state.scopes.insert name v }
      Pure.pure v : Eval Value) :=
    fun v state => Scopes.keeps_insert mem state.scopes v
  apply bind get
  intro state
  by_cases hbound : state.scopes.innermostBinds name
  · rw [if_pos hbound]
    exact fail _
  · rw [if_neg hbound]
    apply bind h
    intro v
    cases ascription.filter (· ≠ v.ty) with
    | some ty => exact fail _
    | none => exact hinsert v

/-- The frame that a name has been found in is still there when the value has been evaluated. -/
theorem assignVariable {value : Eval Value} {name : String} (mem : name ∈ targets)
    (h : Disciplined targets value) : Disciplined targets (assignVariable name value) := by
  intro state
  simp only [Evaluation.assignVariable, Step.bind_apply, Step.get_apply]
  cases hfind : state.scopes.find? name with
  | none => exact .refl targets state.scopes
  | some frame =>
      have hlt := Scopes.find?_lt hfind
      have hvalue := h state
      simp only [Step.bind_apply]
      cases hrun : value state with
      | error stop after =>
          rw [hrun] at hvalue
          exact hvalue.of_error
      | ok v after =>
          rw [hrun] at hvalue
          have hdepth := Scopes.Keeps.depth_eq hvalue
          simp only [Step.get_apply]
          cases hset : after.scopes.set? frame name v with
          | none =>
              have := (Scopes.set?_eq_none_iff _ _ _ _).1 hset
              omega
          | some scopes => exact Scopes.Keeps.trans hvalue (Scopes.keeps_set? mem hset)

theorem declareFunction (function : Function) :
    Disciplined targets (declareFunction function) := by
  apply bind get
  intro state
  by_cases hdeclared : state.declares function.signature.name
  · rw [if_pos hdeclared]
    exact fail _
  · rw [if_neg hdeclared]
    cases firstRepeat? [] (function.signature.parameters.map (·.name)) with
    | some name => exact fail _
    | none => exact fun state => .refl targets state.scopes

/-- A scope of its own is closed again, whichever way the evaluation inside of it ends. -/
theorem inScope {evaluation : Eval α} (h : Disciplined targets evaluation) :
    Disciplined targets (inScope evaluation) := by
  intro state
  have hends := h state.push
  unfold Evaluation.inScope attempt
  cases hrun : evaluation state.push with
  | ok a after =>
      rw [hrun] at hends
      obtain ⟨outer, hpop, hkeeps⟩ := Scopes.Keeps.exists_pop? hends
      simp only [hpop]
      exact hkeeps
  | error stop after =>
      rw [hrun] at hends
      cases stop with
      | fault fault =>
          obtain ⟨outer, hpop, hkeeps⟩ := Scopes.Keeps.exists_pop? hends
          simp only [hpop]
          exact hkeeps
      | abort abort => exact hends

theorem repeatWhile {condition : Eval Bool} {body : Eval Signal}
    (hcondition : Disciplined targets condition) (hbody : Disciplined targets body)
    (rounds : Nat) : Disciplined targets (repeatWhile condition body rounds) := by
  induction rounds with
  | zero => exact fun _ => rfl
  | succ rounds ih =>
      apply bind hcondition
      intro b
      cases b with
      | false => exact pure _
      | true =>
          apply bind hbody
          intro signal
          cases signal with
          | value v => exact ih
          | leave => exact pure _
          | jump jump =>
              cases jump with
              | breakLoop => exact pure _
              | nextRound => exact ih

end Disciplined

mutual

theorem disciplined_eval {targets : List String} (rounds : Nat) (node : Node)
    (sub : node.targets ⊆ targets) : Disciplined targets (eval rounds node) := by
  cases node with
  | literal v => exact .pure _
  | identifier name => exact .map _ (.variableValue name)
  | declaration name ascription initial =>
      obtain ⟨mem, sub⟩ := List.cons_subset.1 sub
      have hinitial := disciplined_eval rounds initial sub
      exact .map _ (.declareVariable mem ascription (.asValue hinitial))
  | assignment name value =>
      obtain ⟨mem, sub⟩ := List.cons_subset.1 sub
      have hvalue := disciplined_eval rounds value sub
      exact .map _ (.assignVariable mem (.asValue hvalue))
  | binary op left right =>
      obtain ⟨subLeft, subRight⟩ := List.append_subset.1 sub
      refine .bind (.asValue (disciplined_eval rounds left subLeft)) fun _ => ?_
      refine .bind (.asValue (disciplined_eval rounds right subRight)) fun _ => ?_
      exact .map _ (.settle _)
  | unary op operand =>
      refine .bind (.asValue (disciplined_eval rounds operand sub)) fun _ => ?_
      exact .map _ (.settle _)
  | conditional condition onTrue onFalse =>
      obtain ⟨subCondition, sub⟩ := List.append_subset.1 sub
      obtain ⟨subTrue, subFalse⟩ := List.append_subset.1 sub
      refine .bind (.asValue (disciplined_eval rounds condition subCondition)) fun v => ?_
      cases v.asBoolean? with
      | none => exact .map _ (.report _)
      | some b =>
          cases b with
          | true => exact .map _ (.asValue (disciplined_eval rounds onTrue subTrue))
          | false => exact .map _ (.asValue (disciplined_eval rounds onFalse subFalse))
  | ifChain chain => exact disciplined_evalChain rounds chain sub
  | whileLoop condition body =>
      obtain ⟨subCondition, subBody⟩ := List.append_subset.1 sub
      have hcondition := disciplined_eval rounds condition subCondition
      have hbody := disciplined_evalBody rounds .void body subBody
      exact .repeatWhile (.holds .whileLoop (.asValue hcondition)) (.inScope hbody) rounds
  | breakLoop => exact .pure _
  | nextRound => exact .pure _
  | function signature body => exact .bind (.declareFunction _) fun _ => .pure _
  | returnValue value =>
      exact .bind (.asValue (disciplined_eval rounds value sub)) fun _ => .pure _
  | malformed => exact .pure _
  | endOfInput => exact .pure _

theorem disciplined_evalChain {targets : List String} (rounds : Nat) (chain : Chain)
    (sub : chain.targets ⊆ targets) : Disciplined targets (evalChain rounds chain) := by
  cases chain with
  | done => exact .pure _
  | when condition body others =>
      obtain ⟨subCondition, sub⟩ := List.append_subset.1 sub
      obtain ⟨subBody, subOthers⟩ := List.append_subset.1 sub
      refine .bind (.holds .ifLink (.asValue (disciplined_eval rounds condition subCondition))) ?_
      intro b
      cases b with
      | true => exact .inScope (disciplined_evalBody rounds .void body subBody)
      | false => exact disciplined_evalChain rounds others subOthers
  | always body others =>
      obtain ⟨subBody, -⟩ := List.append_subset.1 sub
      exact .inScope (disciplined_evalBody rounds .void body subBody)

theorem disciplined_evalBody {targets : List String} (rounds : Nat) (last : Value)
    (body : List Node) (sub : targetsOfBody body ⊆ targets) :
    Disciplined targets (evalBody rounds last body) := by
  cases body with
  | nil => exact .pure _
  | cons statement others =>
      obtain ⟨subStatement, subOthers⟩ := List.append_subset.1 sub
      refine .bind (disciplined_eval rounds statement subStatement) fun signal => ?_
      cases signal with
      | value v => exact disciplined_evalBody rounds v others subOthers
      | jump jump => exact .pure _
      | leave => exact .pure _

end

end Evaluation

namespace Run

def performFirst (rounds n : Nat) (program : List Node) : Run Unit := do
  note (.evaluating program.length)
  (program.take n).forM (perform rounds)

theorem performAll_eq_bind (rounds n : Nat) (program : List Node) :
    performAll rounds program =
      performFirst rounds n program >>= fun _ => (program.drop n).forM (perform rounds) := by
  have hsplit : program.forM (perform rounds) =
      (program.take n).forM (perform rounds) >>= fun _ =>
        (program.drop n).forM (perform rounds) := by
    simp only [List.forM_eq_forM]
    rw [← List.forM_append, List.take_append_drop]
  rw [performAll, performFirst, hsplit, bind_assoc]

/-- Whether a run that starts with only the global frame ends with only that frame, unless its
rounds are used up. -/
def StaysGlobal {α : Type} (run : Run α) : Prop :=
  ∀ console : Console, console.state.scopes.enclosing = [] →
    match run console with
    | .ok _ after => after.state.scopes.enclosing = []
    | .error (.failed _) after => after.state.scopes.enclosing = []
    | .error (.aborted abort) _ => abort = .exhausted

namespace StaysGlobal

variable {α β : Type}

theorem bind {first : Run α} {next : α → Run β} (hfirst : StaysGlobal first)
    (hnext : ∀ a, StaysGlobal (next a)) : StaysGlobal (first >>= next) := by
  intro console hconsole
  have hends := hfirst console hconsole
  rw [Step.bind_apply]
  cases hrun : first console with
  | ok a after =>
      rw [hrun] at hends
      exact hnext a after hends
  | error halt after =>
      rw [hrun] at hends
      cases halt with
      | failed failure => exact hends
      | aborted abort => exact hends

theorem note (event : Event) : StaysGlobal (note event) := fun _ hconsole => hconsole

theorem emit (line : String) : StaysGlobal (emit line) := by
  intro console hconsole
  unfold Run.emit
  by_cases haccepts : console.sink.accepts (line ++ "\n").toUTF8
  · simp only [haccepts]
    exact hconsole
  · simp only [haccepts]
    exact hconsole

theorem forM {f : α → Run Unit} (h : ∀ a, StaysGlobal (f a)) (elements : List α) :
    StaysGlobal (elements.forM f) := by
  induction elements with
  | nil => exact fun _ hconsole => hconsole
  | cons first others ih => exact bind (h first) fun _ => ih

theorem respond (rounds : Nat) (node : Node) : StaysGlobal (respond rounds node) := by
  intro console hconsole
  have hends := Evaluation.Disciplined.asValue
    (Evaluation.disciplined_eval rounds node (List.Subset.refl _))
    (console.state.note (.statement node))
  have hglobal : ∀ {after : Scopes}, console.state.scopes.Keeps node.targets after →
      after.enclosing = [] := by
    intro after hkeeps
    have hlength := hkeeps.enclosing.length_eq
    rw [hconsole] at hlength
    exact List.eq_nil_of_length_eq_zero hlength.symm
  rw [Run.respond, Evaluation.respond_apply]
  cases hrun : Evaluation.asValue (Evaluation.eval rounds node)
      (console.state.note (.statement node)) with
  | ok v after =>
      rw [hrun] at hends
      exact hglobal hends
  | error stop after =>
      rw [hrun] at hends
      cases stop with
      | fault fault => exact hglobal hends
      | abort abort => exact hends

theorem perform (rounds : Nat) (node : Node) : StaysGlobal (perform rounds node) :=
  bind (respond rounds node) fun response => forM emit response.lines

end StaysGlobal

end Run

open Evaluation

/-- Evaluating a tree leaves as many frames as there were, with the same names in each, except that
the innermost one may have more, and with the same values of all names that the tree neither
declares nor assigns to.  The stack is never misused on the way.  So only the global frame is left
after each statement of a run. -/
theorem scopes_kept (rounds : Nat) :
    (∀ (node : Node) (state : State),
      match eval rounds node state with
      | .ok _ after =>
        after.scopes.depth = state.scopes.depth ∧ state.scopes.Keeps node.targets after.scopes
      | .error (.fault _) after =>
        after.scopes.depth = state.scopes.depth ∧ state.scopes.Keeps node.targets after.scopes
      | .error (.abort abort) _ => abort = .exhausted) ∧
    ∀ (program : List Node) (n : Nat),
      (Run.performAll rounds program =
        Run.performFirst rounds n program >>= fun _ =>
          (program.drop n).forM (Run.perform rounds)) ∧
      ∀ (log : Log) (sink : Sink),
        match Run.performFirst rounds n program ⟨.fresh log, sink⟩ with
        | .ok _ after => after.state.scopes.enclosing = []
        | .error (.failed _) after => after.state.scopes.enclosing = []
        | .error (.aborted abort) _ => abort = .exhausted := by
  constructor
  · intro node state
    have hends := disciplined_eval rounds node (List.Subset.refl _) state
    cases hrun : eval rounds node state with
    | ok signal after =>
        rw [hrun] at hends
        exact ⟨Scopes.Keeps.depth_eq hends, hends⟩
    | error stop after =>
        rw [hrun] at hends
        cases stop with
        | fault fault => exact ⟨Scopes.Keeps.depth_eq hends, hends⟩
        | abort abort => exact hends
  · intro program n
    refine ⟨Run.performAll_eq_bind rounds n program, fun log sink => ?_⟩
    have hfirst : Run.StaysGlobal (Run.performFirst rounds n program) :=
      .bind (.note _) fun _ => .forM (.perform rounds) _
    have hends := hfirst ⟨.fresh log, sink⟩ rfl
    cases hrun : Run.performFirst rounds n program ⟨.fresh log, sink⟩ with
    | ok result after =>
        rw [hrun] at hends
        exact hends
    | error halt after =>
        rw [hrun] at hends
        cases halt with
        | failed failure => exact hends
        | aborted abort => exact hends

end Script

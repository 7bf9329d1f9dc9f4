import Script.Proofs.Evaluation.Resolution
import Script.Proofs.Grammar.Program
/-!
# Jumps

A jump is taken up by the innermost loop around it, and nothing but a loop takes one up.  So the
jumps that can come out of a statement are told by its text, and a jump is a fault only where one
comes out of a statement that stands in no body.
-/

namespace Script

open Evaluation (Signal)

mutual

/-- The jumps that can come out of a tree: those in its text that stand in no body of a loop, and
each `return`.  What stands in the body of a function does not count, since it is not evaluated. -/
def Node.exits : Node → List Signal
  | .declaration _ _ initial => initial.exits
  | .assignment _ value => value.exits
  | .binary _ left right => left.exits ++ right.exits
  | .unary _ operand => operand.exits
  | .conditional condition onTrue onFalse => condition.exits ++ (onTrue.exits ++ onFalse.exits)
  | .ifChain chain => chain.exits
  | .whileLoop condition body => condition.exits ++ (exitsOfBody body).filter (· = .leave)
  | .breakLoop => [.jump .breakLoop]
  | .nextRound => [.jump .nextRound]
  | .returnValue value => .leave :: value.exits
  | _ => []

def Chain.exits : Chain → List Signal
  | .done => []
  | .when condition body others => condition.exits ++ (exitsOfBody body ++ others.exits)
  | .always body others => exitsOfBody body ++ others.exits

def exitsOfBody : List Node → List Signal
  | [] => []
  | statement :: others => statement.exits ++ exitsOfBody others

end

namespace Evaluation

def Signal.IsWithin (exits : List Signal) (signal : Signal) : Prop :=
  (∃ v, signal = .value v) ∨ signal ∈ exits

theorem Signal.isWithin_value (exits : List Signal) (v : Value) : (value v).IsWithin exits :=
  .inl ⟨v, rfl⟩

theorem Signal.IsWithin.mono {exits exits' : List Signal} {signal : Signal}
    (h : signal.IsWithin exits) (sub : exits ⊆ exits') : signal.IsWithin exits' :=
  h.imp_right fun mem => sub mem

/-- Whether a fault is that a jump has not been taken up. -/
inductive Fault.IsOfJump : Fault → Prop
  | jumpOutsideLoop (jump : Jump) : Fault.IsOfJump (.jumpOutsideLoop jump)
  | returnOutsideFunction : Fault.IsOfJump .returnOutsideFunction

theorem Fault.IsArithmetic.not_isOfJump {fault : Fault} (h : fault.IsArithmetic) :
    ¬ fault.IsOfJump := by
  cases h <;> rintro ⟨⟩

/-- Whether an evaluation has none but the allowed results and never fails for a jump. -/
def Confined {α : Type} (allowed : α → Prop) (evaluation : Eval α) : Prop :=
  ∀ state, match evaluation state with
    | .ok a _ => allowed a
    | .error (.fault fault) _ => ¬ fault.IsOfJump
    | .error (.abort _) _ => True

namespace Confined

variable {α β : Type} {allowed : α → Prop} {allowed' : β → Prop} {exits exits' : List Signal}

theorem pure {a : α} (h : allowed a) : Confined allowed (pure a) := fun _ => h

theorem fail {fault : Fault} (h : ¬ fault.IsOfJump) : Confined allowed (fail fault) := fun _ => h

theorem bind {first : Eval α} {next : α → Eval β} (hfirst : Confined allowed first)
    (hnext : ∀ a, allowed a → Confined allowed' (next a)) :
    Confined allowed' (first >>= next) := by
  intro state
  have hends := hfirst state
  rw [Step.bind_apply]
  cases hrun : first state with
  | ok a after =>
      rw [hrun] at hends
      exact hnext a hends after
  | error stop after =>
      rw [hrun] at hends
      cases stop with
      | fault fault => exact hends
      | abort abort => trivial

theorem map {evaluation : Eval α} {f : α → β} (h : Confined allowed evaluation)
    (hf : ∀ a, allowed a → allowed' (f a)) : Confined allowed' (f <$> evaluation) :=
  bind h fun a ha => pure (hf a ha)

theorem mono {evaluation : Eval Signal} (h : Confined (Signal.IsWithin exits) evaluation)
    (sub : exits ⊆ exits') : Confined (Signal.IsWithin exits') evaluation := by
  intro state
  have hends := h state
  cases hrun : evaluation state with
  | ok signal after =>
      rw [hrun] at hends
      exact Signal.IsWithin.mono hends sub
  | error stop after =>
      rw [hrun] at hends
      cases stop with
      | fault fault => exact hends
      | abort abort => trivial

theorem value {evaluation : Eval Value} (h : Confined (fun _ => True) evaluation) :
    Confined (Signal.IsWithin exits) (.value <$> evaluation) :=
  map h fun v _ => Signal.isWithin_value exits v

/-- Where no jump can come out, asking for a value is no reason to fail. -/
theorem asValue {evaluation : Eval Signal} (h : Confined (Signal.IsWithin []) evaluation) :
    Confined (fun _ => True) (asValue evaluation) := by
  refine bind h fun signal hsignal => ?_
  obtain ⟨v, rfl⟩ | mem := hsignal
  · exact pure trivial
  · cases mem

theorem report (mismatch : Mismatch) : Confined (fun _ => True) (report mismatch) :=
  fun _ => trivial

theorem settle {answer : Answer} (h : ∀ fault, answer = .fault fault → fault.IsArithmetic) :
    Confined (fun _ => True) (settle answer) := by
  cases answer with
  | value v => exact pure trivial
  | mismatch mismatch => exact report mismatch
  | fault fault => exact fail (h fault rfl).not_isOfJump

theorem holds {condition : Eval Value} (construct : Construct)
    (h : Confined (fun _ => True) condition) :
    Confined (fun _ => True) (holds construct condition) := by
  refine bind h fun v _ => ?_
  cases v.asBoolean? with
  | some b => exact pure trivial
  | none => exact bind (report _) fun _ _ => pure trivial

theorem variableValue (name : String) : Confined (fun _ => True) (variableValue name) := by
  intro state
  rw [variableValue_apply]
  cases state.scopes.get? name with
  | some v => trivial
  | none => rintro ⟨⟩

theorem declareVariable {initial : Eval Value} (name : String) (ascription : Option Ty)
    (h : Confined (fun _ => True) initial) :
    Confined (fun _ => True) (declareVariable name ascription initial) := by
  intro state
  rw [Evaluation.declareVariable, Step.get_bind]
  by_cases hbound : state.scopes.innermostBinds name
  · rw [if_pos hbound]
    rintro ⟨⟩
  · rw [if_neg hbound]
    refine bind h (fun v _ => ?_) state
    cases ascription.filter (· ≠ v.ty) with
    | some ty => exact fail (by rintro ⟨⟩)
    | none => exact fun _ => trivial

theorem assignVariable {value : Eval Value} (name : String)
    (h : Confined (fun _ => True) value) :
    Confined (fun _ => True) (assignVariable name value) := by
  intro state
  rw [Evaluation.assignVariable, Step.get_bind]
  cases state.scopes.find? name with
  | none => rintro ⟨⟩
  | some frame =>
      refine bind h (fun v _ last => ?_) state
      rw [Step.get_bind]
      cases last.scopes.set? frame name v with
      | none => trivial
      | some scopes => trivial

theorem declareFunction (function : Function) :
    Confined (fun _ => True) (declareFunction function) := by
  intro state
  rw [Evaluation.declareFunction, Step.get_bind]
  by_cases hdeclared : state.declares function.signature.name
  · rw [if_pos hdeclared]
    rintro ⟨⟩
  · rw [if_neg hdeclared]
    cases firstRepeat? [] (function.signature.parameters.map (·.name)) with
    | some name => rintro ⟨⟩
    | none => trivial

theorem inScope {evaluation : Eval α} (h : Confined allowed evaluation) :
    Confined allowed (inScope evaluation) := by
  intro state
  have hends := h state.push
  unfold Evaluation.inScope attempt
  cases hrun : evaluation state.push with
  | ok a after =>
      rw [hrun] at hends
      cases hpop : after.scopes.pop? with
      | none => simp only [hpop]
      | some outer => simpa only [hpop] using hends
  | error stop after =>
      rw [hrun] at hends
      cases stop with
      | abort abort => trivial
      | fault fault =>
          cases hpop : after.scopes.pop? with
          | none => simp only [hpop]
          | some outer => simpa only [hpop] using hends

/-- A loop takes up the jumps of its body, except for a `return`. -/
theorem repeatWhile {condition : Eval Bool} {body : Eval Signal}
    (hcondition : Confined (fun _ => True) condition)
    (hbody : Confined (Signal.IsWithin exits) body) (rounds : Nat) :
    Confined (Signal.IsWithin (exits.filter (· = .leave))) (repeatWhile condition body rounds) := by
  induction rounds with
  | zero => exact fun _ => trivial
  | succ rounds ih =>
      refine bind hcondition fun b _ => ?_
      cases b with
      | false => exact pure (Signal.isWithin_value _ _)
      | true =>
          refine bind hbody fun signal hsignal => ?_
          cases signal with
          | value v => exact ih
          | leave =>
              obtain ⟨v, hv⟩ | mem := hsignal
              · cases hv
              · exact pure (.inr (List.mem_filter.2 ⟨mem, rfl⟩))
          | jump jump =>
              cases jump with
              | breakLoop => exact pure (Signal.isWithin_value _ _)
              | nextRound => exact ih

end Confined

theorem confined_eval_of_isExpression {level : Nat} {node : Node} (h : node.IsExpression level)
    (rounds : Nat) : Confined (Signal.IsWithin []) (eval rounds node) := by
  induction h with
  | literal => exact .pure (Signal.isWithin_value _ _)
  | identifier => exact .value (.variableValue _)
  | unary _ ih =>
      exact .bind (.asValue ih) fun v _ => .value (.settle fun _ => isArithmetic_of_unary)
  | binary _ _ _ ihLeft ihRight =>
      refine .bind (.asValue ihLeft) fun l _ => .bind (.asValue ihRight) fun r _ => ?_
      exact .value (.settle fun _ => isArithmetic_of_binary)
  | conditional _ _ _ _ ihCondition ihTrue ihFalse =>
      refine .bind (.asValue ihCondition) fun v _ => ?_
      cases v.asBoolean? with
      | none => exact .value (.report _)
      | some b =>
          cases b with
          | true => exact .value (.asValue ihTrue)
          | false => exact .value (.asValue ihFalse)

theorem exits_of_isExpression {level : Nat} {node : Node} (h : node.IsExpression level) :
    node.exits = [] := by
  induction h with
  | literal | identifier => rfl
  | unary _ ih => exact ih
  | binary _ _ _ ihLeft ihRight => rw [Node.exits, ihLeft, ihRight, List.nil_append]
  | conditional _ _ _ _ ihCondition ihTrue ihFalse =>
      rw [Node.exits, ihCondition, ihTrue, ihFalse, List.nil_append, List.nil_append]

/-- The first link of an `if` that applies is the only one whose body is evaluated. -/
theorem Confined.when {rounds : Nat} {condition : Node} {body : List Node} {others : Chain}
    (head : condition.IsExpression BinaryOp.loosest)
    (hbody : Confined (Signal.IsWithin (exitsOfBody body)) (evalBody rounds .void body))
    (hothers : Confined (Signal.IsWithin others.exits) (evalChain rounds others)) :
    Confined (Signal.IsWithin (Chain.when condition body others).exits)
      (evalChain rounds (.when condition body others)) := by
  have hcondition := Confined.asValue (confined_eval_of_isExpression head rounds)
  refine Confined.mono ?_ (List.subset_append_right condition.exits _)
  refine .bind (.holds .ifLink hcondition) fun b _ => ?_
  cases b with
  | true => exact hbody.inScope.mono (List.subset_append_left _ _)
  | false => exact hothers.mono (List.subset_append_right _ _)

mutual

theorem confined_eval (rounds : Nat) (node : Node) (h : node.IsStatement) :
    Confined (Signal.IsWithin node.exits) (eval rounds node) := by
  cases h with
  | declaration value =>
      have hvalue := confined_eval_of_isExpression value rounds
      exact .value (.declareVariable _ _ (.asValue hvalue))
  | assignment value =>
      have hvalue := confined_eval_of_isExpression value rounds
      exact .value (.assignVariable _ (.asValue hvalue))
  | @ifChain chain links => exact confined_evalChain rounds chain links
  | @whileLoop condition body head statements =>
      have hcondition := Confined.asValue (confined_eval_of_isExpression head rounds)
      have hbody := confined_evalBody rounds .void body statements
      refine Confined.mono ?_ (List.subset_append_right condition.exits _)
      exact .repeatWhile (.holds .whileLoop hcondition) hbody.inScope rounds
  | breakLoop => exact .pure (.inr (List.mem_singleton_self _))
  | nextRound => exact .pure (.inr (List.mem_singleton_self _))
  | function => exact .bind (.declareFunction _) fun _ _ => .pure (Signal.isWithin_value _ _)
  | returnValue value =>
      have hvalue := confined_eval_of_isExpression value rounds
      exact .bind (.asValue hvalue) fun _ _ => .pure (.inr List.mem_cons_self)
  | expression value =>
      exact (confined_eval_of_isExpression value rounds).mono (List.nil_subset _)

theorem confined_evalChain (rounds : Nat) (chain : Chain) (h : chain.IsIf) :
    Confined (Signal.IsWithin chain.exits) (evalChain rounds chain) := by
  cases h with
  | @last condition body head statements =>
      have hbody := confined_evalBody rounds .void body statements
      exact .when head hbody (.pure (Signal.isWithin_value _ _))
  | @otherwise condition body final head statements finals =>
      have hbody := confined_evalBody rounds .void body statements
      have hfinal := confined_evalBody rounds .void final finals
      exact .when head hbody (hfinal.inScope.mono (List.subset_append_left _ _))
  | @link condition body others head statements links =>
      have hbody := confined_evalBody rounds .void body statements
      exact .when head hbody (confined_evalChain rounds others links)

theorem confined_evalBody (rounds : Nat) (last : Value) (body : List Node)
    (h : ∀ node ∈ body, node.IsStatement) :
    Confined (Signal.IsWithin (exitsOfBody body)) (evalBody rounds last body) := by
  cases body with
  | nil => exact .pure (Signal.isWithin_value _ _)
  | cons statement others =>
      obtain ⟨hstatement, hothers⟩ := List.forall_mem_cons.1 h
      refine .bind (confined_eval rounds statement hstatement) fun signal hsignal => ?_
      have hkept := hsignal.mono (List.subset_append_left _ (exitsOfBody others))
      cases signal with
      | value v =>
          exact (confined_evalBody rounds v others hothers).mono (List.subset_append_right _ _)
      | jump jump => exact .pure hkept
      | leave => exact .pure hkept

end

/-- No jump but a `return` comes out of a loop. -/
theorem jump_not_mem_exits {condition : Node} {body : List Node}
    (h : (Node.whileLoop condition body).IsStatement) (jump : Jump) :
    .jump jump ∉ (Node.whileLoop condition body).exits := by
  cases h with
  | whileLoop head _ => simp [Node.exits, exits_of_isExpression head]
  | expression value => cases value

/-- A fault in a response has ended the evaluation, or is a jump that has come out of it. -/
theorem exists_of_respond_eq {rounds : Nat} {node : Node} {state after : State}
    {response : Response} {fault : Fault} (h : respond rounds node state = .ok response after)
    (hresult : response.result = .error fault) :
    ∃ last, eval rounds node (state.note (.statement node)) = .error (.fault fault) last ∨
      ∃ signal, eval rounds node (state.note (.statement node)) = .ok signal last ∧
        signal.toValue = .error fault := by
  rw [respond_apply, asValue_apply] at h
  generalize eval rounds node (state.note (.statement node)) = result at h ⊢
  cases result with
  | ok signal last =>
      refine ⟨last, .inr ⟨signal, rfl, ?_⟩⟩
      cases signal <;> cases h
      · cases hresult
      · exact hresult
      · exact hresult
  | error stop last =>
      cases stop with
      | abort abort => cases h
      | fault found =>
          cases h
          cases hresult
          exact ⟨last, .inl rfl⟩

/-- A statement of the grammar ends in a jump only if its text holds that jump outside of all bodies
of loops in it, or holds a `return`, and a loop does not end in a jump that a loop takes up.  Inside
of a statement no jump is a fault.  So the response to a statement tells of a jump that has not been
taken up only if the statement holds it in this way. -/
theorem eval_mem_exits {node : Node} (h : node.IsStatement) (rounds : Nat) (state : State) :
    (∀ jump after, eval rounds node state = .ok (.jump jump) after →
      .jump jump ∈ node.exits ∧ ∀ condition body, node ≠ .whileLoop condition body) ∧
    (∀ after, eval rounds node state = .ok .leave after → .leave ∈ node.exits) ∧
    (∀ fault after, eval rounds node state = .error (.fault fault) after →
      (∀ jump, fault ≠ .jumpOutsideLoop jump) ∧ fault ≠ .returnOutsideFunction) ∧
    ∀ response after, respond rounds node state = .ok response after →
      (∀ jump, response.result = .error (.jumpOutsideLoop jump) → .jump jump ∈ node.exits) ∧
      (response.result = .error .returnOutsideFunction → .leave ∈ node.exits) := by
  -- that the evaluation is confined is used in two ways: for its results and for its faults
  have hvalues (state : State) := confined_eval rounds node h state
  have hexits {signal : Signal} {state after : State}
      (hrun : eval rounds node state = .ok signal after) (hsignal : ∀ v, signal ≠ .value v) :
      signal ∈ node.exits := by
    have hwithin := hvalues state
    rw [hrun] at hwithin
    exact hwithin.resolve_left fun ⟨v, hv⟩ => hsignal v hv
  have hfaults {fault : Fault} {state after : State}
      (hrun : eval rounds node state = .error (.fault fault) after) : ¬ fault.IsOfJump := by
    have hfault := hvalues state
    rwa [hrun] at hfault
  refine ⟨fun jump after hrun => ?_, fun after hrun => ?_, fun fault after hrun => ?_, ?_⟩
  · have mem := hexits hrun (by rintro v ⟨⟩)
    refine ⟨mem, ?_⟩
    rintro condition body rfl
    exact jump_not_mem_exits h jump mem
  · exact hexits hrun (by rintro v ⟨⟩)
  · refine ⟨?_, ?_⟩
    · rintro jump rfl
      exact hfaults hrun (.jumpOutsideLoop jump)
    · rintro rfl
      exact hfaults hrun .returnOutsideFunction
  · intro response after hrespond
    constructor
    · intro jump hresult
      obtain ⟨last, hrun | ⟨signal, hrun, hjump⟩⟩ := exists_of_respond_eq hrespond hresult
      · exact absurd (.jumpOutsideLoop jump) (hfaults hrun)
      · cases signal with
        | value v => cases hjump
        | leave => cases hjump
        | jump found =>
            cases hjump
            exact hexits hrun (by rintro v ⟨⟩)
    · intro hresult
      obtain ⟨last, hrun | ⟨signal, hrun, hleave⟩⟩ := exists_of_respond_eq hrespond hresult
      · exact absurd .returnOutsideFunction (hfaults hrun)
      · cases signal with
        | value v => cases hleave
        | jump jump => cases hleave
        | leave => exact hexits hrun (by rintro v ⟨⟩)

def strayNext : Node :=
  let always := .literal (.boolean true)
  .ifChain (.when always [.whileLoop always [.breakLoop], .nextRound] .done)

/-- The jump after the loop comes out of the statement, and the one in the loop does not. -/
theorem respond_strayNext :
    strayNext.IsStatement ∧ ∃ after, respond 2 strayNext (.fresh (.empty .error)) =
      .ok ⟨[], .error (.jumpOutsideLoop .nextRound)⟩ after ∧
        .jump .nextRound ∈ strayNext.exits ∧ .jump .breakLoop ∉ strayNext.exits := by
  have always {level : Nat} : (Node.literal (.boolean true)).IsExpression level :=
    .literal (by rintro ⟨⟩)
  have loop : (Node.whileLoop (.literal (.boolean true)) [.breakLoop]).IsStatement :=
    .whileLoop always (List.forall_mem_singleton.2 .breakLoop)
  have h : strayNext.IsStatement :=
    .ifChain (.last always (List.forall_mem_cons.2 ⟨loop, List.forall_mem_singleton.2 .nextRound⟩))
  have hrespond : ∃ after, respond 2 strayNext (.fresh (.empty .error)) =
      .ok ⟨[], .error (.jumpOutsideLoop .nextRound)⟩ after := ⟨_, rfl⟩
  obtain ⟨after, hafter⟩ := hrespond
  obtain ⟨-, -, -, hresponse⟩ := eval_mem_exits h 2 (.fresh (.empty .error))
  exact ⟨h, after, hafter, (hresponse _ after hafter).1 .nextRound rfl, by decide⟩

end Evaluation

end Script

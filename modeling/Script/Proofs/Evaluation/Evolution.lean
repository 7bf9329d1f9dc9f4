import Script.Evaluation.Response
import Script.Proofs.Grammar.Spelling
/-!
# Evaluations as sequences of changes

An evaluation changes the state in a few ways only: it reports, binds variables, opens and closes
scopes, and declares functions.  What holds between the states before and after each such change
holds between those before and after an evaluation, however this ends.  Reports and faults mention
no names but those in the tree.
-/

namespace Script

open Evaluation

def Evaluation.Mismatch.MentionsOnly (allowed : String → Prop) : Mismatch → Prop
  | initial name _ _ => allowed name
  | _ => True

def Evaluation.Fault.MentionsOnly (allowed : String → Prop) : Fault → Prop
  | redeclared name | undefined name => allowed name
  | mismatch m => m.MentionsOnly allowed
  | _ => True

def Evaluation.Answer.MentionsOnly (allowed : String → Prop) : Answer → Prop
  | value _ => True
  | mismatch m => m.MentionsOnly allowed
  | fault f => f.MentionsOnly allowed

structure Evaluation.Response.MentionsOnly (allowed : String → Prop) (response : Response) :
    Prop where
  reports : ∀ mismatch ∈ response.reports, mismatch.MentionsOnly allowed
  result : ∀ fault, response.result = .error fault → fault.MentionsOnly allowed

def Terminal.MentionsOnly (allowed : String → Prop) : Terminal → Prop
  | identifier name => allowed name
  | _ => True

namespace Evaluation

variable {allowed : String → Prop}

theorem mentionsOnly_unfit (op : BinaryOp) (left right : Value) :
    (unfit op left right).MentionsOnly allowed := by
  unfold unfit
  split <;> trivial

theorem mentionsOnly_ranged (computation : Overflow) (n : Int) :
    (ranged computation n).MentionsOnly allowed := by
  unfold ranged
  split <;> trivial

theorem mentionsOnly_arithmetic (op : ArithmeticOp) (left right : Integer) :
    (arithmetic op left right).MentionsOnly allowed := by
  cases op with
  | add | subtract | multiply => exact mentionsOnly_ranged _ _
  | divide =>
      rw [arithmetic]
      split
      · trivial
      · exact mentionsOnly_ranged _ _
  | remainder =>
      rw [arithmetic]
      split
      · trivial
      · split
        · exact mentionsOnly_ranged _ _
        · trivial

theorem mentionsOnly_binary (op : BinaryOp) (left right : Value) :
    (binary op left right).MentionsOnly allowed := by
  unfold binary
  split
  case h_5 | h_6 => split <;> trivial
  case h_8 | h_11 => exact mentionsOnly_unfit _ _ _
  case h_9 => exact mentionsOnly_arithmetic _ _ _
  all_goals trivial

theorem mentionsOnly_unary (op : UnaryOp) (operand : Value) :
    (unary op operand).MentionsOnly allowed := by
  unfold unary
  split
  · trivial
  · exact mentionsOnly_ranged _ _
  · trivial

theorem firstRepeat?_mem {seen names : List String} {name : String}
    (h : firstRepeat? seen names = some name) : name ∈ names := by
  induction names generalizing seen with
  | nil => cases h
  | cons first others ih =>
      rw [firstRepeat?] at h
      split at h
      · cases h
        exact List.mem_cons_self
      · exact List.mem_cons_of_mem _ (ih h)

theorem allowed_of_spellParameters {parameters : List Parameter}
    (h : ∀ terminal ∈ spellParameters parameters, terminal.MentionsOnly allowed) :
    ∀ name ∈ parameters.map (·.name), allowed name := by
  induction parameters with
  | nil => simp
  | cons first others ih =>
      rw [List.map_cons, List.forall_mem_cons]
      cases others with
      | nil => exact ⟨h (.identifier first.name) List.mem_cons_self, by simp⟩
      | cons second others =>
          rw [spellParameters, List.forall_mem_append, List.forall_mem_cons] at h
          exact ⟨h.1 (.identifier first.name) List.mem_cons_self, ih h.2.2⟩

/-- Whether a relation holds between the states before and after each single change that an
evaluation makes, where reports mention allowed names only, and so between those before and after
any number of changes. -/
structure Evolution (allowed : String → Prop) (related : State → State → Prop) : Prop where
  refl (state : State) : related state state
  trans {first second third : State} :
    related first second → related second third → related first third
  report (state : State) {mismatch : Mismatch} (mentions : mismatch.MentionsOnly allowed) :
    related state (state.report mismatch)
  rescope (state : State) (scopes : Scopes) : related state { state with scopes }
  push (state : State) : related state state.push
  leave (state : State) (scopes : Scopes) : related state (state.leave scopes)
  declare (state : State) {function : Function}
    (undeclared : state.declares function.signature.name = false) :
    related state (state.declare function)

/-- Whether the relation holds between the states before and after an evaluation, whichever way it
ends, and a fault mentions allowed names only. -/
def Evolves {α : Type} (allowed : String → Prop) (related : State → State → Prop)
    (evaluation : Eval α) : Prop :=
  ∀ state, match evaluation state with
    | .ok _ after | .error (.abort _) after => related state after
    | .error (.fault fault) after => related state after ∧ fault.MentionsOnly allowed

namespace Evolution

variable {α β : Type} {related : State → State → Prop} (h : Evolution allowed related)

include h

theorem pure (a : α) : Evolves allowed related (Pure.pure a) := fun state => h.refl state

theorem get : Evolves allowed related (MonadState.get : Eval State) := fun state => h.refl state

theorem fail {fault : Fault} (mentions : fault.MentionsOnly allowed) :
    Evolves allowed related (fail fault : Eval α) :=
  fun state => ⟨h.refl state, mentions⟩

theorem report_false {mismatch : Mismatch} (mentions : mismatch.MentionsOnly allowed) :
    Evolves allowed related (Evaluation.report mismatch) :=
  fun state => h.report state mentions

theorem bind {first : Eval α} {next : α → Eval β} (hfirst : Evolves allowed related first)
    (hnext : ∀ a, Evolves allowed related (next a)) : Evolves allowed related (first >>= next) := by
  intro state
  have hbefore := hfirst state
  rw [Step.bind_apply]
  cases hrun : first state with
  | error stop middle =>
      rw [hrun] at hbefore
      cases stop with
      | fault fault => exact hbefore
      | abort abort => exact hbefore
  | ok a middle =>
      rw [hrun] at hbefore
      have hafter := hnext a middle
      simp only
      cases hlast : next a middle with
      | ok b after =>
          rw [hlast] at hafter
          exact h.trans hbefore hafter
      | error stop after =>
          rw [hlast] at hafter
          cases stop with
          | fault fault => exact ⟨h.trans hbefore hafter.1, hafter.2⟩
          | abort abort => exact h.trans hbefore hafter

theorem map {evaluation : Eval α} (f : α → β) (hevaluation : Evolves allowed related evaluation) :
    Evolves allowed related (f <$> evaluation) :=
  h.bind hevaluation fun a => h.pure (f a)

theorem asValue {evaluation : Eval Signal} (hevaluation : Evolves allowed related evaluation) :
    Evolves allowed related (asValue evaluation) := by
  apply h.bind hevaluation
  intro signal
  cases signal with
  | value v => exact h.pure v
  | jump jump => exact h.fail trivial
  | leave => exact h.fail trivial

theorem settle {answer : Answer} (mentions : answer.MentionsOnly allowed) :
    Evolves allowed related (settle answer) := by
  cases answer with
  | value v => exact h.pure v
  | mismatch mismatch => exact h.report_false mentions
  | fault fault => exact h.fail mentions

theorem holds {condition : Eval Value} (construct : Construct)
    (hcondition : Evolves allowed related condition) :
    Evolves allowed related (holds construct condition) := by
  apply h.bind hcondition
  intro v
  cases v.asBoolean? with
  | some b => exact h.pure b
  | none => exact h.bind (h.report_false trivial) fun _ => h.pure false

theorem variableValue {name : String} (hname : allowed name) :
    Evolves allowed related (variableValue name) := by
  apply h.bind h.get
  intro state
  cases state.scopes.get? name with
  | some v => exact h.pure v
  | none => exact h.fail hname

theorem declareVariable {initial : Eval Value} {name : String} (hname : allowed name)
    (ascription : Option Ty) (hinitial : Evolves allowed related initial) :
    Evolves allowed related (declareVariable name ascription initial) := by
  apply h.bind h.get
  intro state
  by_cases hbound : state.scopes.innermostBinds name
  · rw [if_pos hbound]
    exact h.fail hname
  · rw [if_neg hbound]
    apply h.bind hinitial
    intro v
    cases ascription.filter (· ≠ v.ty) with
    | some ty => exact h.fail hname
    | none => exact fun state => h.rescope state (state.scopes.insert name v)

theorem assignVariable {value : Eval Value} {name : String} (hname : allowed name)
    (hvalue : Evolves allowed related value) :
    Evolves allowed related (assignVariable name value) := by
  apply h.bind h.get
  intro state
  cases state.scopes.find? name with
  | none => exact h.fail hname
  | some frame =>
      apply h.bind hvalue
      intro v after
      rw [Step.get_bind]
      cases after.scopes.set? frame name v with
      | none => exact h.refl after
      | some scopes => exact h.rescope after scopes

theorem declareFunction {function : Function} (hname : allowed function.signature.name)
    (hparameters : ∀ name ∈ function.signature.parameters.map (·.name), allowed name) :
    Evolves allowed related (declareFunction function) := by
  intro state
  rw [Evaluation.declareFunction, Step.get_bind]
  by_cases hdeclared : state.declares function.signature.name
  · rw [if_pos hdeclared]
    exact ⟨h.refl state, hname⟩
  · rw [if_neg hdeclared]
    cases hrepeat : firstRepeat? [] (function.signature.parameters.map (·.name)) with
    | some name => exact ⟨h.refl state, hparameters name (firstRepeat?_mem hrepeat)⟩
    | none => exact h.declare state (Bool.eq_false_iff.2 hdeclared)

theorem inScope {evaluation : Eval α} (hevaluation : Evolves allowed related evaluation) :
    Evolves allowed related (inScope evaluation) := by
  intro state
  have hinside := hevaluation state.push
  unfold Evaluation.inScope attempt
  cases hrun : evaluation state.push with
  | ok a after =>
      rw [hrun] at hinside
      have hafter := h.trans (h.push state) hinside
      cases hpop : after.scopes.pop? with
      | none => simpa only [hpop] using hafter
      | some outer => simpa only [hpop] using h.trans hafter (h.leave after outer)
  | error stop after =>
      rw [hrun] at hinside
      cases stop with
      | abort abort => exact h.trans (h.push state) hinside
      | fault fault =>
          have hafter := h.trans (h.push state) hinside.1
          cases hpop : after.scopes.pop? with
          | none => simpa only [hpop] using hafter
          | some outer =>
              simpa only [hpop] using ⟨h.trans hafter (h.leave after outer), hinside.2⟩

theorem repeatWhile {condition : Eval Bool} {body : Eval Signal}
    (hcondition : Evolves allowed related condition) (hbody : Evolves allowed related body)
    (rounds : Nat) : Evolves allowed related (repeatWhile condition body rounds) := by
  induction rounds with
  | zero => exact fun state => h.refl state
  | succ rounds ih =>
      apply h.bind hcondition
      intro b
      cases b with
      | false => exact h.pure _
      | true =>
          apply h.bind hbody
          intro signal
          cases signal with
          | value v => exact ih
          | leave => exact h.pure _
          | jump jump =>
              cases jump with
              | breakLoop => exact h.pure _
              | nextRound => exact ih

end Evolution

variable {related : State → State → Prop}

mutual

/-- An evaluation is a sequence of changes, and mentions no names but those that the tree spells. -/
theorem evolves_eval (h : Evolution allowed related) (rounds : Nat) (node : Node)
    (mentions : ∀ terminal ∈ node.spelling, terminal.MentionsOnly allowed) :
    Evolves allowed related (eval rounds node) := by
  cases node with
  | literal v => exact h.pure _
  | identifier name => exact h.map _ (h.variableValue (mentions _ List.mem_cons_self))
  | declaration name ascription initial =>
      simp only [Node.spelling, List.forall_mem_append, List.forall_mem_cons] at mentions
      obtain ⟨⟨⟨-, hname, -⟩, -⟩, -, hinitial⟩ := mentions
      have hvalue := h.asValue (evolves_eval h rounds initial hinitial)
      exact h.map _ (h.declareVariable hname ascription hvalue)
  | assignment name value =>
      simp only [Node.spelling, List.forall_mem_append, List.forall_mem_cons] at mentions
      obtain ⟨⟨hname, -⟩, hvalue⟩ := mentions
      exact h.map _ (h.assignVariable hname (h.asValue (evolves_eval h rounds value hvalue)))
  | binary op left right =>
      simp only [Node.spelling, List.forall_mem_append, List.forall_mem_cons] at mentions
      obtain ⟨hleft, -, hright⟩ := mentions
      apply h.bind (h.asValue (evolves_eval h rounds left hleft))
      intro l
      apply h.bind (h.asValue (evolves_eval h rounds right hright))
      intro r
      exact h.map _ (h.settle (mentionsOnly_binary op l r))
  | unary op operand =>
      rw [Node.spelling, List.forall_mem_cons] at mentions
      apply h.bind (h.asValue (evolves_eval h rounds operand mentions.2))
      intro v
      exact h.map _ (h.settle (mentionsOnly_unary op v))
  | conditional condition onTrue onFalse =>
      simp only [Node.spelling, List.forall_mem_append, List.forall_mem_cons] at mentions
      obtain ⟨hcondition, -, htrue, -, hfalse⟩ := mentions
      apply h.bind (h.asValue (evolves_eval h rounds condition hcondition))
      intro v
      cases v.asBoolean? with
      | none => exact h.map _ (h.report_false trivial)
      | some b =>
          cases b with
          | true => exact h.map _ (h.asValue (evolves_eval h rounds onTrue htrue))
          | false => exact h.map _ (h.asValue (evolves_eval h rounds onFalse hfalse))
  | ifChain chain =>
      rw [Node.spelling, List.forall_mem_cons] at mentions
      exact evolves_evalChain h rounds chain mentions.2
  | whileLoop condition body =>
      simp only [Node.spelling, List.forall_mem_append, List.forall_mem_cons] at mentions
      obtain ⟨-, hcondition, hbody, -⟩ := mentions
      have hholds := h.holds .whileLoop (h.asValue (evolves_eval h rounds condition hcondition))
      exact h.repeatWhile hholds (h.inScope (evolves_evalBody h rounds .void body hbody)) rounds
  | breakLoop => exact h.pure _
  | nextRound => exact h.pure _
  | function signature body =>
      simp only [Node.spelling, Signature.spelling, List.forall_mem_append,
        List.forall_mem_cons] at mentions
      obtain ⟨-, ⟨⟨⟨hname, -⟩, hparameters⟩, -⟩, -⟩ := mentions
      have hfunction : Evolves allowed related (declareFunction ⟨signature, body⟩) :=
        h.declareFunction hname (allowed_of_spellParameters hparameters)
      exact h.bind hfunction fun _ => h.pure _
  | returnValue value =>
      rw [Node.spelling, List.forall_mem_cons] at mentions
      exact h.bind (h.asValue (evolves_eval h rounds value mentions.2)) fun _ => h.pure _
  | malformed => exact h.pure _
  | endOfInput => exact h.pure _

theorem evolves_evalChain (h : Evolution allowed related) (rounds : Nat) (chain : Chain)
    (mentions : ∀ terminal ∈ chain.spelling, terminal.MentionsOnly allowed) :
    Evolves allowed related (evalChain rounds chain) := by
  cases chain with
  | done => exact h.pure _
  | when condition body others =>
      simp only [Chain.spelling, List.forall_mem_append, List.forall_mem_cons] at mentions
      obtain ⟨hcondition, -, hbody, -, hothers⟩ := mentions
      apply h.bind (h.holds .ifLink (h.asValue (evolves_eval h rounds condition hcondition)))
      intro b
      cases b with
      | true => exact h.inScope (evolves_evalBody h rounds .void body hbody)
      | false => exact evolves_evalChain h rounds others hothers
  | always body others =>
      simp only [Chain.spelling, List.forall_mem_append, List.forall_mem_cons] at mentions
      exact h.inScope (evolves_evalBody h rounds .void body mentions.2.1)

theorem evolves_evalBody (h : Evolution allowed related) (rounds : Nat) (last : Value)
    (body : List Node) (mentions : ∀ terminal ∈ spellBody body, terminal.MentionsOnly allowed) :
    Evolves allowed related (evalBody rounds last body) := by
  cases body with
  | nil => exact h.pure _
  | cons statement others =>
      simp only [spellBody, List.forall_mem_append] at mentions
      obtain ⟨⟨hstatement, -⟩, hothers⟩ := mentions
      apply h.bind (evolves_eval h rounds statement hstatement)
      intro signal
      cases signal with
      | value v => exact evolves_evalBody h rounds v others hothers
      | jump jump => exact h.pure _
      | leave => exact h.pure _

end

end Evaluation

end Script

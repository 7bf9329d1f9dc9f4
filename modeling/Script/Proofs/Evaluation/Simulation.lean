import Script.Proofs.Evaluation.Meaning
/-!
# Simulation

Two evaluations that start from related states go the same way if each of their parts does and the
relation holds again after each part.  The rules for the constructs of the language ask of a
relation only what a coupling is, and so does the evaluation of one tree from two related states.
-/

namespace Script.Evaluation

/-- Whether two evaluations have ended with the same result or fault in related states, or both
without either. -/
inductive EndTogether {α : Type} (related : State → State → Prop) :
    EStateM.Result Stop State α → EStateM.Result Stop State α → Prop
  | ok {a : α} {state other : State} (h : related state other) :
      EndTogether related (.ok a state) (.ok a other)
  | fault {fault : Fault} {state other : State} (h : related state other) :
      EndTogether related (.error (.fault fault) state) (.error (.fault fault) other)
  | abort {abort : Abort} {state other : State} :
      EndTogether related (.error (.abort abort) state) (.error (.abort abort) other)

theorem EndTogether.mono {α : Type} {related related' : State → State → Prop}
    {first second : EStateM.Result Stop State α} (h : EndTogether related first second)
    (weaker : ∀ state other, related state other → related' state other) :
    EndTogether related' first second := by
  cases h with
  | ok after => exact .ok (weaker _ _ after)
  | fault after => exact .fault (weaker _ _ after)
  | abort => exact .abort

theorem EndTogether.symm {α : Type} {related : State → State → Prop}
    {first second : EStateM.Result Stop State α} (h : EndTogether related first second) :
    EndTogether (fun state other => related other state) second first := by
  cases h with
  | ok after => exact .ok after
  | fault after => exact .fault after
  | abort => exact .abort

def Simulates {α : Type} (related : State → State → Prop) (first second : Eval α) : Prop :=
  ∀ state other, related state other → EndTogether related (first state) (second other)

namespace Simulates

variable {α β : Type} {related : State → State → Prop}

theorem pure (a : α) : Simulates related (pure a) (pure a) := fun _ _ h => .ok h

theorem fail (fault : Fault) : Simulates related (fail fault : Eval α) (fail fault) :=
  fun _ _ h => .fault h

theorem throw (abort : Abort) :
    Simulates related (throw (.abort abort) : Eval α) (throw (.abort abort)) :=
  fun _ _ _ => .abort

theorem bind {first second : Eval α} {next next' : α → Eval β}
    (hfirst : Simulates related first second) (hnext : ∀ a, Simulates related (next a) (next' a)) :
    Simulates related (first >>= next) (second >>= next') := by
  intro state other h
  have hends := hfirst state other h
  rw [Step.bind_apply, Step.bind_apply]
  generalize first state = result, second other = result' at hends ⊢
  cases hends with
  | ok after => exact hnext _ _ _ after
  | fault after => exact .fault after
  | abort => exact .abort

theorem map {first second : Eval α} (f : α → β) (h : Simulates related first second) :
    Simulates related (f <$> first) (f <$> second) :=
  bind h fun a => pure (f a)

/-- An evaluation that reads the state may go on with what the two states have in common. -/
theorem get_bind {next next' : State → Eval α}
    (h : ∀ {state other : State}, related state other →
      Simulates related (next state) (next' other)) :
    Simulates related (get >>= next) (get >>= next') :=
  fun state other hrelated => h hrelated state other hrelated

theorem change {f g : State → State}
    (h : ∀ {state other : State}, related state other → related (f state) (g other)) :
    Simulates related (modify f : Eval PUnit) (modify g) :=
  fun _ _ hrelated => .ok (h hrelated)

theorem asValue {first second : Eval Signal} (h : Simulates related first second) :
    Simulates related (asValue first) (asValue second) := by
  refine bind h fun signal => ?_
  cases signal.toValue with
  | ok v => exact pure v
  | error fault => exact fail fault

theorem repeatWhile {condition condition' : Eval Bool} {body body' : Eval Signal}
    (hcondition : Simulates related condition condition') (hbody : Simulates related body body')
    (rounds : Nat) :
    Simulates related (repeatWhile condition body rounds)
      (repeatWhile condition' body' rounds) := by
  induction rounds with
  | zero => exact throw _
  | succ rounds ih =>
      refine bind hcondition fun b => ?_
      cases b with
      | false => exact pure _
      | true =>
          refine bind hbody fun signal => ?_
          cases signal with
          | value v => exact ih
          | leave => exact pure _
          | jump jump =>
              cases jump with
              | breakLoop => exact pure _
              | nextRound => exact ih

end Simulates

theorem declares_eq_of_signatures_eq {state other : State}
    (h : state.functions.map (·.signature) = other.functions.map (·.signature)) (name : String) :
    state.declares name = other.declares name := by
  have hany : ∀ state : State, state.declares name =
      (state.functions.map (·.signature)).any (·.name = name) := by
    intro state
    rw [State.declares, List.any_map]
    rfl
  rw [hany, hany, h]

/-- Whether relations between states hold on when the same is done to both states.  In a scope of
its own a part is evaluated under another one of the relations, the one from `inner`, and only
under such a one a variable can be declared. -/
structure Coupling {ι : Type} (related : ι → State → State → Prop) (inner : ι → ι) : Prop where
  get?_eq {i : ι} {state other : State} (h : related i state other) (name : String) :
    state.scopes.get? name = other.scopes.get? name
  innermostBinds_eq {i : ι} {state other : State} (h : related (inner i) state other)
    (name : String) : state.scopes.innermostBinds name = other.scopes.innermostBinds name
  signatures_eq {i : ι} {state other : State} (h : related i state other) :
    state.functions.map (·.signature) = other.functions.map (·.signature)
  report {i : ι} {state other : State} (h : related i state other) (mismatch : Mismatch) :
    related i (state.report mismatch) (other.report mismatch)
  insert {i : ι} {state other : State} (h : related (inner i) state other) (name : String)
    (v : Value) : related (inner i) { state with scopes := state.scopes.insert name v }
      { other with scopes := other.scopes.insert name v }
  /-- The frames that are found before a value is evaluated are still there after it. -/
  set? {i : ι} {state other : State} (h : related i state other) (name : String) :
    Option.Rel (fun frame frame' => ∀ {after after' : State}, related i after after' → ∀ v,
        Option.Rel (fun scopes scopes' =>
            related i { after with scopes } { after' with scopes := scopes' })
          (after.scopes.set? frame name v) (after'.scopes.set? frame' name v))
      (state.scopes.find? name) (other.scopes.find? name)
  declare {i : ι} {state other : State} (h : related i state other)
    {function function' : Function} (same : function.signature = function'.signature) :
    related i (state.declare function) (other.declare function')
  push {i : ι} {state other : State} (h : related i state other) :
    related (inner i) state.push other.push
  leave {i : ι} {state other : State} (h : related (inner i) state other) :
    Option.Rel (fun outer outer' => related i (state.leave outer) (other.leave outer'))
      state.scopes.pop? other.scopes.pop?

namespace Coupling

variable {α ι : Type} {related : ι → State → State → Prop} {inner : ι → ι}
  (coupling : Coupling related inner) (i : ι)

include coupling

theorem simulates_report (mismatch : Mismatch) :
    Simulates (related i) (Evaluation.report mismatch) (Evaluation.report mismatch) :=
  fun _ _ h => .ok (coupling.report h mismatch)

theorem settle (answer : Answer) : Simulates (related i) (settle answer) (settle answer) := by
  cases answer with
  | value v => exact .pure v
  | mismatch mismatch => exact coupling.simulates_report i mismatch
  | fault fault => exact .fail fault

theorem holds {first second : Eval Value} (construct : Construct)
    (h : Simulates (related i) first second) :
    Simulates (related i) (holds construct first) (holds construct second) := by
  refine .bind h fun v => ?_
  cases v.asBoolean? with
  | some b => exact .pure b
  | none => exact .bind (coupling.simulates_report i _) fun _ => .pure false

theorem variableValue (name : String) :
    Simulates (related i) (variableValue name) (variableValue name) := by
  intro state other h
  rw [variableValue_apply, variableValue_apply, coupling.get?_eq h]
  cases other.scopes.get? name with
  | some v => exact .ok h
  | none => exact .fault h

theorem declareVariable {first second : Eval Value} (name : String) (ascription : Option Ty)
    (h : Simulates (related (inner i)) first second) :
    Simulates (related (inner i)) (declareVariable name ascription first)
      (declareVariable name ascription second) := by
  refine .get_bind fun {state other} hrelated => ?_
  rw [coupling.innermostBinds_eq hrelated]
  by_cases hbound : other.scopes.innermostBinds name
  · rw [if_pos hbound, if_pos hbound]
    exact .fail _
  · rw [if_neg hbound, if_neg hbound]
    refine .bind h fun v => ?_
    cases ascription.filter (· ≠ v.ty) with
    | some ty => exact .fail _
    | none => exact .bind (.change fun h => coupling.insert h name v) fun _ => .pure v

theorem assignVariable {first second : Eval Value} (name : String)
    (h : Simulates (related i) first second) :
    Simulates (related i) (assignVariable name first) (assignVariable name second) := by
  refine .get_bind fun {state other} hrelated => ?_
  have hfound := coupling.set? hrelated name
  generalize state.scopes.find? name = found, other.scopes.find? name = found' at hfound ⊢
  cases hfound with
  | none => exact .fail _
  | @some frame frame' hset =>
      refine .bind h fun v => .get_bind fun {after after'} hrelated => ?_
      specialize hset hrelated v
      generalize after.scopes.set? frame name v = updated,
        after'.scopes.set? frame' name v = updated' at hset ⊢
      cases hset with
      | none => exact .throw _
      | some hupdated => exact .bind (fun _ _ _ => .ok hupdated) fun _ => .pure v

theorem declareFunction {first second : Function} (same : first.signature = second.signature) :
    Simulates (related i) (declareFunction first) (declareFunction second) := by
  refine .get_bind fun {state other} hrelated => ?_
  rw [declares_eq_of_signatures_eq (coupling.signatures_eq hrelated), same]
  by_cases hdeclared : other.declares second.signature.name
  · rw [if_pos hdeclared, if_pos hdeclared]
    exact .fail _
  · rw [if_neg hdeclared, if_neg hdeclared]
    cases firstRepeat? [] (second.signature.parameters.map (·.name)) with
    | some name => exact .fail _
    | none => exact .change fun h => coupling.declare h same

theorem inScope {first second : Eval α} (h : Simulates (related (inner i)) first second) :
    Simulates (related i) (inScope first) (inScope second) := by
  intro state other hrelated
  have hends := h state.push other.push (coupling.push hrelated)
  unfold Evaluation.inScope attempt
  generalize first state.push = result, second other.push = result' at hends ⊢
  cases hends with
  | abort => exact .abort
  | @ok _ after after' hrelated =>
      have hleave := coupling.leave hrelated
      simp only
      generalize after.scopes.pop? = popped, after'.scopes.pop? = popped' at hleave ⊢
      cases hleave with
      | none => exact .abort
      | some hrelated => exact .ok hrelated
  | @fault _ after after' hrelated =>
      have hleave := coupling.leave hrelated
      simp only
      generalize after.scopes.pop? = popped, after'.scopes.pop? = popped' at hleave ⊢
      cases hleave with
      | none => exact .abort
      | some hrelated => exact .fault hrelated

end Coupling

section Trees

variable {ι : Type} {related : ι → State → State → Prop} {inner : ι → ι}

mutual

/-- A tree is evaluated in the same way from related states, where the relation has to be one of
those inside of scopes unless the tree is free of declarations. -/
theorem Coupling.simulates_eval (coupling : Coupling related inner) (rounds : Nat) (i : ι)
    (node : Node) (fits : node.IsFormula ∨ ∃ outer, i = inner outer) :
    Simulates (related i) (eval rounds node) (eval rounds node) := by
  cases node with
  | literal v => exact .pure _
  | identifier name => exact .map _ (coupling.variableValue i name)
  | binary op left right =>
      have hleft := coupling.simulates_eval rounds _ left (fits.imp_left fun | .binary _ h _ => h)
      have hright := coupling.simulates_eval rounds _ right (fits.imp_left fun | .binary _ _ h => h)
      exact .bind (.asValue hleft) fun l => .bind (.asValue hright) fun r =>
        .map _ (coupling.settle i _)
  | unary op operand =>
      have hoperand :=
        coupling.simulates_eval rounds _ operand (fits.imp_left fun | .unary _ h => h)
      exact .bind (.asValue hoperand) fun v => .map _ (coupling.settle i _)
  | conditional condition onTrue onFalse =>
      have hcondition := coupling.simulates_eval rounds _ condition
        (fits.imp_left fun | .conditional h _ _ => h)
      refine .bind (.asValue hcondition) fun v => ?_
      cases v.asBoolean? with
      | none => exact .map _ (coupling.simulates_report i _)
      | some b =>
          cases b with
          | true =>
              exact .map _ (.asValue (coupling.simulates_eval rounds _ onTrue
                (fits.imp_left fun | .conditional _ h _ => h)))
          | false =>
              exact .map _ (.asValue (coupling.simulates_eval rounds _ onFalse
                (fits.imp_left fun | .conditional _ _ h => h)))
  | declaration name ascription initial =>
      obtain ⟨outer, rfl⟩ := fits.resolve_left nofun
      have hinitial := coupling.simulates_eval rounds _ initial (.inr ⟨outer, rfl⟩)
      exact .map _ (coupling.declareVariable outer name ascription (.asValue hinitial))
  | assignment name value =>
      have hvalue := coupling.simulates_eval rounds _ value (.inr (fits.resolve_left nofun))
      exact .map _ (coupling.assignVariable i name (.asValue hvalue))
  | ifChain chain => exact coupling.simulates_evalChain rounds i chain (fits.resolve_left nofun)
  | whileLoop condition body =>
      have hcondition :=
        coupling.simulates_eval rounds _ condition (.inr (fits.resolve_left nofun))
      exact .repeatWhile (coupling.holds i .whileLoop (.asValue hcondition))
        (coupling.inScope i (coupling.simulates_evalBody rounds i .void body)) rounds
  | breakLoop | nextRound | malformed | endOfInput => exact .pure _
  | function signature body => exact .bind (coupling.declareFunction i rfl) fun _ => .pure _
  | returnValue value =>
      have hvalue := coupling.simulates_eval rounds _ value (.inr (fits.resolve_left nofun))
      exact .bind (.asValue hvalue) fun _ => .pure _

theorem Coupling.simulates_evalChain (coupling : Coupling related inner) (rounds : Nat) (i : ι)
    (chain : Chain) (inside : ∃ outer, i = inner outer) :
    Simulates (related i) (evalChain rounds chain) (evalChain rounds chain) := by
  cases chain with
  | done => exact .pure _
  | when condition body others =>
      have hcondition := coupling.simulates_eval rounds _ condition (.inr inside)
      refine .bind (coupling.holds i .ifLink (.asValue hcondition)) fun b => ?_
      cases b with
      | true => exact coupling.inScope i (coupling.simulates_evalBody rounds i .void body)
      | false => exact coupling.simulates_evalChain rounds i others inside
  | always body others => exact coupling.inScope i (coupling.simulates_evalBody rounds i .void body)

theorem Coupling.simulates_evalBody (coupling : Coupling related inner) (rounds : Nat) (i : ι)
    (last : Value) (body : List Node) :
    Simulates (related (inner i)) (evalBody rounds last body) (evalBody rounds last body) := by
  cases body with
  | nil => exact .pure _
  | cons statement others =>
      refine .bind (coupling.simulates_eval rounds _ statement (.inr ⟨i, rfl⟩)) fun signal => ?_
      cases signal with
      | value v => exact coupling.simulates_evalBody rounds i v others
      | jump jump => exact .pure _
      | leave => exact .pure _

end

end Trees

end Script.Evaluation

import Script.Evaluation.Response
/-!
# More rounds

A number of rounds only says how long to wait for loops.  An evaluation that ends within some
number of rounds ends in the same way within any greater number.
-/

namespace Script.Evaluation

/-- Whether `shorter` does what `longer` does, unless its rounds are used up. -/
def Prolongs {α : Type} (longer shorter : Eval α) : Prop :=
  ∀ state, shorter state = longer state ∨
    ∃ after, shorter state = .error (.abort .exhausted) after

namespace Prolongs

variable {α β : Type}

theorem refl (evaluation : Eval α) : Prolongs evaluation evaluation := fun _ => .inl rfl

theorem bind {longer shorter : Eval α} {longerNext shorterNext : α → Eval β}
    (first : Prolongs longer shorter) (next : ∀ a, Prolongs (longerNext a) (shorterNext a)) :
    Prolongs (longer >>= longerNext) (shorter >>= shorterNext) := by
  intro state
  simp only [Step.bind_apply]
  rcases first state with same | ⟨after, used⟩
  · rw [same]
    cases longer state with
    | ok a after => exact next a after
    | error stop after => exact .inl rfl
  · rw [used]
    exact .inr ⟨after, rfl⟩

theorem map {longer shorter : Eval α} (f : α → β) (h : Prolongs longer shorter) :
    Prolongs (f <$> longer) (f <$> shorter) :=
  bind h fun a => refl (pure (f a))

theorem asValue {longer shorter : Eval Signal} (h : Prolongs longer shorter) :
    Prolongs (asValue longer) (asValue shorter) :=
  bind h fun _ => refl _

theorem holds {longer shorter : Eval Value} (construct : Construct) (h : Prolongs longer shorter) :
    Prolongs (holds construct longer) (holds construct shorter) :=
  bind h fun _ => refl _

theorem declareVariable {longer shorter : Eval Value} (name : String) (ascription : Option Ty)
    (h : Prolongs longer shorter) :
    Prolongs (declareVariable name ascription longer) (declareVariable name ascription shorter) :=
  bind (refl _) fun state => by
    by_cases bound : state.scopes.innermostBinds name
    · simp only [bound]
      exact refl _
    · simp only [bound]
      exact bind h fun _ => refl _

theorem assignVariable {longer shorter : Eval Value} (name : String) (h : Prolongs longer shorter) :
    Prolongs (assignVariable name longer) (assignVariable name shorter) :=
  bind (refl _) fun state => by
    cases state.scopes.find? name with
    | none => exact refl _
    | some frame => exact bind h fun _ => refl _

theorem inScope {longer shorter : Eval α} (h : Prolongs longer shorter) :
    Prolongs (inScope longer) (inScope shorter) := by
  intro state
  simp only [Evaluation.inScope, attempt]
  rcases h state.push with same | ⟨after, used⟩
  · rw [same]
    exact .inl rfl
  · rw [used]
    exact .inr ⟨after, rfl⟩

theorem repeatWhile {longerCondition shorterCondition : Eval Bool}
    {longerBody shorterBody : Eval Signal} {few many : Nat}
    (condition : Prolongs longerCondition shorterCondition)
    (body : Prolongs longerBody shorterBody) (le : few ≤ many) :
    Prolongs (repeatWhile longerCondition longerBody many)
      (repeatWhile shorterCondition shorterBody few) := by
  induction few generalizing many with
  | zero => exact fun state => .inr ⟨state, rfl⟩
  | succ few ih =>
    cases many with
    | zero => omega
    | succ many =>
      have others := ih (Nat.le_of_succ_le_succ le)
      refine bind condition fun
        | false => refl _
        | true => bind body fun
          | .value _ => others
          | .jump .nextRound => others
          | .jump .breakLoop => refl _
          | .leave => refl _

end Prolongs

mutual

/-- With more rounds an evaluation only goes on for longer. -/
theorem eval_prolongs {few many : Nat} (le : few ≤ many) (node : Node) :
    Prolongs (eval many node) (eval few node) := by
  cases node with
  | literal => exact .refl _
  | identifier => exact .refl _
  | declaration name ascription initial =>
    exact .map _ (.declareVariable name ascription (.asValue (eval_prolongs le initial)))
  | assignment name value =>
    exact .map _ (.assignVariable name (.asValue (eval_prolongs le value)))
  | binary op left right =>
    exact .bind (.asValue (eval_prolongs le left)) fun _ =>
      .bind (.asValue (eval_prolongs le right)) fun _ => .refl _
  | unary op operand => exact .bind (.asValue (eval_prolongs le operand)) fun _ => .refl _
  | conditional condition onTrue onFalse =>
    refine .bind (.asValue (eval_prolongs le condition)) fun v => ?_
    cases v.asBoolean? with
    | none => exact .refl _
    | some b =>
      cases b with
      | true => exact .map _ (.asValue (eval_prolongs le onTrue))
      | false => exact .map _ (.asValue (eval_prolongs le onFalse))
  | ifChain chain => exact evalChain_prolongs le chain
  | whileLoop condition body =>
    exact .repeatWhile (.holds .whileLoop (.asValue (eval_prolongs le condition)))
      (.inScope (evalBody_prolongs le .void body)) le
  | breakLoop => exact .refl _
  | nextRound => exact .refl _
  | function => exact .refl _
  | returnValue value => exact .bind (.asValue (eval_prolongs le value)) fun _ => .refl _
  | malformed => exact .refl _
  | endOfInput => exact .refl _

theorem evalChain_prolongs {few many : Nat} (le : few ≤ many) (chain : Chain) :
    Prolongs (evalChain many chain) (evalChain few chain) := by
  cases chain with
  | done => exact .refl _
  | when condition body others =>
    exact .bind (.holds .ifLink (.asValue (eval_prolongs le condition))) fun
      | true => .inScope (evalBody_prolongs le .void body)
      | false => evalChain_prolongs le others
  | always body others => exact .inScope (evalBody_prolongs le .void body)

theorem evalBody_prolongs {few many : Nat} (le : few ≤ many) (last : Value) (body : List Node) :
    Prolongs (evalBody many last body) (evalBody few last body) := by
  cases body with
  | nil => exact .refl _
  | cons statement others =>
    exact .bind (eval_prolongs le statement) fun
      | .value v => evalBody_prolongs le v others
      | .jump _ => .refl _
      | .leave => .refl _

end

/-- A statement that is answered within some number of rounds is answered in the same way within
any greater number. -/
theorem respond_eq_of_le {few many : Nat} (le : few ≤ many) (node : Node) (state : State)
    (answered : ∀ after, respond few node state ≠ .error .exhausted after) :
    respond few node state = respond many node state := by
  have prolongs := Prolongs.asValue (eval_prolongs le node) (state.note (.statement node))
  simp only [respond, Step.bind_apply, Step.modify_apply, attempt] at answered ⊢
  rcases prolongs with same | ⟨after, used⟩
  · rw [same]
  · rw [used] at answered
    exact absurd rfl (answered after)

end Script.Evaluation

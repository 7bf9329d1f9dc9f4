import Script.Proofs.Run.Interchange
/-!
# Dead code

What stands after a jump in the same body is never evaluated, and the body of a function is not
evaluated at all.  A program from which all of this has been taken out is answered in the same way.
-/

namespace Script

/-- Whether a statement never lets the evaluation go on with the next one. -/
def Node.isJump : Node → Bool
  | .breakLoop | .nextRound | .returnValue _ => true
  | _ => false

mutual

/-- The tree without dead code: nothing is left in the bodies of functions, and nothing after a jump
in any other body. -/
def Node.prune : Node → Node
  | .declaration name ascription initial => .declaration name ascription initial.prune
  | .assignment name value => .assignment name value.prune
  | .binary op left right => .binary op left.prune right.prune
  | .unary op operand => .unary op operand.prune
  | .conditional condition onTrue onFalse =>
    .conditional condition.prune onTrue.prune onFalse.prune
  | .ifChain chain => .ifChain chain.prune
  | .whileLoop condition body => .whileLoop condition.prune (pruneBody body)
  | .function signature _ => .function signature []
  | .returnValue value => .returnValue value.prune
  | .literal value => .literal value
  | .identifier name => .identifier name
  | .breakLoop => .breakLoop
  | .nextRound => .nextRound
  | .malformed => .malformed
  | .endOfInput => .endOfInput

def Chain.prune : Chain → Chain
  | .done => .done
  | .when condition body others => .when condition.prune (pruneBody body) others.prune
  | .always body others => .always (pruneBody body) others.prune

def pruneBody : List Node → List Node
  | [] => []
  | statement :: others =>
    statement.prune :: if statement.isJump then [] else pruneBody others

end

theorem Node.isJump_prune {node : Node} (h : node.isJump = true) : node.prune.isJump = true := by
  cases node with
  | breakLoop | nextRound | returnValue => rfl
  | _ => cases h

example (name : String) :
    pruneBody [.whileLoop (.identifier name) [.nextRound, .identifier name], .breakLoop,
      .function ⟨name, [], .void⟩ []] =
      [.whileLoop (.identifier name) [.nextRound], .breakLoop] := rfl

namespace Evaluation

theorem eval_ne_value_of_isJump {rounds : Nat} {node : Node} (h : node.isJump = true)
    {state after : State} {v : Value} : eval rounds node state ≠ .ok (.value v) after := by
  cases node with
  | breakLoop => rintro ⟨⟩
  | nextRound => rintro ⟨⟩
  | returnValue value =>
      intro hrun
      rw [eval, Step.bind_eq_ok_iff] at hrun
      obtain ⟨_, _, -, hpure⟩ := hrun
      cases hpure
  | _ => cases h

/-- Nothing after a jump is evaluated. -/
theorem evalBody_of_isJump {rounds : Nat} {statement : Node} (h : statement.isJump = true)
    (last : Value) (others : List Node) :
    evalBody rounds last (statement :: others) = eval rounds statement := by
  funext state
  rw [evalBody, Step.bind_apply]
  cases hrun : eval rounds statement state with
  | error stop after => rfl
  | ok signal after =>
      cases signal with
      | value v => exact absurd hrun (eval_ne_value_of_isJump h)
      | jump jump => rfl
      | leave => rfl

mutual

theorem simulates_prune (rounds : Nat) (node : Node) :
    Simulates State.Alike (eval rounds node) (eval rounds node.prune) := by
  cases node with
  | declaration name ascription initial =>
      have hinitial := Simulates.asValue (simulates_prune rounds initial)
      exact .map _ (coupling_alike.declareVariable () name ascription hinitial)
  | assignment name value =>
      have hvalue := Simulates.asValue (simulates_prune rounds value)
      exact .map _ (coupling_alike.assignVariable () name hvalue)
  | binary op left right =>
      apply Simulates.bind (.asValue (simulates_prune rounds left))
      intro l
      apply Simulates.bind (.asValue (simulates_prune rounds right))
      intro r
      exact .map _ (coupling_alike.settle () _)
  | unary op operand =>
      apply Simulates.bind (.asValue (simulates_prune rounds operand))
      intro v
      exact .map _ (coupling_alike.settle () _)
  | conditional condition onTrue onFalse =>
      apply Simulates.bind (.asValue (simulates_prune rounds condition))
      intro v
      cases v.asBoolean? with
      | none => exact .map _ (coupling_alike.simulates_report () _)
      | some b =>
          cases b with
          | true => exact .map _ (.asValue (simulates_prune rounds onTrue))
          | false => exact .map _ (.asValue (simulates_prune rounds onFalse))
  | ifChain chain => exact simulates_pruneChain rounds chain
  | whileLoop condition body =>
      have hcondition := Simulates.asValue (simulates_prune rounds condition)
      have hbody := coupling_alike.inScope () (simulates_pruneBody rounds .void body)
      exact .repeatWhile (coupling_alike.holds () .whileLoop hcondition) hbody rounds
  | function signature body =>
      -- the two entries in the table differ in their bodies, which nothing reads
      have hdeclared : Simulates State.Alike (declareFunction ⟨signature, body⟩)
          (declareFunction ⟨signature, []⟩) := coupling_alike.declareFunction () rfl
      apply Simulates.bind hdeclared
      intro _
      exact .pure _
  | returnValue value =>
      apply Simulates.bind (.asValue (simulates_prune rounds value))
      intro _
      exact .pure _
  | _ => exact simulates_alike rounds _

theorem simulates_pruneChain (rounds : Nat) (chain : Chain) :
    Simulates State.Alike (evalChain rounds chain) (evalChain rounds chain.prune) := by
  cases chain with
  | done => exact .pure _
  | when condition body others =>
      have hcondition := Simulates.asValue (simulates_prune rounds condition)
      apply Simulates.bind (coupling_alike.holds () .ifLink hcondition)
      intro b
      cases b with
      | true => exact coupling_alike.inScope () (simulates_pruneBody rounds .void body)
      | false => exact simulates_pruneChain rounds others
  | always body others => exact coupling_alike.inScope () (simulates_pruneBody rounds .void body)

theorem simulates_pruneBody (rounds : Nat) (last : Value) (body : List Node) :
    Simulates State.Alike (evalBody rounds last body) (evalBody rounds last (pruneBody body)) := by
  cases body with
  | nil => exact .pure _
  | cons statement others =>
      rw [pruneBody]
      by_cases hjump : statement.isJump = true
      · rw [evalBody_of_isJump hjump, evalBody_of_isJump (Node.isJump_prune hjump)]
        exact simulates_prune rounds statement
      · rw [if_neg hjump]
        apply Simulates.bind (simulates_prune rounds statement)
        intro signal
        cases signal with
        | value v => exact simulates_pruneBody rounds v others
        | jump jump => exact .pure _
        | leave => exact .pure _

end

/-- A program and the one without its dead code are answered in the same way.  Within the same
number of rounds both are carried to their ends or neither is, they write the same, and they leave
the same variables and signatures. -/
theorem finishes_prune_iff (rounds : Nat) (program : List Node) (state : State) (scopes : Scopes)
    (signatures : List Signature) :
    (∀ responses, Finishes (respondAll rounds program) state responses scopes signatures ↔
      Finishes (respondAll rounds (program.map Node.prune)) state responses scopes signatures) ∧
    ∀ output, Finishes (Session.perform rounds program) state output scopes signatures ↔
      Finishes (Session.perform rounds (program.map Node.prune)) state output scopes
        signatures := by
  have hprogram : List.Forall₂ (Interchangeable rounds) program (program.map Node.prune) := by
    rw [List.forall₂_map_right_iff, List.forall₂_same]
    intro node _
    exact simulates_prune rounds node
  constructor
  · intro responses
    exact finishes_respondAll_iff hprogram state responses scopes signatures
  · intro output
    exact finishes_perform_iff hprogram state output scopes signatures

end Evaluation

end Script

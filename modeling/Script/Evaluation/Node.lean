import Script.Evaluation.Rules
/-!
# Evaluating trees

Evaluation follows the tree.  Only a loop can go on for ever, so evaluation takes the number of
rounds that each execution of a loop may make; with more rounds a finished evaluation ends in the
same way.
-/

namespace Script.Evaluation

mutual

def eval (rounds : Nat) : Node → Eval Signal
  | .literal v => pure (.value v)
  | .identifier name => .value <$> variableValue name
  | .declaration name ascription initial =>
    .value <$> declareVariable name ascription (asValue (eval rounds initial))
  | .assignment name value => .value <$> assignVariable name (asValue (eval rounds value))
  | .binary op left right => do
    let l ← asValue (eval rounds left)
    let r ← asValue (eval rounds right)
    .value <$> settle (binary op l r)
  | .unary op operand => do
    let v ← asValue (eval rounds operand)
    .value <$> settle (unary op v)
  | .conditional condition onTrue onFalse => do
    let v ← asValue (eval rounds condition)
    match v.asBoolean? with
    | some true => .value <$> asValue (eval rounds onTrue)
    | some false => .value <$> asValue (eval rounds onFalse)
    | none => .value <$> report (.conditional v.ty)
  | .ifChain chain => evalChain rounds chain
  | .whileLoop condition body =>
    repeatWhile (holds .whileLoop (asValue (eval rounds condition)))
      (inScope (evalBody rounds .void body)) rounds
  | .breakLoop => pure (.jump .breakLoop)
  | .nextRound => pure (.jump .nextRound)
  | .function signature body => do
    declareFunction ⟨signature, body⟩
    pure (.value .void)
  | .returnValue value => do
    let _ ← asValue (eval rounds value)
    pure .leave
  | .malformed => pure (.value .void)
  | .endOfInput => pure (.value .void)

def evalChain (rounds : Nat) : Chain → Eval Signal
  | .done => pure (.value .void)
  | .when condition body others => do
    if ← holds .ifLink (asValue (eval rounds condition)) then
      inScope (evalBody rounds .void body)
    else evalChain rounds others
  | .always body _ => inScope (evalBody rounds .void body)

/-- Evaluates the statements of a body up to the first jump.  The value of a body is that of its
last statement, and `last` if it has none. -/
def evalBody (rounds : Nat) (last : Value) : List Node → Eval Signal
  | [] => pure (.value last)
  | statement :: others => do
    match ← eval rounds statement with
    | .value v => evalBody rounds v others
    | signal => pure signal

end

end Script.Evaluation

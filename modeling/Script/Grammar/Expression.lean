import Script.Grammar.Reader
import Script.Node.Basic
/-!
# Reading expressions

Binary operators bind in six levels and associate to the left; an operator sign before an operand
binds tighter than all of them.  A conditional binds loosest, so it is never an operand.  There
are no parentheses.

How deep expressions may nest is given by a budget: each unary operator and each expression
inside an expression takes one from it.  A chain of operators of one level takes nothing.
-/

namespace Script.Grammar

def operand (token : Token) : Except Fault Node :=
  match token.kind with
  | .integer =>
    match Integer.ofNumeral? token.lexeme.toList with
    | some i => .ok (.literal (.integer i))
    | none => .error (.noInteger token.lexeme)
  | .string => .ok (.literal (.text token.lexeme))
  | .char =>
    match token.lexeme.toList with
    | c :: _ => .ok (.literal (.character c))
    | [] => .error (.expected .character)
  | .boolean => .ok (.literal (.boolean (token.lexeme = "true")))
  | .identifier => .ok (.identifier token.lexeme)
  | _ => .error (.expected .expression)

def primary : Reader Node
  | [] => .error (.expected .expression) []
  | token :: rest =>
    match operand token with
    | .ok node => .ok node rest
    | .error fault => .error fault (token :: rest)

def unaryOp? : Kind → Option UnaryOp
  | .minus => some .minus
  | .kwNot => some .not
  | _ => none

def binaryOp? : Kind → Option BinaryOp
  | .star => some (.arithmetic .multiply)
  | .slash => some (.arithmetic .divide)
  | .percent => some (.arithmetic .remainder)
  | .plus => some (.arithmetic .add)
  | .minus => some (.arithmetic .subtract)
  | .greater => some (.order .greater)
  | .greaterEquals => some (.order .greaterEquals)
  | .less => some (.order .less)
  | .lessEquals => some (.order .lessEquals)
  | .equals => some .equals
  | .notEquals => some .notEquals
  | .kwAnd => some .and
  | .kwOr => some .or
  | _ => none

def operatorAt (level : Nat) (kind : Kind) : Option BinaryOp :=
  (binaryOp? kind).filter (·.level = level)

/-- Reads an operand that may have a unary operator before it, given a reader for what follows
that operator. -/
def unaryWith (inner : Reader Node) : Reader Node := do
  match unaryOp? (← peek) with
  | none => primary
  | some op => do
    advance
    let operand ← inner
    pure (.unary op operand)

def unary : (budget : Nat) → Reader Node
  | 0 => unaryWith (throw .tooDeep)
  | budget + 1 => unaryWith (unary budget)

/-- Reads operators of one level and their right operands, as long as there are any, and joins
them to what is on their left.  Each round takes at least one token, so the tokens at hand before
the first round bound their number. -/
def operatorsFrom (level : Nat) (operand : Reader Node) : (bound : List Token) → Node → Reader Node
  | [], left => pure left
  | _ :: bound, left => do
    match operatorAt level (← peek) with
    | none => pure left
    | some op => do
      advance
      let right ← operand
      operatorsFrom level operand bound (.binary op left right)

def operators (level : Nat) (operand : Reader Node) : Reader Node := do
  let first ← operand
  let bound ← get
  operatorsFrom level operand bound first

/-- Reads an expression whose binary operators bind at least as tightly as the given level. -/
def upTo (budget : Nat) : (level : Nat) → Reader Node
  | 0 => unary budget
  | level + 1 => operators (level + 1) (upTo budget level)

def disjunction (budget : Nat) : Reader Node := upTo budget BinaryOp.loosest

/-- Reads an expression without a conditional, or a conditional of which it is the condition, given
a reader for the branches. -/
def conditionalWith (budget : Nat) (branch : Reader Node) : Reader Node := do
  let condition ← disjunction budget
  if (← peek) = .kwThen then do
    advance
    let onTrue ← branch
    let _ ← expect .kwElse .elseInConditional
    let onFalse ← branch
    pure (.conditional condition onTrue onFalse)
  else pure condition

def expression : (budget : Nat) → Reader Node
  | 0 => throw .tooDeep
  | budget + 1 => conditionalWith budget (expression budget)

end Script.Grammar

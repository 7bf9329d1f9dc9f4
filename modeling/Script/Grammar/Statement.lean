import Script.Grammar.Expression
/-!
# Reading statements

The first token of a statement tells its form, except that an identifier begins an assignment if
the token after it is an assignment sign and an expression otherwise.  A statement inside a body
and a link of an `if` after its first one take one from the budget for nesting.
-/

namespace Script.Grammar

/-- Reads the statements of a body up to a token of one of the kinds `stops`, which is left where
it is, or up to the end. -/
def bodyFrom (statement : Reader Node) (stops : List Kind) : (bound : List Token) →
    Reader (List Node)
  | [] => pure []
  | _ :: bound => do
    let kind ← peek
    if kind = .eof ∨ kind ∈ stops then pure []
    else do
      let first ← statement
      let others ← bodyFrom statement stops bound
      pure (first :: others)

def body (statement : Reader Node) (stops : List Kind) : Reader (List Node) := do
  let bound ← get
  bodyFrom statement stops bound

def ascription : Reader (Option Ty) := do
  if (← peek) = .colon then do
    advance
    let ty ← typeName .typeAfterColon
    pure (some ty)
  else pure none

def declaration (budget : Nat) : Reader Node := do
  advance
  let name ← expect .identifier .nameAfterLet
  let ascription ← ascription
  let _ ← expect .assign .assignAfterVariable
  let initial ← expression budget
  let _ ← expect .semicolon .semicolonAfterDeclaration
  pure (.declaration name.lexeme ascription initial)

def assignment (budget : Nat) : Reader Node := do
  let name ← expect .identifier .expression
  let _ ← expect .assign .assignAfterVariable
  let value ← expression budget
  let _ ← expect .semicolon .semicolonAfterAssignment
  pure (.assignment name.lexeme value)

/-- Reads what follows the word that begins a link with a condition, up to the end of the `if`.
The links after it that have a condition are read by `others`. -/
def chain (budget : Nat) (statement : Reader Node) (others : Reader Chain) : Reader Chain := do
  let condition ← disjunction budget
  let _ ← expect .kwThen .thenAfterCondition
  let first ← body statement [.kwElseIf, .kwElse, .kwEndIf]
  match ← peek with
  | .kwElseIf => do
    advance
    let others ← others
    pure (.when condition first others)
  | .kwElse => do
    advance
    let _ ← expect .kwThen .thenAfterElse
    let last ← body statement [.kwEndIf]
    let _ ← expect .kwEndIf .endIf
    pure (.when condition first (.always last .done))
  | _ => do
    let _ ← expect .kwEndIf .endIf
    pure (.when condition first .done)

def whileLoop (budget : Nat) (statement : Reader Node) : Reader Node := do
  advance
  let condition ← expression budget
  let repeated ← body statement [.kwEnd]
  let _ ← expect .kwEnd .endOfLoop
  pure (.whileLoop condition repeated)

def parameter : Reader Parameter := do
  let name ← expect .identifier .parameterName
  let _ ← expect .colon .colonAfterParameterName
  let ty ← typeName .parameterType
  pure ⟨name.lexeme, ty⟩

/-- Reads parameters with commas between them.  There is at least one. -/
def parametersFrom : (bound : List Token) → Reader (List Parameter)
  | [] => throw (.expected .parameterName)
  | _ :: bound => do
    let first ← parameter
    if (← peek) = .comma then do
      advance
      let others ← parametersFrom bound
      pure (first :: others)
    else pure [first]

/-- Reads parameters up to the closing parenthesis, which is left where it is. -/
def parameters : Reader (List Parameter) := do
  if (← peek) = .rightParen then pure []
  else do
    let bound ← get
    parametersFrom bound

def function (statement : Reader Node) : Reader Node := do
  advance
  let name ← expect .identifier .functionName
  let _ ← expect .leftParen .parenthesisAfterFunctionName
  let parameters ← parameters
  let _ ← expect .rightParen .parenthesisAfterParameters
  let _ ← expect .colon .colonBeforeResultType
  let result ← typeName .resultType
  let content ← body statement [.kwEnd]
  let _ ← expect .kwEnd .endOfFunction
  pure (.function ⟨name.lexeme, parameters, result⟩ content)

def word (kind : Kind) (node : Node) : Reader Node := do
  let token ← expect kind .expression
  let _ ← expect .semicolon (.semicolonAfterWord token.lexeme)
  pure node

def returnValue (budget : Nat) : Reader Node := do
  advance
  let value ← expression budget
  let _ ← expect .semicolon .semicolonAfterReturn
  pure (.returnValue value)

def expressionStatement (budget : Nat) : Reader Node := do
  let value ← expression budget
  let _ ← expect .semicolon .semicolonAfterExpression
  pure value

/-- Reads a statement, given readers for the statements inside it and for the links with a
condition after the first one. -/
def statementWith (budget : Nat) (statement : Reader Node) (others : Reader Chain) :
    Reader Node := do
  match ← peek with
  | .kwLet => declaration budget
  | .kwIf => do
    advance
    let chain ← chain budget statement others
    pure (.ifChain chain)
  | .kwWhile => whileLoop budget statement
  | .kwBreak => word .kwBreak .breakLoop
  | .kwNext => word .kwNext .nextRound
  | .kwDef => function statement
  | .kwReturn => returnValue budget
  | .identifier => do
    if headKind (← get).tail = .assign then assignment budget else expressionStatement budget
  | _ => expressionStatement budget

mutual

def nestedStatement : (budget : Nat) → Reader Node
  | 0 => throw .tooDeep
  | budget + 1 => statementWith budget (nestedStatement budget) (nestedChain budget)

/-- Reads a link with a condition that is not the first link of its `if`. -/
def nestedChain : (budget : Nat) → Reader Chain
  | 0 => throw .tooDeep
  | budget + 1 => chain budget (nestedStatement budget) (nestedChain budget)

end

/-- Reads a statement that stands in no body. -/
def statement (budget : Nat) : Reader Node :=
  statementWith budget (nestedStatement budget) (nestedChain budget)

end Script.Grammar

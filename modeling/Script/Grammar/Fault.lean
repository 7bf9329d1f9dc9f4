import Script.Value
import Script.Token.Scan
/-!
# Errors in programs

A program that does not follow the grammar has one error, at the first token that can not be
there.
-/

namespace Script

namespace Grammar

inductive Expectation
  | nameAfterLet
  | typeAfterColon
  | assignAfterVariable
  | semicolonAfterDeclaration
  | semicolonAfterAssignment
  | elseInConditional
  | thenAfterCondition
  | thenAfterElse
  | endIf
  | endOfLoop
  | functionName
  | parenthesisAfterFunctionName
  | parameterName
  | colonAfterParameterName
  | parameterType
  | parenthesisAfterParameters
  | colonBeforeResultType
  | resultType
  | endOfFunction
  | semicolonAfterWord (word : String)
  | semicolonAfterReturn
  | semicolonAfterExpression
  | expression
  | character
deriving DecidableEq

def Expectation.message : Expectation → String
  | nameAfterLet => "identifier after 'let'"
  | typeAfterColon => "type name after ':'"
  | assignAfterVariable => "'=' after variable name"
  | semicolonAfterDeclaration => "';' after variable declaration"
  | semicolonAfterAssignment => "';' after assignment"
  | elseInConditional => "'else' in conditional expression"
  | thenAfterCondition => "'then' after if condition"
  | thenAfterElse => "'then' after 'else'"
  | endIf => "'endif'"
  | endOfLoop => "'end' to close 'while'"
  | functionName => "function name after 'def'"
  | parenthesisAfterFunctionName => "'(' after function name"
  | parameterName => "parameter name"
  | colonAfterParameterName => "':' after parameter name"
  | parameterType => "parameter type"
  | parenthesisAfterParameters => "')' after parameters"
  | colonBeforeResultType => "':' before return type"
  | resultType => "return type"
  | endOfFunction => "'end' to close function"
  | semicolonAfterWord word => "';' after '" ++ word ++ "'"
  | semicolonAfterReturn => "';' after return value"
  | semicolonAfterExpression => "';' after expression"
  | expression => "expression"
  | character => "character"

inductive Fault
  | expected (what : Expectation)
  | noInteger (lexeme : String)
  | unknownType (token : Token)
  | tooDeep
deriving DecidableEq

def Fault.message : Fault → String
  | expected what => "expected " ++ what.message
  | noInteger lexeme => "expected integer, found '" ++ lexeme ++ "'"
  | unknownType token => "expected type name, found '" ++ token.lexeme ++ "'"
  | tooDeep => "expression nested too deeply"

end Grammar

/-- An error in a program, with the line of the token that it concerns. -/
structure GrammarError where
  fault : Grammar.Fault
  line : Nat
deriving DecidableEq

def GrammarError.message (error : GrammarError) : String := locate error.fault.message error.line

end Script

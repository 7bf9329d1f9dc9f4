/-!
# Tokens

A token is a lexeme with its kind and the line on which it begins.  Literals of text and of a
character hold their decoded content.
-/

namespace Script

inductive Kind
  | kwLet
  | kwIf
  | kwElseIf
  | kwElse
  | kwEndIf
  | kwWhile
  | kwEnd
  | kwBreak
  | kwNext
  | kwDef
  | kwReturn
  | kwThen
  | integer
  | string
  | char
  | boolean
  | identifier
  | plus
  | minus
  | star
  | slash
  | percent
  | assign
  | equals
  | notEquals
  | greater
  | greaterEquals
  | less
  | lessEquals
  | kwAnd
  | kwOr
  | kwNot
  | leftParen
  | rightParen
  | colon
  | comma
  | semicolon
  | eof
  | bad
deriving DecidableEq

namespace Kind

def name : Kind → String
  | kwLet => "Let"
  | kwIf => "If"
  | kwElseIf => "ElseIf"
  | kwElse => "Else"
  | kwEndIf => "EndIf"
  | kwWhile => "While"
  | kwEnd => "End"
  | kwBreak => "Break"
  | kwNext => "Next"
  | kwDef => "Def"
  | kwReturn => "Return"
  | kwThen => "Then"
  | integer => "Integer"
  | string => "String"
  | char => "Char"
  | boolean => "Boolean"
  | identifier => "Identifier"
  | plus => "Plus"
  | minus => "Minus"
  | star => "Star"
  | slash => "Slash"
  | percent => "Percent"
  | assign => "Assign"
  | equals => "Equals"
  | notEquals => "NotEquals"
  | greater => "Greater"
  | greaterEquals => "GreaterEquals"
  | less => "Less"
  | lessEquals => "LessEquals"
  | kwAnd => "And"
  | kwOr => "Or"
  | kwNot => "Not"
  | leftParen => "LeftParen"
  | rightParen => "RightParen"
  | colon => "Colon"
  | comma => "Comma"
  | semicolon => "Semicolon"
  | eof => "Eof"
  | bad => "Bad"

/-- The words that are no identifiers. -/
def reserved : List (String × Kind) :=
  [("let", kwLet), ("if", kwIf), ("elseif", kwElseIf), ("else", kwElse), ("endif", kwEndIf),
    ("while", kwWhile), ("end", kwEnd), ("break", kwBreak), ("next", kwNext), ("def", kwDef),
    ("return", kwReturn), ("then", kwThen), ("and", kwAnd), ("or", kwOr), ("not", kwNot),
    ("true", boolean), ("false", boolean)]

def ofWord (word : String) : Kind := (reserved.lookup word).getD identifier

def ofPair? (first second : Char) : Option Kind :=
  if second = '=' then
    if first = '=' then some equals
    else if first = '>' then some greaterEquals
    else if first = '<' then some lessEquals
    else if first = '!' then some notEquals
    else none
  else none

def ofSymbol? (c : Char) : Option Kind :=
  if c = '+' then some plus
  else if c = '-' then some minus
  else if c = '*' then some star
  else if c = '/' then some slash
  else if c = '%' then some percent
  else if c = '(' then some leftParen
  else if c = ')' then some rightParen
  else if c = ':' then some colon
  else if c = ',' then some comma
  else if c = ';' then some semicolon
  else if c = '=' then some assign
  else if c = '>' then some greater
  else if c = '<' then some less
  else none

end Kind

structure Token where
  kind : Kind
  lexeme : String
  line : Nat
deriving DecidableEq

namespace Token

def render (token : Token) : String := token.kind.name ++ ": " ++ token.lexeme

end Token

end Script

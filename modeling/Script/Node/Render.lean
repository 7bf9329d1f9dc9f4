import Script.Node.Basic
/-!
# The textual form of a tree

A tree is written on one line.  Operators are written with parentheses around them and their
operands.  The textual form is meant for a reader of dumps; it is not source text of the language.
-/

namespace Script

def Parameter.render (parameter : Parameter) : String :=
  parameter.name ++ ": " ++ parameter.ty.name

def Signature.render (signature : Signature) : String :=
  signature.name ++ "(" ++ ", ".intercalate (signature.parameters.map Parameter.render) ++ "): " ++
    signature.result.name

/-- What stands between a link of an `if` and the links after it. -/
def Chain.lead : Chain → String
  | done => " endif"
  | when _ _ _ => " elseif "
  | always _ _ => " else "

mutual

def Node.render : Node → String
  | .literal value => value.render
  | .identifier name => name
  | .declaration name (some ty) initial => name ++ ": " ++ ty.name ++ " = " ++ initial.render
  | .declaration name none initial => name ++ " = " ++ initial.render
  | .assignment name value => name ++ " = " ++ value.render
  | .binary op left right => "(" ++ left.render ++ " " ++ op.symbol ++ " " ++ right.render ++ ")"
  | .unary .not operand => "(not " ++ operand.render ++ ")"
  | .unary .minus operand => "(-" ++ operand.render ++ ")"
  | .conditional condition onTrue onFalse =>
    "(" ++ condition.render ++ " then " ++ onTrue.render ++ " else " ++ onFalse.render ++ ")"
  | .ifChain chain => "if " ++ chain.render
  | .whileLoop condition body => "while " ++ condition.render ++ renderBody body ++ " end"
  | .breakLoop => "break"
  | .nextRound => "next"
  | .function signature body => "def " ++ signature.render ++ renderBody body ++ " end"
  | .returnValue value => "return " ++ value.render
  | .malformed => "<bad>"
  | .endOfInput => "<eof>"

def Chain.render : Chain → String
  | .done => ""
  | .when condition body others =>
    condition.render ++ " then" ++ renderBody body ++ others.lead ++ others.render
  | .always body others => "then" ++ renderBody body ++ others.lead ++ others.render

/-- The textual form of a body: a blank before each statement and a semicolon between two. -/
def renderBody : List Node → String
  | [] => ""
  | statement :: rest =>
    " " ++ statement.render ++ (if rest.isEmpty then "" else ";") ++ renderBody rest

end

end Script

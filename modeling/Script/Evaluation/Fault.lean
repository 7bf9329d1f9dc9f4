import Script.Operator
import Script.Value
/-!
# Errors of evaluation

An operation on values of unfit types is reported and yields a value all the same.  A fault ends
the statement in which it occurs.
-/

namespace Script.Evaluation

inductive Construct
  | ifLink
  | whileLoop
deriving DecidableEq

def Construct.word : Construct → String
  | ifLink => "if"
  | whileLoop => "while"

/-- A use of values of unfit types. -/
inductive Mismatch
  | operands (op : BinaryOp) (left right : Ty)
  | booleanOperand (op : BinaryOp)
  | operand (op : UnaryOp) (found : Ty)
  | conditional (found : Ty)
  | condition (construct : Construct) (found : Ty)
  | initial (name : String) (declared found : Ty)
deriving DecidableEq

def Mismatch.message : Mismatch → String
  | operands op left right =>
    "type mismatch: cannot apply operator '" ++ op.symbol ++ "' to " ++ left.name ++ " and " ++
      right.name
  | booleanOperand op =>
    "type mismatch: cannot apply operator '" ++ op.symbol ++ "' to boolean values"
  | operand op found =>
    "type mismatch: cannot apply operator '" ++ op.symbol ++ "' to " ++ found.name
  | conditional found =>
    "type mismatch: conditional expression requires a boolean condition, found " ++ found.name
  | condition construct found =>
    "type mismatch: '" ++ construct.word ++ "' condition must be boolean, found " ++ found.name
  | initial name declared found =>
    "type mismatch: cannot initialize '" ++ name ++ "' of type " ++ declared.name ++ " with " ++
      found.name

inductive Overflow
  | binary (op : ArithmeticOp) (left right : Integer)
  | negation (operand : Integer)
deriving DecidableEq

def Overflow.render : Overflow → String
  | binary op left right => left.render ++ " " ++ op.symbol ++ " " ++ right.render
  | negation operand => "-" ++ operand.render

/-- A jump that a loop takes up. -/
inductive Jump
  | breakLoop
  | nextRound
deriving DecidableEq

def Jump.word : Jump → String
  | breakLoop => "break"
  | nextRound => "next"

inductive Fault
  | redeclared (name : String)
  | undefined (name : String)
  | mismatch (mismatch : Mismatch)
  | divisionByZero
  | overflow (computation : Overflow)
  | jumpOutsideLoop (jump : Jump)
  | returnOutsideFunction
deriving DecidableEq

def Fault.message : Fault → String
  | redeclared name => "'" ++ name ++ "' is already declared in this scope"
  | undefined name => "undefined variable '" ++ name ++ "'"
  | mismatch m => m.message
  | divisionByZero => "division by zero"
  | overflow computation => computation.render ++ " overflows"
  | jumpOutsideLoop jump => "cannot '" ++ jump.word ++ "' outside of a loop"
  | returnOutsideFunction => "cannot 'return' outside of a function"

end Script.Evaluation

import Script.Operator
import Script.Value
/-!
# Syntax trees

Statements and expressions are nodes of one kind of tree, because every statement has a value.
The type does not say which nodes may stand where: a reader of programs puts only expressions
into the places of operands, conditions and initial values, but a tree can also be built by hand.
-/

namespace Script

structure Parameter where
  name : String
  ty : Ty
deriving DecidableEq

structure Signature where
  name : String
  parameters : List Parameter
  result : Ty
deriving DecidableEq

mutual

inductive Node
  | literal (value : Value)
  | identifier (name : String)
  | declaration (name : String) (ascription : Option Ty) (initial : Node)
  | assignment (name : String) (value : Node)
  | binary (op : BinaryOp) (left right : Node)
  | unary (op : UnaryOp) (operand : Node)
  | conditional (condition onTrue onFalse : Node)
  | ifChain (chain : Chain)
  | whileLoop (condition : Node) (body : List Node)
  | breakLoop
  | nextRound
  | function (signature : Signature) (body : List Node)
  | returnValue (value : Node)
  | malformed
  | endOfInput

/-- The links of an `if`: each has a body, which runs if no link before it has run and if the
condition of the link, where it has one, holds. -/
inductive Chain
  | done
  | when (condition : Node) (body : List Node) (others : Chain)
  | always (body : List Node) (others : Chain)

end

end Script

/-!
# Operators

Binary operators come in six levels of precedence.  The level says how loosely an operator
binds: level 1 holds the tightest binary operators, level 6 the loosest one.
-/

namespace Script

inductive ArithmeticOp
  | add
  | subtract
  | multiply
  | divide
  | remainder
deriving DecidableEq

inductive OrderOp
  | greater
  | greaterEquals
  | less
  | lessEquals
deriving DecidableEq

inductive BinaryOp
  | arithmetic (op : ArithmeticOp)
  | order (op : OrderOp)
  | equals
  | notEquals
  | and
  | or
deriving DecidableEq

inductive UnaryOp
  | minus
  | not
deriving DecidableEq

def ArithmeticOp.symbol : ArithmeticOp → String
  | add => "+"
  | subtract => "-"
  | multiply => "*"
  | divide => "/"
  | remainder => "%"

def OrderOp.symbol : OrderOp → String
  | greater => ">"
  | greaterEquals => ">="
  | less => "<"
  | lessEquals => "<="

namespace BinaryOp

def symbol : BinaryOp → String
  | arithmetic op => op.symbol
  | order op => op.symbol
  | equals => "=="
  | notEquals => "!="
  | and => "and"
  | or => "or"

/-- How loosely an operator binds. -/
def level : BinaryOp → Nat
  | arithmetic .multiply | arithmetic .divide | arithmetic .remainder => 1
  | arithmetic .add | arithmetic .subtract => 2
  | order _ => 3
  | equals | notEquals => 4
  | and => 5
  | or => 6

def loosest : Nat := 6

theorem level_pos (op : BinaryOp) : 0 < op.level := by
  unfold level
  split <;> decide

theorem level_le_loosest (op : BinaryOp) : op.level ≤ loosest := by
  unfold level
  split <;> decide

end BinaryOp

def UnaryOp.symbol : UnaryOp → String
  | minus => "-"
  | not => "not"

end Script

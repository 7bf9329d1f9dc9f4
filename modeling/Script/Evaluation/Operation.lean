import Script.Evaluation.Fault
/-!
# Operations on values

Operators take values of certain types and answer any other operands with a mismatch.  Arithmetic
is exact: a result out of range is a fault.  Division truncates toward zero, and a remainder has
the sign of the dividend.
-/

namespace Script.Evaluation

inductive Answer
  | value (value : Value)
  | mismatch (mismatch : Mismatch)
  | fault (fault : Fault)
deriving DecidableEq

/-- The integer `n`, or the fault that the computation of `n` overflows. -/
def ranged (computation : Overflow) (n : Int) : Answer :=
  match Integer.ofInt? n with
  | some i => .value (.integer i)
  | none => .fault (.overflow computation)

/-- The result of an arithmetic operator.  A remainder is found together with the quotient, which
has to be in range too. -/
def arithmetic (op : ArithmeticOp) (left right : Integer) : Answer :=
  match op with
  | .add => ranged (.binary op left right) (left.val + right.val)
  | .subtract => ranged (.binary op left right) (left.val - right.val)
  | .multiply => ranged (.binary op left right) (left.val * right.val)
  | .divide =>
    if right.val = 0 then .fault .divisionByZero
    else ranged (.binary op left right) (left.val.tdiv right.val)
  | .remainder =>
    if right.val = 0 then .fault .divisionByZero
    else
      match Integer.ofInt? (left.val.tdiv right.val) with
      | some _ => ranged (.binary op left right) (left.val.tmod right.val)
      | none => .fault (.overflow (.binary op left right))

def inOrder (op : OrderOp) (left right : Integer) : Bool :=
  match op with
  | .greater => right.val < left.val
  | .greaterEquals => right.val ≤ left.val
  | .less => left.val < right.val
  | .lessEquals => left.val ≤ right.val

/-- The mismatch of an operator that takes no booleans. -/
def unfit (op : BinaryOp) (left right : Value) : Mismatch :=
  if left.ty = .boolean ∨ right.ty = .boolean then .booleanOperand op
  else .operands op left.ty right.ty

def binary (op : BinaryOp) (left right : Value) : Answer :=
  match op, left, right with
  | .and, .boolean l, .boolean r => .value (.boolean (l && r))
  | .and, l, r => .mismatch (.operands .and l.ty r.ty)
  | .or, .boolean l, .boolean r => .value (.boolean (l || r))
  | .or, l, r => .mismatch (.operands .or l.ty r.ty)
  | .equals, l, r =>
    if l.ty = r.ty then .value (.boolean (l = r)) else .mismatch (.operands .equals l.ty r.ty)
  | .notEquals, l, r =>
    if l.ty = r.ty then .value (.boolean (l ≠ r)) else .mismatch (.operands .notEquals l.ty r.ty)
  | .order op, .integer l, .integer r => .value (.boolean (inOrder op l r))
  | .order op, l, r => .mismatch (unfit (.order op) l r)
  | .arithmetic op, .integer l, .integer r => arithmetic op l r
  | .arithmetic .add, .text l, .text r => .value (.text (l ++ r))
  | .arithmetic op, l, r => .mismatch (unfit (.arithmetic op) l r)

def unary (op : UnaryOp) (operand : Value) : Answer :=
  match op, operand with
  | .not, .boolean b => .value (.boolean !b)
  | .minus, .integer i => ranged (.negation i) (-i.val)
  | op, v => .mismatch (.operand op v.ty)

end Script.Evaluation

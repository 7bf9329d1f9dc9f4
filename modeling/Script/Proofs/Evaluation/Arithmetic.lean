import Script.Proofs.Evaluation.Typing
/-!
# Exact arithmetic

Expressions made of integers, negation and the arithmetic operators can be evaluated on integers
without bounds, one operation after the other.  Evaluation does the same until the first operation
that has no result in range: then it fails for this operation, and otherwise it has the exact value.
-/

namespace Script

namespace Evaluation

/-- An operation on integers without bounds. -/
inductive Operation
  | binary (op : ArithmeticOp) (left right : Int)
  | negation (operand : Int)
deriving DecidableEq

namespace Operation

/-- The exact result.  Quotients are truncated toward zero, and remainders have the sign of the
dividend. -/
def result : Operation → Int
  | binary .add left right => left + right
  | binary .subtract left right => left - right
  | binary .multiply left right => left * right
  | binary .divide left right => left.tdiv right
  | binary .remainder left right => left.tmod right
  | negation operand => -operand

def dividesByZero : Operation → Bool
  | binary .divide _ right | binary .remainder _ right => right = 0
  | _ => false

/-- Whether the result is out of range.  The remainder of the least integer by `-1` counts as well,
because the quotient is out of range. -/
def overflows (operation : Operation) : Bool :=
  operation.result < -9223372036854775808 || 9223372036854775807 < operation.result ||
    operation = binary .remainder (-9223372036854775808) (-1)

def faults (operation : Operation) : Bool := operation.dividesByZero || operation.overflows

end Operation

def Overflow.operation : Overflow → Operation
  | binary op left right => .binary op left.val right.val
  | negation operand => .negation operand.val

/-- Whether `fault` is the one of an operation that has no result in range. -/
def Operation.Raises (operation : Operation) (fault : Fault) : Prop :=
  if operation.dividesByZero then fault = .divisionByZero
  else ∃ computation : Overflow, fault = .overflow computation ∧ computation.operation = operation

end Evaluation

open Evaluation (Operation)

def Scopes.integerAt (scopes : Scopes) (name : String) : Int :=
  match scopes.get? name with
  | some (.integer i) => i.val
  | _ => 0

namespace Node

inductive IsArithmetic (scopes : Scopes) : Node → Prop
  | literal (i : Integer) : IsArithmetic scopes (.literal (.integer i))
  | identifier {name : String} {i : Integer} (bound : scopes.get? name = some (.integer i)) :
      IsArithmetic scopes (.identifier name)
  | negation {operand : Node} (inner : IsArithmetic scopes operand) :
      IsArithmetic scopes (.unary .minus operand)
  | binary (op : ArithmeticOp) {left right : Node} (onLeft : IsArithmetic scopes left)
      (onRight : IsArithmetic scopes right) :
      IsArithmetic scopes (.binary (.arithmetic op) left right)

def exactValue (scopes : Scopes) : Node → Int
  | .literal (.integer i) => i.val
  | .identifier name => scopes.integerAt name
  | .unary .minus operand => (Operation.negation (operand.exactValue scopes)).result
  | .binary (.arithmetic op) left right =>
    (Operation.binary op (left.exactValue scopes) (right.exactValue scopes)).result
  | _ => 0

/-- The operations in an expression, each after those in its operands, from left to right. -/
def operations (scopes : Scopes) : Node → List Operation
  | .unary .minus operand => operand.operations scopes ++ [.negation (operand.exactValue scopes)]
  | .binary (.arithmetic op) left right =>
    left.operations scopes ++ (right.operations scopes ++
      [.binary op (left.exactValue scopes) (right.exactValue scopes)])
  | _ => []

end Node

theorem Integer.tdiv_out_of_range_iff (left : Integer) {right : Integer} (hright : right.val ≠ 0) :
    Integer.ofInt? (left.val.tdiv right.val) = none ↔
      left.val = -9223372036854775808 ∧ right.val = -1 := by
  have hleast := left.least_le
  have hgreatest := left.le_greatest
  have habs := Int.natAbs_tdiv left.val right.val
  rw [Integer.ofInt?_eq_none_iff]
  constructor
  · intro hout
    -- a divisor other than 1 and -1 at least halves the dividend
    by_cases hone : right.val.natAbs = 1
    · rcases (by omega : right.val = 1 ∨ right.val = -1) with hval | hval
      · rw [hval, Int.tdiv_one] at hout
        omega
      · rw [hval, Int.tdiv_neg, Int.tdiv_one] at hout
        omega
    · have hhalf : left.val.natAbs / right.val.natAbs ≤ left.val.natAbs / 2 :=
        Nat.div_le_div_left (by omega) (by decide)
      change _ = left.val.natAbs / right.val.natAbs at habs
      omega
  · rintro ⟨hl, hr⟩
    rw [hl, hr]
    decide

namespace Evaluation

def Operation.Answers (operation : Operation) (answer : Answer) : Prop :=
  if operation.faults then ∃ fault, answer = .fault fault ∧ operation.Raises fault
  else ∃ i : Integer, i.val = operation.result ∧ answer = .value (.integer i)

theorem Operation.overflows_iff (operation : Operation) :
    operation.overflows = true ↔ Integer.ofInt? operation.result = none ∨
      operation = .binary .remainder (-9223372036854775808) (-1) := by
  rw [overflows, Integer.ofInt?_eq_none_iff]
  simp only [Bool.or_eq_true, decide_eq_true_eq]

theorem answers_overflow (computation : Overflow)
    (hdivides : computation.operation.dividesByZero = false)
    (hoverflows : computation.operation.overflows = true) :
    computation.operation.Answers (.fault (.overflow computation)) := by
  rw [Operation.Answers, if_pos (by rw [Operation.faults, hoverflows, Bool.or_true])]
  refine ⟨_, rfl, ?_⟩
  rw [Operation.Raises, hdivides]
  exact ⟨computation, rfl, rfl⟩

theorem answers_ranged (computation : Overflow)
    (hdivides : computation.operation.dividesByZero = false)
    (hremainder : computation.operation ≠ .binary .remainder (-9223372036854775808) (-1)) :
    computation.operation.Answers (ranged computation computation.operation.result) := by
  have hoverflows := computation.operation.overflows_iff
  rw [ranged]
  cases hresult : Integer.ofInt? computation.operation.result with
  | none => exact answers_overflow computation hdivides (hoverflows.2 (.inl hresult))
  | some i =>
      have hfits : ¬ computation.operation.overflows = true := by
        rw [hoverflows, hresult]
        rintro (h | h)
        · cases h
        · exact hremainder h
      rw [Operation.Answers, Operation.faults, hdivides, Bool.false_or, if_neg hfits]
      exact ⟨i, Integer.ofInt?_eq_some_iff.1 hresult, rfl⟩

theorem answers_divisionByZero {operation : Operation} (h : operation.dividesByZero = true) :
    operation.Answers (.fault .divisionByZero) := by
  rw [Operation.Answers, if_pos (by rw [Operation.faults, h, Bool.true_or])]
  refine ⟨_, rfl, ?_⟩
  rw [Operation.Raises, if_pos h]

theorem answers_arithmetic (op : ArithmeticOp) (left right : Integer) :
    (Operation.binary op left.val right.val).Answers (arithmetic op left right) := by
  cases op with
  | add => exact answers_ranged (.binary .add left right) rfl (by rintro ⟨⟩)
  | subtract => exact answers_ranged (.binary .subtract left right) rfl (by rintro ⟨⟩)
  | multiply => exact answers_ranged (.binary .multiply left right) rfl (by rintro ⟨⟩)
  | divide =>
      rw [arithmetic]
      split
      · rename_i hzero
        exact answers_divisionByZero (decide_eq_true hzero)
      · rename_i hright
        exact answers_ranged (.binary .divide left right) (decide_eq_false hright) (by rintro ⟨⟩)
  | remainder =>
      rw [arithmetic]
      split
      · rename_i hzero
        exact answers_divisionByZero (decide_eq_true hzero)
      · rename_i hright
        -- the quotient that is found first is out of range for one pair of operands only
        have hquotient := left.tdiv_out_of_range_iff hright
        cases hdiv : Integer.ofInt? (left.val.tdiv right.val) with
        | none =>
            obtain ⟨hl, hr⟩ := hquotient.1 hdiv
            refine answers_overflow (.binary .remainder left right) (decide_eq_false hright) ?_
            exact (Operation.overflows_iff _).2 (.inr (by rw [Overflow.operation, hl, hr]))
        | some quotient =>
            refine answers_ranged (.binary .remainder left right) (decide_eq_false hright) ?_
            intro heq
            obtain ⟨-, hl, hr⟩ := Operation.binary.inj heq
            rw [hquotient.2 ⟨hl, hr⟩] at hdiv
            cases hdiv

theorem answers_negation (operand : Integer) :
    (Operation.negation operand.val).Answers (unary .minus (.integer operand)) :=
  answers_ranged (.negation operand) rfl (by rintro ⟨⟩)

/-- Whether an evaluation has the given exact value, or else the fault of the first operation that
has no result in range, and leaves the state alone. -/
def Computes (state : State) (evaluation : Eval Signal) (value : Int)
    (operations : List Operation) : Prop :=
  match operations.find? Operation.faults with
  | none => ∃ i : Integer, i.val = value ∧ evaluation state = .ok (.value (.integer i)) state
  | some operation => ∃ fault, evaluation state = .error (.fault fault) state ∧
      operation.Raises fault

namespace Computes

variable {state : State}

theorem pure (i : Integer) : Computes state (pure (.value (.integer i))) i.val [] := ⟨i, rfl, rfl⟩

theorem settle {operation : Operation} {answer : Answer} (h : operation.Answers answer) :
    Computes state (.value <$> settle answer) operation.result [operation] := by
  rw [Operation.Answers] at h
  rw [Computes, List.find?_singleton]
  split at h
  · rename_i hfaults
    obtain ⟨fault, rfl, hraises⟩ := h
    rw [if_pos hfaults]
    exact ⟨fault, rfl, hraises⟩
  · rename_i hfaults
    obtain ⟨i, hi, rfl⟩ := h
    rw [if_neg hfaults]
    exact ⟨i, hi, rfl⟩

/-- The operations of the first operand come first, and if one of them faults, then no others are
carried out. -/
theorem bind {evaluation : Eval Signal} {next : Value → Eval Signal} {n m : Int}
    {operations others : List Operation} (first : Computes state evaluation n operations)
    (second : ∀ i : Integer, i.val = n → Computes state (next (.integer i)) m others) :
    Computes state (asValue evaluation >>= next) m (operations ++ others) := by
  rw [Computes] at first ⊢
  rw [List.find?_append]
  cases hfind : operations.find? Operation.faults with
  | none =>
      rw [hfind] at first
      obtain ⟨i, hi, hrun⟩ := first
      have hnext : (asValue evaluation >>= next) state = next (.integer i) state := by
        rw [Step.bind_apply, asValue_apply, hrun]
        rfl
      rw [hnext, Option.none_or]
      exact second i hi
  | some operation =>
      rw [hfind] at first
      obtain ⟨fault, hrun, hraises⟩ := first
      refine ⟨fault, ?_, hraises⟩
      rw [Step.bind_apply, asValue_apply, hrun]

end Computes

theorem computes_eval {state : State} {node : Node} (h : node.IsArithmetic state.scopes)
    (rounds : Nat) :
    Computes state (eval rounds node) (node.exactValue state.scopes)
      (node.operations state.scopes) := by
  induction h with
  | literal i => exact .pure i
  | @identifier name i bound =>
      refine ⟨i, ?_, ?_⟩
      · rw [Node.exactValue, Scopes.integerAt, bound]
      · rw [eval, Step.map_apply, variableValue_apply, bound]
  | negation _ ih =>
      rw [eval, Node.exactValue, Node.operations]
      refine ih.bind fun i hi => ?_
      rw [← hi]
      exact .settle (answers_negation i)
  | binary op _ _ ihLeft ihRight =>
      rw [eval, Node.exactValue, Node.operations]
      refine ihLeft.bind fun l hl => ihRight.bind fun r hr => ?_
      rw [← hl, ← hr]
      exact .settle (answers_arithmetic op l r)

/-- An expression of integers evaluates to its exact value if each operation in it, one after the
other, has a result in range.  Otherwise it fails with the fault of the first operation that has
none.  Either way the state is as before, so nothing has been reported. -/
theorem eval_of_isArithmetic {state : State} {node : Node} (h : node.IsArithmetic state.scopes)
    (rounds : Nat) :
    match (node.operations state.scopes).find? Operation.faults with
    | none => ∃ i : Integer, i.val = node.exactValue state.scopes ∧
        eval rounds node state = .ok (.value (.integer i)) state
    | some operation => ∃ fault, eval rounds node state = .error (.fault fault) state ∧
        if operation.dividesByZero then fault = .divisionByZero
        else ∃ computation : Overflow, fault = .overflow computation ∧
          computation.operation = operation :=
  computes_eval h rounds

/-- A state with two integers, in which a text is hidden by one of them. -/
def halves : State :=
  ⟨⟨⟨[("x", .integer ⟨-4611686018427387904, by decide, by decide⟩),
    ("y", .integer ⟨-1, by decide, by decide⟩)]⟩, [⟨[("x", .text "x")]⟩]⟩, [], #[], .empty .error⟩

def remainderByZero : Node :=
  .binary (.arithmetic .divide)
    (.binary (.arithmetic .remainder)
      (.binary (.arithmetic .add) (.identifier "x") (.identifier "x")) (.identifier "y"))
    (.literal (.integer .zero))

/-- The sum is the least integer.  Its remainder by `-1` comes before the division by zero, and it
already faults. -/
theorem eval_remainderByZero :
    remainderByZero.IsArithmetic halves.scopes ∧
      ∃ fault, eval 1 remainderByZero halves = .error (.fault fault) halves ∧
        ∃ computation : Overflow, fault = .overflow computation ∧
          computation.operation = .binary .remainder (-9223372036854775808) (-1) := by
  have h : remainderByZero.IsArithmetic halves.scopes :=
    .binary .divide (.binary .remainder (.binary .add (.identifier rfl) (.identifier rfl))
      (.identifier rfl)) (.literal _)
  have hfirst : (remainderByZero.operations halves.scopes).find? Operation.faults =
      some (.binary .remainder (-9223372036854775808) (-1)) := by decide
  have heval := eval_of_isArithmetic h 1
  rw [hfirst] at heval
  exact ⟨h, heval⟩

end Evaluation

end Script

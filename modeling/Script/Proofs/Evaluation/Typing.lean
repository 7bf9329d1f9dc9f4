import Script.Evaluation.Node
/-!
# Types of expressions

An expression has a type if each operator in it gets operands of types that it takes, where a
variable has the type of its visible value.  An expression that has a type evaluates to a value of
this type, without a report, unless a computation divides by zero or leaves the range of integers.
-/

namespace Script

def Integer.zero : Integer := ⟨0, by decide, by decide⟩

inductive BinaryOp.Types : BinaryOp → (left right result : Ty) → Prop
  | and : BinaryOp.Types .and .boolean .boolean .boolean
  | or : BinaryOp.Types .or .boolean .boolean .boolean
  | equals (ty : Ty) : BinaryOp.Types .equals ty ty .boolean
  | notEquals (ty : Ty) : BinaryOp.Types .notEquals ty ty .boolean
  | order (op : OrderOp) : BinaryOp.Types (.order op) .integer .integer .boolean
  | arithmetic (op : ArithmeticOp) : BinaryOp.Types (.arithmetic op) .integer .integer .integer
  | concatenation : BinaryOp.Types (.arithmetic .add) .string .string .string

inductive UnaryOp.Types : UnaryOp → (operand result : Ty) → Prop
  | not : UnaryOp.Types .not .boolean .boolean
  | minus : UnaryOp.Types .minus .integer .integer

inductive Node.HasType (scopes : Scopes) : Node → Ty → Prop
  | literal (value : Value) : Node.HasType scopes (.literal value) value.ty
  | identifier {name : String} {value : Value} (visible : scopes.get? name = some value) :
      Node.HasType scopes (.identifier name) value.ty
  | binary {op : BinaryOp} {left right : Node} {ofLeft ofRight ofResult : Ty}
      (types : op.Types ofLeft ofRight ofResult) (onLeft : Node.HasType scopes left ofLeft)
      (onRight : Node.HasType scopes right ofRight) :
      Node.HasType scopes (.binary op left right) ofResult
  | unary {op : UnaryOp} {operand : Node} {ofOperand ofResult : Ty}
      (types : op.Types ofOperand ofResult) (inner : Node.HasType scopes operand ofOperand) :
      Node.HasType scopes (.unary op operand) ofResult
  | conditional {condition onTrue onFalse : Node} {ty : Ty}
      (ofCondition : Node.HasType scopes condition .boolean)
      (ofTrue : Node.HasType scopes onTrue ty) (ofFalse : Node.HasType scopes onFalse ty) :
      Node.HasType scopes (.conditional condition onTrue onFalse) ty

theorem Value.exists_boolean {v : Value} (h : v.ty = .boolean) : ∃ b, v = .boolean b := by
  cases v with
  | boolean b => exact ⟨b, rfl⟩
  | _ => cases h

theorem Value.exists_integer {v : Value} (h : v.ty = .integer) : ∃ i, v = .integer i := by
  cases v with
  | integer i => exact ⟨i, rfl⟩
  | _ => cases h

theorem Value.exists_text {v : Value} (h : v.ty = .string) : ∃ s, v = .text s := by
  cases v with
  | text s => exact ⟨s, rfl⟩
  | _ => cases h

namespace Evaluation

inductive Fault.IsArithmetic : Fault → Prop
  | divisionByZero : Fault.IsArithmetic .divisionByZero
  | overflow (computation : Overflow) : Fault.IsArithmetic (.overflow computation)

inductive Answer.Has (ty : Ty) : Answer → Prop
  | value {v : Value} (h : v.ty = ty) : Answer.Has ty (.value v)
  | fault {fault : Fault} (h : fault.IsArithmetic) : Answer.Has ty (.fault fault)

theorem has_ranged (computation : Overflow) (n : Int) : (ranged computation n).Has .integer := by
  unfold ranged
  cases Integer.ofInt? n with
  | some i => exact .value rfl
  | none => exact .fault (.overflow computation)

theorem has_arithmetic (op : ArithmeticOp) (left right : Integer) :
    (arithmetic op left right).Has .integer := by
  cases op with
  | add => exact has_ranged _ _
  | subtract => exact has_ranged _ _
  | multiply => exact has_ranged _ _
  | divide =>
      rw [arithmetic]
      split
      · exact .fault .divisionByZero
      · exact has_ranged _ _
  | remainder =>
      rw [arithmetic]
      split
      · exact .fault .divisionByZero
      · cases Integer.ofInt? (left.val.tdiv right.val) with
        | some quotient => exact has_ranged _ _
        | none => exact .fault (.overflow _)

theorem has_binary {op : BinaryOp} {left right : Value} {ty : Ty}
    (types : op.Types left.ty right.ty ty) : (binary op left right).Has ty := by
  generalize hleft : left.ty = ofLeft at types
  generalize hright : right.ty = ofRight at types
  cases types with
  | and | or =>
      obtain ⟨l, rfl⟩ := Value.exists_boolean hleft
      obtain ⟨r, rfl⟩ := Value.exists_boolean hright
      exact .value rfl
  | equals | notEquals =>
      rw [binary, if_pos (hleft.trans hright.symm)]
      exact .value rfl
  | order op =>
      obtain ⟨l, rfl⟩ := Value.exists_integer hleft
      obtain ⟨r, rfl⟩ := Value.exists_integer hright
      exact .value rfl
  | arithmetic op =>
      obtain ⟨l, rfl⟩ := Value.exists_integer hleft
      obtain ⟨r, rfl⟩ := Value.exists_integer hright
      exact has_arithmetic op l r
  | concatenation =>
      obtain ⟨l, rfl⟩ := Value.exists_text hleft
      obtain ⟨r, rfl⟩ := Value.exists_text hright
      exact .value rfl

theorem has_unary {op : UnaryOp} {operand : Value} {ty : Ty} (types : op.Types operand.ty ty) :
    (unary op operand).Has ty := by
  generalize hoperand : operand.ty = ofOperand at types
  cases types with
  | not =>
      obtain ⟨b, rfl⟩ := Value.exists_boolean hoperand
      exact .value rfl
  | minus =>
      obtain ⟨i, rfl⟩ := Value.exists_integer hoperand
      exact has_ranged _ _

/-- Whether an evaluation leaves the state alone and ends with a value of the given type, or else
with an arithmetic fault. -/
inductive Yields (ty : Ty) (state : State) (evaluation : Eval Signal) : Prop
  | value (v : Value) (run : evaluation state = .ok (.value v) state) (h : v.ty = ty)
  | fault (fault : Fault) (run : evaluation state = .error (.fault fault) state)
      (h : fault.IsArithmetic)

namespace Yields

variable {ty : Ty} {state : State}

theorem pure (v : Value) : Yields v.ty state (pure (.value v)) := .value v rfl rfl

theorem bind {result : Ty} {evaluation : Eval Signal} {next : Value → Eval Signal}
    (first : Yields ty state evaluation) (second : ∀ v : Value, v.ty = ty →
      Yields result state (next v)) : Yields result state (asValue evaluation >>= next) := by
  cases first with
  | value v run h =>
      have hnext : (asValue evaluation >>= next) state = next v state := by
        rw [Step.bind_apply, asValue_apply, run]
        rfl
      cases second v h with
      | value w run h => exact .value w (hnext.trans run) h
      | fault fault run h => exact .fault fault (hnext.trans run) h
  | fault fault run h =>
      refine .fault fault ?_ h
      rw [Step.bind_apply, asValue_apply, run]

theorem settle {answer : Answer} (h : answer.Has ty) :
    Yields ty state (.value <$> settle answer) := by
  cases h with
  | value h => exact .value _ rfl h
  | fault h => exact .fault _ rfl h

end Yields

theorem yields_eval {state : State} {node : Node} {ty : Ty} (typed : node.HasType state.scopes ty)
    (rounds : Nat) : Yields ty state (eval rounds node) := by
  induction typed with
  | literal value => exact .pure value
  | @identifier name value visible =>
      refine .value value ?_ rfl
      rw [eval, Step.map_apply, variableValue_apply, visible]
  | binary types _ _ ihLeft ihRight =>
      rw [eval]
      refine ihLeft.bind fun l hl => ihRight.bind fun r hr => .settle (has_binary ?_)
      rwa [hl, hr]
  | unary types _ ih =>
      rw [eval]
      refine ih.bind fun v hv => .settle (has_unary ?_)
      rwa [hv]
  | conditional _ _ _ ihCondition ihTrue ihFalse =>
      -- a condition has one of two values, and each leads to a branch of the same type
      rw [eval]
      refine ihCondition.bind fun v hv => ?_
      obtain ⟨b, rfl⟩ := Value.exists_boolean hv
      cases b with
      | true => exact ihTrue.bind fun v hv => hv ▸ .pure v
      | false => exact ihFalse.bind fun v hv => hv ▸ .pure v

/-- An expression that has a type evaluates to a value of this type, unless a computation divides by
zero or leaves the range of integers.  Either way the state is as before, so nothing has been
reported. -/
theorem eval_of_hasType {state : State} {node : Node} {ty : Ty}
    (typed : node.HasType state.scopes ty) (rounds : Nat) :
    (∃ v : Value, eval rounds node state = .ok (.value v) state ∧ v.ty = ty) ∨
      ∃ fault, eval rounds node state = .error (.fault fault) state ∧
        (fault = .divisionByZero ∨ ∃ computation, fault = .overflow computation) := by
  cases yields_eval typed rounds with
  | value v run h => exact .inl ⟨v, run, h⟩
  | fault fault run h =>
      refine .inr ⟨fault, run, ?_⟩
      cases h with
      | divisionByZero => exact .inl rfl
      | overflow computation => exact .inr ⟨computation, rfl⟩

/-- A state in which a text hides a boolean of the same name. -/
def shadowed : State :=
  ⟨⟨⟨[("s", .text "a")]⟩, [⟨[("s", .boolean true), ("n", .integer .zero)]⟩]⟩,
    [], #[], .empty .error⟩

def fragile : Node :=
  .conditional
    (.binary .and (.unary .not (.binary .equals (.identifier "s") (.literal (.text "b"))))
      (.binary (.order .less) (.unary .minus (.identifier "n"))
        (.binary (.arithmetic .divide) (.identifier "n") (.identifier "n"))))
    (.binary (.arithmetic .add) (.identifier "s") (.literal (.text "c"))) (.identifier "s")

/-- That an expression has a type is no promise that it has a value. -/
theorem eval_fragile :
    fragile.HasType shadowed.scopes .string ∧
      ((∃ v : Value, eval 1 fragile shadowed = .ok (.value v) shadowed ∧ v.ty = .string) ∨
        ∃ fault, eval 1 fragile shadowed = .error (.fault fault) shadowed ∧
          (fault = .divisionByZero ∨ ∃ computation, fault = .overflow computation)) := by
  have s : Node.HasType shadowed.scopes (.identifier "s") .string :=
    @Node.HasType.identifier shadowed.scopes "s" (.text "a") rfl
  have n : Node.HasType shadowed.scopes (.identifier "n") .integer :=
    @Node.HasType.identifier shadowed.scopes "n" (.integer .zero) rfl
  have typed : fragile.HasType shadowed.scopes .string :=
    .conditional (.binary .and (.unary .not (.binary (.equals .string) s (.literal (.text "b"))))
      (.binary (.order .less) (.unary .minus n) (.binary (.arithmetic .divide) n n)))
      (.binary .concatenation s (.literal (.text "c"))) s
  exact ⟨typed, eval_of_hasType typed 1⟩

end Evaluation

end Script

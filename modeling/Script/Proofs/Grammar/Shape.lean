import Script.Proofs.Grammar.Spelling
/-!
# Trees of the grammar

Which trees a program can be made of, said without reference to how it is read: expressions keep to
the levels of their operators, statements stand only where statements are due, and every `if` begins
with a condition and has at most one link without, as its last.  How deep a tree nests is counted
separately.
-/

namespace Script

def conditionalLevel : Nat := BinaryOp.loosest + 1

/-- An expression that binds no looser than `level`.  Level 0 is that of operands.  An operator
takes what binds no looser than itself on its left, and what binds tighter on its right. -/
inductive Node.IsExpression : Nat → Node → Prop
  | literal {level : Nat} {value : Value} (nonvoid : value ≠ .void) :
      IsExpression level (.literal value)
  | identifier {level : Nat} {name : String} : IsExpression level (.identifier name)
  | unary {level : Nat} {op : UnaryOp} {operand : Node} (inner : IsExpression 0 operand) :
      IsExpression level (.unary op operand)
  | binary {level : Nat} {op : BinaryOp} {left right : Node} (le : op.level ≤ level)
      (onLeft : IsExpression op.level left) (onRight : IsExpression (op.level - 1) right) :
      IsExpression level (.binary op left right)
  | conditional {level : Nat} {condition onTrue onFalse : Node} (le : conditionalLevel ≤ level)
      (ofCondition : IsExpression BinaryOp.loosest condition)
      (ofTrue : IsExpression conditionalLevel onTrue)
      (ofFalse : IsExpression conditionalLevel onFalse) :
      IsExpression level (.conditional condition onTrue onFalse)

mutual

inductive Node.IsStatement : Node → Prop
  | declaration {name : String} {ascription : Option Ty} {initial : Node}
      (value : initial.IsExpression conditionalLevel) :
      Node.IsStatement (.declaration name ascription initial)
  | assignment {name : String} {assigned : Node} (value : assigned.IsExpression conditionalLevel) :
      Node.IsStatement (.assignment name assigned)
  | ifChain {chain : Chain} (links : chain.IsIf) : Node.IsStatement (.ifChain chain)
  | whileLoop {condition : Node} {body : List Node}
      (head : condition.IsExpression conditionalLevel)
      (statements : ∀ node ∈ body, Node.IsStatement node) :
      Node.IsStatement (.whileLoop condition body)
  | breakLoop : Node.IsStatement .breakLoop
  | nextRound : Node.IsStatement .nextRound
  | function {signature : Signature} {body : List Node}
      (statements : ∀ node ∈ body, Node.IsStatement node) :
      Node.IsStatement (.function signature body)
  | returnValue {returned : Node} (value : returned.IsExpression conditionalLevel) :
      Node.IsStatement (.returnValue returned)
  | expression {node : Node} (value : node.IsExpression conditionalLevel) : Node.IsStatement node

/-- The links of an `if`, of which the first one has a condition. -/
inductive Chain.IsIf : Chain → Prop
  | last {condition : Node} {body : List Node} (head : condition.IsExpression BinaryOp.loosest)
      (statements : ∀ node ∈ body, Node.IsStatement node) : Chain.IsIf (.when condition body .done)
  | otherwise {condition : Node} {body final : List Node}
      (head : condition.IsExpression BinaryOp.loosest)
      (statements : ∀ node ∈ body, Node.IsStatement node)
      (finals : ∀ node ∈ final, Node.IsStatement node) :
      Chain.IsIf (.when condition body (.always final .done))
  | link {condition : Node} {body : List Node} {others : Chain}
      (head : condition.IsExpression BinaryOp.loosest)
      (statements : ∀ node ∈ body, Node.IsStatement node) (links : others.IsIf) :
      Chain.IsIf (.when condition body others)

end

/-- How deep unary operators and branches of conditionals nest in an expression. -/
def Node.nesting : Node → Nat
  | unary _ operand => operand.nesting + 1
  | binary _ left right => max left.nesting right.nesting
  | conditional condition onTrue onFalse =>
    max condition.nesting (max (onTrue.nesting + 1) (onFalse.nesting + 1))
  | _ => 0

mutual

/-- How deep a statement nests.  Each expression that is no operand counts for one, except the
conditions of an `if`, and so does each statement inside a body and each link of an `if` with a
condition after its first one. -/
def Node.depth : Node → Nat
  | .declaration _ _ initial => initial.nesting + 1
  | .assignment _ value => value.nesting + 1
  | .ifChain chain => chain.depth
  | .whileLoop condition body => max (condition.nesting + 1) (depthOfBody body)
  | .breakLoop => 0
  | .nextRound => 0
  | .function _ body => depthOfBody body
  | .returnValue value => value.nesting + 1
  | node => node.nesting + 1

/-- How deep the links of an `if` nest, of which the first one does not count. -/
def Chain.depth : Chain → Nat
  | .done => 0
  | .when condition body (.when condition' body' others) =>
    max (max condition.nesting (depthOfBody body))
      ((Chain.when condition' body' others).depth + 1)
  | .when condition body others => max (max condition.nesting (depthOfBody body)) others.depth
  | .always body others => max (depthOfBody body) others.depth

def depthOfBody : List Node → Nat
  | [] => 0
  | statement :: others => max (statement.depth + 1) (depthOfBody others)

end

mutual

/-- Whether no body of a loop begins with a minus sign, which would belong to the condition. -/
def Node.IsSeparated : Node → Prop
  | .ifChain chain => chain.IsSeparated
  | .whileLoop _ body => (spellBody body).head? ≠ some (.mark .minus) ∧ AreSeparated body
  | .function _ body => AreSeparated body
  | _ => True

def Chain.IsSeparated : Chain → Prop
  | .done => True
  | .when _ body others => AreSeparated body ∧ others.IsSeparated
  | .always body others => AreSeparated body ∧ others.IsSeparated

def AreSeparated : List Node → Prop
  | [] => True
  | statement :: others => statement.IsSeparated ∧ AreSeparated others

end

def expressionKinds : List Kind :=
  [.integer, .string, .char, .boolean, .identifier, .minus, .kwNot, .plus, .star, .slash, .percent,
    .greater, .greaterEquals, .less, .lessEquals, .equals, .notEquals, .kwAnd, .kwOr, .kwThen,
    .kwElse]

namespace Node.IsExpression

theorem operand_cases {node : Node} (h : node.IsExpression 0) :
    (∃ value, value ≠ .void ∧ node = .literal value) ∨ (∃ name, node = .identifier name) ∨
      ∃ op operand, operand.IsExpression 0 ∧ node = .unary op operand := by
  cases h with
  | literal nonvoid => exact .inl ⟨_, nonvoid, rfl⟩
  | identifier => exact .inr (.inl ⟨_, rfl⟩)
  | unary inner => exact .inr (.inr ⟨_, _, inner, rfl⟩)
  | @binary _ op _ _ le =>
      have := op.level_pos
      omega
  | conditional le => exact absurd le (by decide)

theorem mono {level level' : Nat} {node : Node} (h : node.IsExpression level)
    (le : level ≤ level') : node.IsExpression level' := by
  cases h with
  | literal nonvoid => exact .literal nonvoid
  | identifier => exact .identifier
  | unary inner => exact .unary inner
  | binary hop onLeft onRight => exact .binary (Nat.le_trans hop le) onLeft onRight
  | conditional hlevel ofCondition ofTrue ofFalse =>
      exact .conditional (Nat.le_trans hlevel le) ofCondition ofTrue ofFalse

/-- An expression that binds no looser than a level either binds tighter or has an operator of that
level as its root, unless the level is that of conditionals. -/
theorem succ_cases {level : Nat} {node : Node} (h : node.IsExpression (level + 1))
    (lt : level < BinaryOp.loosest) :
    node.IsExpression level ∨ ∃ op left right, op.level = level + 1 ∧
      left.IsExpression (level + 1) ∧ right.IsExpression level ∧ node = .binary op left right := by
  cases h with
  | literal nonvoid => exact .inl (.literal nonvoid)
  | identifier => exact .inl .identifier
  | unary inner => exact .inl (.unary inner)
  | @binary _ op left right le onLeft onRight =>
      rcases Nat.lt_or_eq_of_le le with hlt | heq
      · exact .inl (.binary (Nat.le_of_lt_succ hlt) onLeft onRight)
      · rw [heq] at onLeft onRight
        exact .inr ⟨op, left, right, heq, onLeft, onRight, rfl⟩
  | conditional le =>
      rw [conditionalLevel] at le
      omega

theorem conditional_cases {node : Node} (h : node.IsExpression conditionalLevel) :
    node.IsExpression BinaryOp.loosest ∨ ∃ condition onTrue onFalse,
      condition.IsExpression BinaryOp.loosest ∧ onTrue.IsExpression conditionalLevel ∧
        onFalse.IsExpression conditionalLevel ∧ node = .conditional condition onTrue onFalse := by
  cases h with
  | literal nonvoid => exact .inl (.literal nonvoid)
  | identifier => exact .inl .identifier
  | unary inner => exact .inl (.unary inner)
  | @binary _ op _ _ _ onLeft onRight => exact .inl (.binary op.level_le_loosest onLeft onRight)
  | conditional _ ofCondition ofTrue ofFalse =>
      exact .inr ⟨_, _, _, ofCondition, ofTrue, ofFalse, rfl⟩

theorem depth_eq {level : Nat} {node : Node} (h : node.IsExpression level) :
    node.depth = node.nesting + 1 := by
  cases h <;> simp only [Node.depth]

theorem isSeparated {level : Nat} {node : Node} (h : node.IsExpression level) :
    node.IsSeparated := by
  cases h <;> simp only [Node.IsSeparated]

theorem statementSpelling_eq {level : Nat} {node : Node} (h : node.IsExpression level) :
    node.statementSpelling = node.spelling ++ [.mark .semicolon] := by
  cases h <;> rfl

theorem kind_mem {level : Nat} {node : Node} (h : node.IsExpression level) :
    ∀ terminal ∈ node.spelling, terminal.kind ∈ expressionKinds := by
  induction h with
  | @literal _ value nonvoid =>
      intro terminal mem
      rw [Node.spelling, List.mem_singleton] at mem
      subst mem
      cases value with
      | void => exact absurd rfl nonvoid
      | integer i => simp [Terminal.kind, expressionKinds]
      | text s => simp [Terminal.kind, expressionKinds]
      | character c => simp [Terminal.kind, expressionKinds]
      | boolean b => simp [Terminal.kind, expressionKinds]
  | identifier => simp [Node.spelling, Terminal.kind, expressionKinds]
  | @unary _ op _ _ ih =>
      have hop : op.kind ∈ expressionKinds := by cases op <;> decide
      simp only [Node.spelling, List.forall_mem_cons]
      exact ⟨hop, ih⟩
  | @binary _ op left right _ _ _ ihLeft ihRight =>
      have hop : op.kind ∈ expressionKinds := by
        unfold BinaryOp.kind
        split <;> decide
      simp only [Node.spelling, List.forall_mem_append, List.forall_mem_cons]
      exact ⟨ihLeft, hop, ihRight⟩
  | conditional _ _ _ _ ihCondition ihTrue ihFalse =>
      simp only [Node.spelling, List.forall_mem_append, List.forall_mem_cons]
      exact ⟨ihCondition, by decide, ihTrue, by decide, ihFalse⟩

end Node.IsExpression

theorem areSeparated_iff {body : List Node} :
    AreSeparated body ↔ ∀ node ∈ body, node.IsSeparated := by
  induction body with
  | nil => simp [AreSeparated]
  | cons statement others ih => simp [AreSeparated, ih]

theorem depthOfBody_le_iff {body : List Node} {n : Nat} :
    depthOfBody body ≤ n ↔ ∀ node ∈ body, node.depth < n := by
  induction body with
  | nil => simp [depthOfBody]
  | cons statement others ih =>
      rw [depthOfBody, Nat.max_le, Nat.succ_le_iff, ih, List.forall_mem_cons]

end Script

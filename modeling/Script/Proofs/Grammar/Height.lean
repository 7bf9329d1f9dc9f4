import Script.Proofs.Grammar.Program
/-!
# How high trees grow

The limit on nesting is a limit on the recursion of reading, and not on the height of what is read.
A chain of operators of one level is read in a loop and nests to the left, one node deeper for each
operator.  So there is no bound on the height of trees.  If a chain counts as a single node, however
long it is, then the limit does bound what is left of the height.  It follows that a tree is high
only as far as one of its chains is long.
-/

namespace Script

mutual

/-- The number of nodes on the longest way down a tree.  Each link of an `if` is a node. -/
def Node.height : Node → Nat
  | .declaration _ _ initial => initial.height + 1
  | .assignment _ value => value.height + 1
  | .binary _ left right => max left.height right.height + 1
  | .unary _ operand => operand.height + 1
  | .conditional condition onTrue onFalse =>
    max condition.height (max onTrue.height onFalse.height) + 1
  | .ifChain chain => chain.height
  | .whileLoop condition body => max condition.height (heightOfBody body) + 1
  | .function _ body => heightOfBody body + 1
  | .returnValue value => value.height + 1
  | _ => 1

def Chain.height : Chain → Nat
  | .done => 0
  | .when condition body others => max condition.height (max (heightOfBody body) others.height) + 1
  | .always body others => max (heightOfBody body) others.height + 1

def heightOfBody : List Node → Nat
  | [] => 0
  | statement :: others => max statement.height (heightOfBody others)

end

def Node.joins (level : Nat) : Node → Bool
  | .binary op _ _ => op.level = level
  | _ => false

mutual

/-- The height of a tree in which each chain of operators of one level counts as one node. -/
def Node.foldedHeight : Node → Nat
  | .declaration _ _ initial => initial.foldedHeight + 1
  | .assignment _ value => value.foldedHeight + 1
  | .binary op left right =>
    max (if left.joins op.level then left.foldedHeight else left.foldedHeight + 1)
      (right.foldedHeight + 1)
  | .unary _ operand => operand.foldedHeight + 1
  | .conditional condition onTrue onFalse =>
    max condition.foldedHeight (max onTrue.foldedHeight onFalse.foldedHeight) + 1
  | .ifChain chain => chain.foldedHeight
  | .whileLoop condition body => max condition.foldedHeight (foldedHeightOfBody body) + 1
  | .function _ body => foldedHeightOfBody body + 1
  | .returnValue value => value.foldedHeight + 1
  | _ => 1

def Chain.foldedHeight : Chain → Nat
  | .done => 0
  | .when condition body others =>
    max condition.foldedHeight (max (foldedHeightOfBody body) others.foldedHeight) + 1
  | .always body others => max (foldedHeightOfBody body) others.foldedHeight + 1

def foldedHeightOfBody : List Node → Nat
  | [] => 0
  | statement :: others => max statement.foldedHeight (foldedHeightOfBody others)

end

/-- The number of operators in the chain at the root of a tree. -/
def Node.chainLength : Node → Nat
  | .binary op left _ => if left.joins op.level then left.chainLength + 1 else 1
  | _ => 0

mutual

/-- The number of operators in the longest chain of operators of one level in a tree. -/
def Node.longestChain : Node → Nat
  | .declaration _ _ initial => initial.longestChain
  | .assignment _ value => value.longestChain
  | .binary op left right =>
    max (Node.binary op left right).chainLength (max left.longestChain right.longestChain)
  | .unary _ operand => operand.longestChain
  | .conditional condition onTrue onFalse =>
    max condition.longestChain (max onTrue.longestChain onFalse.longestChain)
  | .ifChain chain => chain.longestChain
  | .whileLoop condition body => max condition.longestChain (longestChainOfBody body)
  | .function _ body => longestChainOfBody body
  | .returnValue value => value.longestChain
  | _ => 0

def Chain.longestChain : Chain → Nat
  | .done => 0
  | .when condition body others =>
    max condition.longestChain (max (longestChainOfBody body) others.longestChain)
  | .always body others => max (longestChainOfBody body) others.longestChain

def longestChainOfBody : List Node → Nat
  | [] => 0
  | statement :: others => max statement.longestChain (longestChainOfBody others)

end

/-- An expression without an operator of its own level as its root binds tighter. -/
theorem Node.IsExpression.pred {level : Nat} {node : Node} (shape : node.IsExpression (level + 1))
    (lt : level < BinaryOp.loosest) (joins : node.joins (level + 1) = false) :
    node.IsExpression level := by
  rcases shape.succ_cases lt with tighter | ⟨op, left, right, hlevel, -, -, rfl⟩
  · exact tighter
  · simp [Node.joins, hlevel] at joins

/-- Each level of operators adds at most one to the height of an expression, and so does each level
of nesting. -/
theorem Node.IsExpression.foldedHeight_le {level : Nat} (node : Node)
    (shape : node.IsExpression level) : node.foldedHeight ≤ node.nesting + level + 1 := by
  cases shape with
  | literal nonvoid => simp [Node.foldedHeight]
  | identifier => simp [Node.foldedHeight]
  | @unary _ op operand inner =>
      have := Node.IsExpression.foldedHeight_le operand inner
      simp only [Node.foldedHeight, Node.nesting]
      omega
  | @binary _ op left right le onLeft onRight =>
      obtain ⟨tighter, hlevel⟩ : ∃ tighter, op.level = tighter + 1 :=
        Nat.exists_eq_add_one.2 op.level_pos
      have hright := Node.IsExpression.foldedHeight_le right onRight
      have hleft : (if left.joins op.level then left.foldedHeight else left.foldedHeight + 1) ≤
          left.nesting + op.level + 1 := by
        split
        · exact Node.IsExpression.foldedHeight_le left onLeft
        · rename_i joins
          rw [hlevel] at onLeft joins ⊢
          have lt := op.level_le_loosest
          have := Node.IsExpression.foldedHeight_le left
            (onLeft.pred (by omega) (Bool.eq_false_iff.2 joins))
          omega
      simp only [Node.foldedHeight, Node.nesting]
      omega
  | @conditional _ condition onTrue onFalse le ofCondition ofTrue ofFalse =>
      have hcondition := Node.IsExpression.foldedHeight_le condition ofCondition
      have htrue := Node.IsExpression.foldedHeight_le onTrue ofTrue
      have hfalse := Node.IsExpression.foldedHeight_le onFalse ofFalse
      simp only [Node.foldedHeight, Node.nesting]
      rw [conditionalLevel] at le htrue hfalse
      omega

theorem Node.IsExpression.foldedHeight_le_nesting {level : Nat} {node : Node}
    (shape : node.IsExpression level) (le : level ≤ conditionalLevel) :
    node.foldedHeight ≤ node.nesting + 8 := by
  have := Node.IsExpression.foldedHeight_le node shape
  have : conditionalLevel = 7 := rfl
  omega

mutual

/-- A statement that nests one level deeper is at most two nodes higher: a link of an `if` and the
one without a condition after it count as one level. -/
theorem foldedHeight_le_of_isStatement (node : Node) (shape : node.IsStatement) :
    node.foldedHeight ≤ 2 * node.depth + 9 := by
  cases shape with
  | declaration value | assignment value | returnValue value =>
      have hvalue := value.foldedHeight_le_nesting (Nat.le_refl _)
      simp only [Node.foldedHeight, Node.depth]
      omega
  | @ifChain links shape =>
      have hlinks := foldedHeight_le_of_isIf links shape
      simp only [Node.foldedHeight, Node.depth]
      omega
  | @whileLoop condition content head statements =>
      have hhead := head.foldedHeight_le_nesting (Nat.le_refl _)
      have hbody := foldedHeightOfBody_le content statements
      simp only [Node.foldedHeight, Node.depth]
      omega
  | @function signature content statements =>
      have hbody := foldedHeightOfBody_le content statements
      simp only [Node.foldedHeight, Node.depth]
      omega
  | breakLoop | nextRound => simp [Node.foldedHeight]
  | expression value =>
      have hvalue := value.foldedHeight_le_nesting (Nat.le_refl _)
      rw [value.depth_eq]
      omega

theorem foldedHeight_le_of_isIf (links : Chain) (shape : links.IsIf) :
    links.foldedHeight ≤ 2 * links.depth + 9 := by
  cases shape with
  | @last condition content head statements =>
      have hhead := head.foldedHeight_le_nesting (Nat.le_succ _)
      have hbody := foldedHeightOfBody_le content statements
      simp only [Chain.foldedHeight, Chain.depth]
      omega
  | @otherwise condition content final head statements finals =>
      have hhead := head.foldedHeight_le_nesting (Nat.le_succ _)
      have hbody := foldedHeightOfBody_le content statements
      have hfinal := foldedHeightOfBody_le final finals
      simp only [Chain.foldedHeight, Chain.depth]
      omega
  | @link condition content others head statements shape =>
      have hhead := head.foldedHeight_le_nesting (Nat.le_succ _)
      have hbody := foldedHeightOfBody_le content statements
      have hlinks := foldedHeight_le_of_isIf others shape
      rw [Chain.depth_link shape]
      simp only [Chain.foldedHeight]
      omega

theorem foldedHeightOfBody_le (content : List Node) (shape : ∀ node ∈ content, node.IsStatement) :
    foldedHeightOfBody content ≤ 2 * depthOfBody content + 7 := by
  cases content with
  | nil => simp [foldedHeightOfBody]
  | cons first others =>
      obtain ⟨shape, shapes⟩ := List.forall_mem_cons.1 shape
      have hfirst := foldedHeight_le_of_isStatement first shape
      have hothers := foldedHeightOfBody_le others shapes
      simp only [foldedHeightOfBody, depthOfBody]
      omega

end

theorem Node.chainLength_le_height (node : Node) : node.chainLength ≤ node.height := by
  cases node with
  | binary op left right =>
      have hleft := Node.chainLength_le_height left
      simp only [Node.chainLength, Node.height]
      split <;> omega
  | _ => exact Nat.zero_le _

mutual

theorem longestChain_le_height (node : Node) : node.longestChain ≤ node.height := by
  cases node with
  | declaration _ _ value | assignment _ value | unary _ value | returnValue value =>
      have := longestChain_le_height value
      simp only [Node.longestChain, Node.height]
      omega
  | binary op left right =>
      have hchain := (Node.binary op left right).chainLength_le_height
      have hleft := longestChain_le_height left
      have hright := longestChain_le_height right
      simp only [Node.longestChain, Node.height] at hchain ⊢
      omega
  | conditional condition onTrue onFalse =>
      have hcondition := longestChain_le_height condition
      have htrue := longestChain_le_height onTrue
      have hfalse := longestChain_le_height onFalse
      simp only [Node.longestChain, Node.height]
      omega
  | ifChain links => exact longestChain_le_height_of_links links
  | whileLoop condition content =>
      have hcondition := longestChain_le_height condition
      have hbody := longestChainOfBody_le_height content
      simp only [Node.longestChain, Node.height]
      omega
  | function signature content =>
      have hbody := longestChainOfBody_le_height content
      simp only [Node.longestChain, Node.height]
      omega
  | _ => exact Nat.zero_le _

theorem longestChain_le_height_of_links (links : Chain) : links.longestChain ≤ links.height := by
  cases links with
  | done => exact Nat.zero_le _
  | when condition content others =>
      have hcondition := longestChain_le_height condition
      have hbody := longestChainOfBody_le_height content
      have hothers := longestChain_le_height_of_links others
      simp only [Chain.longestChain, Chain.height]
      omega
  | always content others =>
      have hbody := longestChainOfBody_le_height content
      have hothers := longestChain_le_height_of_links others
      simp only [Chain.longestChain, Chain.height]
      omega

theorem longestChainOfBody_le_height (content : List Node) :
    longestChainOfBody content ≤ heightOfBody content := by
  cases content with
  | nil => exact Nat.zero_le _
  | cons first others =>
      have hfirst := longestChain_le_height first
      have hothers := longestChainOfBody_le_height others
      simp only [longestChainOfBody, heightOfBody]
      omega

end

mutual

/-- Where no chain has more than `width` operators, a node that stands for a chain stands for at
most `width` nodes.  The chain at the root is told apart, since it may grow to the left. -/
theorem height_le_mul {width : Nat} (pos : 1 ≤ width) (node : Node)
    (bounded : node.longestChain ≤ width) :
    node.height ≤ node.foldedHeight * width ∧ ∀ level, node.joins level →
      node.height + width ≤ node.foldedHeight * width + node.chainLength := by
  cases node with
  | declaration _ _ value | assignment _ value | unary _ value | returnValue value =>
      have hvalue := (height_le_mul pos value bounded).1
      refine ⟨?_, fun level joins => by cases joins⟩
      simp only [Node.height, Node.foldedHeight, Nat.add_mul]
      omega
  | binary op left right =>
      obtain ⟨hchain, hbounded⟩ := Nat.max_le.1 bounded
      obtain ⟨hleft, hjoined⟩ := height_le_mul pos left (Nat.max_le.1 hbounded).1
      have hright := (height_le_mul pos right (Nat.max_le.1 hbounded).2).1
      have hroot : (Node.binary op left right).height + width ≤
          (Node.binary op left right).foldedHeight * width +
            (Node.binary op left right).chainLength := by
        simp only [Node.height, Node.foldedHeight, Node.chainLength, ← Nat.mul_max_mul_right,
          Nat.add_mul]
        -- a left operand of the same level belongs to the chain of which this operator is the root
        split
        · rename_i joins
          have := hjoined op.level joins
          omega
        · simp only [Nat.add_mul]
          omega
      exact ⟨by omega, fun _ _ => hroot⟩
  | conditional condition onTrue onFalse =>
      obtain ⟨hcondition, hbranches⟩ := Nat.max_le.1 bounded
      have hcondition := (height_le_mul pos condition hcondition).1
      have htrue := (height_le_mul pos onTrue (Nat.max_le.1 hbranches).1).1
      have hfalse := (height_le_mul pos onFalse (Nat.max_le.1 hbranches).2).1
      refine ⟨?_, fun level joins => by cases joins⟩
      simp only [Node.height, Node.foldedHeight, Nat.add_mul, ← Nat.mul_max_mul_right]
      omega
  | ifChain links =>
      exact ⟨height_le_mul_of_links pos links bounded, fun level joins => by cases joins⟩
  | whileLoop condition content =>
      obtain ⟨hcondition, hbody⟩ := Nat.max_le.1 bounded
      have hcondition := (height_le_mul pos condition hcondition).1
      have hbody := heightOfBody_le_mul pos content hbody
      refine ⟨?_, fun level joins => by cases joins⟩
      simp only [Node.height, Node.foldedHeight, Nat.add_mul, ← Nat.mul_max_mul_right]
      omega
  | function signature content =>
      have hbody := heightOfBody_le_mul pos content bounded
      refine ⟨?_, fun level joins => by cases joins⟩
      simp only [Node.height, Node.foldedHeight, Nat.add_mul]
      omega
  | literal | identifier | breakLoop | nextRound | malformed | endOfInput =>
      refine ⟨?_, fun level joins => by cases joins⟩
      simpa only [Node.height, Node.foldedHeight, Nat.one_mul] using pos

theorem height_le_mul_of_links {width : Nat} (pos : 1 ≤ width) (links : Chain)
    (bounded : links.longestChain ≤ width) : links.height ≤ links.foldedHeight * width := by
  cases links with
  | done => exact Nat.zero_le _
  | when condition content others =>
      obtain ⟨hcondition, hbounded⟩ := Nat.max_le.1 bounded
      have hcondition := (height_le_mul pos condition hcondition).1
      have hbody := heightOfBody_le_mul pos content (Nat.max_le.1 hbounded).1
      have hothers := height_le_mul_of_links pos others (Nat.max_le.1 hbounded).2
      simp only [Chain.height, Chain.foldedHeight, Nat.add_mul, ← Nat.mul_max_mul_right]
      omega
  | always content others =>
      obtain ⟨hbody, hothers⟩ := Nat.max_le.1 bounded
      have hbody := heightOfBody_le_mul pos content hbody
      have hothers := height_le_mul_of_links pos others hothers
      simp only [Chain.height, Chain.foldedHeight, Nat.add_mul, ← Nat.mul_max_mul_right]
      omega

theorem heightOfBody_le_mul {width : Nat} (pos : 1 ≤ width) (content : List Node)
    (bounded : longestChainOfBody content ≤ width) :
    heightOfBody content ≤ foldedHeightOfBody content * width := by
  cases content with
  | nil => exact Nat.zero_le _
  | cons first others =>
      obtain ⟨hfirst, hothers⟩ := Nat.max_le.1 bounded
      have hfirst := (height_le_mul pos first hfirst).1
      have hothers := heightOfBody_le_mul pos others hothers
      simp only [heightOfBody, foldedHeightOfBody, ← Nat.mul_max_mul_right]
      omega

end

/-- A chain of operators between variables, with `n` operators after the first one. -/
def leftChain (op : BinaryOp) : (n : Nat) → Node
  | 0 => .binary op (.identifier "x") (.identifier "x")
  | n + 1 => .binary op (leftChain op n) (.identifier "x")

def leftChainTokens (op : BinaryOp) : (n : Nat) → List Token
  | 0 => [⟨.identifier, "x", 1⟩, ⟨op.kind, op.symbol, 1⟩, ⟨.identifier, "x", 1⟩]
  | n + 1 => leftChainTokens op n ++ [⟨op.kind, op.symbol, 1⟩, ⟨.identifier, "x", 1⟩]

theorem isExpression_leftChain (op : BinaryOp) (n : Nat) :
    (leftChain op n).IsExpression op.level := by
  induction n with
  | zero => exact .binary (Nat.le_refl _) .identifier .identifier
  | succ n ih => exact .binary (Nat.le_refl _) ih .identifier

theorem spells_leftChain (op : BinaryOp) (n : Nat) :
    List.Forall₂ Token.Spells (leftChainTokens op n) (leftChain op n).spelling := by
  have hoperand : Token.Spells ⟨.identifier, "x", 1⟩ (.identifier "x") := ⟨rfl, rfl⟩
  have hoperator : Token.Spells ⟨op.kind, op.symbol, 1⟩ (.mark op.kind) := rfl
  induction n with
  | zero => exact .cons hoperand (.cons hoperator (.cons hoperand .nil))
  | succ n ih => exact List.rel_append ih (.cons hoperator (.cons hoperand .nil))

theorem nesting_leftChain (op : BinaryOp) (n : Nat) : (leftChain op n).nesting = 0 := by
  induction n with
  | zero => rfl
  | succ n ih =>
      rw [leftChain, Node.nesting, ih]
      rfl

theorem height_leftChain (op : BinaryOp) (n : Nat) : (leftChain op n).height = n + 2 := by
  have hoperand : (Node.identifier "x").height = 1 := rfl
  induction n with
  | zero => rfl
  | succ n ih =>
      rw [leftChain, Node.height, ih, hoperand]
      omega

namespace Grammar

/-- However many operators there are in a chain, it takes one level of nesting. -/
theorem parse_leftChainTokens (op : BinaryOp) (n : Nat) :
    parse (leftChainTokens op n ++ [⟨.semicolon, ";", 1⟩]) = ⟨[leftChain op n], none⟩ := by
  have shape : (leftChain op n).IsExpression conditionalLevel :=
    (isExpression_leftChain op n).mono (Nat.le_succ_of_le op.level_le_loosest)
  have readable : (leftChain op n).IsReadable (nestingLimit + 1) := by
    refine ⟨.expression shape, ?_, shape.isSeparated⟩
    rw [shape.depth_eq, nesting_leftChain]
    decide
  have hspells : List.Forall₂ Token.Spells (leftChainTokens op n ++ [⟨.semicolon, ";", 1⟩])
      (spellBody [leftChain op n]) := by
    have hend : Token.Spells ⟨.semicolon, ";", 1⟩ (.mark .semicolon) := rfl
    have hstatement : spellBody [leftChain op n] =
        (leftChain op n).spelling ++ [.mark .semicolon] := by
      rw [spellBody, spellBody, List.append_nil, ← shape.statementSpelling_eq]
      rfl
    rw [hstatement]
    exact List.rel_append (spells_leftChain op n) (.cons hend .nil)
  have proper := isProper_body [leftChain op n] (List.forall_mem_singleton.2 readable.shape)
  have hbefore : beforeEnd (leftChainTokens op n ++ [⟨.semicolon, ";", 1⟩] ++ []) = _ :=
    beforeEnd_append proper hspells rfl
  rw [List.append_nil] at hbefore
  refine parseWithin_eq_iff.2 ⟨List.forall_mem_singleton.2 readable, ?_⟩
  rw [hbefore]
  exact ⟨_, hspells, by rw [List.append_nil]⟩

theorem mem_parse_leftChainTokens (op : BinaryOp) (n : Nat) :
    leftChain op n ∈ (parse (leftChainTokens op n ++ [⟨.semicolon, ";", 1⟩])).statements := by
  rw [parse_leftChainTokens]
  exact List.mem_singleton.2 rfl

end Grammar

open Grammar

/-- The height of a statement is bounded by the limit on nesting as far as its chains of operators
are bounded: a node that stands for a chain is as high as the chain is long, and all else that makes
a tree higher counts as nesting. -/
theorem height_le_of_parse {tokens : List Token} {node : Node}
    (mem : node ∈ (parse tokens).statements) :
    node.longestChain ≤ node.height ∧
      node.height ≤ (2 * nestingLimit + 9) * max 1 node.longestChain := by
  refine ⟨longestChain_le_height node, ?_⟩
  have readable := (statementsFrom_sound nestingLimit (beforeEnd tokens)).1 node mem
  have hfolded : node.foldedHeight ≤ 2 * nestingLimit + 9 := by
    have hheight := foldedHeight_le_of_isStatement node readable.shape
    have hdepth := readable.depth_lt
    omega
  calc node.height
      ≤ node.foldedHeight * max 1 node.longestChain :=
        (height_le_mul (Nat.le_max_left _ _) node (Nat.le_max_right _ _)).1
    _ ≤ (2 * nestingLimit + 9) * max 1 node.longestChain := Nat.mul_le_mul_right _ hfolded

/-- A chain of a thousand operands is read as a tree of a thousand nodes on top of each other. -/
theorem height_le_leftChain :
    leftChain (.arithmetic .add) 998 ∈
        (parse (leftChainTokens (.arithmetic .add) 998 ++ [⟨.semicolon, ";", 1⟩])).statements ∧
      (leftChain (.arithmetic .add) 998).longestChain ≤
        (leftChain (.arithmetic .add) 998).height ∧
      (leftChain (.arithmetic .add) 998).height ≤
        (2 * nestingLimit + 9) * max 1 (leftChain (.arithmetic .add) 998).longestChain := by
  have mem := mem_parse_leftChainTokens (.arithmetic .add) 998
  exact ⟨mem, height_le_of_parse mem⟩

/-- No number bounds the heights of all trees that are read. -/
theorem height_unbounded : ¬ ∃ bound, ∀ (tokens : List Token),
    ∀ node ∈ (parse tokens).statements, node.height ≤ bound := by
  rintro ⟨bound, hbound⟩
  have hheight := hbound _ _ (mem_parse_leftChainTokens (.arithmetic .add) bound)
  rw [height_leftChain] at hheight
  omega

end Script

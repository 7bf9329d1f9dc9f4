import Script.Grammar.Progress
import Script.Proofs.Grammar.Shape
/-!
# Reading expressions is undoing their spelling

A reader of expressions succeeds exactly on the spellings of the expressions that it is meant for,
provided that what follows can not be taken for a continuation.
-/

namespace Script

namespace Grammar

theorem peek_bind {β : Type} (next : Kind → Reader β) (tokens : List Token) :
    (peek >>= next) tokens = next (headKind tokens) tokens := rfl

theorem advance_bind {β : Type} (next : Unit → Reader β) (tokens : List Token) :
    (advance >>= next) tokens = next () tokens.tail := rfl

theorem expect_eq_ok_iff {kind : Kind} {what : Expectation} {token : Token}
    {tokens rest : List Token} :
    expect kind what tokens = .ok token rest ↔ token.kind = kind ∧ tokens = token :: rest := by
  cases tokens with
  | nil => simp [expect]
  | cons first others =>
      by_cases h : first.kind = kind
      · simp only [expect, h, if_true, EStateM.Result.ok.injEq, List.cons.injEq]
        constructor
        · rintro ⟨rfl, rfl⟩
          exact ⟨h, rfl, rfl⟩
        · rintro ⟨-, rfl, rfl⟩
          exact ⟨rfl, rfl⟩
      · simp only [expect, h, if_false, reduceCtorEq, List.cons.injEq, false_iff]
        rintro ⟨hkind, rfl, rfl⟩
        exact h hkind

/-- Words and marks are taken for their kind alone. -/
theorem expect_bind_eq_ok_iff {β : Type} {kind : Kind} {what : Expectation} {next : Reader β}
    {b : β} {tokens rest : List Token} (hkind : kind ≠ .eof) :
    (expect kind what >>= fun _ => next) tokens = .ok b rest ↔
      headKind tokens = kind ∧ next tokens.tail = .ok b rest := by
  simp only [Step.bind_eq_ok_iff, expect_eq_ok_iff]
  constructor
  · rintro ⟨token, middle, ⟨htoken, rfl⟩, h⟩
    exact ⟨htoken, h⟩
  · rintro ⟨hhead, h⟩
    cases tokens with
    | nil => exact absurd hhead.symm hkind
    | cons token others => exact ⟨token, others, ⟨hhead, rfl⟩, h⟩

theorem typeName_eq_ok_iff {what : Expectation} {ty : Ty} {tokens rest : List Token} :
    typeName what tokens = .ok ty rest ↔ Spans [.typeName ty] tokens rest := by
  simp only [typeName, Step.bind_eq_ok_iff, expect_eq_ok_iff, spans_singleton, Token.Spells]
  constructor
  · rintro ⟨token, middle, ⟨hkind, rfl⟩, hname⟩
    cases hty : Ty.ofName token.lexeme with
    | error unknown => simp [hty] at hname
    | ok found =>
        simp only [hty, Step.pure_eq_ok_iff] at hname
        obtain ⟨rfl, rfl⟩ := hname
        exact ⟨token, ⟨hkind, hty⟩, rfl⟩
  · rintro ⟨token, ⟨hkind, hty⟩, rfl⟩
    exact ⟨token, rest, ⟨hkind, rfl⟩, by simp [hty]⟩

theorem operand_eq_ok_iff {token : Token} {node : Node} :
    operand token = .ok node ↔
      (∃ value, node = .literal value ∧ token.SpellsValue value) ∨
        ∃ name, node = .identifier name ∧ token.Spells (.identifier name) := by
  constructor
  · intro h
    unfold operand at h
    split at h
    · rename_i hkind
      split at h
      · rename_i i hi
        cases h
        exact .inl ⟨.integer i, rfl, hkind, hi⟩
      · cases h
    · rename_i hkind
      cases h
      exact .inl ⟨.text token.lexeme, rfl, hkind, rfl⟩
    · rename_i hkind
      split at h
      · rename_i c cs hcs
        cases h
        exact .inl ⟨.character c, rfl, hkind, by rw [hcs, List.head?_cons]⟩
      · cases h
    · rename_i hkind
      cases h
      exact .inl ⟨.boolean _, rfl, hkind, rfl⟩
    · rename_i hkind
      cases h
      exact .inr ⟨token.lexeme, rfl, hkind, rfl⟩
    · cases h
  · rintro (⟨value, rfl, hspells⟩ | ⟨name, rfl, hkind, rfl⟩)
    · cases value with
      | void => exact hspells.elim
      | integer i => simp [operand, hspells.1, hspells.2]
      | text s => simp [operand, hspells.1, hspells.2]
      | character c =>
          obtain ⟨cs, hcs⟩ := List.head?_eq_some_iff.1 hspells.2
          simp [operand, hspells.1, hcs]
      | boolean b => simp [operand, hspells.1, ← hspells.2]
    · simp [operand, hkind]

theorem primary_eq_ok_iff {node : Node} {tokens rest : List Token} :
    primary tokens = .ok node rest ↔
      node.IsExpression 0 ∧ node.nesting = 0 ∧ Spans node.spelling tokens rest := by
  constructor
  · intro h
    cases tokens with
    | nil => cases h
    | cons token others =>
        cases hoperand : operand token with
        | error fault => simp [primary, hoperand] at h
        | ok found =>
            simp only [primary, hoperand, EStateM.Result.ok.injEq] at h
            obtain ⟨rfl, rfl⟩ := h
            rcases operand_eq_ok_iff.1 hoperand with ⟨value, rfl, hspells⟩ | ⟨name, rfl, hspells⟩
            · have nonvoid : value ≠ .void := by rintro rfl; exact hspells
              exact ⟨.literal nonvoid, rfl, spans_singleton.2 ⟨token, hspells, rfl⟩⟩
            · exact ⟨.identifier, rfl, spans_singleton.2 ⟨token, hspells, rfl⟩⟩
  · rintro ⟨shape, hnesting, hspans⟩
    rcases shape.operand_cases with ⟨value, -, rfl⟩ | ⟨name, rfl⟩ | ⟨op, inner, -, rfl⟩
    · obtain ⟨token, hspells, rfl⟩ := spans_singleton.1 hspans
      simp only [primary, operand_eq_ok_iff.2 (.inl ⟨_, rfl, hspells⟩)]
    · obtain ⟨token, hspells, rfl⟩ := spans_singleton.1 hspans
      simp only [primary, operand_eq_ok_iff.2 (.inr ⟨_, rfl, hspells⟩)]
    · simp [Node.nesting] at hnesting

theorem unaryOp?_eq_some_iff {kind : Kind} {op : UnaryOp} :
    unaryOp? kind = some op ↔ op.kind = kind := by
  cases op <;> cases kind <;> decide

theorem binaryOp?_eq_some_iff {kind : Kind} {op : BinaryOp} :
    binaryOp? kind = some op ↔ op.kind = kind := by
  constructor
  · intro h
    unfold binaryOp? at h
    split at h <;> cases h <;> rfl
  · rintro rfl
    unfold BinaryOp.kind
    split <;> rfl

theorem operatorAt_eq_some_iff {level : Nat} {kind : Kind} {op : BinaryOp} :
    operatorAt level kind = some op ↔ op.kind = kind ∧ op.level = level := by
  simp [operatorAt, binaryOp?_eq_some_iff]

theorem unaryWith_eq_ok_iff {inner : Reader Node} {n : Nat}
    (hinner : ∀ {node : Node} {tokens rest : List Token}, inner tokens = .ok node rest ↔
      node.IsExpression 0 ∧ node.nesting < n ∧ Spans node.spelling tokens rest)
    {node : Node} {tokens rest : List Token} :
    unaryWith inner tokens = .ok node rest ↔
      node.IsExpression 0 ∧ node.nesting ≤ n ∧ Spans node.spelling tokens rest := by
  rw [unaryWith, peek_bind]
  cases hop : unaryOp? (headKind tokens) with
  | none =>
      rw [primary_eq_ok_iff]
      constructor
      · rintro ⟨shape, hnesting, hspans⟩
        exact ⟨shape, by omega, hspans⟩
      · rintro ⟨shape, -, hspans⟩
        refine ⟨shape, ?_, hspans⟩
        rcases shape.operand_cases with ⟨value, -, rfl⟩ | ⟨name, rfl⟩ | ⟨op, operand, -, rfl⟩
        · rfl
        · rfl
        · rw [hspans.headKind_eq, Terminal.kind, unaryOp?_eq_some_iff.2 rfl] at hop
          cases hop
  | some op =>
      rw [unaryOp?_eq_some_iff] at hop
      simp only [advance_bind, Step.bind_eq_ok_iff, hinner, Step.pure_eq_ok_iff]
      constructor
      · rintro ⟨operand, middle, ⟨shape, hnesting, hspans⟩, rfl, rfl⟩
        exact ⟨.unary shape, hnesting, (spans_mark_cons op.kind_ne_eof).2 ⟨hop.symm, hspans⟩⟩
      · rintro ⟨shape, hnesting, hspans⟩
        rcases shape.operand_cases with ⟨value, -, rfl⟩ | ⟨name, rfl⟩ | ⟨found, operand, inner, rfl⟩
        · rw [hspans.headKind_eq] at hop
          cases value <;> cases op <;> simp [UnaryOp.kind, Terminal.kind] at hop
        · rw [hspans.headKind_eq] at hop
          cases op <;> cases hop
        · obtain ⟨hfound, hoperand⟩ := (spans_mark_cons found.kind_ne_eof).1 hspans
          have hsame : op = found := by
            rw [← Option.some.injEq, ← unaryOp?_eq_some_iff.2 hop,
              ← unaryOp?_eq_some_iff.2 hfound.symm]
          exact ⟨operand, rest, ⟨inner, hnesting, hoperand⟩, by rw [hsame], rfl⟩

theorem unary_eq_ok_iff {budget : Nat} {node : Node} {tokens rest : List Token} :
    unary budget tokens = .ok node rest ↔
      node.IsExpression 0 ∧ node.nesting ≤ budget ∧ Spans node.spelling tokens rest := by
  induction budget generalizing node tokens rest with
  | zero => exact unaryWith_eq_ok_iff (by simp)
  | succ budget ih => exact unaryWith_eq_ok_iff (by simp only [ih, Nat.lt_succ_iff, implies_true])

/-- No operator that binds as tightly as `level` or tighter comes next. -/
def EndsOperators (level : Nat) (tokens : List Token) : Prop :=
  ∀ op : BinaryOp, op.kind = headKind tokens → level < op.level

theorem endsOperators_zero (tokens : List Token) : EndsOperators 0 tokens :=
  fun op _ => op.level_pos

theorem EndsOperators.succ {level : Nat} {tokens : List Token} (h : EndsOperators level tokens)
    (hnone : operatorAt (level + 1) (headKind tokens) = none) :
    EndsOperators (level + 1) tokens := by
  intro op hkind
  have hlt := h op hkind
  have hne : op.level ≠ level + 1 := by
    intro heq
    rw [operatorAt_eq_some_iff.2 ⟨hkind, heq⟩] at hnone
    cases hnone
  omega

theorem EndsOperators.operatorAt_eq_none {level : Nat} {tokens : List Token}
    (h : EndsOperators level tokens) : operatorAt level (headKind tokens) = none := by
  cases hop : operatorAt level (headKind tokens) with
  | none => rfl
  | some op =>
      obtain ⟨hkind, hlevel⟩ := operatorAt_eq_some_iff.1 hop
      have := h op hkind
      omega

theorem EndsOperators.mono {level level' : Nat} {tokens : List Token}
    (h : EndsOperators level' tokens) (le : level ≤ level') : EndsOperators level tokens :=
  fun op hkind => Nat.lt_of_le_of_lt le (h op hkind)

theorem endsOperators_of_none {level : Nat} {tokens : List Token}
    (hnone : binaryOp? (headKind tokens) = none) : EndsOperators level tokens := by
  intro op hkind
  rw [binaryOp?_eq_some_iff.2 hkind] at hnone
  cases hnone

/-- After an operand only an operator that binds looser than the operand may come. -/
theorem endsOperators_of_kind {level : Nat} {op : BinaryOp} {tokens : List Token}
    (hkind : headKind tokens = op.kind) (hlevel : level < op.level) :
    EndsOperators level tokens := by
  intro found hfound
  have hsome := binaryOp?_eq_some_iff.2 (hfound.trans hkind)
  rw [binaryOp?_eq_some_iff.2 rfl] at hsome
  cases hsome
  exact hlevel

theorem operators_eq_ok_iff {level : Nat} {operand : Reader Node} {node : Node}
    {tokens rest : List Token} :
    operators level operand tokens = .ok node rest ↔
      ∃ first middle, operand tokens = .ok first middle ∧
        operatorsFrom level operand middle first middle = .ok node rest := by
  simp only [operators, Step.bind_eq_ok_iff, Step.get_bind]

/-- What the reader of the operands of level `level + 1` is for: expressions that bind tighter than
these operators, with no such operator left over. -/
def ReadsUpTo (budget level : Nat) (operand : Reader Node) : Prop :=
  ∀ (node : Node) (tokens rest : List Token), operand tokens = .ok node rest ↔
    node.IsExpression level ∧ node.nesting ≤ budget ∧ Spans node.spelling tokens rest ∧
      EndsOperators level rest

section Operators

variable {budget level : Nat} {operand : Reader Node}

/-- The invariant of a chain of operators: what has been read so far, from `start` on, is the
expression on the left. -/
theorem operatorsFrom_sound (takes : Takes 1 operand) (reads : ReadsUpTo budget level operand)
    {left node : Node} {start tokens rest : List Token} (shape : left.IsExpression (level + 1))
    (hnesting : left.nesting ≤ budget) (hspans : Spans left.spelling start tokens)
    (hends : EndsOperators level tokens)
    (run : operatorsFrom (level + 1) operand tokens left tokens = .ok node rest) :
    node.IsExpression (level + 1) ∧ node.nesting ≤ budget ∧ Spans node.spelling start rest ∧
      EndsOperators (level + 1) rest := by
  -- on the number of tokens that are left: each round moves one operator into `left`
  induction hn : tokens.length using Nat.strongRecOn generalizing left tokens with
  | ind n ih =>
    rw [operatorsFrom_self takes] at run
    cases hop : operatorAt (level + 1) (headKind tokens) with
    | none =>
        simp only [hop, EStateM.Result.ok.injEq] at run
        obtain ⟨rfl, rfl⟩ := run
        exact ⟨shape, hnesting, hspans, hends.succ hop⟩
    | some op =>
        obtain ⟨hkind, hlevel⟩ := operatorAt_eq_some_iff.1 hop
        simp only [hop] at run
        cases hright : operand tokens.tail with
        | error fault middle => simp [hright] at run
        | ok right middle =>
            simp only [hright] at run
            obtain ⟨hshape, hdeep, hmiddle, hends'⟩ := (reads _ _ _).1 hright
            have shorter := (takes.ok hright).2
            rw [List.length_tail] at shorter
            have shape' : (Node.binary op left right).IsExpression (level + 1) := by
              refine .binary (Nat.le_of_eq hlevel) ?_ ?_
              · rwa [hlevel]
              · rwa [hlevel]
            have hspans' : Spans (Node.binary op left right).spelling start middle := by
              rw [Node.spelling, spans_append]
              exact ⟨_, hspans, (spans_mark_cons op.kind_ne_eof).2 ⟨hkind.symm, hmiddle⟩⟩
            exact ih middle.length (by omega) shape' (Nat.max_le.2 ⟨hnesting, hdeep⟩) hspans' hends'
              run rfl

/-- On the spelling of an expression, reading gets to the point where the whole expression is on the
left and further operators may follow. -/
theorem operators_complete (takes : Takes 1 operand) (reads : ReadsUpTo budget level operand)
    (lt : level < BinaryOp.loosest) {tokens rest : List Token} (node : Node)
    (shape : node.IsExpression (level + 1)) (hnesting : node.nesting ≤ budget)
    (hspans : Spans node.spelling tokens rest) (hends : EndsOperators level rest) :
    operators (level + 1) operand tokens = operatorsFrom (level + 1) operand rest node rest := by
  -- the root is the last operator of the chain, so the recursion goes down the left operands
  rcases shape.succ_cases lt with tighter | ⟨op, left, right, hlevel, onLeft, onRight, hnode⟩
  · have first := (reads _ _ _).2 ⟨tighter, hnesting, hspans, hends⟩
    simp only [operators, Step.bind_apply, first, Step.get_apply]
  · rw [hnode, Node.nesting, Nat.max_le] at hnesting
    rw [hnode, Node.spelling, spans_append] at hspans
    obtain ⟨before, hleft, hright⟩ := hspans
    obtain ⟨hkind, hafter⟩ := (spans_mark_cons op.kind_ne_eof).1 hright
    have hop : operatorAt (level + 1) (headKind before) = some op :=
      operatorAt_eq_some_iff.2 ⟨hkind.symm, hlevel⟩
    have second := (reads _ _ _).2 ⟨onRight, hnesting.2, hafter, hends⟩
    rw [operators_complete takes reads lt left onLeft hnesting.1 hleft
      (endsOperators_of_kind hkind (by omega)), operatorsFrom_self takes, hop]
    simp only [second, hnode]
termination_by sizeOf node
decreasing_by rw [hnode]; simp; omega

theorem ReadsUpTo.operators (takes : Takes 1 operand) (reads : ReadsUpTo budget level operand)
    (lt : level < BinaryOp.loosest) :
    ReadsUpTo budget (level + 1) (operators (level + 1) operand) := by
  intro node tokens rest
  constructor
  · intro run
    obtain ⟨first, middle, hfirst, run⟩ := operators_eq_ok_iff.1 run
    obtain ⟨shape, hnesting, hspans, hends⟩ := (reads _ _ _).1 hfirst
    exact operatorsFrom_sound takes reads (shape.mono (Nat.le_succ level)) hnesting hspans hends run
  · rintro ⟨shape, hnesting, hspans, hends⟩
    rw [operators_complete takes reads lt node shape hnesting hspans
      (hends.mono (Nat.le_succ level)), operatorsFrom_self takes, hends.operatorAt_eq_none]

end Operators

theorem readsUpTo_upTo {budget level : Nat} (le : level ≤ BinaryOp.loosest) :
    ReadsUpTo budget level (upTo budget level) := by
  induction level with
  | zero =>
      intro node tokens rest
      rw [upTo, unary_eq_ok_iff]
      simp only [endsOperators_zero, and_true]
  | succ level ih => exact (ih (by omega)).operators (takes_upTo budget level) le

theorem readsUpTo_disjunction (budget : Nat) :
    ReadsUpTo budget BinaryOp.loosest (disjunction budget) :=
  readsUpTo_upTo (Nat.le_refl _)

/-- Nothing comes next that an expression could go on with. -/
structure EndsExpression (tokens : List Token) : Prop where
  noOperator : EndsOperators BinaryOp.loosest tokens
  noConditional : headKind tokens ≠ .kwThen

theorem endsExpression_of_kind {kind : Kind} {tokens : List Token} (hkind : headKind tokens = kind)
    (hoperator : binaryOp? kind = none) (hthen : kind ≠ .kwThen) : EndsExpression tokens :=
  ⟨endsOperators_of_none (hkind ▸ hoperator), hkind ▸ hthen⟩

theorem expression_eq_ok_iff {budget : Nat} {node : Node} {tokens rest : List Token} :
    expression budget tokens = .ok node rest ↔
      node.IsExpression conditionalLevel ∧ node.nesting < budget ∧
        Spans node.spelling tokens rest ∧ EndsExpression rest := by
  induction budget generalizing node tokens rest with
  | zero => simp [expression]
  | succ budget ih =>
    simp only [expression, conditionalWith, Step.bind_eq_ok_iff, peek_bind,
      readsUpTo_disjunction budget _ _ _]
    constructor
    · rintro ⟨condition, middle, ⟨shape, hnesting, hspans, hends⟩, run⟩
      by_cases hthen : headKind middle = .kwThen
      · simp only [hthen, if_true, advance_bind, Step.bind_eq_ok_iff, ih, expect_eq_ok_iff,
          Step.pure_eq_ok_iff] at run
        obtain ⟨onTrue, _, ⟨shape₁, hnesting₁, hspans₁, -⟩, token, middle', ⟨helse, rfl⟩, onFalse,
          _, ⟨shape₂, hnesting₂, hspans₂, hends₂⟩, rfl, rfl⟩ := run
        refine ⟨.conditional (Nat.le_refl _) shape shape₁ shape₂, ?_, ?_, hends₂⟩
        · rw [Node.nesting]
          omega
        · rw [Node.spelling, spans_append]
          refine ⟨middle, hspans, (spans_mark_cons (by decide)).2 ⟨hthen, ?_⟩⟩
          rw [spans_append]
          exact ⟨_, hspans₁, (spans_mark_cons (by decide)).2 ⟨helse, hspans₂⟩⟩
      · simp only [hthen, if_false, Step.pure_eq_ok_iff] at run
        obtain ⟨rfl, rfl⟩ := run
        exact ⟨shape.mono (Nat.le_succ _), by omega, hspans, hends, hthen⟩
    · rintro ⟨shape, hnesting, hspans, hends⟩
      rcases shape.conditional_cases with
        simple | ⟨condition, onTrue, onFalse, ofCondition, ofTrue, ofFalse, rfl⟩
      · refine ⟨node, rest, ⟨simple, by omega, hspans, hends.noOperator⟩, ?_⟩
        rw [if_neg hends.noConditional, Step.pure_apply]
      · rw [Node.nesting] at hnesting
        rw [Node.spelling, spans_append] at hspans
        obtain ⟨middle, hcondition, hspans⟩ := hspans
        obtain ⟨hthen, hspans⟩ := (spans_mark_cons (by decide)).1 hspans
        obtain ⟨middle', htrue, hspans⟩ := spans_append.1 hspans
        obtain ⟨token, after, helse, rfl, hfalse⟩ := spans_cons.1 hspans
        refine ⟨condition, middle, ⟨ofCondition, by omega, hcondition, ?_⟩, ?_⟩
        · exact endsOperators_of_none (by rw [hthen]; rfl)
        · simp only [hthen, if_true, advance_bind, Step.bind_eq_ok_iff, ih, expect_eq_ok_iff,
            Step.pure_eq_ok_iff]
          exact ⟨onTrue, _, ⟨ofTrue, by omega, htrue, endsExpression_of_kind helse rfl (by decide)⟩,
            token, after, ⟨helse, rfl⟩, onFalse, rest, ⟨ofFalse, by omega, hfalse, hends⟩, rfl, rfl⟩

end Grammar

end Script

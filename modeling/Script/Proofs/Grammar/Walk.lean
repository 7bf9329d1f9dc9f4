import Script.Proofs.Grammar.Lookahead
/-!
# What readers are made of

The readers of the grammar are put together from few parts: they look at the next token, take one,
and fail.  A token is taken without being looked at again only where it has been seen not to be the
end.  So what holds of the parts, and of two readers one after the other, holds of the readers of
expressions and statements.
-/

namespace Script.Grammar

/-- Whether a fault is about the lexeme of a token, which has the right kind. -/
def Fault.IsLexical : Fault → Prop
  | .noInteger _ => True
  | .expected .character => True
  | _ => False

/-- Whether a property of readers, at the tokens where they begin, is one of all readers that are
made of its parts. -/
structure Walk (holds : {α : Type} → Reader α → List Token → Prop) : Prop where
  pure {α : Type} (a : α) (tokens : List Token) : holds (pure a) tokens
  fails {α : Type} {fault : Fault} (general : ¬ fault.IsLexical) (tokens : List Token) :
    holds (throw fault : Reader α) tokens
  bind {α β : Type} {first : Reader α} {next : α → Reader β} {tokens : List Token}
    (hfirst : holds first tokens)
    (hnext : ∀ a rest, first tokens = .ok a rest → holds (next a) rest) :
    holds (first >>= next) tokens
  peek (tokens : List Token) : holds peek tokens
  advance {tokens : List Token} (inside : headKind tokens ≠ .eof) : holds advance tokens
  expect {kind : Kind} {what : Expectation} (inside : kind ≠ .eof) (general : what ≠ .character)
    (tokens : List Token) : holds (expect kind what) tokens
  primary (tokens : List Token) : holds primary tokens
  /-- Only behind an identifier a second token is looked at. -/
  choice {α : Type} {first second : Reader α} {tokens : List Token}
    (inside : headKind tokens ≠ .eof) (hfirst : holds first tokens)
    (hsecond : holds second tokens) :
    holds (get >>= fun tokens => if headKind tokens.tail = .assign then first else second) tokens

namespace Walk

variable {holds : {α : Type} → Reader α → List Token → Prop} {α β : Type}

theorem tooDeep (walk : Walk holds) (tokens : List Token) :
    holds (throw .tooDeep : Reader α) tokens :=
  walk.fails (by simp [Fault.IsLexical]) tokens

/-- What is done after a look at the next token may depend on its kind. -/
theorem peek_bind (walk : Walk holds) {next : Kind → Reader α} {tokens : List Token}
    (hnext : holds (next (headKind tokens)) tokens) : holds (Grammar.peek >>= next) tokens := by
  apply walk.bind (walk.peek tokens)
  intro kind rest hkind
  cases hkind
  exact hnext

/-- A token that has been seen is taken. -/
theorem advance_bind (walk : Walk holds) {next : Unit → Reader α} {tokens : List Token}
    {kind : Kind} (seen : headKind tokens = kind) (inside : kind ≠ .eof)
    (hnext : holds (next ()) tokens.tail) :
    holds (Grammar.advance >>= next) tokens := by
  apply walk.bind (walk.advance (seen ▸ inside))
  intro result rest hrun
  cases hrun
  exact hnext

/-- After a reader that has the property everywhere, another one follows. -/
theorem expect_bind (walk : Walk holds) {kind : Kind} {what : Expectation}
    {next : Token → Reader α} (inside : kind ≠ .eof) (general : what ≠ .character)
    (hnext : ∀ token tokens, holds (next token) tokens) (tokens : List Token) :
    holds (Grammar.expect kind what >>= next) tokens :=
  walk.bind (walk.expect inside general tokens) fun token rest _ => hnext token rest

theorem typeName (walk : Walk holds) {what : Expectation} (general : what ≠ .character)
    (tokens : List Token) : holds (typeName what) tokens := by
  refine walk.expect_bind (by decide) general (fun token rest => ?_) tokens
  cases Ty.ofName token.lexeme with
  | ok ty => exact walk.pure ty rest
  | error unknown => exact walk.fails (by simp [Fault.IsLexical]) rest

section Expressions

theorem unaryWith (walk : Walk holds) {inner : Reader Node} (h : ∀ tokens, holds inner tokens)
    (tokens : List Token) : holds (unaryWith inner) tokens := by
  apply walk.peek_bind
  cases hop : unaryOp? (headKind tokens) with
  | none => exact walk.primary tokens
  | some op =>
      refine walk.advance_bind rfl ?_ ?_
      · intro heof
        rw [heof] at hop
        cases hop
      · exact walk.bind (h _) fun operand rest _ => walk.pure _ rest

theorem unary (walk : Walk holds) (budget : Nat) (tokens : List Token) :
    holds (unary budget) tokens := by
  induction budget generalizing tokens with
  | zero => exact walk.unaryWith walk.tooDeep tokens
  | succ budget ih => exact walk.unaryWith ih tokens

theorem operatorsFrom (walk : Walk holds) {level : Nat} {operand : Reader Node}
    (takes : Takes 1 operand) (h : ∀ tokens, holds operand tokens) (left : Node)
    (tokens : List Token) :
    holds (get >>= fun bound => operatorsFrom level operand bound left) tokens := by
  induction hn : tokens.length using Nat.strongRecOn generalizing left tokens with
  | ind n ih =>
    rw [operatorsFrom_round takes]
    apply walk.peek_bind
    cases hop : operatorAt level (headKind tokens) with
    | none => exact walk.pure left tokens
    | some op =>
        refine walk.advance_bind rfl ?_ (walk.bind (h _) fun right rest hright => ?_)
        · intro heof
          rw [heof] at hop
          cases hop
        · have shorter := (takes.ok hright).2
          rw [List.length_tail] at shorter
          exact ih rest.length (by omega) _ rest rfl

theorem operators (walk : Walk holds) {level : Nat} {operand : Reader Node}
    (takes : Takes 1 operand) (h : ∀ tokens, holds operand tokens) (tokens : List Token) :
    holds (operators level operand) tokens :=
  walk.bind (h tokens) fun first rest _ => walk.operatorsFrom takes h first rest

theorem upTo (walk : Walk holds) (budget level : Nat) (tokens : List Token) :
    holds (upTo budget level) tokens := by
  induction level generalizing tokens with
  | zero => exact walk.unary budget tokens
  | succ level ih => exact walk.operators (takes_upTo budget level) ih tokens

theorem disjunction (walk : Walk holds) (budget : Nat) (tokens : List Token) :
    holds (disjunction budget) tokens :=
  walk.upTo budget _ tokens

theorem expression (walk : Walk holds) (budget : Nat) (tokens : List Token) :
    holds (expression budget) tokens := by
  induction budget generalizing tokens with
  | zero => exact walk.tooDeep tokens
  | succ budget ih =>
      refine walk.bind (walk.disjunction budget tokens) fun condition rest _ => ?_
      apply walk.peek_bind
      by_cases hthen : headKind rest = .kwThen
      · rw [if_pos hthen]
        refine walk.advance_bind hthen (by decide) (walk.bind (ih _) fun onTrue rest _ => ?_)
        refine walk.expect_bind (by decide) (by decide) (fun _ rest => ?_) rest
        exact walk.bind (ih rest) fun onFalse rest _ => walk.pure _ rest
      · rw [if_neg hthen]
        exact walk.pure condition rest

end Expressions

section Statements

variable {statement : Reader Node} {others : Reader Chain}

theorem body (walk : Walk holds) (takes : Takes 1 statement)
    (h : ∀ tokens, holds statement tokens) (stops : List Kind) (tokens : List Token) :
    holds (body statement stops) tokens := by
  induction hn : tokens.length using Nat.strongRecOn generalizing tokens with
  | ind n ih =>
    rw [body_round takes]
    apply walk.peek_bind
    by_cases hstop : headKind tokens = .eof ∨ headKind tokens ∈ stops
    · rw [if_pos hstop]
      exact walk.pure [] tokens
    · rw [if_neg hstop]
      refine walk.bind (h tokens) fun first rest hfirst => ?_
      have shorter := (takes.ok hfirst).2
      exact walk.bind (ih rest.length (by omega) rest rfl) fun others rest _ => walk.pure _ rest

theorem ascription (walk : Walk holds) (tokens : List Token) : holds ascription tokens := by
  apply walk.peek_bind
  by_cases hcolon : headKind tokens = .colon
  · rw [if_pos hcolon]
    refine walk.advance_bind hcolon (by decide) ?_
    exact walk.bind (walk.typeName (by decide) _) fun ty rest _ => walk.pure _ rest
  · rw [if_neg hcolon]
    exact walk.pure none tokens

/-- An expression with a mark behind it ends a statement. -/
theorem expression_bind (walk : Walk holds) (budget : Nat) {what : Expectation}
    (general : what ≠ .character) (f : Node → Node) (tokens : List Token) :
    holds (Grammar.expression budget >>= fun value => Grammar.expect .semicolon what >>= fun _ =>
      Pure.pure (f value)) tokens :=
  walk.bind (walk.expression budget tokens) fun value rest _ =>
    walk.expect_bind (by decide) general (fun _ rest => walk.pure _ rest) rest

theorem declaration (walk : Walk holds) (budget : Nat) {tokens : List Token}
    (seen : headKind tokens = .kwLet) : holds (declaration budget) tokens := by
  refine walk.advance_bind seen (by decide) ?_
  refine walk.expect_bind (by decide) (by decide) (fun name rest => ?_) _
  refine walk.bind (walk.ascription rest) fun ascription rest _ => ?_
  refine walk.expect_bind (by decide) (by decide) (fun _ rest => ?_) rest
  exact walk.expression_bind budget (by decide) _ rest

theorem assignment (walk : Walk holds) (budget : Nat) (tokens : List Token) :
    holds (assignment budget) tokens := by
  refine walk.expect_bind (by decide) (by decide) (fun name rest => ?_) tokens
  refine walk.expect_bind (by decide) (by decide) (fun _ rest => ?_) rest
  exact walk.expression_bind budget (by decide) _ rest

theorem chain (walk : Walk holds) (budget : Nat) (takes : Takes 1 statement)
    (h : ∀ tokens, holds statement tokens) (hothers : ∀ tokens, holds others tokens)
    (tokens : List Token) : holds (chain budget statement others) tokens := by
  refine walk.bind (walk.disjunction budget tokens) fun condition rest _ => ?_
  refine walk.expect_bind (by decide) (by decide) (fun _ rest => ?_) rest
  refine walk.bind (walk.body takes h _ rest) fun first rest _ => ?_
  apply walk.peek_bind
  split
  case h_1 hlink =>
    refine walk.advance_bind hlink (by decide) ?_
    exact walk.bind (hothers _) fun others rest _ => walk.pure _ rest
  case h_2 helse =>
    refine walk.advance_bind helse (by decide) ?_
    refine walk.expect_bind (by decide) (by decide) (fun _ rest => ?_) _
    refine walk.bind (walk.body takes h _ rest) fun last rest _ => ?_
    exact walk.expect_bind (by decide) (by decide) (fun _ rest => walk.pure _ rest) rest
  case h_3 =>
    exact walk.expect_bind (by decide) (by decide) (fun _ rest => walk.pure _ rest) rest

theorem whileLoop (walk : Walk holds) (budget : Nat) (takes : Takes 1 statement)
    (h : ∀ tokens, holds statement tokens) {tokens : List Token}
    (seen : headKind tokens = .kwWhile) : holds (whileLoop budget statement) tokens := by
  refine walk.advance_bind seen (by decide) ?_
  refine walk.bind (walk.expression budget _) fun condition rest _ => ?_
  refine walk.bind (walk.body takes h _ rest) fun repeated rest _ => ?_
  exact walk.expect_bind (by decide) (by decide) (fun _ rest => walk.pure _ rest) rest

theorem parameter (walk : Walk holds) (tokens : List Token) : holds parameter tokens := by
  refine walk.expect_bind (by decide) (by decide) (fun name rest => ?_) tokens
  refine walk.expect_bind (by decide) (by decide) (fun _ rest => ?_) rest
  exact walk.bind (walk.typeName (by decide) rest) fun ty rest _ => walk.pure _ rest

theorem parametersFrom (walk : Walk holds) (tokens : List Token) :
    holds (get >>= parametersFrom) tokens := by
  induction hn : tokens.length using Nat.strongRecOn generalizing tokens with
  | ind n ih =>
    rw [parametersFrom_round]
    refine walk.bind (walk.parameter tokens) fun first rest hfirst => ?_
    have shorter := (takes_parameter.ok hfirst).2
    apply walk.peek_bind
    by_cases hcomma : headKind rest = .comma
    · rw [if_pos hcomma]
      refine walk.advance_bind hcomma (by decide) ?_
      have hothers := ih rest.tail.length (by rw [List.length_tail]; omega) rest.tail rfl
      exact walk.bind hothers fun others rest _ => walk.pure _ rest
    · rw [if_neg hcomma]
      exact walk.pure _ rest

theorem parameters (walk : Walk holds) (tokens : List Token) : holds parameters tokens := by
  apply walk.peek_bind
  split
  · exact walk.pure [] tokens
  · exact walk.parametersFrom tokens

theorem function (walk : Walk holds) (takes : Takes 1 statement)
    (h : ∀ tokens, holds statement tokens) {tokens : List Token}
    (seen : headKind tokens = .kwDef) : holds (function statement) tokens := by
  refine walk.advance_bind seen (by decide) ?_
  refine walk.expect_bind (by decide) (by decide) (fun name rest => ?_) _
  refine walk.expect_bind (by decide) (by decide) (fun _ rest => ?_) rest
  refine walk.bind (walk.parameters rest) fun parameters rest _ => ?_
  refine walk.expect_bind (by decide) (by decide) (fun _ rest => ?_) rest
  refine walk.expect_bind (by decide) (by decide) (fun _ rest => ?_) rest
  refine walk.bind (walk.typeName (by decide) rest) fun result rest _ => ?_
  refine walk.bind (walk.body takes h _ rest) fun content rest _ => ?_
  exact walk.expect_bind (by decide) (by decide) (fun _ rest => walk.pure _ rest) rest

theorem word (walk : Walk holds) {kind : Kind} (inside : kind ≠ .eof) (node : Node)
    (tokens : List Token) : holds (word kind node) tokens := by
  refine walk.expect_bind inside (by decide) (fun token rest => ?_) tokens
  exact walk.expect_bind (by decide) (by simp) (fun _ rest => walk.pure _ rest) rest

theorem returnValue (walk : Walk holds) (budget : Nat) {tokens : List Token}
    (seen : headKind tokens = .kwReturn) : holds (returnValue budget) tokens :=
  walk.advance_bind seen (by decide) (walk.expression_bind budget (by decide) _ _)

theorem statementWith (walk : Walk holds) (budget : Nat) (takes : Takes 1 statement)
    (h : ∀ tokens, holds statement tokens) (hothers : ∀ tokens, holds others tokens)
    (tokens : List Token) : holds (statementWith budget statement others) tokens := by
  have hexpression : holds (expressionStatement budget) tokens :=
    walk.expression_bind budget (by decide) id tokens
  apply walk.peek_bind
  split
  case h_1 hlet => exact walk.declaration budget hlet
  case h_2 hif =>
    refine walk.advance_bind hif (by decide) ?_
    exact walk.bind (walk.chain budget takes h hothers _) fun links rest _ => walk.pure _ rest
  case h_3 hwhile => exact walk.whileLoop budget takes h hwhile
  case h_4 => exact walk.word (by decide) _ tokens
  case h_5 => exact walk.word (by decide) _ tokens
  case h_6 hdef => exact walk.function takes h hdef
  case h_7 hreturn => exact walk.returnValue budget hreturn
  case h_8 hname =>
    exact walk.choice (by rw [hname]; decide) (walk.assignment budget tokens) hexpression
  case h_9 => exact hexpression

end Statements

theorem nested (walk : Walk holds) (budget : Nat) :
    (∀ tokens, holds (nestedStatement budget) tokens) ∧
      ∀ tokens, holds (nestedChain budget) tokens := by
  induction budget with
  | zero => exact ⟨walk.tooDeep, walk.tooDeep⟩
  | succ budget ih =>
      have takes := (takes_nested budget).1
      exact ⟨walk.statementWith budget takes ih.1 ih.2, walk.chain budget takes ih.1 ih.2⟩

/-- What holds of the parts of readers holds of the reader of statements. -/
theorem statement (walk : Walk holds) (budget : Nat) (tokens : List Token) :
    holds (statement budget) tokens :=
  walk.statementWith budget (takes_nested budget).1 (walk.nested budget).1 (walk.nested budget).2
    tokens

end Walk

end Script.Grammar

import Script.Proofs.Grammar.Expression
/-!
# Reading statements is undoing their spelling

The readers of statements, bodies and links of an `if` succeed exactly on the spellings of what they
are meant for.  No condition on what follows is left: every statement ends in a semicolon or in a
word of its own.
-/

namespace Script

structure Node.IsReadable (limit : Nat) (node : Node) : Prop where
  shape : node.IsStatement
  depth_lt : node.depth < limit
  separated : node.IsSeparated

structure Chain.IsReadable (limit : Nat) (chain : Chain) : Prop where
  shape : chain.IsIf
  depth_lt : chain.depth < limit
  separated : chain.IsSeparated

theorem Chain.depth_link {condition : Node} {body : List Node} {others : Chain}
    (links : others.IsIf) :
    (Chain.when condition body others).depth =
      max (max condition.nesting (depthOfBody body)) (others.depth + 1) := by
  cases links <;> rw [Chain.depth]

theorem forall_isReadable_iff {limit : Nat} {body : List Node} :
    (∀ node ∈ body, node.IsReadable limit) ↔
      (∀ node ∈ body, node.IsStatement) ∧ depthOfBody body ≤ limit ∧ AreSeparated body := by
  rw [depthOfBody_le_iff, areSeparated_iff]
  constructor
  · intro h
    exact ⟨fun node mem => (h node mem).shape, fun node mem => (h node mem).depth_lt,
      fun node mem => (h node mem).separated⟩
  · rintro ⟨shape, hdepth, hseparated⟩ node mem
    exact ⟨shape node mem, hdepth node mem, hseparated node mem⟩

/-- What may follow a link of an `if` that has a condition, where `limit` levels are left for what
is inside. -/
inductive Chain.IsTail (limit : Nat) : Chain → Prop
  | done : Chain.IsTail limit .done
  | always {final : List Node} (readable : ∀ node ∈ final, node.IsReadable limit) :
      Chain.IsTail limit (.always final .done)
  | others {links : Chain} (readable : links.IsReadable limit) : Chain.IsTail limit links

theorem Chain.IsIf.exists_when {chain : Chain} (h : chain.IsIf) :
    ∃ condition first links, chain = .when condition first links := by
  cases h <;> exact ⟨_, _, _, rfl⟩

theorem Chain.IsIf.connective_eq {chain : Chain} (h : chain.IsIf) :
    chain.connective = .kwElseIf := by
  obtain ⟨condition, first, links, rfl⟩ := h.exists_when
  rfl

theorem Chain.isReadable_when_iff {limit : Nat} {condition : Node} {first : List Node}
    {links : Chain} :
    (Chain.when condition first links).IsReadable (limit + 1) ↔
      condition.IsExpression BinaryOp.loosest ∧ condition.nesting ≤ limit ∧
        (∀ node ∈ first, node.IsReadable limit) ∧ links.IsTail limit := by
  constructor
  · rintro ⟨shape, hdepth, hseparated⟩
    cases shape with
    | last head statements =>
        simp only [Chain.depth, Chain.IsSeparated] at hdepth hseparated
        have hfirst : ∀ node ∈ first, node.IsReadable limit :=
          forall_isReadable_iff.2 ⟨statements, by omega, hseparated.1⟩
        exact ⟨head, by omega, hfirst, .done⟩
    | @otherwise _ _ final head statements finals =>
        simp only [Chain.depth, Chain.IsSeparated] at hdepth hseparated
        have hfirst : ∀ node ∈ first, node.IsReadable limit :=
          forall_isReadable_iff.2 ⟨statements, by omega, hseparated.1⟩
        have hfinal : ∀ node ∈ final, node.IsReadable limit :=
          forall_isReadable_iff.2 ⟨finals, by omega, hseparated.2.1⟩
        exact ⟨head, by omega, hfirst, .always hfinal⟩
    | link head statements shape =>
        rw [Chain.depth_link shape] at hdepth
        have hfirst : ∀ node ∈ first, node.IsReadable limit :=
          forall_isReadable_iff.2 ⟨statements, by omega, hseparated.1⟩
        exact ⟨head, by omega, hfirst, .others ⟨shape, by omega, hseparated.2⟩⟩
  · rintro ⟨head, hnesting, readable, tail⟩
    obtain ⟨statements, hdepth, hseparated⟩ := forall_isReadable_iff.1 readable
    cases tail with
    | done =>
        refine ⟨.last head statements, ?_, hseparated, trivial⟩
        simp only [Chain.depth]
        omega
    | always hfinal =>
        obtain ⟨finals, hdepth', hseparated'⟩ := forall_isReadable_iff.1 hfinal
        refine ⟨.otherwise head statements finals, ?_, hseparated, hseparated', trivial⟩
        simp only [Chain.depth]
        omega
    | others hlinks =>
        have hdepth' := hlinks.depth_lt
        refine ⟨.link head statements hlinks.shape, ?_, hseparated, hlinks.separated⟩
        rw [Chain.depth_link hlinks.shape]
        omega

namespace Grammar

def expressionStarts : List Kind :=
  [.integer, .string, .char, .boolean, .identifier, .minus, .kwNot]

def statementStarts : List Kind :=
  [.kwLet, .kwIf, .kwWhile, .kwBreak, .kwNext, .kwDef, .kwReturn] ++ expressionStarts

theorem headKind_mem_expressionStarts {level : Nat} {node : Node} {tokens rest : List Token}
    (shape : node.IsExpression level) (hspans : Spans node.spelling tokens rest) :
    headKind tokens ∈ expressionStarts := by
  induction shape generalizing tokens rest with
  | @literal _ value nonvoid =>
      rw [hspans.headKind_eq]
      cases value with
      | void => exact absurd rfl nonvoid
      | integer i => simp [Terminal.kind, expressionStarts]
      | text s => simp [Terminal.kind, expressionStarts]
      | character c => simp [Terminal.kind, expressionStarts]
      | boolean b => simp [Terminal.kind, expressionStarts]
  | identifier =>
      rw [hspans.headKind_eq, Terminal.kind]
      decide
  | @unary _ op =>
      rw [hspans.headKind_eq]
      cases op <;> decide
  | binary _ _ _ onLeft _ =>
      obtain ⟨middle, hleft, -⟩ := spans_append.1 hspans
      exact onLeft hleft
  | conditional _ _ _ _ ofCondition _ _ =>
      obtain ⟨middle, hcondition, -⟩ := spans_append.1 hspans
      exact ofCondition hcondition

theorem headKind_mem_statementStarts {node : Node} {tokens rest : List Token}
    (shape : node.IsStatement) (hspans : Spans node.statementSpelling tokens rest) :
    headKind tokens ∈ statementStarts := by
  obtain ⟨middle, hspelling, -⟩ := spans_append.1 hspans
  cases shape with
  | expression value =>
      exact List.mem_append_right _ (headKind_mem_expressionStarts value hspelling)
  | declaration => rw [hspelling.headKind_eq]; decide
  | assignment => rw [hspelling.headKind_eq, Terminal.kind]; decide
  | ifChain => rw [hspelling.headKind_eq]; decide
  | whileLoop => rw [hspelling.headKind_eq]; decide
  | breakLoop => rw [hspelling.headKind_eq]; decide
  | nextRound => rw [hspelling.headKind_eq]; decide
  | function => rw [hspelling.headKind_eq]; decide
  | returnValue => rw [hspelling.headKind_eq]; decide

/-- The reader takes statements for which `limit` levels suffice. -/
def ReadsStatements (limit : Nat) (statement : Reader Node) : Prop :=
  ∀ (node : Node) (tokens rest : List Token), statement tokens = .ok node rest ↔
    node.IsReadable limit ∧ Spans node.statementSpelling tokens rest

def ReadsLinks (limit : Nat) (links : Reader Chain) : Prop :=
  ∀ (chain : Chain) (tokens rest : List Token), links tokens = .ok chain rest ↔
    chain.IsReadable limit ∧ Spans chain.spelling tokens rest

section Body

variable {limit : Nat} {statement : Reader Node} {stops : List Kind}

theorem body_eq_ok_iff (takes : Takes 1 statement) (reads : ReadsStatements limit statement)
    (hstops : ∀ kind ∈ statementStarts, kind ∉ stops) {nodes : List Node}
    {tokens rest : List Token} :
    body statement stops tokens = .ok nodes rest ↔
      (∀ node ∈ nodes, node.IsReadable limit) ∧ Spans (spellBody nodes) tokens rest ∧
        (headKind rest = .eof ∨ headKind rest ∈ stops) := by
  induction nodes generalizing tokens with
  | nil =>
      rw [body_apply takes]
      by_cases hstop : headKind tokens = .eof ∨ headKind tokens ∈ stops
      · simp only [hstop, if_true, EStateM.Result.ok.injEq, true_and, spellBody, spans_nil]
        constructor
        · rintro rfl
          exact ⟨by simp, rfl, hstop⟩
        · rintro ⟨-, htokens, -⟩
          exact htokens
      · simp only [hstop, if_false, spellBody, spans_nil]
        constructor
        · intro run
          split at run
          · cases run
          · split at run <;> cases run
        · rintro ⟨-, rfl, hstop'⟩
          exact absurd hstop' hstop
  | cons first others ih =>
      rw [body_apply takes]
      by_cases hstop : headKind tokens = .eof ∨ headKind tokens ∈ stops
      · -- no statement begins with a stop, so the body is empty here
        simp only [hstop, if_true, EStateM.Result.ok.injEq, reduceCtorEq, false_and, false_iff]
        rintro ⟨readable, hspans, -⟩
        obtain ⟨middle, hfirst, -⟩ := spans_append.1 hspans
        have hstart := headKind_mem_statementStarts (readable first (by simp)).shape hfirst
        rcases hstop with heof | hstop
        · rw [heof] at hstart
          exact absurd hstart (by decide)
        · exact hstops _ hstart hstop
      · simp only [hstop, if_false]
        constructor
        · intro run
          split at run
          · cases run
          · rename_i node middle hnode
            split at run
            · cases run
            · rename_i nodes after hnodes
              cases run
              obtain ⟨readable, hfirst⟩ := (reads _ _ _).1 hnode
              obtain ⟨readables, hothers, hend⟩ := ih.1 hnodes
              exact ⟨List.forall_mem_cons.2 ⟨readable, readables⟩,
                spans_append.2 ⟨middle, hfirst, hothers⟩, hend⟩
        · rintro ⟨readable, hspans, hend⟩
          obtain ⟨middle, hfirst, hothers⟩ := spans_append.1 hspans
          obtain ⟨readable, readables⟩ := List.forall_mem_cons.1 readable
          rw [(reads _ _ _).2 ⟨readable, hfirst⟩]
          simp only [ih.2 ⟨readables, hothers, hend⟩]

theorem body_end_eq_ok_iff {α : Type} (stop : Kind) {what : Expectation} {f : List Node → α}
    (takes : Takes 1 statement) (reads : ReadsStatements limit statement)
    (hstop : stop ∉ statementStarts) (heof : stop ≠ .eof) {result : α} {tokens rest : List Token} :
    (body statement [stop] >>= fun content => expect stop what >>= fun _ => pure (f content))
        tokens = .ok result rest ↔
      ∃ content, result = f content ∧ (∀ node ∈ content, node.IsReadable limit) ∧
        Spans (spellBody content ++ [.mark stop]) tokens rest := by
  have hstops : ∀ kind ∈ statementStarts, kind ∉ [stop] := by
    intro kind hkind hmem
    rw [List.mem_singleton.1 hmem] at hkind
    exact hstop hkind
  simp only [Step.bind_eq_ok_iff (body statement _), body_eq_ok_iff takes reads hstops,
    expect_bind_eq_ok_iff heof, Step.pure_eq_ok_iff, spans_append, spans_mark_cons heof, spans_nil]
  constructor
  · rintro ⟨content, middle, ⟨readable, hspans, -⟩, hend, rfl, rfl⟩
    exact ⟨content, rfl, readable, middle, hspans, hend, rfl⟩
  · rintro ⟨content, rfl, readable, middle, hspans, hend, rfl⟩
    exact ⟨content, middle, ⟨readable, hspans, .inr (List.mem_singleton.2 hend)⟩, hend, rfl, rfl⟩

/-- The condition of a loop ends where the body begins unless the body begins with a minus sign. -/
theorem endsExpression_iff {content : List Node} {tokens rest : List Token}
    (shape : ∀ node ∈ content, node.IsStatement)
    (hspans : Spans (spellBody content ++ [.mark .kwEnd]) tokens rest) :
    EndsExpression tokens ↔ (spellBody content).head? ≠ some (.mark .minus) := by
  cases hterminals : spellBody content with
  | nil =>
      rw [hterminals] at hspans
      have hkind := hspans.headKind_eq
      rw [Terminal.kind] at hkind
      simp only [List.head?_nil, ne_eq, reduceCtorEq, not_false_eq_true, iff_true]
      exact endsExpression_of_kind hkind rfl (by decide)
  | cons terminal terminals =>
      have hkind : headKind tokens = terminal.kind := by
        rw [hterminals] at hspans
        exact hspans.headKind_eq
      rw [List.head?_cons, ne_eq, Option.some.injEq, ← Terminal.kind_eq_minus_iff, ← hkind]
      constructor
      · intro hends hminus
        have : BinaryOp.loosest < 2 := hends.noOperator (.arithmetic .subtract) hminus.symm
        exact absurd this (by decide)
      · intro hminus
        have hstart : headKind tokens ∈ statementStarts := by
          cases content with
          | nil => rw [spellBody] at hterminals; cases hterminals
          | cons first others =>
              obtain ⟨middle, hbody, -⟩ := spans_append.1 hspans
              obtain ⟨middle, hfirst, -⟩ := spans_append.1 hbody
              exact headKind_mem_statementStarts (shape first (by simp)) hfirst
        have hothers : ∀ kind ∈ statementStarts, kind ≠ .minus →
            binaryOp? kind = none ∧ kind ≠ .kwThen := by decide
        obtain ⟨hoperator, hthen⟩ := hothers _ hstart hminus
        exact endsExpression_of_kind rfl hoperator hthen

end Body

theorem ascription_eq_ok_iff {ascribed : Option Ty} {tokens rest : List Token}
    (hrest : headKind rest ≠ .colon) :
    ascription tokens = .ok ascribed rest ↔ Spans (spellAscription ascribed) tokens rest := by
  rw [ascription, peek_bind]
  by_cases hcolon : headKind tokens = .colon
  · simp only [hcolon, if_true, advance_bind, Step.bind_eq_ok_iff, typeName_eq_ok_iff,
      Step.pure_eq_ok_iff]
    cases ascribed with
    | none =>
        simp only [reduceCtorEq, false_and, and_false, exists_false, spellAscription, spans_nil,
          false_iff]
        rintro rfl
        exact hrest hcolon
    | some ty =>
        rw [spellAscription, spans_mark_cons (by decide)]
        constructor
        · rintro ⟨found, _, hspans, hsame, rfl⟩
          cases hsame
          exact ⟨hcolon, hspans⟩
        · rintro ⟨-, hspans⟩
          exact ⟨ty, rest, hspans, rfl, rfl⟩
  · simp only [hcolon, if_false, Step.pure_eq_ok_iff]
    cases ascribed with
    | none => simp [spellAscription]
    | some ty =>
        simp only [reduceCtorEq, false_and, false_iff]
        intro hspans
        exact hcolon hspans.headKind_eq

theorem expression_semicolon_eq_ok_iff {budget : Nat} {what : Expectation} {f : Node → Node}
    {node : Node} {tokens rest : List Token} :
    (expression budget >>= fun value => expect .semicolon what >>= fun _ => pure (f value)) tokens =
        .ok node rest ↔
      ∃ value, node = f value ∧ value.IsExpression conditionalLevel ∧ value.nesting < budget ∧
        Spans (value.spelling ++ [.mark .semicolon]) tokens rest := by
  have hsemicolon : Kind.semicolon ≠ .eof := by decide
  simp only [Step.bind_eq_ok_iff (expression budget), expression_eq_ok_iff,
    expect_bind_eq_ok_iff hsemicolon, Step.pure_eq_ok_iff, spans_append,
    spans_mark_cons hsemicolon, spans_nil]
  constructor
  · rintro ⟨value, middle, ⟨shape, hnesting, hspans, -⟩, hsemicolon, rfl, rfl⟩
    exact ⟨value, rfl, shape, hnesting, middle, hspans, hsemicolon, rfl⟩
  · rintro ⟨value, rfl, shape, hnesting, middle, hspans, hsemicolon, rfl⟩
    have hend := endsExpression_of_kind hsemicolon rfl (by decide)
    exact ⟨value, middle, ⟨shape, hnesting, hspans, hend⟩, hsemicolon, rfl, rfl⟩

theorem declaration_eq_ok_iff {budget : Nat} {node : Node} {tokens rest : List Token}
    (hkind : headKind tokens = .kwLet) :
    declaration budget tokens = .ok node rest ↔ ∃ name ascribed initial,
      node = .declaration name ascribed initial ∧ initial.IsExpression conditionalLevel ∧
        initial.nesting < budget ∧ Spans node.statementSpelling tokens rest := by
  have hspelling (name : String) (ascribed : Option Ty) (initial : Node) :
      (Node.declaration name ascribed initial).statementSpelling =
        .mark .kwLet :: .identifier name :: (spellAscription ascribed ++ .mark .assign ::
          (initial.spelling ++ [.mark .semicolon])) := by
    simp [Node.statementSpelling, Node.spelling, Node.ending]
  simp only [declaration, advance_bind, Step.bind_eq_ok_iff (expect .identifier _),
    Step.bind_eq_ok_iff ascription, expect_eq_ok_iff,
    expect_bind_eq_ok_iff (show Kind.assign ≠ .eof by decide), expression_semicolon_eq_ok_iff]
  constructor
  · rintro ⟨name, _, ⟨hname, htokens⟩, ascribed, middle, hascribed, hassign, initial, rfl, shape,
      hnesting, hspans⟩
    rw [ascription_eq_ok_iff (by rw [hassign]; decide)] at hascribed
    refine ⟨name.lexeme, ascribed, initial, rfl, shape, hnesting, ?_⟩
    rw [hspelling, spans_mark_cons (by decide)]
    refine ⟨hkind, spans_cons.2 ⟨name, _, ⟨hname, rfl⟩, htokens, spans_append.2 ⟨_, hascribed, ?_⟩⟩⟩
    exact (spans_mark_cons (by decide)).2 ⟨hassign, hspans⟩
  · rintro ⟨_, ascribed, initial, rfl, shape, hnesting, hspans⟩
    rw [hspelling, spans_mark_cons (by decide)] at hspans
    obtain ⟨name, _, ⟨hname, rfl⟩, htokens, hspans⟩ := spans_cons.1 hspans.2
    obtain ⟨middle, hascribed, hspans⟩ := spans_append.1 hspans
    obtain ⟨hassign, hspans⟩ := (spans_mark_cons (by decide)).1 hspans
    rw [← ascription_eq_ok_iff (by rw [hassign]; decide)] at hascribed
    exact ⟨name, _, ⟨hname, htokens⟩, ascribed, middle, hascribed, hassign, initial, rfl, shape,
      hnesting, hspans⟩

theorem assignment_eq_ok_iff {budget : Nat} {node : Node} {tokens rest : List Token} :
    assignment budget tokens = .ok node rest ↔ ∃ name value,
      node = .assignment name value ∧ value.IsExpression conditionalLevel ∧
        value.nesting < budget ∧ Spans node.statementSpelling tokens rest := by
  have hspelling (name : String) (value : Node) :
      (Node.assignment name value).statementSpelling =
        .identifier name :: .mark .assign :: (value.spelling ++ [.mark .semicolon]) := by
    simp [Node.statementSpelling, Node.spelling, Node.ending]
  simp only [assignment, Step.bind_eq_ok_iff (expect .identifier _), expect_eq_ok_iff,
    expect_bind_eq_ok_iff (show Kind.assign ≠ .eof by decide), expression_semicolon_eq_ok_iff]
  constructor
  · rintro ⟨name, _, ⟨hname, htokens⟩, hassign, value, rfl, shape, hnesting, hspans⟩
    refine ⟨name.lexeme, value, rfl, shape, hnesting, ?_⟩
    rw [hspelling]
    refine spans_cons.2 ⟨name, _, ⟨hname, rfl⟩, htokens, ?_⟩
    exact (spans_mark_cons (by decide)).2 ⟨hassign, hspans⟩
  · rintro ⟨_, value, rfl, shape, hnesting, hspans⟩
    rw [hspelling] at hspans
    obtain ⟨name, _, ⟨hname, rfl⟩, htokens, hspans⟩ := spans_cons.1 hspans
    obtain ⟨hassign, hspans⟩ := (spans_mark_cons (by decide)).1 hspans
    exact ⟨name, _, ⟨hname, htokens⟩, hassign, value, rfl, shape, hnesting, hspans⟩

theorem returnValue_eq_ok_iff {budget : Nat} {node : Node} {tokens rest : List Token}
    (hkind : headKind tokens = .kwReturn) :
    returnValue budget tokens = .ok node rest ↔ ∃ value,
      node = .returnValue value ∧ value.IsExpression conditionalLevel ∧
        value.nesting < budget ∧ Spans node.statementSpelling tokens rest := by
  simp only [returnValue, advance_bind, expression_semicolon_eq_ok_iff]
  constructor
  · rintro ⟨value, rfl, shape, hnesting, hspans⟩
    exact ⟨value, rfl, shape, hnesting, (spans_mark_cons (by decide)).2 ⟨hkind, hspans⟩⟩
  · rintro ⟨value, rfl, shape, hnesting, hspans⟩
    exact ⟨value, rfl, shape, hnesting, ((spans_mark_cons (by decide)).1 hspans).2⟩

theorem word_eq_ok_iff {kind : Kind} {word node : Node} {tokens rest : List Token} :
    Grammar.word kind word tokens = .ok node rest ↔
      node = word ∧ Spans [.mark kind, .mark .semicolon] tokens rest := by
  have hsemicolon : Kind.semicolon ≠ .eof := by decide
  rw [spans_cons]
  simp only [Grammar.word, Step.bind_eq_ok_iff (expect kind _), expect_eq_ok_iff,
    expect_bind_eq_ok_iff hsemicolon, Step.pure_eq_ok_iff, spans_mark_cons hsemicolon, spans_nil]
  constructor
  · rintro ⟨token, middle, ⟨hword, rfl⟩, hsemicolon, rfl, rfl⟩
    exact ⟨rfl, token, middle, hword, rfl, hsemicolon, rfl⟩
  · rintro ⟨rfl, token, middle, hword, rfl, hsemicolon, rfl⟩
    exact ⟨token, middle, ⟨hword, rfl⟩, hsemicolon, rfl, rfl⟩

theorem parameter_eq_ok_iff {found : Parameter} {tokens rest : List Token} :
    parameter tokens = .ok found rest ↔ Spans found.spelling tokens rest := by
  simp only [parameter, Step.bind_eq_ok_iff (expect .identifier _), expect_eq_ok_iff,
    expect_bind_eq_ok_iff (show Kind.colon ≠ .eof by decide), Step.bind_eq_ok_iff (typeName _),
    typeName_eq_ok_iff, Step.pure_eq_ok_iff]
  constructor
  · rintro ⟨name, _, ⟨hname, rfl⟩, hcolon, ty, _, hty, rfl, rfl⟩
    exact spans_cons.2 ⟨name, _, ⟨hname, rfl⟩, rfl, (spans_mark_cons (by decide)).2 ⟨hcolon, hty⟩⟩
  · intro hspans
    obtain ⟨name, middle, ⟨hname, hsame⟩, rfl, hmiddle⟩ := spans_cons.1 hspans
    obtain ⟨hcolon, hty⟩ := (spans_mark_cons (by decide)).1 hmiddle
    exact ⟨name, middle, ⟨hname, rfl⟩, hcolon, found.ty, rest, hty, by rw [hsame], rfl⟩

theorem headKind_of_parameters {found : List Parameter} {tokens rest : List Token}
    (hne : found ≠ []) (hspans : Spans (spellParameters found) tokens rest) :
    headKind tokens = .identifier := by
  match found, hne, hspans with
  | [_], _, hspans => exact hspans.headKind_eq
  | _ :: _ :: _, _, hspans =>
    obtain ⟨middle, hfirst, -⟩ := spans_append.1 hspans
    exact hfirst.headKind_eq

theorem parametersFrom_eq_ok_iff {bound tokens rest : List Token} {found : List Parameter}
    (hbound : tokens.length ≤ bound.length) :
    parametersFrom bound tokens = .ok found rest ↔
      found ≠ [] ∧ Spans (spellParameters found) tokens rest ∧ headKind rest ≠ .comma := by
  -- on the bound, which stays ahead of the tokens since each parameter takes some
  induction bound generalizing tokens found with
  | nil =>
      obtain rfl : tokens = [] := List.length_eq_zero_iff.1 (by simpa using hbound)
      simp only [parametersFrom, Step.throw_apply, reduceCtorEq, false_iff]
      rintro ⟨hne, hspans, -⟩
      exact absurd (headKind_of_parameters hne hspans) (by decide)
  | cons _ bound ih =>
      rw [List.length_cons] at hbound
      simp only [parametersFrom, Step.bind_eq_ok_iff parameter, peek_bind]
      constructor
      · rintro ⟨first, middle, hfirst, run⟩
        have shorter := (takes_parameter.ok hfirst).2
        rw [parameter_eq_ok_iff] at hfirst
        by_cases hcomma : headKind middle = .comma
        · simp only [hcomma, if_true, advance_bind, Step.bind_eq_ok_iff, Step.pure_eq_ok_iff] at run
          obtain ⟨others, _, hothers, rfl, rfl⟩ := run
          obtain ⟨hne, hspans, hrest⟩ := (ih (by rw [List.length_tail]; omega)).1 hothers
          refine ⟨by simp, ?_, hrest⟩
          obtain ⟨second, others, rfl⟩ := List.exists_cons_of_ne_nil hne
          exact spans_append.2 ⟨middle, hfirst, (spans_mark_cons (by decide)).2 ⟨hcomma, hspans⟩⟩
        · simp only [hcomma, if_false, Step.pure_eq_ok_iff] at run
          obtain ⟨rfl, rfl⟩ := run
          exact ⟨by simp, hfirst, hcomma⟩
      · rintro ⟨hne, hspans, hrest⟩
        obtain ⟨first, others, rfl⟩ := List.exists_cons_of_ne_nil hne
        cases others with
        | nil =>
            have hfirst := parameter_eq_ok_iff.2 hspans
            exact ⟨first, rest, hfirst, by rw [if_neg hrest, Step.pure_apply]⟩
        | cons second others =>
            obtain ⟨middle, hfirst, hspans⟩ := spans_append.1 hspans
            obtain ⟨hcomma, hspans⟩ := (spans_mark_cons (by decide)).1 hspans
            rw [← parameter_eq_ok_iff] at hfirst
            have shorter := (takes_parameter.ok hfirst).2
            have hothers : parametersFrom bound middle.tail = .ok (second :: others) rest :=
              (ih (by rw [List.length_tail]; omega)).2 ⟨by simp, hspans, hrest⟩
            refine ⟨first, middle, hfirst, ?_⟩
            simp only [hcomma, if_true, Step.bind_apply, advance_apply, hothers, Step.pure_apply]

theorem parameters_eq_ok_iff {tokens rest : List Token} {found : List Parameter}
    (hrest : headKind rest = .rightParen) :
    parameters tokens = .ok found rest ↔ Spans (spellParameters found) tokens rest := by
  rw [parameters, peek_bind]
  by_cases hclosed : headKind tokens = .rightParen
  · simp only [hclosed, if_true, Step.pure_eq_ok_iff]
    constructor
    · rintro ⟨rfl, rfl⟩
      exact spans_nil.2 rfl
    · intro hspans
      by_cases hnil : found = []
      · subst hnil
        exact ⟨rfl, spans_nil.1 hspans⟩
      · rw [headKind_of_parameters hnil hspans] at hclosed
        cases hclosed
  · simp only [hclosed, if_false, Step.get_bind, parametersFrom_eq_ok_iff (Nat.le_refl _)]
    constructor
    · rintro ⟨-, hspans, -⟩
      exact hspans
    · intro hspans
      refine ⟨?_, hspans, by rw [hrest]; decide⟩
      rintro rfl
      rw [spellParameters, spans_nil] at hspans
      exact hclosed (hspans ▸ hrest)

section Nested

variable {budget : Nat} {statement : Reader Node} {others : Reader Chain}

theorem whileLoop_eq_ok_iff (takes : Takes 1 statement) (reads : ReadsStatements budget statement)
    {node : Node} {tokens rest : List Token} (hkind : headKind tokens = .kwWhile) :
    whileLoop budget statement tokens = .ok node rest ↔ ∃ condition content,
      node = .whileLoop condition content ∧ condition.IsExpression conditionalLevel ∧
        condition.nesting < budget ∧ (∀ node ∈ content, node.IsReadable budget) ∧
        (spellBody content).head? ≠ some (.mark .minus) ∧
        Spans node.statementSpelling tokens rest := by
  have hspelling (condition : Node) (content : List Node) :
      (Node.whileLoop condition content).statementSpelling =
        .mark .kwWhile :: (condition.spelling ++ (spellBody content ++ [.mark .kwEnd])) := by
    simp [Node.statementSpelling, Node.spelling, Node.ending]
  simp only [whileLoop, advance_bind, Step.bind_eq_ok_iff (expression budget),
    expression_eq_ok_iff, body_end_eq_ok_iff .kwEnd takes reads (by decide) (by decide)]
  constructor
  · rintro ⟨condition, middle, ⟨shape, hnesting, hcondition, hends⟩, content, rfl, readable, hspans⟩
    rw [endsExpression_iff (fun node mem => (readable node mem).shape) hspans] at hends
    refine ⟨condition, content, rfl, shape, hnesting, readable, hends, ?_⟩
    rw [hspelling, spans_mark_cons (by decide)]
    exact ⟨hkind, spans_append.2 ⟨middle, hcondition, hspans⟩⟩
  · rintro ⟨condition, content, rfl, shape, hnesting, readable, hends, hspans⟩
    rw [hspelling, spans_mark_cons (by decide)] at hspans
    obtain ⟨middle, hcondition, hspans⟩ := spans_append.1 hspans.2
    rw [← endsExpression_iff (fun node mem => (readable node mem).shape) hspans] at hends
    exact ⟨condition, middle, ⟨shape, hnesting, hcondition, hends⟩, content, rfl, readable, hspans⟩

theorem function_eq_ok_iff (takes : Takes 1 statement) (reads : ReadsStatements budget statement)
    {node : Node} {tokens rest : List Token} (hkind : headKind tokens = .kwDef) :
    function statement tokens = .ok node rest ↔ ∃ signature content,
      node = .function signature content ∧ (∀ node ∈ content, node.IsReadable budget) ∧
        Spans node.statementSpelling tokens rest := by
  have hspelling (signature : Signature) (content : List Node) :
      (Node.function signature content).statementSpelling =
        .mark .kwDef :: .identifier signature.name :: .mark .leftParen ::
          (spellParameters signature.parameters ++ .mark .rightParen :: .mark .colon ::
            ([.typeName signature.result] ++ (spellBody content ++ [.mark .kwEnd]))) := by
    simp [Node.statementSpelling, Node.spelling, Node.ending, Signature.spelling]
  simp only [function, advance_bind, Step.bind_eq_ok_iff (expect .identifier _),
    expect_eq_ok_iff, expect_bind_eq_ok_iff (show Kind.leftParen ≠ .eof by decide),
    Step.bind_eq_ok_iff parameters,
    expect_bind_eq_ok_iff (show Kind.rightParen ≠ .eof by decide),
    expect_bind_eq_ok_iff (show Kind.colon ≠ .eof by decide), Step.bind_eq_ok_iff (typeName _),
    typeName_eq_ok_iff, body_end_eq_ok_iff .kwEnd takes reads (by decide) (by decide)]
  constructor
  · rintro ⟨name, _, ⟨hname, htokens⟩, hopen, found, _, hfound, hclose, hcolon, result, _, hresult,
      content, rfl, readable, hspans⟩
    rw [parameters_eq_ok_iff hclose] at hfound
    refine ⟨⟨name.lexeme, found, result⟩, content, rfl, readable, ?_⟩
    rw [hspelling, spans_mark_cons (by decide)]
    refine ⟨hkind, spans_cons.2 ⟨name, _, ⟨hname, rfl⟩, htokens, ?_⟩⟩
    refine (spans_mark_cons (by decide)).2 ⟨hopen, spans_append.2 ⟨_, hfound, ?_⟩⟩
    refine (spans_mark_cons (by decide)).2 ⟨hclose, (spans_mark_cons (by decide)).2 ⟨hcolon, ?_⟩⟩
    exact spans_append.2 ⟨_, hresult, hspans⟩
  · rintro ⟨⟨_, found, result⟩, content, rfl, readable, hspans⟩
    rw [hspelling, spans_mark_cons (by decide)] at hspans
    obtain ⟨name, _, ⟨hname, rfl⟩, htokens, hspans⟩ := spans_cons.1 hspans.2
    obtain ⟨hopen, hspans⟩ := (spans_mark_cons (by decide)).1 hspans
    obtain ⟨_, hfound, hspans⟩ := spans_append.1 hspans
    obtain ⟨hclose, hspans⟩ := (spans_mark_cons (by decide)).1 hspans
    obtain ⟨hcolon, hspans⟩ := (spans_mark_cons (by decide)).1 hspans
    obtain ⟨_, hresult, hspans⟩ := spans_append.1 hspans
    rw [← parameters_eq_ok_iff hclose] at hfound
    exact ⟨name, _, ⟨hname, htokens⟩, hopen, found, _, hfound, hclose, hcolon, result, _, hresult,
      content, rfl, readable, hspans⟩

theorem linkStops {kind : Kind} (hkind : kind ∈ statementStarts) :
    kind ∉ [Kind.kwElseIf, .kwElse, .kwEndIf] := by
  revert kind
  decide

theorem spans_when {condition : Node} {first : List Node} {links : Chain}
    {tokens rest : List Token} :
    Spans (Chain.when condition first links).spelling tokens rest ↔ ∃ before middle,
      Spans condition.spelling tokens before ∧ headKind before = .kwThen ∧
        Spans (spellBody first) before.tail middle ∧ headKind middle = links.connective ∧
        Spans links.spelling middle.tail rest := by
  have hconnective : links.connective ≠ .eof := by cases links <;> simp [Chain.connective]
  simp only [Chain.spelling, spans_append, spans_mark_cons hconnective,
    spans_mark_cons (show Kind.kwThen ≠ .eof by decide)]
  constructor
  · rintro ⟨before, hcondition, hthen, middle, h⟩
    exact ⟨before, middle, hcondition, hthen, h⟩
  · rintro ⟨before, middle, hcondition, hthen, h⟩
    exact ⟨before, hcondition, hthen, middle, h⟩

theorem chain_eq_ok_iff (takes : Takes 1 statement) (reads : ReadsStatements budget statement)
    (readsOthers : ReadsLinks budget others) {found : Chain} {tokens rest : List Token} :
    chain budget statement others tokens = .ok found rest ↔ ∃ condition first links before middle,
      found = .when condition first links ∧ condition.IsExpression BinaryOp.loosest ∧
        condition.nesting ≤ budget ∧ (∀ node ∈ first, node.IsReadable budget) ∧
        links.IsTail budget ∧ Spans condition.spelling tokens before ∧ headKind before = .kwThen ∧
        Spans (spellBody first) before.tail middle ∧ headKind middle = links.connective ∧
        Spans links.spelling middle.tail rest := by
  simp only [chain, Step.bind_eq_ok_iff (disjunction budget),
    readsUpTo_disjunction budget _ _ _, expect_bind_eq_ok_iff (show Kind.kwThen ≠ .eof by decide),
    Step.bind_eq_ok_iff (body statement _),
    body_eq_ok_iff takes reads (fun _ => linkStops), peek_bind]
  constructor
  · rintro ⟨condition, before, ⟨head, hnesting, hcondition, -⟩, hthen, first, middle,
      ⟨readable, hfirst, -⟩, run⟩
    -- the word after the body tells which links follow
    generalize hword : headKind middle = word at run
    split at run
    · simp only [advance_bind, Step.bind_eq_ok_iff, readsOthers _ _ _, Step.pure_eq_ok_iff] at run
      obtain ⟨links, _, ⟨hlinks, hspans⟩, rfl, rfl⟩ := run
      have hconnective : links.connective = .kwElseIf := hlinks.shape.connective_eq
      exact ⟨condition, first, links, before, middle, rfl, head, hnesting, readable, .others hlinks,
        hcondition, hthen, hfirst, hword.trans hconnective.symm, hspans⟩
    · simp only [advance_bind, expect_bind_eq_ok_iff (show Kind.kwThen ≠ .eof by decide),
        body_end_eq_ok_iff .kwEndIf takes reads (by decide) (by decide)] at run
      obtain ⟨hthen', final, rfl, hfinal, hspans⟩ := run
      have htail := (spans_mark_cons (by decide)).2 ⟨hthen', hspans⟩
      exact ⟨condition, first, .always final .done, before, middle, rfl, head, hnesting, readable,
        .always hfinal, hcondition, hthen, hfirst, hword, htail⟩
    · simp only [expect_bind_eq_ok_iff (show Kind.kwEndIf ≠ .eof by decide),
        Step.pure_eq_ok_iff] at run
      obtain ⟨hend, rfl, rfl⟩ := run
      exact ⟨condition, first, .done, before, middle, rfl, head, hnesting, readable, .done,
        hcondition, hthen, hfirst, hend, spans_nil.2 rfl⟩
  · rintro ⟨condition, first, links, before, middle, rfl, head, hnesting, readable, tail,
      hcondition, hthen, hfirst, hword, hspans⟩
    have hends : EndsOperators BinaryOp.loosest before :=
      endsOperators_of_none (by rw [hthen]; rfl)
    have hstop : headKind middle ∈ [Kind.kwElseIf, .kwElse, .kwEndIf] := by
      rw [hword]
      cases links <;> simp [Chain.connective]
    refine ⟨condition, before, ⟨head, hnesting, hcondition, hends⟩, hthen, first, middle,
      ⟨readable, hfirst, .inr hstop⟩, ?_⟩
    cases tail with
    | done =>
        rw [hword, Chain.connective]
        have hrest : (pure (.when condition first .done) : Reader Chain) middle.tail =
            .ok (.when condition first .done) rest := by
          rw [Step.pure_apply, spans_nil.1 hspans]
        exact (expect_bind_eq_ok_iff (by decide)).2 ⟨hword, hrest⟩
    | @always final hfinal =>
        obtain ⟨hthen', htail⟩ := (spans_mark_cons (by decide)).1 hspans
        rw [hword, Chain.connective]
        simp only [advance_bind, expect_bind_eq_ok_iff (show Kind.kwThen ≠ .eof by decide),
          body_end_eq_ok_iff .kwEndIf takes reads (by decide) (by decide)]
        exact ⟨hthen', final, rfl, hfinal, htail⟩
    | others hlinks =>
        rw [hword, hlinks.shape.connective_eq]
        simp only [advance_bind, Step.bind_eq_ok_iff, readsOthers _ _ _, Step.pure_eq_ok_iff]
        exact ⟨links, rest, ⟨hlinks, hspans⟩, rfl, rfl⟩

theorem readsLinks_chain (takes : Takes 1 statement) (reads : ReadsStatements budget statement)
    (readsOthers : ReadsLinks budget others) :
    ReadsLinks (budget + 1) (chain budget statement others) := by
  intro found tokens rest
  rw [chain_eq_ok_iff takes reads readsOthers]
  constructor
  · rintro ⟨condition, first, links, before, middle, rfl, head, hnesting, readable, tail, hspans⟩
    have hreadable := Chain.isReadable_when_iff.2 ⟨head, hnesting, readable, tail⟩
    exact ⟨hreadable, spans_when.2 ⟨before, middle, hspans⟩⟩
  · rintro ⟨hreadable, hspans⟩
    obtain ⟨condition, first, links, rfl⟩ := hreadable.shape.exists_when
    obtain ⟨head, hnesting, readable, tail⟩ := Chain.isReadable_when_iff.1 hreadable
    obtain ⟨before, middle, hspans⟩ := spans_when.1 hspans
    exact ⟨condition, first, links, before, middle, rfl, head, hnesting, readable, tail, hspans⟩

/-- After the first token of an expression that is a statement no assignment sign comes. -/
theorem headKind_tail_ne_assign {level : Nat} {node : Node} {tokens rest : List Token}
    (shape : node.IsExpression level)
    (hspans : Spans (node.spelling ++ [.mark .semicolon]) tokens rest) :
    headKind tokens.tail ≠ .assign := by
  have hkinds : ∀ terminal ∈ node.spelling ++ [Terminal.mark .semicolon],
      terminal.kind ≠ .assign := by
    have hothers : ∀ kind ∈ expressionKinds, kind ≠ .assign := by decide
    simp only [List.forall_mem_append, List.forall_mem_singleton]
    exact ⟨fun terminal mem => hothers _ (shape.kind_mem terminal mem), by decide⟩
  obtain ⟨middle, hnode, hsemicolon⟩ := spans_append.1 hspans
  cases hterminals : node.spelling with
  | nil =>
      rw [hterminals, spans_nil] at hnode
      subst hnode
      have hstart := headKind_mem_expressionStarts shape
        (by rw [hterminals, spans_nil] : Spans node.spelling tokens tokens)
      rw [hsemicolon.headKind_eq] at hstart
      exact absurd hstart (by decide)
  | cons first others =>
      rw [hterminals] at hkinds hspans
      obtain ⟨token, after, -, rfl, hafter⟩ := spans_cons.1 hspans
      cases others with
      | nil =>
          rw [List.tail_cons, hafter.headKind_eq]
          decide
      | cons second others =>
          rw [List.tail_cons, hafter.headKind_eq]
          exact hkinds second (by simp)

theorem statementWith_identifier {tokens : List Token} (hkind : headKind tokens = .identifier) :
    statementWith budget statement others tokens =
      if headKind tokens.tail = .assign then assignment budget tokens
      else expressionStatement budget tokens := by
  rw [statementWith, peek_bind, hkind]
  show (if headKind tokens.tail = .assign then assignment budget else expressionStatement budget)
    tokens = _
  split <;> rfl

theorem statementWith_eq_expressionStatement {tokens : List Token}
    (hstart : headKind tokens ∈ expressionStarts) (htail : headKind tokens.tail ≠ .assign) :
    statementWith budget statement others tokens = expressionStatement budget tokens := by
  by_cases hkind : headKind tokens = .identifier
  · rw [statementWith_identifier hkind, if_neg htail]
  · rw [statementWith, peek_bind]
    simp only [expressionStarts, List.mem_cons, hkind, List.not_mem_nil, or_false, false_or]
      at hstart
    rcases hstart with h | h | h | h | h | h <;> rw [h]

theorem expressionStatement_eq_ok_iff {node : Node} {tokens rest : List Token} :
    expressionStatement budget tokens = .ok node rest ↔ node.IsExpression conditionalLevel ∧
      node.IsReadable (budget + 1) ∧ Spans node.statementSpelling tokens rest := by
  have hclosed : expressionStatement budget tokens = .ok node rest ↔
      ∃ value, node = value ∧ value.IsExpression conditionalLevel ∧ value.nesting < budget ∧
        Spans (value.spelling ++ [.mark .semicolon]) tokens rest :=
    expression_semicolon_eq_ok_iff
  rw [hclosed]
  constructor
  · rintro ⟨_, rfl, shape, hnesting, hspans⟩
    refine ⟨shape, ⟨.expression shape, ?_, shape.isSeparated⟩, ?_⟩
    · rw [shape.depth_eq]
      omega
    · rwa [shape.statementSpelling_eq]
  · rintro ⟨shape, ⟨-, hdepth, -⟩, hspans⟩
    rw [shape.depth_eq] at hdepth
    rw [shape.statementSpelling_eq] at hspans
    exact ⟨node, rfl, shape, by omega, hspans⟩

theorem statementWith_sound (takes : Takes 1 statement) (reads : ReadsStatements budget statement)
    (readsOthers : ReadsLinks budget others) {node : Node} {tokens rest : List Token}
    (run : statementWith budget statement others tokens = .ok node rest) :
    node.IsReadable (budget + 1) ∧ Spans node.statementSpelling tokens rest := by
  rw [statementWith, peek_bind] at run
  generalize hkind : headKind tokens = kind at run
  -- the cases are those of the first token, in the order in which the reader has them
  split at run
  · rw [declaration_eq_ok_iff hkind] at run
    obtain ⟨name, ascribed, initial, rfl, shape, hnesting, hspans⟩ := run
    exact ⟨⟨.declaration shape, Nat.succ_lt_succ hnesting, trivial⟩, hspans⟩
  · simp only [advance_bind, Step.bind_eq_ok_iff, Step.pure_eq_ok_iff,
      readsLinks_chain takes reads readsOthers _ _ _] at run
    obtain ⟨links, _, ⟨⟨shape, hdepth, hseparated⟩, hspans⟩, rfl, rfl⟩ := run
    refine ⟨⟨.ifChain shape, hdepth, hseparated⟩, ?_⟩
    rw [Node.statementSpelling, Node.ending, List.append_nil]
    exact (spans_mark_cons (by decide)).2 ⟨hkind, hspans⟩
  · rw [whileLoop_eq_ok_iff takes reads hkind] at run
    obtain ⟨condition, content, rfl, shape, hnesting, readable, hminus, hspans⟩ := run
    obtain ⟨statements, hdepth, hseparated⟩ := forall_isReadable_iff.1 readable
    refine ⟨⟨.whileLoop shape statements, ?_, hminus, hseparated⟩, hspans⟩
    rw [Node.depth]
    omega
  · rw [word_eq_ok_iff] at run
    obtain ⟨rfl, hspans⟩ := run
    exact ⟨⟨.breakLoop, Nat.succ_pos _, trivial⟩, hspans⟩
  · rw [word_eq_ok_iff] at run
    obtain ⟨rfl, hspans⟩ := run
    exact ⟨⟨.nextRound, Nat.succ_pos _, trivial⟩, hspans⟩
  · rw [function_eq_ok_iff takes reads hkind] at run
    obtain ⟨signature, content, rfl, readable, hspans⟩ := run
    obtain ⟨statements, hdepth, hseparated⟩ := forall_isReadable_iff.1 readable
    exact ⟨⟨.function statements, Nat.lt_succ_of_le hdepth, hseparated⟩, hspans⟩
  · rw [returnValue_eq_ok_iff hkind] at run
    obtain ⟨value, rfl, shape, hnesting, hspans⟩ := run
    exact ⟨⟨.returnValue shape, Nat.succ_lt_succ hnesting, trivial⟩, hspans⟩
  · change (if headKind tokens.tail = .assign then assignment budget
      else expressionStatement budget) tokens = .ok node rest at run
    split at run
    · rw [assignment_eq_ok_iff] at run
      obtain ⟨name, value, rfl, shape, hnesting, hspans⟩ := run
      exact ⟨⟨.assignment shape, Nat.succ_lt_succ hnesting, trivial⟩, hspans⟩
    · exact (expressionStatement_eq_ok_iff.1 run).2
  · exact (expressionStatement_eq_ok_iff.1 run).2

theorem statementWith_complete (takes : Takes 1 statement)
    (reads : ReadsStatements budget statement) (readsOthers : ReadsLinks budget others)
    {node : Node} {tokens rest : List Token} (readable : node.IsReadable (budget + 1))
    (hspans : Spans node.statementSpelling tokens rest) :
    statementWith budget statement others tokens = .ok node rest := by
  obtain ⟨shape, hdepth, hseparated⟩ := readable
  have hkind {terminal : Terminal} {terminals : List Terminal}
      (hterminals : node.statementSpelling = terminal :: terminals) :
      headKind tokens = terminal.kind := by
    rw [hterminals] at hspans
    exact hspans.headKind_eq
  cases shape with
  | declaration value =>
      rw [statementWith, peek_bind, hkind rfl]
      exact (declaration_eq_ok_iff (hkind rfl)).2
        ⟨_, _, _, rfl, value, Nat.lt_of_succ_lt_succ hdepth, hspans⟩
  | assignment value =>
      have hassign : headKind tokens.tail = .assign := by
        obtain ⟨token, middle, -, rfl, hmiddle⟩ := spans_cons.1 hspans
        exact hmiddle.headKind_eq
      rw [statementWith_identifier (hkind rfl), if_pos hassign, assignment_eq_ok_iff]
      exact ⟨_, _, rfl, value, Nat.lt_of_succ_lt_succ hdepth, hspans⟩
  | @ifChain links shape =>
      rw [statementWith, peek_bind, hkind rfl]
      simp only [Terminal.kind, advance_bind, Step.bind_eq_ok_iff, Step.pure_eq_ok_iff,
        readsLinks_chain takes reads readsOthers _ _ _]
      rw [Node.statementSpelling, Node.ending, List.append_nil] at hspans
      exact ⟨links, rest, ⟨⟨shape, hdepth, hseparated⟩,
        ((spans_mark_cons (by decide)).1 hspans).2⟩, rfl, rfl⟩
  | @whileLoop condition content head statements =>
      rw [Node.depth] at hdepth
      rw [statementWith, peek_bind, hkind rfl]
      refine (whileLoop_eq_ok_iff takes reads (hkind rfl)).2
        ⟨condition, content, rfl, head, by omega, ?_, hseparated.1, hspans⟩
      exact forall_isReadable_iff.2 ⟨statements, by omega, hseparated.2⟩
  | breakLoop =>
      rw [statementWith, peek_bind, hkind rfl]
      exact word_eq_ok_iff.2 ⟨rfl, hspans⟩
  | nextRound =>
      rw [statementWith, peek_bind, hkind rfl]
      exact word_eq_ok_iff.2 ⟨rfl, hspans⟩
  | @function signature content statements =>
      rw [statementWith, peek_bind, hkind rfl]
      refine (function_eq_ok_iff takes reads (hkind rfl)).2 ⟨signature, content, rfl, ?_, hspans⟩
      exact forall_isReadable_iff.2 ⟨statements, Nat.le_of_lt_succ hdepth, hseparated⟩
  | returnValue value =>
      rw [statementWith, peek_bind, hkind rfl]
      exact (returnValue_eq_ok_iff (hkind rfl)).2
        ⟨_, rfl, value, Nat.lt_of_succ_lt_succ hdepth, hspans⟩
  | expression value =>
      have hclosed := hspans
      rw [value.statementSpelling_eq] at hclosed
      obtain ⟨middle, hnode, -⟩ := spans_append.1 hclosed
      rw [statementWith_eq_expressionStatement (headKind_mem_expressionStarts value hnode)
        (headKind_tail_ne_assign value hclosed), expressionStatement_eq_ok_iff]
      exact ⟨value, ⟨.expression value, hdepth, hseparated⟩, hspans⟩

theorem readsStatements_statementWith (takes : Takes 1 statement)
    (reads : ReadsStatements budget statement) (readsOthers : ReadsLinks budget others) :
    ReadsStatements (budget + 1) (statementWith budget statement others) :=
  fun _ _ _ => ⟨statementWith_sound takes reads readsOthers,
    fun h => statementWith_complete takes reads readsOthers h.1 h.2⟩

end Nested

/-- With one more level left, the readers of what is inside a body take one more level. -/
theorem reads_nested (budget : Nat) :
    ReadsStatements budget (nestedStatement budget) ∧ ReadsLinks budget (nestedChain budget) := by
  induction budget with
  | zero =>
      constructor
      · intro node tokens rest
        simp only [nestedStatement, Step.throw_apply, reduceCtorEq, false_iff]
        rintro ⟨⟨-, hdepth, -⟩, -⟩
        omega
      · intro links tokens rest
        simp only [nestedChain, Step.throw_apply, reduceCtorEq, false_iff]
        rintro ⟨⟨-, hdepth, -⟩, -⟩
        omega
  | succ budget ih =>
      have takes := (takes_nested budget).1
      exact ⟨readsStatements_statementWith takes ih.1 ih.2, readsLinks_chain takes ih.1 ih.2⟩

/-- A statement is read exactly from its spellings. -/
theorem readsStatements_statement (budget : Nat) :
    ReadsStatements (budget + 1) (statement budget) :=
  readsStatements_statementWith (takes_nested budget).1 (reads_nested budget).1
    (reads_nested budget).2

end Grammar

end Script

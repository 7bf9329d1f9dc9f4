import Script.Proofs.Grammar.Statement
/-!
# Readers look one token ahead

What a reader does depends on the tokens that it takes and on the one token after them, and not on
how many levels of nesting are left, as long as there are enough.  The token after an identifier
tells an assignment from an expression, but the identifier itself is never at fault.
-/

namespace Script.Grammar

/-- The tokens from the one on that a fault concerns, where `rest` has not been read.  The name of
an unknown type has been read already. -/
def Fault.remaining (fault : Fault) (rest : List Token) : List Token :=
  match fault with
  | .unknownType token => token :: rest
  | _ => rest

/-- What `reader` does on `tokens` is settled by the tokens before those that it leaves or finds
fault with, and by the first one of these: on a list that agrees so far `deeper` does the same.
Nothing is said if `reader` gives up because of its limit on nesting. -/
def SettlesAt {α : Type} (reader deeper : Reader α) (tokens : List Token) : Prop :=
  match reader tokens with
  | .ok a rest =>
    ∃ taken, tokens = taken ++ rest ∧
      ∀ other : List Token, other.head? = rest.head? → deeper (taken ++ other) = .ok a other
  | .error fault rest =>
    fault = .tooDeep ∨ ∃ taken, tokens = taken ++ fault.remaining rest ∧
      ∀ other : List Token, other.head? = (fault.remaining rest).head? →
        ∃ rest', deeper (taken ++ other) = .error fault rest' ∧ fault.remaining rest' = other

def Settles {α : Type} (reader deeper : Reader α) : Prop := ∀ tokens, SettlesAt reader deeper tokens

@[simp] theorem Fault.remaining_expected (what : Expectation) (rest : List Token) :
    (Fault.expected what).remaining rest = rest := rfl

theorem headKind_eq_of_head? {tokens other : List Token} (h : other.head? = tokens.head?) :
    headKind other = headKind tokens := by
  cases tokens with
  | nil =>
      rw [List.head?_nil, List.head?_eq_none_iff] at h
      rw [h]
  | cons token rest =>
      obtain ⟨others, rfl⟩ := List.head?_eq_some_iff.1 h
      rfl

theorem head?_append_eq {tokens other : List Token} (taken : List Token)
    (h : other.head? = tokens.head?) : (taken ++ other).head? = (taken ++ tokens).head? := by
  rw [List.head?_append, List.head?_append, h]

section Combinators

variable {α β : Type} {reader deeper : Reader α}

theorem SettlesAt.ok {tokens : List Token} (h : SettlesAt reader deeper tokens) {a : α}
    {rest : List Token} (run : reader tokens = .ok a rest) :
    ∃ taken, tokens = taken ++ rest ∧
      ∀ other : List Token, other.head? = rest.head? → deeper (taken ++ other) = .ok a other := by
  rwa [SettlesAt, run] at h

theorem SettlesAt.error {tokens : List Token} (h : SettlesAt reader deeper tokens) {fault : Fault}
    {rest : List Token} (run : reader tokens = .error fault rest) (limited : fault ≠ .tooDeep) :
    ∃ taken, tokens = taken ++ fault.remaining rest ∧
      ∀ other : List Token, other.head? = (fault.remaining rest).head? →
        ∃ rest', deeper (taken ++ other) = .error fault rest' ∧ fault.remaining rest' = other := by
  rw [SettlesAt, run] at h
  exact h.resolve_left limited

theorem Settles.pure (a : α) : Settles (pure a) (pure a) := fun _ =>
  ⟨[], rfl, fun _ _ => rfl⟩

theorem Settles.tooDeep (deeper : Reader α) : Settles (throw .tooDeep) deeper := fun _ => .inl rfl

theorem SettlesAt.bind {first deeperFirst : Reader α} {next deeperNext : α → Reader β}
    {tokens : List Token} (hfirst : SettlesAt first deeperFirst tokens)
    (hnext : ∀ a middle, first tokens = .ok a middle → SettlesAt (next a) (deeperNext a) middle) :
    SettlesAt (first >>= next) (deeperFirst >>= deeperNext) tokens := by
  rw [SettlesAt, Step.bind_apply]
  cases hrun : first tokens with
  | error fault rest =>
      by_cases limited : fault = .tooDeep
      · exact .inl limited
      · obtain ⟨taken, htokens, hdeeper⟩ := hfirst.error hrun limited
        refine .inr ⟨taken, htokens, fun other hother => ?_⟩
        obtain ⟨rest', hrun', hrest'⟩ := hdeeper other hother
        exact ⟨rest', by rw [Step.bind_apply, hrun'], hrest'⟩
  | ok a middle =>
      -- the token that settled the first reader is still the next one for it, be it one that the
      -- second reader takes or the one after
      obtain ⟨taken, rfl, hdeeper⟩ := hfirst.ok hrun
      have hafter := hnext a middle hrun
      simp only
      cases hrest : next a middle with
      | error fault rest =>
          by_cases limited : fault = .tooDeep
          · exact .inl limited
          · obtain ⟨more, rfl, hdeeper'⟩ := hafter.error hrest limited
            refine .inr ⟨taken ++ more, (List.append_assoc _ _ _).symm, fun other hother => ?_⟩
            obtain ⟨rest', hrun', hrest'⟩ := hdeeper' other hother
            refine ⟨rest', ?_, hrest'⟩
            rw [List.append_assoc, Step.bind_apply, hdeeper _ (head?_append_eq more hother)]
            exact hrun'
      | ok b rest =>
          obtain ⟨more, rfl, hdeeper'⟩ := hafter.ok hrest
          refine ⟨taken ++ more, (List.append_assoc _ _ _).symm, fun other hother => ?_⟩
          rw [List.append_assoc, Step.bind_apply, hdeeper _ (head?_append_eq more hother)]
          exact hdeeper' other hother

theorem Settles.bind {first deeperFirst : Reader α} {next deeperNext : α → Reader β}
    (hfirst : Settles first deeperFirst) (hnext : ∀ a, Settles (next a) (deeperNext a)) :
    Settles (first >>= next) (deeperFirst >>= deeperNext) := fun tokens =>
  (hfirst tokens).bind fun a middle _ => hnext a middle

end Combinators

theorem settles_peek : Settles peek peek := fun tokens =>
  ⟨[], rfl, fun other hother => by rw [List.nil_append, peek_apply, headKind_eq_of_head? hother]⟩

theorem settles_advance : Settles advance advance := by
  intro tokens
  cases tokens with
  | nil =>
      refine ⟨[], rfl, fun other hother => ?_⟩
      rw [List.tail_nil, List.head?_nil, List.head?_eq_none_iff] at hother
      rw [hother]
      rfl
  | cons token rest => exact ⟨[token], rfl, fun _ _ => rfl⟩

/-- A reader that judges a single token: it either takes the token or finds fault with it. -/
structure IsSingle {α : Type} (reader : Reader α) : Prop where
  atEnd : ∃ what, reader [] = .error (.expected what) []
  atToken : ∀ token, (∃ a, ∀ rest, reader (token :: rest) = .ok a rest) ∨
    ∃ fault, ∀ rest, ∃ rest', reader (token :: rest) = .error fault rest' ∧
      fault.remaining rest' = token :: rest

theorem IsSingle.remaining_eq {α : Type} {reader : Reader α} (h : IsSingle reader)
    {tokens rest : List Token} {fault : Fault} (run : reader tokens = .error fault rest) :
    fault.remaining rest = tokens := by
  cases tokens with
  | nil =>
      obtain ⟨what, hend⟩ := h.atEnd
      rw [hend] at run
      cases run
      rfl
  | cons token others =>
      rcases h.atToken token with ⟨a, htaken⟩ | ⟨found, hrefused⟩
      · rw [htaken] at run
        cases run
      · obtain ⟨rest', hrun, hrest'⟩ := hrefused others
        rw [hrun] at run
        cases run
        exact hrest'

theorem IsSingle.settles {α : Type} {reader : Reader α} (h : IsSingle reader) :
    Settles reader reader := by
  intro tokens
  cases tokens with
  | nil =>
      obtain ⟨what, hend⟩ := h.atEnd
      rw [SettlesAt, hend]
      refine .inr ⟨[], rfl, fun other hother => ⟨other, ?_, rfl⟩⟩
      rw [Fault.remaining_expected, List.head?_nil, List.head?_eq_none_iff] at hother
      rw [List.nil_append, hother, hend]
  | cons token rest =>
      rcases h.atToken token with ⟨a, htaken⟩ | ⟨fault, hrefused⟩
      · rw [SettlesAt, htaken]
        exact ⟨[token], rfl, fun other _ => htaken other⟩
      · obtain ⟨rest', hrun, hrest'⟩ := hrefused rest
        rw [SettlesAt, hrun]
        refine .inr ⟨[], hrest'.symm, fun other hother => ?_⟩
        rw [hrest'] at hother
        obtain ⟨others, rfl⟩ := List.head?_eq_some_iff.1 hother
        exact hrefused others

theorem isSingle_expect (kind : Kind) (what : Expectation) : IsSingle (expect kind what) := by
  refine ⟨⟨what, rfl⟩, fun token => ?_⟩
  by_cases h : token.kind = kind
  · exact .inl ⟨token, fun rest => if_pos h⟩
  · exact .inr ⟨.expected what, fun rest => ⟨token :: rest, if_neg h, rfl⟩⟩

/-- A name that names no type is at fault itself, though it has been taken. -/
theorem isSingle_typeName (what : Expectation) : IsSingle (typeName what) := by
  refine ⟨⟨what, rfl⟩, fun token => ?_⟩
  by_cases h : token.kind = .identifier
  · have hname (rest : List Token) : expect .identifier what (token :: rest) = .ok token rest :=
      if_pos h
    cases hty : Ty.ofName token.lexeme with
    | ok ty =>
        refine .inl ⟨ty, fun rest => ?_⟩
        simp only [typeName, Step.bind_apply, hname, hty, Step.pure_apply]
    | error unknown =>
        refine .inr ⟨.unknownType token, fun rest => ⟨rest, ?_, rfl⟩⟩
        simp only [typeName, Step.bind_apply, hname, hty, Step.throw_apply]
  · have hname (rest : List Token) :
        expect .identifier what (token :: rest) = .error (.expected what) (token :: rest) :=
      if_neg h
    refine .inr ⟨.expected what, fun rest => ⟨token :: rest, ?_, rfl⟩⟩
    rw [typeName, Step.bind_apply, hname]

theorem remaining_of_operand {token : Token} {fault : Fault} (h : operand token = .error fault)
    (rest : List Token) : fault.remaining rest = rest := by
  unfold operand at h
  split at h
  · split at h <;> cases h
    rfl
  · cases h
  · split at h <;> cases h
    rfl
  · cases h
  · cases h
  · cases h
    rfl

theorem isSingle_primary : IsSingle primary := by
  refine ⟨⟨.expression, rfl⟩, fun token => ?_⟩
  cases h : operand token with
  | ok node => exact .inl ⟨node, fun rest => by rw [primary, h]⟩
  | error fault =>
      refine .inr ⟨fault, fun rest => ⟨token :: rest, by rw [primary, h], ?_⟩⟩
      exact remaining_of_operand h _

theorem settles_expect {kind : Kind} {what : Expectation} :
    Settles (expect kind what) (expect kind what) :=
  (isSingle_expect kind what).settles

section Unary

variable {inner deeperInner : Reader Node}

theorem settles_unaryWith (h : Settles inner deeperInner) :
    Settles (unaryWith inner) (unaryWith deeperInner) := by
  refine settles_peek.bind fun kind => ?_
  split
  · exact isSingle_primary.settles
  · exact settles_advance.bind fun _ => h.bind fun _ => .pure _

theorem settles_unary {few many : Nat} (le : few ≤ many) : Settles (unary few) (unary many) := by
  induction few generalizing many with
  | zero =>
      cases many with
      | zero => exact settles_unaryWith (.tooDeep _)
      | succ many => exact settles_unaryWith (.tooDeep _)
  | succ few ih =>
      cases many with
      | zero => omega
      | succ many => exact settles_unaryWith (ih (Nat.le_of_succ_le_succ le))

end Unary

section Loops

variable {operand deeperOperand statement deeperStatement : Reader Node}

/-- One round of a chain of operators, as a reader. -/
theorem operatorsFrom_round {level : Nat} (takes : Takes 1 operand) (left : Node) :
    (get >>= fun bound => operatorsFrom level operand bound left) =
      (peek >>= fun kind =>
        match operatorAt level kind with
        | none => pure left
        | some op => advance >>= fun _ => operand >>= fun right =>
          get >>= fun bound => operatorsFrom level operand bound (.binary op left right)) := by
  funext tokens
  rw [Step.get_bind, operatorsFrom_self takes, peek_bind]
  cases operatorAt level (headKind tokens) with
  | none => rfl
  | some op =>
      simp only [Step.bind_apply, advance_apply]
      cases operand tokens.tail <;> rfl

theorem settles_operatorsFrom {level : Nat} (takes : Takes 1 operand)
    (deeperTakes : Takes 1 deeperOperand) (h : Settles operand deeperOperand) (left : Node) :
    Settles (get >>= fun bound => operatorsFrom level operand bound left)
      (get >>= fun bound => operatorsFrom level deeperOperand bound left) := by
  intro tokens
  induction hn : tokens.length using Nat.strongRecOn generalizing left tokens with
  | ind n ih =>
    rw [operatorsFrom_round takes, operatorsFrom_round deeperTakes]
    refine (settles_peek tokens).bind fun kind middle hkind => ?_
    cases hkind
    cases operatorAt level (headKind tokens) with
    | none => exact Settles.pure _ _
    | some op =>
        refine (settles_advance tokens).bind fun _ middle hmiddle => ?_
        cases hmiddle
        refine (h tokens.tail).bind fun right rest hright => ?_
        have shorter := (takes.ok hright).2
        rw [List.length_tail] at shorter
        exact ih rest.length (by omega) _ _ rfl

theorem settles_operators {level : Nat} (takes : Takes 1 operand)
    (deeperTakes : Takes 1 deeperOperand) (h : Settles operand deeperOperand) :
    Settles (operators level operand) (operators level deeperOperand) :=
  h.bind fun first => settles_operatorsFrom takes deeperTakes h first

theorem body_round (takes : Takes 1 statement) (stops : List Kind) :
    body statement stops =
      (peek >>= fun kind =>
        if kind = .eof ∨ kind ∈ stops then pure []
        else statement >>= fun first => body statement stops >>= fun others =>
          pure (first :: others)) := by
  funext tokens
  rw [body_apply takes, peek_bind]
  split
  · rfl
  · rw [Step.bind_apply]
    cases statement tokens with
    | error fault rest => rfl
    | ok node rest =>
        simp only [Step.bind_apply]
        cases body statement stops rest <;> rfl

theorem settles_body (takes : Takes 1 statement) (deeperTakes : Takes 1 deeperStatement)
    (h : Settles statement deeperStatement) (stops : List Kind) :
    Settles (body statement stops) (body deeperStatement stops) := by
  intro tokens
  induction hn : tokens.length using Nat.strongRecOn generalizing tokens with
  | ind n ih =>
    rw [body_round takes, body_round deeperTakes]
    refine (settles_peek tokens).bind fun kind middle hkind => ?_
    cases hkind
    split
    · exact Settles.pure _ _
    · refine (h tokens).bind fun first rest hfirst => ?_
      have shorter := (takes.ok hfirst).2
      exact (ih rest.length (by omega) rest rfl).bind fun others last _ => Settles.pure _ _

theorem parametersFrom_round :
    (get >>= parametersFrom) =
      (parameter >>= fun first => peek >>= fun kind =>
        if kind = .comma then advance >>= fun _ => (get >>= parametersFrom) >>= fun others =>
          pure (first :: others)
        else pure [first]) := by
  funext tokens
  rw [Step.get_bind]
  cases tokens with
  | nil => rfl
  | cons token tokens =>
      rw [parametersFrom, Step.bind_apply, Step.bind_apply]
      cases hrun : parameter (token :: tokens) with
      | error fault rest => rfl
      | ok first rest =>
          have shorter := (takes_parameter.ok hrun).2
          rw [List.length_cons] at shorter
          simp only [peek_bind]
          split
          · have hbound : rest.tail.length ≤ tokens.length := by
              rw [List.length_tail]
              omega
            simp only [Step.bind_apply, advance_apply, Step.get_apply,
              parametersFrom_congr tokens rest.tail rest.tail hbound (Nat.le_refl _)]
          · rfl

end Loops

section Expressions

variable {few many : Nat}

theorem settles_upTo (le : few ≤ many) (level : Nat) :
    Settles (upTo few level) (upTo many level) := by
  induction level with
  | zero => exact settles_unary le
  | succ level ih => exact settles_operators (takes_upTo few level) (takes_upTo many level) ih

theorem settles_disjunction (le : few ≤ many) : Settles (disjunction few) (disjunction many) :=
  settles_upTo le _

theorem settles_conditionalWith (le : few ≤ many) {branch deeperBranch : Reader Node}
    (h : Settles branch deeperBranch) :
    Settles (conditionalWith few branch) (conditionalWith many deeperBranch) := by
  refine (settles_disjunction le).bind fun condition => settles_peek.bind fun kind => ?_
  split
  · refine settles_advance.bind fun _ => h.bind fun onTrue => ?_
    exact settles_expect.bind fun _ => h.bind fun onFalse => .pure _
  · exact .pure _

theorem settles_expression (le : few ≤ many) : Settles (expression few) (expression many) := by
  induction few generalizing many with
  | zero => exact .tooDeep _
  | succ few ih =>
      cases many with
      | zero => omega
      | succ many =>
          have le := Nat.le_of_succ_le_succ le
          exact settles_conditionalWith le (ih le)

end Expressions

theorem settles_ascription : Settles ascription ascription := by
  refine settles_peek.bind fun kind => ?_
  split
  · exact settles_advance.bind fun _ => (isSingle_typeName _).settles.bind fun ty => .pure _
  · exact .pure _

theorem settles_parameter : Settles parameter parameter :=
  settles_expect.bind fun _ => settles_expect.bind fun _ =>
    (isSingle_typeName _).settles.bind fun _ => .pure _

theorem settles_parametersFrom : Settles (get >>= parametersFrom) (get >>= parametersFrom) := by
  intro tokens
  induction hn : tokens.length using Nat.strongRecOn generalizing tokens with
  | ind n ih =>
    rw [parametersFrom_round]
    refine (settles_parameter tokens).bind fun first rest hfirst => ?_
    have shorter := (takes_parameter.ok hfirst).2
    refine (settles_peek rest).bind fun kind middle hkind => ?_
    cases hkind
    split
    · refine (settles_advance rest).bind fun _ middle hmiddle => ?_
      cases hmiddle
      refine (ih rest.tail.length (by rw [List.length_tail]; omega) rest.tail rfl).bind ?_
      exact fun others last _ => Settles.pure _ _
    · exact Settles.pure _ _

theorem settles_parameters : Settles parameters parameters := by
  refine settles_peek.bind fun kind => ?_
  split
  · exact .pure _
  · exact settles_parametersFrom

section Statements

variable {few many : Nat}

theorem settles_declaration (le : few ≤ many) : Settles (declaration few) (declaration many) :=
  settles_advance.bind fun _ => settles_expect.bind fun _ => settles_ascription.bind fun _ =>
    settles_expect.bind fun _ => (settles_expression le).bind fun _ =>
      settles_expect.bind fun _ => .pure _

theorem settles_assignment (le : few ≤ many) : Settles (assignment few) (assignment many) :=
  settles_expect.bind fun _ => settles_expect.bind fun _ =>
    (settles_expression le).bind fun _ => settles_expect.bind fun _ => .pure _

theorem settles_returnValue (le : few ≤ many) : Settles (returnValue few) (returnValue many) :=
  settles_advance.bind fun _ => (settles_expression le).bind fun _ =>
    settles_expect.bind fun _ => .pure _

theorem settles_expressionStatement (le : few ≤ many) :
    Settles (expressionStatement few) (expressionStatement many) :=
  (settles_expression le).bind fun _ => settles_expect.bind fun _ => .pure _

theorem settles_word (kind : Kind) (node : Node) : Settles (word kind node) (word kind node) :=
  settles_expect.bind fun _ => settles_expect.bind fun _ => .pure _

variable {statement deeperStatement : Reader Node} {others deeperOthers : Reader Chain}

theorem settles_chain (le : few ≤ many) (takes : Takes 1 statement)
    (deeperTakes : Takes 1 deeperStatement) (h : Settles statement deeperStatement)
    (hothers : Settles others deeperOthers) :
    Settles (chain few statement others) (chain many deeperStatement deeperOthers) := by
  have hbody (stops : List Kind) := settles_body takes deeperTakes h stops
  refine (settles_disjunction le).bind fun condition => settles_expect.bind fun _ => ?_
  refine (hbody _).bind fun first => settles_peek.bind fun kind => ?_
  split
  · exact settles_advance.bind fun _ => hothers.bind fun _ => .pure _
  · refine settles_advance.bind fun _ => settles_expect.bind fun _ => ?_
    exact (hbody _).bind fun _ => settles_expect.bind fun _ => .pure _
  · exact settles_expect.bind fun _ => .pure _

theorem settles_whileLoop (le : few ≤ many) (takes : Takes 1 statement)
    (deeperTakes : Takes 1 deeperStatement) (h : Settles statement deeperStatement) :
    Settles (whileLoop few statement) (whileLoop many deeperStatement) :=
  settles_advance.bind fun _ => (settles_expression le).bind fun _ =>
    (settles_body takes deeperTakes h _).bind fun _ => settles_expect.bind fun _ => .pure _

theorem settles_function (takes : Takes 1 statement) (deeperTakes : Takes 1 deeperStatement)
    (h : Settles statement deeperStatement) :
    Settles (function statement) (function deeperStatement) :=
  settles_advance.bind fun _ => settles_expect.bind fun _ => settles_expect.bind fun _ =>
    settles_parameters.bind fun _ => settles_expect.bind fun _ =>
      settles_expect.bind fun _ => (isSingle_typeName _).settles.bind fun _ =>
        (settles_body takes deeperTakes h _).bind fun _ => settles_expect.bind fun _ => .pure _

/-- A token that can be gone on with is not at fault. -/
theorem SettlesAt.remaining_ne {α : Type} {reader deeper : Reader α} {tokens : List Token}
    (h : SettlesAt reader deeper tokens) {fault : Fault} {rest : List Token}
    (run : reader tokens = .error fault rest) (limited : fault ≠ .tooDeep) {other : List Token}
    (goes : ∀ {fault' rest'}, deeper other = .error fault' rest' → fault' = .tooDeep)
    (hother : other.head? = tokens.head?) :
    fault.remaining rest ≠ tokens := by
  intro hself
  obtain ⟨taken, htokens, hdeeper⟩ := h.error run limited
  rw [hself, List.self_eq_append_left] at htokens
  subst htokens
  obtain ⟨rest', hrun, -⟩ := hdeeper other (by rw [hself, hother])
  exact limited (goes hrun)

/-- Two tokens tell which of two readers goes on with a list.  This is settled too if the first
of them is not at fault. -/
theorem SettlesAt.of_two {α : Type} {reader deeper chosen deeperChosen : Reader α}
    {tokens : List Token} (h : SettlesAt chosen deeperChosen tokens) (takes : Takes 1 chosen)
    (hreader : reader tokens = chosen tokens)
    (hdeeper : ∀ other : List Token, headKind other = headKind tokens →
      headKind other.tail = headKind tokens.tail → deeper other = deeperChosen other)
    (hfault : ∀ fault rest, chosen tokens = .error fault rest → fault ≠ .tooDeep →
      fault.remaining rest ≠ tokens) : SettlesAt reader deeper tokens := by
  have same {taken rest other : List Token} (hne : taken ≠ []) (htokens : tokens = taken ++ rest)
      (hother : other.head? = rest.head?) :
      deeper (taken ++ other) = deeperChosen (taken ++ other) := by
    obtain ⟨token, taken, rfl⟩ := List.exists_cons_of_ne_nil hne
    subst htokens
    exact hdeeper _ rfl (headKind_eq_of_head? (head?_append_eq taken hother))
  rw [SettlesAt, hreader]
  cases hrun : chosen tokens with
  | ok a rest =>
      obtain ⟨taken, htokens, hsame⟩ := h.ok hrun
      have hne : taken ≠ [] := by
        rintro rfl
        have := (takes.ok hrun).2
        rw [htokens, List.nil_append] at this
        omega
      refine ⟨taken, htokens, fun other hother => ?_⟩
      rw [same hne htokens hother, hsame other hother]
  | error fault rest =>
      by_cases limited : fault = .tooDeep
      · exact .inl limited
      · obtain ⟨taken, htokens, hsame⟩ := h.error hrun limited
        have hne : taken ≠ [] := by
          rintro rfl
          exact hfault fault rest hrun limited htokens.symm
        refine .inr ⟨taken, htokens, fun other hother => ?_⟩
        rw [same hne htokens hother]
        exact hsame other hother

/-- An identifier is an expression by itself, for which any level left is enough. -/
theorem expression_name (budget : Nat) {token mark : Token} (hname : token.kind = .identifier)
    (hmark : mark.kind = .semicolon) :
    expression budget [token, mark] = .ok (.identifier token.lexeme) [mark] ∨
      expression budget [token, mark] = .error .tooDeep [token, mark] := by
  cases budget with
  | zero => exact .inr rfl
  | succ budget =>
      have hends : EndsExpression [mark] := endsExpression_of_kind hmark rfl (by decide)
      have hspans : Spans (Node.identifier token.lexeme).spelling [token, mark] [mark] :=
        spans_singleton.2 ⟨token, ⟨hname, rfl⟩, rfl⟩
      exact .inl (expression_eq_ok_iff.2 ⟨.identifier, Nat.succ_pos _, hspans, hends⟩)

theorem expressionStatement_name (budget : Nat) {token mark : Token}
    (hname : token.kind = .identifier) (hmark : mark.kind = .semicolon) {fault : Fault}
    {rest : List Token} (run : expressionStatement budget [token, mark] = .error fault rest) :
    fault = .tooDeep := by
  have hclosed : expect .semicolon .semicolonAfterExpression [mark] = .ok mark [] := if_pos hmark
  rcases expression_name budget hname hmark with hvalue | hvalue <;>
    simp only [expressionStatement, Step.bind_apply, hvalue, hclosed, Step.pure_apply,
      reduceCtorEq, EStateM.Result.error.injEq] at run
  exact run.1.symm

theorem assignment_name (budget : Nat) {token sign mark : Token}
    (hname : token.kind = .identifier) (hsign : sign.kind = .assign)
    (hmark : mark.kind = .semicolon) {fault : Fault} {rest : List Token}
    (run : assignment budget [token, sign, token, mark] = .error fault rest) :
    fault = .tooDeep := by
  have htaken : expect .identifier .expression [token, sign, token, mark] =
      .ok token [sign, token, mark] := if_pos hname
  have hassign : expect .assign .assignAfterVariable [sign, token, mark] =
      .ok sign [token, mark] := if_pos hsign
  have hclosed : expect .semicolon .semicolonAfterAssignment [mark] = .ok mark [] := if_pos hmark
  rcases expression_name budget hname hmark with hvalue | hvalue <;>
    simp only [assignment, Step.bind_apply, htaken, hassign, hvalue, hclosed, Step.pure_apply,
      reduceCtorEq, EStateM.Result.error.injEq] at run
  exact run.1.symm

theorem settles_statementWith (le : few ≤ many) (takes : Takes 1 statement)
    (deeperTakes : Takes 1 deeperStatement) (h : Settles statement deeperStatement)
    (hothers : Settles others deeperOthers) :
    Settles (statementWith few statement others)
      (statementWith many deeperStatement deeperOthers) := by
  intro tokens
  by_cases hname : headKind tokens = .identifier
  · obtain ⟨token, rest, rfl⟩ : ∃ token rest, tokens = token :: rest := by
      cases tokens with
      | nil => cases hname
      | cons token rest => exact ⟨token, rest, rfl⟩
    -- `x;` and `x = x;` are statements, so it takes a second token to find fault
    have hmark : Token.kind ⟨.semicolon, ";", 1⟩ = .semicolon := rfl
    have hsign : Token.kind ⟨.assign, "=", 1⟩ = .assign := rfl
    by_cases hassign : headKind rest = .assign
    · have hchosen := settles_assignment le (token :: rest)
      refine hchosen.of_two (takes_assignment few) ?_ (fun other hkind htail => ?_) ?_
      · rw [statementWith_identifier hname, List.tail_cons, if_pos hassign]
      · rw [statementWith_identifier (hkind.trans hname), htail, List.tail_cons, if_pos hassign]
      · intro fault rest' run limited
        exact hchosen.remaining_ne run limited (assignment_name many hname hsign hmark) rfl
    · have hchosen := settles_expressionStatement le (token :: rest)
      refine hchosen.of_two (takes_expressionStatement few) ?_ (fun other hkind htail => ?_) ?_
      · rw [statementWith_identifier hname, List.tail_cons, if_neg hassign]
      · rw [statementWith_identifier (hkind.trans hname), htail, List.tail_cons, if_neg hassign]
      · intro fault rest' run limited
        exact hchosen.remaining_ne run limited (expressionStatement_name many hname hmark) rfl
  · refine (settles_peek tokens).bind fun kind middle hkind => ?_
    cases hkind
    split
    · exact settles_declaration le tokens
    · exact (settles_advance.bind fun _ =>
        (settles_chain le takes deeperTakes h hothers).bind fun _ => .pure _) tokens
    · exact settles_whileLoop le takes deeperTakes h tokens
    · exact settles_word _ _ tokens
    · exact settles_word _ _ tokens
    · exact settles_function takes deeperTakes h tokens
    · exact settles_returnValue le tokens
    · contradiction
    · exact settles_expressionStatement le tokens

end Statements

theorem settles_nested {few many : Nat} (le : few ≤ many) :
    Settles (nestedStatement few) (nestedStatement many) ∧
      Settles (nestedChain few) (nestedChain many) := by
  induction few generalizing many with
  | zero => exact ⟨.tooDeep _, .tooDeep _⟩
  | succ few ih =>
      cases many with
      | zero => omega
      | succ many =>
          have le := Nat.le_of_succ_le_succ le
          have takes := (takes_nested few).1
          have deeperTakes := (takes_nested many).1
          exact ⟨settles_statementWith le takes deeperTakes (ih le).1 (ih le).2,
            settles_chain le takes deeperTakes (ih le).1 (ih le).2⟩

/-- Reading a statement is settled by the tokens that it takes and by the token after them, however
many levels of nesting are left. -/
theorem settles_statement {few many : Nat} (le : few ≤ many) :
    Settles (statement few) (statement many) :=
  settles_statementWith le (takes_nested few).1 (takes_nested many).1 (settles_nested le).1
    (settles_nested le).2

end Script.Grammar

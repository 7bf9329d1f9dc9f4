import Script.Grammar.Parse
/-!
# Progress of readers

Every reader leaves an end of the list that it was given, and readers of expressions and of
statements take at least one token when they succeed.  Therefore the bounds on the number of
rounds are never used up before the tokens are: a repetition with a sufficient bound does the same
as one whose bound is the list of tokens at hand.
-/

namespace Script.Grammar

variable {α β : Type}

/-- The reader leaves an end of the list and takes at least `n` tokens if it succeeds. -/
def Takes (n : Nat) (reader : Reader α) : Prop :=
  ∀ tokens,
    match reader tokens with
    | .ok _ rest => rest <:+ tokens ∧ rest.length + n ≤ tokens.length
    | .error _ rest => rest <:+ tokens

namespace Takes

theorem ok {n : Nat} {reader : Reader α} (h : Takes n reader) {tokens rest : List Token} {a : α}
    (run : reader tokens = .ok a rest) : rest <:+ tokens ∧ rest.length + n ≤ tokens.length := by
  have := h tokens
  rwa [run] at this

theorem error {n : Nat} {reader : Reader α} (h : Takes n reader) {tokens rest : List Token}
    {fault : Fault} (run : reader tokens = .error fault rest) : rest <:+ tokens := by
  have := h tokens
  rwa [run] at this

theorem pure (a : α) : Takes 0 (pure a : Reader α) := fun tokens =>
  ⟨List.suffix_refl tokens, Nat.le_refl _⟩

theorem throw (n : Nat) (fault : Fault) : Takes n (throw fault : Reader α) := fun tokens =>
  List.suffix_refl tokens

theorem get : Takes 0 (get : Reader (List Token)) := fun tokens =>
  ⟨List.suffix_refl tokens, Nat.le_refl _⟩

theorem bind {m n k : Nat} {first : Reader α} {next : α → Reader β} (hfirst : Takes m first)
    (hnext : ∀ a, Takes n (next a)) (hk : k ≤ m + n) : Takes k (first >>= next) := by
  intro tokens
  rw [Step.bind_apply]
  cases hrun : first tokens with
  | error fault rest => exact hfirst.error hrun
  | ok a middle =>
    have htaken := hfirst.ok hrun
    simp only
    cases hrest : next a middle with
    | error fault rest => exact ((hnext a).error hrest).trans htaken.1
    | ok b rest =>
      have hmore := (hnext a).ok hrest
      exact ⟨hmore.1.trans htaken.1, by omega⟩

theorem ite {n : Nat} {p : Prop} [Decidable p] {first second : Reader α} (hfirst : Takes n first)
    (hsecond : Takes n second) : Takes n (if p then first else second) := by
  split
  · exact hfirst
  · exact hsecond

end Takes

theorem takes_peek : Takes 0 peek := fun tokens => ⟨List.suffix_refl tokens, Nat.le_refl _⟩

theorem takes_advance : Takes 0 advance := fun tokens =>
  ⟨List.tail_suffix tokens, by simp⟩

theorem takes_expect (kind : Kind) (what : Expectation) : Takes 1 (expect kind what) := by
  intro tokens
  cases tokens with
  | nil => exact List.suffix_refl _
  | cons token rest =>
    unfold expect
    by_cases h : token.kind = kind <;> simp [h, List.suffix_cons]

theorem takes_typeName (what : Expectation) : Takes 1 (typeName what) := by
  refine (takes_expect .identifier what).bind (n := 0) (fun token => ?_) (Nat.le_refl _)
  split
  · exact .pure _
  · exact .throw _ _

theorem takes_primary : Takes 1 primary := by
  intro tokens
  cases tokens with
  | nil => exact List.suffix_refl _
  | cons token rest =>
    unfold primary
    cases h : operand token <;> simp [h, List.suffix_cons]

theorem takes_unaryWith {inner : Reader Node} (h : Takes 1 inner) : Takes 1 (unaryWith inner) := by
  refine takes_peek.bind (n := 1) (fun kind => ?_) (Nat.le_refl _)
  split
  · exact takes_primary
  · exact takes_advance.bind (n := 1)
      (fun _ => h.bind (n := 0) (fun _ => .pure _) (Nat.le_refl _)) (Nat.le_refl _)

theorem takes_unary (budget : Nat) : Takes 1 (unary budget) := by
  induction budget with
  | zero => exact takes_unaryWith (.throw _ _)
  | succ budget ih => exact takes_unaryWith ih

theorem takes_operatorsFrom {level : Nat} {operand : Reader Node} (h : Takes 1 operand)
    (bound : List Token) (left : Node) : Takes 0 (operatorsFrom level operand bound left) := by
  induction bound generalizing left with
  | nil => exact .pure _
  | cons _ bound ih =>
    refine takes_peek.bind (n := 0) (fun kind => ?_) (Nat.le_refl _)
    split
    · exact .pure _
    · exact takes_advance.bind (n := 0)
        (fun _ => h.bind (n := 0) (fun _ => ih _) (Nat.zero_le _)) (Nat.le_refl _)

theorem takes_operators {level : Nat} {operand : Reader Node} (h : Takes 1 operand) :
    Takes 1 (operators level operand) :=
  h.bind (n := 0)
    (fun _ => Takes.get.bind (n := 0) (fun _ => takes_operatorsFrom h _ _) (Nat.le_refl _))
    (Nat.le_refl _)

theorem takes_upTo (budget level : Nat) : Takes 1 (upTo budget level) := by
  induction level with
  | zero => exact takes_unary budget
  | succ level ih => exact takes_operators ih

theorem takes_disjunction (budget : Nat) : Takes 1 (disjunction budget) :=
  takes_upTo budget BinaryOp.loosest

theorem takes_expression (budget : Nat) : Takes 1 (expression budget) := by
  induction budget with
  | zero => exact .throw _ _
  | succ budget ih =>
    refine (takes_disjunction budget).bind (n := 0) (fun condition => ?_) (Nat.le_refl _)
    refine takes_peek.bind (n := 0) (fun kind => .ite ?_ (.pure _)) (Nat.le_refl _)
    refine takes_advance.bind (n := 0) (fun _ => ?_) (Nat.le_refl _)
    refine ih.bind (n := 0) (fun _ => ?_) (Nat.zero_le _)
    refine (takes_expect _ _).bind (n := 0) (fun _ => ?_) (Nat.zero_le _)
    exact ih.bind (n := 0) (fun _ => .pure _) (Nat.zero_le _)

theorem takes_bodyFrom {statement : Reader Node} (h : Takes 1 statement) (stops : List Kind)
    (bound : List Token) : Takes 0 (bodyFrom statement stops bound) := by
  induction bound with
  | nil => exact .pure _
  | cons _ bound ih =>
    refine takes_peek.bind (n := 0) (fun kind => .ite (.pure _) ?_) (Nat.le_refl _)
    exact h.bind (n := 0) (fun _ => ih.bind (n := 0) (fun _ => .pure _) (Nat.le_refl _))
      (Nat.zero_le _)

theorem takes_body {statement : Reader Node} (h : Takes 1 statement) (stops : List Kind) :
    Takes 0 (body statement stops) :=
  Takes.get.bind (n := 0) (fun _ => takes_bodyFrom h stops _) (Nat.le_refl _)

theorem takes_ascription : Takes 0 ascription := by
  refine takes_peek.bind (n := 0) (fun kind => .ite ?_ (.pure _)) (Nat.le_refl _)
  refine takes_advance.bind (n := 0) (fun _ => ?_) (Nat.le_refl _)
  exact (takes_typeName _).bind (n := 0) (fun _ => .pure _) (Nat.zero_le _)

theorem takes_declaration (budget : Nat) : Takes 1 (declaration budget) := by
  refine takes_advance.bind (n := 1) (fun _ => ?_) (Nat.le_refl _)
  refine (takes_expect _ _).bind (n := 0) (fun _ => ?_) (Nat.le_refl _)
  refine takes_ascription.bind (n := 0) (fun _ => ?_) (Nat.le_refl _)
  refine (takes_expect _ _).bind (n := 0) (fun _ => ?_) (Nat.zero_le _)
  refine (takes_expression budget).bind (n := 0) (fun _ => ?_) (Nat.zero_le _)
  exact (takes_expect _ _).bind (n := 0) (fun _ => .pure _) (Nat.zero_le _)

theorem takes_assignment (budget : Nat) : Takes 1 (assignment budget) := by
  refine (takes_expect _ _).bind (n := 0) (fun _ => ?_) (Nat.le_refl _)
  refine (takes_expect _ _).bind (n := 0) (fun _ => ?_) (Nat.zero_le _)
  refine (takes_expression budget).bind (n := 0) (fun _ => ?_) (Nat.zero_le _)
  exact (takes_expect _ _).bind (n := 0) (fun _ => .pure _) (Nat.zero_le _)

theorem takes_chain (budget : Nat) {statement : Reader Node} {others : Reader Chain}
    (hstatement : Takes 1 statement) (hothers : Takes 1 others) :
    Takes 1 (chain budget statement others) := by
  refine (takes_disjunction budget).bind (n := 0) (fun _ => ?_) (Nat.le_refl _)
  refine (takes_expect _ _).bind (n := 0) (fun _ => ?_) (Nat.zero_le _)
  refine (takes_body hstatement _).bind (n := 0) (fun _ => ?_) (Nat.le_refl _)
  refine takes_peek.bind (n := 0) (fun kind => ?_) (Nat.le_refl _)
  split
  · refine takes_advance.bind (n := 0) (fun _ => ?_) (Nat.le_refl _)
    exact hothers.bind (n := 0) (fun _ => .pure _) (Nat.zero_le _)
  · refine takes_advance.bind (n := 0) (fun _ => ?_) (Nat.le_refl _)
    refine (takes_expect _ _).bind (n := 0) (fun _ => ?_) (Nat.zero_le _)
    refine (takes_body hstatement _).bind (n := 0) (fun _ => ?_) (Nat.le_refl _)
    exact (takes_expect _ _).bind (n := 0) (fun _ => .pure _) (Nat.zero_le _)
  · exact (takes_expect _ _).bind (n := 0) (fun _ => .pure _) (Nat.zero_le _)

theorem takes_whileLoop (budget : Nat) {statement : Reader Node} (h : Takes 1 statement) :
    Takes 1 (whileLoop budget statement) := by
  refine takes_advance.bind (n := 1) (fun _ => ?_) (Nat.le_refl _)
  refine (takes_expression budget).bind (n := 0) (fun _ => ?_) (Nat.le_refl _)
  refine (takes_body h _).bind (n := 0) (fun _ => ?_) (Nat.le_refl _)
  exact (takes_expect _ _).bind (n := 0) (fun _ => .pure _) (Nat.zero_le _)

theorem takes_parameter : Takes 1 parameter := by
  refine (takes_expect _ _).bind (n := 0) (fun _ => ?_) (Nat.le_refl _)
  refine (takes_expect _ _).bind (n := 0) (fun _ => ?_) (Nat.zero_le _)
  exact (takes_typeName _).bind (n := 0) (fun _ => .pure _) (Nat.zero_le _)

theorem takes_parametersFrom (bound : List Token) : Takes 0 (parametersFrom bound) := by
  induction bound with
  | nil => exact .throw _ _
  | cons _ bound ih =>
    refine takes_parameter.bind (n := 0) (fun _ => ?_) (Nat.zero_le _)
    refine takes_peek.bind (n := 0) (fun kind => .ite ?_ (.pure _)) (Nat.le_refl _)
    refine takes_advance.bind (n := 0) (fun _ => ?_) (Nat.le_refl _)
    exact ih.bind (n := 0) (fun _ => .pure _) (Nat.le_refl _)

theorem takes_parameters : Takes 0 parameters := by
  refine takes_peek.bind (n := 0) (fun kind => .ite (.pure _) ?_) (Nat.le_refl _)
  exact Takes.get.bind (n := 0) (fun _ => takes_parametersFrom _) (Nat.le_refl _)

theorem takes_function {statement : Reader Node} (h : Takes 1 statement) :
    Takes 1 (function statement) := by
  refine takes_advance.bind (n := 1) (fun _ => ?_) (Nat.le_refl _)
  refine (takes_expect _ _).bind (n := 0) (fun _ => ?_) (Nat.le_refl _)
  refine (takes_expect _ _).bind (n := 0) (fun _ => ?_) (Nat.zero_le _)
  refine takes_parameters.bind (n := 0) (fun _ => ?_) (Nat.le_refl _)
  refine (takes_expect _ _).bind (n := 0) (fun _ => ?_) (Nat.zero_le _)
  refine (takes_expect _ _).bind (n := 0) (fun _ => ?_) (Nat.zero_le _)
  refine (takes_typeName _).bind (n := 0) (fun _ => ?_) (Nat.zero_le _)
  refine (takes_body h _).bind (n := 0) (fun _ => ?_) (Nat.le_refl _)
  exact (takes_expect _ _).bind (n := 0) (fun _ => .pure _) (Nat.zero_le _)

theorem takes_word (kind : Kind) (node : Node) : Takes 1 (word kind node) := by
  refine (takes_expect _ _).bind (n := 0) (fun _ => ?_) (Nat.le_refl _)
  exact (takes_expect _ _).bind (n := 0) (fun _ => .pure _) (Nat.zero_le _)

theorem takes_returnValue (budget : Nat) : Takes 1 (returnValue budget) := by
  refine takes_advance.bind (n := 1) (fun _ => ?_) (Nat.le_refl _)
  refine (takes_expression budget).bind (n := 0) (fun _ => ?_) (Nat.le_refl _)
  exact (takes_expect _ _).bind (n := 0) (fun _ => .pure _) (Nat.zero_le _)

theorem takes_expressionStatement (budget : Nat) : Takes 1 (expressionStatement budget) := by
  refine (takes_expression budget).bind (n := 0) (fun _ => ?_) (Nat.le_refl _)
  exact (takes_expect _ _).bind (n := 0) (fun _ => .pure _) (Nat.zero_le _)

theorem takes_statementWith (budget : Nat) {statement : Reader Node} {others : Reader Chain}
    (hstatement : Takes 1 statement) (hothers : Takes 1 others) :
    Takes 1 (statementWith budget statement others) := by
  refine takes_peek.bind (n := 1) (fun kind => ?_) (Nat.le_refl _)
  split
  · exact takes_declaration budget
  · refine takes_advance.bind (n := 1) (fun _ => ?_) (Nat.le_refl _)
    exact (takes_chain budget hstatement hothers).bind (n := 0) (fun _ => .pure _) (Nat.le_refl _)
  · exact takes_whileLoop budget hstatement
  · exact takes_word _ _
  · exact takes_word _ _
  · exact takes_function hstatement
  · exact takes_returnValue budget
  · refine Takes.get.bind (n := 1) (fun tokens => .ite ?_ ?_) (Nat.le_refl _)
    · exact takes_assignment budget
    · exact takes_expressionStatement budget
  · exact takes_expressionStatement budget

theorem takes_nested (budget : Nat) :
    Takes 1 (nestedStatement budget) ∧ Takes 1 (nestedChain budget) := by
  induction budget with
  | zero => exact ⟨.throw _ _, .throw _ _⟩
  | succ budget ih => exact ⟨takes_statementWith budget ih.1 ih.2, takes_chain budget ih.1 ih.2⟩

theorem takes_statement (budget : Nat) : Takes 1 (statement budget) :=
  takes_statementWith budget (takes_nested budget).1 (takes_nested budget).2

theorem operatorsFrom_nil (level : Nat) (operand : Reader Node) (bound : List Token)
    (left : Node) : operatorsFrom level operand bound left [] = .ok left [] := by
  cases bound <;> rfl

theorem operatorsFrom_congr {level : Nat} {operand : Reader Node} (h : Takes 1 operand)
    (bound bound' tokens : List Token) (left : Node) (hbound : tokens.length ≤ bound.length)
    (hbound' : tokens.length ≤ bound'.length) :
    operatorsFrom level operand bound left tokens =
      operatorsFrom level operand bound' left tokens := by
  induction bound generalizing bound' tokens left with
  | nil =>
    obtain rfl : tokens = [] := List.length_eq_zero_iff.1 (by simpa using hbound)
    simp only [operatorsFrom_nil]
  | cons _ bound ih =>
    cases bound' with
    | nil =>
      obtain rfl : tokens = [] := List.length_eq_zero_iff.1 (by simpa using hbound')
      simp only [operatorsFrom_nil]
    | cons _ bound' =>
      simp only [List.length_cons] at hbound hbound'
      simp only [operatorsFrom, Step.bind_apply, peek_apply]
      cases operatorAt level (headKind tokens) with
      | none => rfl
      | some op =>
        simp only [Step.bind_apply, advance_apply]
        cases hrun : operand tokens.tail with
        | error fault rest => rfl
        | ok right rest =>
          have := (h.ok hrun).2
          rw [List.length_tail] at this
          exact ih bound' rest (.binary op left right) (by omega) (by omega)

/-- One round of a chain of operators, told without bounds. -/
theorem operatorsFrom_self {level : Nat} {operand : Reader Node} (h : Takes 1 operand)
    (left : Node) (tokens : List Token) :
    operatorsFrom level operand tokens left tokens =
      match operatorAt level (headKind tokens) with
      | none => .ok left tokens
      | some op =>
        match operand tokens.tail with
        | .ok right rest => operatorsFrom level operand rest (.binary op left right) rest
        | .error fault rest => .error fault rest := by
  cases tokens with
  | nil => rfl
  | cons token tokens =>
    conv => lhs; unfold operatorsFrom
    simp only [Step.bind_apply, peek_apply]
    cases operatorAt level (headKind (token :: tokens)) with
    | none => rfl
    | some op =>
      simp only [Step.bind_apply, advance_apply, List.tail_cons]
      cases hrun : operand tokens with
      | error fault rest => rfl
      | ok right rest =>
        have := (h.ok hrun).2
        exact operatorsFrom_congr h _ _ _ _ (by omega) (Nat.le_refl _)

theorem bodyFrom_nil (statement : Reader Node) (stops : List Kind) (bound : List Token) :
    bodyFrom statement stops bound [] = .ok [] [] := by
  cases bound with
  | nil => rfl
  | cons _ _ => simp [bodyFrom, headKind]

theorem bodyFrom_congr {statement : Reader Node} (h : Takes 1 statement) (stops : List Kind)
    (bound bound' tokens : List Token) (hbound : tokens.length ≤ bound.length)
    (hbound' : tokens.length ≤ bound'.length) :
    bodyFrom statement stops bound tokens = bodyFrom statement stops bound' tokens := by
  induction bound generalizing bound' tokens with
  | nil =>
    obtain rfl : tokens = [] := List.length_eq_zero_iff.1 (by simpa using hbound)
    simp only [bodyFrom_nil]
  | cons _ bound ih =>
    cases bound' with
    | nil =>
      obtain rfl : tokens = [] := List.length_eq_zero_iff.1 (by simpa using hbound')
      simp only [bodyFrom_nil]
    | cons _ bound' =>
      simp only [List.length_cons] at hbound hbound'
      simp only [bodyFrom, Step.bind_apply, peek_apply]
      split
      · rfl
      · simp only [Step.bind_apply]
        cases hrun : statement tokens with
        | error fault rest => rfl
        | ok node rest =>
          have := (h.ok hrun).2
          simp only [ih bound' rest (by omega) (by omega)]

/-- The first step of reading a body, told without bounds. -/
theorem body_apply {statement : Reader Node} (h : Takes 1 statement) (stops : List Kind)
    (tokens : List Token) :
    body statement stops tokens =
      if headKind tokens = .eof ∨ headKind tokens ∈ stops then .ok [] tokens
      else
        match statement tokens with
        | .error fault rest => .error fault rest
        | .ok node rest =>
          match body statement stops rest with
          | .error fault rest => .error fault rest
          | .ok nodes rest => .ok (node :: nodes) rest := by
  simp only [body, Step.bind_apply, Step.get_apply]
  cases tokens with
  | nil => simp [bodyFrom, headKind]
  | cons token tokens =>
    conv => lhs; unfold bodyFrom
    simp only [Step.bind_apply, peek_apply]
    split
    · rfl
    · simp only [Step.bind_apply]
      cases hrun : statement (token :: tokens) with
      | error fault rest => rfl
      | ok node rest =>
        have := (h.ok hrun).2
        rw [List.length_cons] at this
        simp only [bodyFrom_congr h stops tokens rest rest (by omega) (Nat.le_refl _)]
        cases bodyFrom statement stops rest rest <;> rfl

theorem parametersFrom_congr (bound bound' tokens : List Token)
    (hbound : tokens.length ≤ bound.length) (hbound' : tokens.length ≤ bound'.length) :
    parametersFrom bound tokens = parametersFrom bound' tokens := by
  have empty (bound : List Token) :
      parametersFrom bound [] = .error (.expected .parameterName) [] := by
    cases bound <;> rfl
  induction bound generalizing bound' tokens with
  | nil =>
    obtain rfl : tokens = [] := List.length_eq_zero_iff.1 (by simpa using hbound)
    simp only [empty]
  | cons _ bound ih =>
    cases bound' with
    | nil =>
      obtain rfl : tokens = [] := List.length_eq_zero_iff.1 (by simpa using hbound')
      simp only [empty]
    | cons _ bound' =>
      simp only [List.length_cons] at hbound hbound'
      simp only [parametersFrom, Step.bind_apply]
      cases hrun : parameter tokens with
      | error fault rest => rfl
      | ok first rest =>
        have := (takes_parameter.ok hrun).2
        simp only [peek_apply]
        split
        · simp only [Step.bind_apply, advance_apply]
          rw [ih bound' rest.tail (by rw [List.length_tail]; omega)
            (by rw [List.length_tail]; omega)]
        · rfl

theorem statementsFrom_congr (limit : Nat) (bound bound' tokens : List Token)
    (hbound : tokens.length ≤ bound.length) (hbound' : tokens.length ≤ bound'.length) :
    statementsFrom limit bound tokens = statementsFrom limit bound' tokens := by
  have empty (bound : List Token) : statementsFrom limit bound [] = ([], none) := by
    cases bound <;> rfl
  induction bound generalizing bound' tokens with
  | nil =>
    obtain rfl : tokens = [] := List.length_eq_zero_iff.1 (by simpa using hbound)
    simp only [empty]
  | cons _ bound ih =>
    cases tokens with
    | nil => simp only [empty]
    | cons token tokens =>
      cases bound' with
      | nil => simp at hbound'
      | cons _ bound' =>
        simp only [List.length_cons] at hbound hbound'
        simp only [statementsFrom]
        cases hrun : statement limit (token :: tokens) with
        | error fault rest => rfl
        | ok node rest =>
          have := ((takes_statement limit).ok hrun).2
          rw [List.length_cons] at this
          simp only [ih bound' rest (by omega) (by omega)]

/-- The first step of reading a program, told without bounds. -/
theorem statementsFrom_self (limit : Nat) (token : Token) (tokens : List Token) :
    statementsFrom limit (token :: tokens) (token :: tokens) =
      match statement limit (token :: tokens) with
      | .ok node rest =>
        (node :: (statementsFrom limit rest rest).1, (statementsFrom limit rest rest).2)
      | .error fault rest => ([], some (fault, rest)) := by
  conv => lhs; unfold statementsFrom
  cases hrun : statement limit (token :: tokens) with
  | error fault rest => rfl
  | ok node rest =>
    have := ((takes_statement limit).ok hrun).2
    rw [List.length_cons] at this
    simp only [statementsFrom_congr limit tokens rest rest (by omega) (Nat.le_refl _)]

end Script.Grammar

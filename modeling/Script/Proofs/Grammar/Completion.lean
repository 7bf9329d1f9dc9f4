import Script.Proofs.Grammar.Lookahead
/-!
# What has been read can be completed

A reader finds fault with a token only after it has taken the beginning of something that it is
meant for.  So up to the fault the tokens can be gone on with: whatever is open, an expression, a
body or the links of an `if`, can be closed.

What a reader is meant for is given by the terminals of its results.  In the middle of a reader it
is what is left to read after the terminals that have been read.
-/

namespace Script

/-- A statement that can be read where enough levels of nesting are left for it. -/
structure Node.IsLegible (node : Node) : Prop where
  shape : node.IsStatement
  separated : node.IsSeparated

theorem Node.IsLegible.isReadable {node : Node} (h : node.IsLegible) {limit : Nat}
    (depth_lt : node.depth < limit) : node.IsReadable limit :=
  ⟨h.shape, depth_lt, h.separated⟩

namespace Grammar

abbrev Language (α : Type) := α → List Terminal → Prop

def Language.after {α : Type} (language : Language α) (before : List Terminal) : Language α :=
  fun a terminals => language a (before ++ terminals)

theorem Language.after_after {α : Type} (language : Language α) (first second : List Terminal) :
    (language.after first).after second = language.after (first ++ second) := by
  funext a terminals
  rw [after, after, after, List.append_assoc]

def exactly {α : Type} (expected : List Terminal) : Language α := fun _ terminals =>
  terminals = expected

/-- On `tokens` the reader takes terminals of the language, or the beginning of such terminals
before it finds fault with a token. -/
def KeepsAt {α : Type} (language : Language α) (reader : Reader α) (tokens : List Token) : Prop :=
  match reader tokens with
  | .ok a rest => ∃ terminals, language a terminals ∧ Spans terminals tokens rest
  | .error fault rest =>
    fault = .tooDeep ∨ ∃ a before after, language a (before ++ after) ∧
      Spans before tokens (fault.remaining rest)

/-- The reader keeps to a language, which has at least one member. -/
structure Keeps {α : Type} (language : Language α) (reader : Reader α) : Prop where
  inhabited : ∃ a terminals, language a terminals
  keeps : ∀ tokens, KeepsAt language reader tokens

section Combinators

variable {α β : Type} {language : Language β} {between : Language α}

theorem KeepsAt.ok {reader : Reader β} {tokens : List Token}
    (h : KeepsAt language reader tokens) {b : β} {rest : List Token}
    (run : reader tokens = .ok b rest) :
    ∃ terminals, language b terminals ∧ Spans terminals tokens rest := by
  rwa [KeepsAt, run] at h

theorem KeepsAt.error {reader : Reader β} {tokens : List Token}
    (h : KeepsAt language reader tokens) {fault : Fault} {rest : List Token}
    (run : reader tokens = .error fault rest) (limited : fault ≠ .tooDeep) :
    ∃ b before after, language b (before ++ after) ∧
      Spans before tokens (fault.remaining rest) := by
  rw [KeepsAt, run] at h
  exact h.resolve_left limited

theorem KeepsAt.weaken {weaker : Language β} {reader : Reader β} {tokens : List Token}
    (h : KeepsAt language reader tokens)
    (hweaker : ∀ b terminals, language b terminals → weaker b terminals) :
    KeepsAt weaker reader tokens := by
  rw [KeepsAt]
  cases hrun : reader tokens with
  | ok b rest =>
      obtain ⟨terminals, hlanguage, hspans⟩ := h.ok hrun
      exact ⟨terminals, hweaker _ _ hlanguage, hspans⟩
  | error fault rest =>
      by_cases limited : fault = .tooDeep
      · exact .inl limited
      · obtain ⟨b, before, after, hlanguage, hspans⟩ := h.error hrun limited
        exact .inr ⟨b, before, after, hweaker _ _ hlanguage, hspans⟩

theorem Keeps.pure {b : β} (h : language b []) : Keeps language (pure b) :=
  ⟨⟨b, [], h⟩, fun _ => ⟨[], h, spans_nil.2 rfl⟩⟩

theorem Keeps.tooDeep (inhabited : ∃ b terminals, language b terminals) :
    Keeps language (throw .tooDeep) :=
  ⟨inhabited, fun _ => .inl rfl⟩

theorem Keeps.expected (inhabited : ∃ b terminals, language b terminals) (what : Expectation) :
    Keeps language (throw (.expected what)) := by
  refine ⟨inhabited, fun tokens => .inr ?_⟩
  obtain ⟨b, terminals, h⟩ := inhabited
  exact ⟨b, [], terminals, h, spans_nil.2 rfl⟩

/-- What is left to read has to be possible after all that the first reader is meant for, since the
first reader may find fault with a token too. -/
theorem KeepsAt.bind_of_run {first : Reader α} {next : α → Reader β} {tokens : List Token}
    (hfirst : KeepsAt between first tokens)
    (inhabited : ∀ a terminals, between a terminals → ∃ b after, language.after terminals b after)
    (hnext : ∀ a terminals middle, first tokens = .ok a middle → between a terminals →
      KeepsAt (language.after terminals) (next a) middle) :
    KeepsAt language (first >>= next) tokens := by
  rw [KeepsAt, Step.bind_apply]
  cases hrun : first tokens with
  | error fault rest =>
      by_cases limited : fault = .tooDeep
      · exact .inl limited
      · obtain ⟨a, before, after, hbetween, hspans⟩ := hfirst.error hrun limited
        obtain ⟨b, others, hothers⟩ := inhabited a _ hbetween
        rw [Language.after, List.append_assoc] at hothers
        exact .inr ⟨b, before, after ++ others, hothers, hspans⟩
  | ok a middle =>
      obtain ⟨terminals, hbetween, hspans⟩ := hfirst.ok hrun
      have hafter := hnext a terminals middle hrun hbetween
      simp only
      cases hrest : next a middle with
      | error fault rest =>
          by_cases limited : fault = .tooDeep
          · exact .inl limited
          · obtain ⟨b, before, after, hlanguage, hmore⟩ := hafter.error hrest limited
            rw [Language.after, ← List.append_assoc] at hlanguage
            exact .inr ⟨b, terminals ++ before, after, hlanguage,
              spans_append.2 ⟨middle, hspans, hmore⟩⟩
      | ok b rest =>
          obtain ⟨others, hlanguage, hmore⟩ := hafter.ok hrest
          exact ⟨terminals ++ others, hlanguage, spans_append.2 ⟨middle, hspans, hmore⟩⟩

theorem KeepsAt.bind {first : Reader α} {next : α → Reader β} {tokens : List Token}
    (hfirst : KeepsAt between first tokens)
    (hnext : ∀ a terminals, between a terminals → Keeps (language.after terminals) (next a)) :
    KeepsAt language (first >>= next) tokens :=
  hfirst.bind_of_run (fun a terminals h => (hnext a terminals h).inhabited)
    fun a terminals middle _ h => (hnext a terminals h).keeps middle

theorem Keeps.bind {first : Reader α} {next : α → Reader β} (hfirst : Keeps between first)
    (hnext : ∀ a terminals, between a terminals → Keeps (language.after terminals) (next a)) :
    Keeps language (first >>= next) := by
  constructor
  · obtain ⟨a, terminals, h⟩ := hfirst.inhabited
    obtain ⟨b, others, hothers⟩ := (hnext a terminals h).inhabited
    exact ⟨b, _, hothers⟩
  · exact fun tokens => (hfirst.keeps tokens).bind hnext

theorem Keeps.peek_bind {next : Kind → Reader β} (inhabited : ∃ b terminals, language b terminals)
    (hnext : ∀ tokens, KeepsAt language (next (headKind tokens)) tokens) :
    Keeps language (peek >>= next) :=
  ⟨inhabited, hnext⟩

theorem IsSingle.keeps {reader : Reader β} (h : IsSingle reader)
    (inhabited : ∃ b terminals, language b terminals)
    (hok : ∀ {b tokens rest}, reader tokens = .ok b rest →
      ∃ terminals, language b terminals ∧ Spans terminals tokens rest) :
    Keeps language reader := by
  refine ⟨inhabited, fun tokens => ?_⟩
  rw [KeepsAt]
  cases hrun : reader tokens with
  | ok b rest => exact hok hrun
  | error fault rest =>
      obtain ⟨b, terminals, hlanguage⟩ := inhabited
      exact .inr ⟨b, [], terminals, hlanguage, spans_nil.2 (h.remaining_eq hrun).symm⟩

end Combinators

theorem keepsAt_advance {kind : Kind} {tokens : List Token} (hkind : headKind tokens = kind)
    (hne : kind ≠ .eof) : KeepsAt (exactly [.mark kind]) advance tokens :=
  ⟨_, rfl, (spans_mark_cons hne).2 ⟨hkind, spans_nil.2 rfl⟩⟩

theorem keeps_mark {kind : Kind} (what : Expectation) :
    Keeps (exactly [.mark kind]) (expect kind what) := by
  refine (isSingle_expect kind what).keeps ⟨⟨kind, "", 1⟩, _, rfl⟩ fun run => ⟨_, rfl, ?_⟩
  obtain ⟨hkind, htokens⟩ := expect_eq_ok_iff.1 run
  exact spans_singleton.2 ⟨_, hkind, htokens⟩

/-- A word or mark that is taken for its kind alone. -/
theorem Keeps.mark_bind {β : Type} {language : Language β} {kind : Kind} {what : Expectation}
    {next : Reader β} (h : Keeps (language.after [.mark kind]) next) :
    Keeps language (expect kind what >>= fun _ => next) :=
  (keeps_mark what).bind fun _ _ hmark => hmark ▸ h

/-- A word or mark that is left out, since its kind has been looked at already. -/
theorem KeepsAt.advance_bind {β : Type} {language : Language β} {kind : Kind} {tokens : List Token}
    (hkind : headKind tokens = kind) (hne : kind ≠ .eof) {next : Reader β}
    (h : Keeps (language.after [.mark kind]) next) :
    KeepsAt language (advance >>= fun _ => next) tokens :=
  (keepsAt_advance hkind hne).bind fun _ _ hmark => hmark ▸ h

theorem keeps_name (what : Expectation) :
    Keeps (fun token terminals => terminals = [.identifier token.lexeme])
      (expect .identifier what) := by
  refine (isSingle_expect _ what).keeps ⟨⟨.identifier, "x", 1⟩, _, rfl⟩ fun run => ⟨_, rfl, ?_⟩
  obtain ⟨hkind, htokens⟩ := expect_eq_ok_iff.1 run
  exact spans_singleton.2 ⟨_, ⟨hkind, rfl⟩, htokens⟩

theorem keeps_typeName (what : Expectation) :
    Keeps (fun ty terminals => terminals = [.typeName ty]) (typeName what) :=
  (isSingle_typeName what).keeps ⟨.integer, _, rfl⟩ fun run =>
    ⟨_, rfl, typeName_eq_ok_iff.1 run⟩

def expressions (level : Nat) : Language Node := fun node terminals =>
  node.IsExpression level ∧ node.spelling = terminals

theorem inhabited_expressions (level : Nat) : ∃ node terminals, expressions level node terminals :=
  ⟨.identifier "x", _, .identifier, rfl⟩

theorem keeps_primary : Keeps (expressions 0) primary := by
  refine isSingle_primary.keeps (inhabited_expressions 0) fun run => ?_
  obtain ⟨shape, -, hspans⟩ := primary_eq_ok_iff.1 run
  exact ⟨_, ⟨shape, rfl⟩, hspans⟩

theorem keeps_unaryWith {inner : Reader Node} (h : Keeps (expressions 0) inner) :
    Keeps (expressions 0) (unaryWith inner) := by
  refine .peek_bind (inhabited_expressions 0) fun tokens => ?_
  cases hop : unaryOp? (headKind tokens) with
  | none => exact keeps_primary.keeps tokens
  | some op =>
      have hkind := (unaryOp?_eq_some_iff.1 hop).symm
      refine .advance_bind hkind op.kind_ne_eof ?_
      refine h.bind ?_
      rintro operand _ ⟨shape, rfl⟩
      exact .pure ⟨.unary shape, by simp [Node.spelling]⟩

theorem keeps_unary (budget : Nat) : Keeps (expressions 0) (unary budget) := by
  induction budget with
  | zero => exact keeps_unaryWith (.tooDeep (inhabited_expressions 0))
  | succ budget ih => exact keeps_unaryWith ih

/-- What has been read is the expression on the left. -/
theorem keeps_operatorsFrom {level : Nat} {operand : Reader Node}
    (h : Keeps (expressions level) operand) (bound : List Token) {left : Node}
    (shape : left.IsExpression (level + 1)) :
    Keeps ((expressions (level + 1)).after left.spelling)
      (operatorsFrom (level + 1) operand bound left) := by
  have hleft : (expressions (level + 1)).after left.spelling left [] :=
    ⟨shape, (List.append_nil _).symm⟩
  induction bound generalizing left with
  | nil => exact .pure hleft
  | cons _ bound ih =>
      refine .peek_bind ⟨left, [], hleft⟩ fun tokens => ?_
      cases hop : operatorAt (level + 1) (headKind tokens) with
      | none => exact (Keeps.pure hleft).keeps tokens
      | some op =>
          obtain ⟨hkind, hlevel⟩ := operatorAt_eq_some_iff.1 hop
          refine .advance_bind hkind.symm op.kind_ne_eof ?_
          refine h.bind ?_
          rintro right _ ⟨onRight, rfl⟩
          have shape' : (Node.binary op left right).IsExpression (level + 1) := by
            refine .binary (Nat.le_of_eq hlevel) ?_ ?_
            · rwa [hlevel]
            · rwa [hlevel]
          have hread : left.spelling ++ ([.mark op.kind] ++ right.spelling) =
              (Node.binary op left right).spelling := rfl
          rw [Language.after_after, Language.after_after, hread]
          exact ih shape' ⟨shape', (List.append_nil _).symm⟩

theorem keeps_upTo (budget level : Nat) : Keeps (expressions level) (upTo budget level) := by
  induction level with
  | zero => exact keeps_unary budget
  | succ level ih =>
      refine ih.bind ?_
      rintro first _ ⟨shape, rfl⟩
      -- the loop is bounded by the tokens at hand when it is entered, whichever they are
      have hloop (bound : List Token) :=
        keeps_operatorsFrom ih bound (shape.mono (Nat.le_succ level))
      exact ⟨(hloop []).inhabited, fun tokens => (hloop tokens).keeps tokens⟩

theorem keeps_conditionalWith (budget : Nat) {branch : Reader Node}
    (h : Keeps (expressions conditionalLevel) branch) :
    Keeps (expressions conditionalLevel) (conditionalWith budget branch) := by
  refine (keeps_upTo budget BinaryOp.loosest).bind ?_
  rintro condition _ ⟨ofCondition, rfl⟩
  have hcondition : (expressions conditionalLevel).after condition.spelling condition [] :=
    ⟨ofCondition.mono (Nat.le_succ _), (List.append_nil _).symm⟩
  refine .peek_bind ⟨condition, [], hcondition⟩ fun tokens => ?_
  split
  · rename_i hthen
    refine .advance_bind hthen (by decide) ?_
    refine h.bind ?_
    rintro onTrue _ ⟨ofTrue, rfl⟩
    refine .mark_bind ?_
    refine h.bind ?_
    rintro onFalse _ ⟨ofFalse, rfl⟩
    exact .pure ⟨.conditional (Nat.le_refl _) ofCondition ofTrue ofFalse, by simp [Node.spelling]⟩
  · exact (Keeps.pure hcondition).keeps tokens

theorem keeps_expression (budget : Nat) :
    Keeps (expressions conditionalLevel) (expression budget) := by
  induction budget with
  | zero => exact .tooDeep (inhabited_expressions _)
  | succ budget ih => exact keeps_conditionalWith budget ih

def statements : Language Node := fun node terminals =>
  node.IsLegible ∧ node.statementSpelling = terminals

def bodies : Language (List Node) := fun nodes terminals =>
  (∀ node ∈ nodes, node.IsLegible) ∧ spellBody nodes = terminals

def links : Language Chain := fun chain terminals =>
  chain.IsIf ∧ chain.IsSeparated ∧ chain.spelling = terminals

theorem inhabited_statements : ∃ node terminals, statements node terminals :=
  ⟨.breakLoop, _, ⟨.breakLoop, trivial⟩, rfl⟩

theorem inhabited_links : ∃ chain terminals, links chain terminals :=
  ⟨.when (.identifier "x") [] .done, _, .last .identifier (by simp), ⟨trivial, trivial⟩, rfl⟩

theorem keeps_ascription :
    Keeps (fun ascribed terminals => spellAscription ascribed = terminals) ascription := by
  refine .peek_bind ⟨none, _, rfl⟩ fun tokens => ?_
  split
  · rename_i hcolon
    refine .advance_bind hcolon (by decide) ?_
    refine (keeps_typeName _).bind ?_
    rintro ty _ rfl
    exact .pure rfl
  · exact (Keeps.pure rfl).keeps tokens

theorem keeps_parameter :
    Keeps (fun found terminals => Parameter.spelling found = terminals) parameter := by
  refine (keeps_name _).bind ?_
  rintro name _ rfl
  refine .mark_bind ?_
  refine (keeps_typeName _).bind ?_
  rintro ty _ rfl
  exact .pure rfl

theorem keeps_parametersFrom (bound : List Token) :
    Keeps (fun found terminals => found ≠ [] ∧ spellParameters found = terminals)
      (parametersFrom bound) := by
  have inhabited : ∃ found terminals, found ≠ [] ∧ spellParameters found = terminals :=
    ⟨[⟨"x", .integer⟩], _, by simp, rfl⟩
  induction bound with
  | nil => exact .expected inhabited _
  | cons _ bound ih =>
      refine keeps_parameter.bind ?_
      rintro first _ rfl
      have hlast : [first] ≠ [] ∧ spellParameters [first] = first.spelling ++ [] :=
        ⟨by simp, by simp [spellParameters]⟩
      refine .peek_bind ⟨[first], [], hlast⟩ fun tokens => ?_
      split
      · rename_i hcomma
        refine .advance_bind hcomma (by decide) ?_
        refine ih.bind ?_
        rintro others _ ⟨hne, rfl⟩
        obtain ⟨second, others, rfl⟩ := List.exists_cons_of_ne_nil hne
        exact .pure ⟨by simp, by simp [spellParameters]⟩
      · exact (Keeps.pure hlast).keeps tokens

theorem keeps_parameters :
    Keeps (fun found terminals => spellParameters found = terminals) parameters := by
  refine .peek_bind ⟨[], _, rfl⟩ fun tokens => ?_
  split
  · exact (Keeps.pure rfl).keeps tokens
  · exact ((keeps_parametersFrom tokens).keeps tokens).weaken fun _ _ h => h.2

section Body

variable {statement : Reader Node}

theorem keeps_bodyFrom (h : Keeps statements statement) (stops : List Kind) (bound : List Token) :
    Keeps bodies (bodyFrom statement stops bound) := by
  have hnil : bodies [] [] := ⟨by simp, rfl⟩
  induction bound with
  | nil => exact .pure hnil
  | cons _ bound ih =>
      refine .peek_bind ⟨[], [], hnil⟩ fun tokens => ?_
      split
      · exact (Keeps.pure hnil).keeps tokens
      · refine (h.keeps tokens).bind ?_
        rintro first _ ⟨legible, rfl⟩
        refine ih.bind ?_
        rintro others _ ⟨legibles, rfl⟩
        refine .pure ⟨List.forall_mem_cons.2 ⟨legible, legibles⟩, ?_⟩
        rw [List.append_nil]
        rfl

theorem keeps_body (h : Keeps statements statement) (stops : List Kind) :
    Keeps bodies (body statement stops) :=
  ⟨(keeps_bodyFrom h stops []).inhabited, fun tokens =>
    (keeps_bodyFrom h stops tokens).keeps tokens⟩

/-- A body up to the word that ends it. -/
theorem keeps_body_end {α : Type} {language : Language α} (h : Keeps statements statement)
    {stop : Kind} {what : Expectation} {f : List Node → α}
    (hclosed : ∀ content, (∀ node ∈ content, node.IsLegible) →
      language (f content) (spellBody content ++ [.mark stop])) :
    Keeps language (body statement [stop] >>= fun content => expect stop what >>= fun _ =>
      pure (f content)) := by
  refine (keeps_body h [stop]).bind ?_
  rintro content _ ⟨legible, rfl⟩
  refine .mark_bind ?_
  exact .pure (hclosed content legible)

/-- Where no minus sign comes next, what is read of a body does not begin with one, and if nothing
is read of it then it can be empty. -/
theorem KeepsAt.without_minus {tokens : List Token} {reader : Reader (List Node)}
    (h : KeepsAt bodies reader tokens) (hminus : headKind tokens ≠ .minus) :
    KeepsAt (fun nodes terminals => bodies nodes terminals ∧
      (spellBody nodes).head? ≠ some (.mark .minus)) reader tokens := by
  have hhead {terminals : List Terminal} {rest : List Token}
      (hspans : Spans terminals tokens rest) : terminals.head? ≠ some (.mark .minus) := by
    intro hfirst
    obtain ⟨others, rfl⟩ := List.head?_eq_some_iff.1 hfirst
    exact hminus hspans.headKind_eq
  rw [KeepsAt]
  cases hrun : reader tokens with
  | ok nodes rest =>
      obtain ⟨_, ⟨legible, rfl⟩, hspans⟩ := h.ok hrun
      exact ⟨_, ⟨⟨legible, rfl⟩, hhead hspans⟩, hspans⟩
  | error fault rest =>
      by_cases limited : fault = .tooDeep
      · exact .inl limited
      · obtain ⟨nodes, before, after, ⟨legible, hterminals⟩, hspans⟩ := h.error hrun limited
        cases before with
        | nil =>
            have hempty : bodies [] [] := ⟨by simp, rfl⟩
            exact .inr ⟨[], [], [], ⟨hempty, by simp [spellBody]⟩, hspans⟩
        | cons first before =>
            refine .inr ⟨nodes, first :: before, after, ⟨⟨legible, hterminals⟩, ?_⟩, hspans⟩
            rw [hterminals, List.cons_append, List.head?_cons]
            exact hhead hspans

end Body

/-- An expression up to a semicolon. -/
theorem keeps_expression_semicolon {budget : Nat} {language : Language Node} {what : Expectation}
    {f : Node → Node} (hclosed : ∀ value, value.IsExpression conditionalLevel →
      language (f value) (value.spelling ++ [.mark .semicolon])) :
    Keeps language (expression budget >>= fun value => expect .semicolon what >>= fun _ =>
      pure (f value)) := by
  refine (keeps_expression budget).bind ?_
  rintro value _ ⟨shape, rfl⟩
  refine .mark_bind ?_
  exact .pure (hclosed value shape)

theorem keepsAt_declaration (budget : Nat) {tokens : List Token}
    (hkind : headKind tokens = .kwLet) : KeepsAt statements (declaration budget) tokens := by
  refine .advance_bind hkind (by decide) ?_
  refine (keeps_name _).bind ?_
  rintro name _ rfl
  refine keeps_ascription.bind ?_
  rintro ascribed _ rfl
  refine .mark_bind ?_
  refine keeps_expression_semicolon fun initial shape => ?_
  refine ⟨⟨.declaration shape, trivial⟩, ?_⟩
  simp [Node.statementSpelling, Node.spelling, Node.ending]

theorem keeps_assignment (budget : Nat) : Keeps statements (assignment budget) := by
  refine (keeps_name _).bind ?_
  rintro name _ rfl
  refine .mark_bind ?_
  refine keeps_expression_semicolon fun value shape => ?_
  refine ⟨⟨.assignment shape, trivial⟩, ?_⟩
  simp [Node.statementSpelling, Node.spelling, Node.ending]

theorem keepsAt_returnValue (budget : Nat) {tokens : List Token}
    (hkind : headKind tokens = .kwReturn) : KeepsAt statements (returnValue budget) tokens := by
  refine .advance_bind hkind (by decide) ?_
  refine keeps_expression_semicolon fun value shape => ?_
  refine ⟨⟨.returnValue shape, trivial⟩, ?_⟩
  simp [Node.statementSpelling, Node.spelling, Node.ending]

theorem keeps_expressionStatement (budget : Nat) :
    Keeps statements (expressionStatement budget) :=
  keeps_expression_semicolon fun _ shape =>
    ⟨⟨.expression shape, shape.isSeparated⟩, shape.statementSpelling_eq⟩

theorem keeps_word {kind : Kind} {node : Node} (legible : node.IsLegible)
    (hspelling : node.statementSpelling = [.mark kind, .mark .semicolon]) :
    Keeps statements (word kind node) := by
  refine (keeps_mark _).bind ?_
  rintro token _ rfl
  refine .mark_bind ?_
  exact .pure ⟨legible, hspelling⟩

section Nested

variable {budget : Nat} {statement : Reader Node} {others : Reader Chain}

theorem areSeparated_of_legible {content : List Node}
    (legible : ∀ node ∈ content, node.IsLegible) : AreSeparated content :=
  areSeparated_iff.2 fun node mem => (legible node mem).separated

theorem keepsAt_whileLoop (h : Keeps statements statement) {tokens : List Token}
    (hkind : headKind tokens = .kwWhile) :
    KeepsAt statements (whileLoop budget statement) tokens := by
  have closed {condition : Node} {content : List Node}
      (head : condition.IsExpression conditionalLevel) (legible : ∀ node ∈ content, node.IsLegible)
      (hminus : (spellBody content).head? ≠ some (.mark .minus)) :
      statements (.whileLoop condition content)
        ([.mark .kwWhile] ++ (condition.spelling ++ (spellBody content ++ [.mark .kwEnd]))) := by
    refine ⟨⟨.whileLoop head fun node mem => (legible node mem).shape, hminus,
      areSeparated_of_legible legible⟩, ?_⟩
    simp [Node.statementSpelling, Node.spelling, Node.ending]
  have empty (condition : Node) (head : condition.IsExpression conditionalLevel) :
      ∃ node terminals, statements node
        ([.mark .kwWhile] ++ (condition.spelling ++ terminals)) :=
    ⟨_, _, @closed condition [] head (by simp) (by simp [spellBody])⟩
  refine .advance_bind hkind (by decide) ?_
  refine ⟨?_, fun tokens => ((keeps_expression budget).keeps tokens).bind_of_run ?_ ?_⟩
  · obtain ⟨node, terminals, h⟩ := empty (.identifier "x") .identifier
    exact ⟨node, _, h⟩
  · rintro condition _ ⟨head, rfl⟩
    exact empty condition head
  · rintro condition _ middle run ⟨head, rfl⟩
    -- the condition would have gone on with a minus sign, so the body does not begin with one
    obtain ⟨-, -, -, hends⟩ := expression_eq_ok_iff.1 run
    have hminus : headKind middle ≠ .minus := by
      intro hminus
      have : BinaryOp.loosest < 2 := hends.noOperator (.arithmetic .subtract) hminus.symm
      exact absurd this (by decide)
    refine (((keeps_body h _).keeps middle).without_minus hminus).bind ?_
    rintro content _ ⟨⟨legible, rfl⟩, hminus⟩
    refine .mark_bind ?_
    exact .pure (closed head legible hminus)

theorem keepsAt_function (h : Keeps statements statement) {tokens : List Token}
    (hkind : headKind tokens = .kwDef) : KeepsAt statements (function statement) tokens := by
  refine .advance_bind hkind (by decide) ?_
  refine (keeps_name _).bind ?_
  rintro name _ rfl
  refine .mark_bind ?_
  refine keeps_parameters.bind ?_
  rintro parameters _ rfl
  refine .mark_bind ?_
  refine .mark_bind ?_
  refine (keeps_typeName _).bind ?_
  rintro result _ rfl
  refine keeps_body_end h fun content legible => ?_
  refine ⟨⟨.function fun node mem => (legible node mem).shape, areSeparated_of_legible legible⟩, ?_⟩
  simp [Node.statementSpelling, Node.spelling, Node.ending, Signature.spelling]

theorem keeps_chain (h : Keeps statements statement) (hothers : Keeps links others) :
    Keeps links (chain budget statement others) := by
  refine (keeps_upTo budget BinaryOp.loosest).bind ?_
  rintro condition _ ⟨head, rfl⟩
  refine .mark_bind ?_
  refine (keeps_body h _).bind ?_
  rintro first _ ⟨legible, rfl⟩
  have shapes : ∀ node ∈ first, node.IsStatement := fun node mem => (legible node mem).shape
  have separated := areSeparated_of_legible legible
  refine .peek_bind ⟨.when condition first .done, [.mark .kwEndIf], ?_⟩ fun tokens => ?_
  · exact ⟨.last head shapes, ⟨separated, trivial⟩, by simp [Chain.spelling, Chain.connective]⟩
  · generalize hkind : headKind tokens = kind
    split
    · refine .advance_bind hkind (by decide) ?_
      refine hothers.bind ?_
      rintro found _ ⟨shape, hseparated, rfl⟩
      refine .pure ⟨.link head shapes shape, ⟨separated, hseparated⟩, ?_⟩
      simp [Chain.spelling, shape.connective_eq]
    · refine .advance_bind hkind (by decide) ?_
      refine .mark_bind ?_
      refine keeps_body_end h fun final legibles => ?_
      have finals : ∀ node ∈ final, node.IsStatement := fun node mem => (legibles node mem).shape
      refine ⟨.otherwise head shapes finals,
        ⟨separated, areSeparated_of_legible legibles, trivial⟩, ?_⟩
      simp [Chain.spelling, Chain.connective]
    · refine (Keeps.mark_bind ?_).keeps tokens
      refine .pure ⟨.last head shapes, ⟨separated, trivial⟩, ?_⟩
      simp [Chain.spelling, Chain.connective]

theorem keeps_statementWith (h : Keeps statements statement) (hothers : Keeps links others) :
    Keeps statements (statementWith budget statement others) := by
  refine .peek_bind inhabited_statements fun tokens => ?_
  generalize hkind : headKind tokens = kind
  split
  · exact keepsAt_declaration budget hkind
  · refine .advance_bind hkind (by decide) ?_
    refine (keeps_chain h hothers).bind ?_
    rintro found _ ⟨shape, separated, rfl⟩
    refine .pure ⟨⟨.ifChain shape, separated⟩, ?_⟩
    simp [Node.statementSpelling, Node.spelling, Node.ending]
  · exact keepsAt_whileLoop h hkind
  · exact (keeps_word ⟨.breakLoop, trivial⟩ rfl).keeps tokens
  · exact (keeps_word ⟨.nextRound, trivial⟩ rfl).keeps tokens
  · exact keepsAt_function h hkind
  · exact keepsAt_returnValue budget hkind
  · show KeepsAt statements
      (if headKind tokens.tail = .assign then assignment budget else expressionStatement budget)
      tokens
    split
    · exact (keeps_assignment budget).keeps tokens
    · exact (keeps_expressionStatement budget).keeps tokens
  · exact (keeps_expressionStatement budget).keeps tokens

end Nested

theorem keeps_nested (budget : Nat) :
    Keeps statements (nestedStatement budget) ∧ Keeps links (nestedChain budget) := by
  induction budget with
  | zero => exact ⟨.tooDeep inhabited_statements, .tooDeep inhabited_links⟩
  | succ budget ih => exact ⟨keeps_statementWith ih.1 ih.2, keeps_chain ih.1 ih.2⟩

/-- Up to the token that is at fault, what is read of a statement is the beginning of one. -/
theorem keeps_statement (budget : Nat) : Keeps statements (statement budget) :=
  keeps_statementWith (keeps_nested budget).1 (keeps_nested budget).2

end Grammar

end Script

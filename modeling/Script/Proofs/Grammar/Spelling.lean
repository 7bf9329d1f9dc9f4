import Mathlib.Data.List.Forall2
import Script.Grammar.Reader
import Script.Node.Basic
/-!
# Spelling trees

The other way round: a tree of the grammar is written as terminals, which say of each token what
reading depends on.  A token spells a terminal if it has the right kind and, where the lexeme
matters, a lexeme with the right meaning.  So one tree has many spellings, which differ in lines, in
the lexemes of words and marks, and in how numbers and types are written.
-/

namespace Script

inductive Terminal
  | mark (kind : Kind)
  | identifier (name : String)
  | literal (value : Value)
  | typeName (ty : Ty)

def Token.SpellsValue (token : Token) : Value → Prop
  | .integer i => token.kind = .integer ∧ Integer.ofNumeral? token.lexeme.toList = some i
  | .text s => token.kind = .string ∧ token.lexeme = s
  | .character c => token.kind = .char ∧ token.lexeme.toList.head? = some c
  | .boolean b => token.kind = .boolean ∧ decide (token.lexeme = "true") = b
  | .void => False

def Token.Spells (token : Token) : Terminal → Prop
  | .mark kind => token.kind = kind
  | .identifier name => token.kind = .identifier ∧ token.lexeme = name
  | .literal value => token.SpellsValue value
  | .typeName ty => token.kind = .identifier ∧ Ty.ofName token.lexeme = .ok ty

instance (token : Token) : (value : Value) → Decidable (token.SpellsValue value)
  | .integer _ | .text _ | .character _ | .boolean _ => inferInstanceAs (Decidable (_ ∧ _))
  | .void => inferInstanceAs (Decidable False)

instance (token : Token) : (terminal : Terminal) → Decidable (token.Spells terminal)
  | .mark _ => inferInstanceAs (Decidable (_ = _))
  | .identifier _ | .typeName _ => inferInstanceAs (Decidable (_ ∧ _))
  | .literal value => inferInstanceAs (Decidable (token.SpellsValue value))

def Terminal.kind : Terminal → Kind
  | mark kind => kind
  | identifier _ | typeName _ => .identifier
  | literal (.integer _) => .integer
  | literal (.text _) => .string
  | literal (.character _) => .char
  | literal (.boolean _) => .boolean
  | literal .void => .bad

theorem Terminal.kind_eq_minus_iff {terminal : Terminal} :
    terminal.kind = .minus ↔ terminal = .mark .minus := by
  cases terminal with
  | mark kind => simp [Terminal.kind]
  | identifier name => simp [Terminal.kind]
  | typeName ty => simp [Terminal.kind]
  | literal value => cases value <;> simp [Terminal.kind]

theorem Token.Spells.kind_eq {token : Token} {terminal : Terminal} (h : token.Spells terminal) :
    token.kind = terminal.kind := by
  cases terminal with
  | mark kind => exact h
  | identifier name => exact h.1
  | typeName ty => exact h.1
  | literal value =>
      cases value with
      | void => exact h.elim
      | integer i => exact h.1
      | text s => exact h.1
      | character c => exact h.1
      | boolean b => exact h.1

def BinaryOp.kind : BinaryOp → Kind
  | arithmetic .add => .plus
  | arithmetic .subtract => .minus
  | arithmetic .multiply => .star
  | arithmetic .divide => .slash
  | arithmetic .remainder => .percent
  | order .greater => .greater
  | order .greaterEquals => .greaterEquals
  | order .less => .less
  | order .lessEquals => .lessEquals
  | equals => .equals
  | notEquals => .notEquals
  | and => .kwAnd
  | or => .kwOr

theorem BinaryOp.kind_ne_eof (op : BinaryOp) : op.kind ≠ .eof := by
  unfold BinaryOp.kind
  split <;> decide

def UnaryOp.kind : UnaryOp → Kind
  | minus => .minus
  | not => .kwNot

theorem UnaryOp.kind_ne_eof (op : UnaryOp) : op.kind ≠ .eof := by
  unfold UnaryOp.kind
  split <;> decide

def spellAscription : Option Ty → List Terminal
  | none => []
  | some ty => [.mark .colon, .typeName ty]

def Parameter.spelling (parameter : Parameter) : List Terminal :=
  [.identifier parameter.name, .mark .colon, .typeName parameter.ty]

def spellParameters : List Parameter → List Terminal
  | [] => []
  | [last] => last.spelling
  | first :: second :: others =>
    first.spelling ++ .mark .comma :: spellParameters (second :: others)

def Signature.spelling (signature : Signature) : List Terminal :=
  [.identifier signature.name, .mark .leftParen] ++ spellParameters signature.parameters ++
    [.mark .rightParen, .mark .colon, .typeName signature.result]

/-- The word between a link of an `if` and the links after it. -/
def Chain.connective : Chain → Kind
  | done => .kwEndIf
  | when _ _ _ => .kwElseIf
  | always _ _ => .kwElse

/-- What ends a node where it is a statement.  A statement that does not end in a word of its own
ends in a semicolon. -/
def Node.ending : Node → List Terminal
  | ifChain _ | whileLoop _ _ | function _ _ => []
  | _ => [.mark .semicolon]

mutual

/-- The terminals of a node, without what ends it where it is a statement. -/
def Node.spelling : Node → List Terminal
  | .literal value => [.literal value]
  | .identifier name => [.identifier name]
  | .declaration name ascription initial =>
    [.mark .kwLet, .identifier name] ++ spellAscription ascription ++
      .mark .assign :: initial.spelling
  | .assignment name value => [.identifier name, .mark .assign] ++ value.spelling
  | .binary op left right => left.spelling ++ .mark op.kind :: right.spelling
  | .unary op operand => .mark op.kind :: operand.spelling
  | .conditional condition onTrue onFalse =>
    condition.spelling ++ .mark .kwThen :: (onTrue.spelling ++ .mark .kwElse :: onFalse.spelling)
  | .ifChain chain => .mark .kwIf :: chain.spelling
  | .whileLoop condition body =>
    .mark .kwWhile :: (condition.spelling ++ (spellBody body ++ [.mark .kwEnd]))
  | .breakLoop => [.mark .kwBreak]
  | .nextRound => [.mark .kwNext]
  | .function signature body =>
    .mark .kwDef :: (signature.spelling ++ (spellBody body ++ [.mark .kwEnd]))
  | .returnValue value => .mark .kwReturn :: value.spelling
  | .malformed => []
  | .endOfInput => []

/-- The terminals of the links of an `if`, after the word that introduces the first of them. -/
def Chain.spelling : Chain → List Terminal
  | .done => []
  | .when condition body others =>
    condition.spelling ++ .mark .kwThen ::
      (spellBody body ++ .mark others.connective :: others.spelling)
  | .always body others =>
    .mark .kwThen :: (spellBody body ++ .mark others.connective :: others.spelling)

def spellBody : List Node → List Terminal
  | [] => []
  | statement :: others => statement.spelling ++ statement.ending ++ spellBody others

end

def Node.statementSpelling (node : Node) : List Terminal := node.spelling ++ node.ending

def Spans (terminals : List Terminal) (tokens rest : List Token) : Prop :=
  ∃ taken, List.Forall₂ Token.Spells taken terminals ∧ tokens = taken ++ rest

@[simp] theorem spans_nil {tokens rest : List Token} : Spans [] tokens rest ↔ tokens = rest := by
  simp [Spans]

theorem spans_append {first second : List Terminal} {tokens rest : List Token} :
    Spans (first ++ second) tokens rest ↔
      ∃ middle, Spans first tokens middle ∧ Spans second middle rest := by
  constructor
  · rintro ⟨taken, htaken, rfl⟩
    have hfirst := List.forall₂_take_append taken first second htaken
    have hsecond := List.forall₂_drop_append taken first second htaken
    refine ⟨taken.drop first.length ++ rest, ⟨_, hfirst, ?_⟩, ⟨_, hsecond, rfl⟩⟩
    rw [← List.append_assoc, List.take_append_drop]
  · rintro ⟨_, ⟨before, hbefore, rfl⟩, ⟨after, hafter, rfl⟩⟩
    exact ⟨before ++ after, List.rel_append hbefore hafter, by rw [List.append_assoc]⟩

theorem spans_singleton {terminal : Terminal} {tokens rest : List Token} :
    Spans [terminal] tokens rest ↔ ∃ token, token.Spells terminal ∧ tokens = token :: rest := by
  constructor
  · rintro ⟨taken, htaken, rfl⟩
    obtain ⟨token, _, hspells, hnil, rfl⟩ := List.forall₂_cons_right_iff.1 htaken
    rw [List.forall₂_nil_right_iff] at hnil
    subst hnil
    exact ⟨token, hspells, rfl⟩
  · rintro ⟨token, hspells, rfl⟩
    exact ⟨[token], .cons hspells .nil, rfl⟩

theorem spans_cons {terminal : Terminal} {terminals : List Terminal} {tokens rest : List Token} :
    Spans (terminal :: terminals) tokens rest ↔
      ∃ token middle, token.Spells terminal ∧ tokens = token :: middle ∧
        Spans terminals middle rest := by
  rw [← List.singleton_append, spans_append]
  simp only [spans_singleton]
  constructor
  · rintro ⟨middle, ⟨token, hspells, rfl⟩, h⟩
    exact ⟨token, middle, hspells, rfl, h⟩
  · rintro ⟨token, middle, hspells, rfl, h⟩
    exact ⟨middle, ⟨token, hspells, rfl⟩, h⟩

theorem Spans.headKind_eq {terminal : Terminal} {terminals : List Terminal}
    {tokens rest : List Token} (h : Spans (terminal :: terminals) tokens rest) :
    Grammar.headKind tokens = terminal.kind := by
  obtain ⟨token, middle, hspells, rfl, -⟩ := spans_cons.1 h
  exact hspells.kind_eq

/-- A word or mark is recognized by the kind of the next token alone. -/
theorem spans_mark_cons {kind : Kind} {terminals : List Terminal} {tokens rest : List Token}
    (hkind : kind ≠ .eof) :
    Spans (.mark kind :: terminals) tokens rest ↔
      Grammar.headKind tokens = kind ∧ Spans terminals tokens.tail rest := by
  constructor
  · intro h
    refine ⟨h.headKind_eq, ?_⟩
    obtain ⟨token, middle, -, rfl, hmiddle⟩ := spans_cons.1 h
    exact hmiddle
  · rintro ⟨hhead, h⟩
    cases tokens with
    | nil => exact absurd hhead.symm hkind
    | cons token others => exact spans_cons.2 ⟨token, others, hhead, rfl, h⟩

end Script

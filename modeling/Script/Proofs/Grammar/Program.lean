import Script.Grammar.Parse
import Script.Proofs.Grammar.Statement
import Script.Proofs.Integer
/-!
# Reading programs is undoing their spelling

What is read from a list of tokens are statements of the grammar, and the tokens that were taken
spell them.  Conversely a program of the grammar is read from each of its spellings, unless the body
of a loop in it begins with a minus sign: then the sign goes to the condition of the loop.
-/

namespace Script

/-- Whether a terminal can be spelled by a token that is neither malformed nor an end mark. -/
def Terminal.IsProper (terminal : Terminal) : Prop := terminal.kind ≠ .bad ∧ terminal.kind ≠ .eof

instance (terminal : Terminal) : Decidable terminal.IsProper := inferInstanceAs (Decidable (_ ∧ _))

theorem Terminal.IsProper.exists_spells {terminal : Terminal} (h : terminal.IsProper) :
    ∃ token : Token, token.Spells terminal := by
  cases terminal with
  | mark kind => exact ⟨⟨kind, "", 1⟩, rfl⟩
  | identifier name => exact ⟨⟨.identifier, name, 1⟩, rfl, rfl⟩
  | typeName ty => exact ⟨⟨.identifier, ty.name, 1⟩, rfl, Ty.ofName_name ty⟩
  | literal value =>
      cases value with
      | void => exact absurd rfl h.1
      | integer i => exact ⟨⟨.integer, i.render, 1⟩, rfl, Integer.ofNumeral?_render i⟩
      | text s => exact ⟨⟨.string, s, 1⟩, rfl, rfl⟩
      | character c => exact ⟨⟨.char, String.singleton c, 1⟩, rfl, by simp⟩
      | boolean b =>
          have hb : decide ((if b then "true" else "false") = "true") = b := by
            cases b <;> decide
          exact ⟨⟨.boolean, if b then "true" else "false", 1⟩, rfl, hb⟩

theorem isProper_identifier (name : String) : (Terminal.identifier name).IsProper := by
  constructor <;> simp [Terminal.kind]

theorem isProper_typeName (ty : Ty) : (Terminal.typeName ty).IsProper := by
  constructor <;> simp [Terminal.kind]

theorem Node.IsExpression.isProper {level : Nat} {node : Node} (shape : node.IsExpression level) :
    ∀ terminal ∈ node.spelling, terminal.IsProper := by
  have hkinds : ∀ kind ∈ expressionKinds, kind ≠ .bad ∧ kind ≠ .eof := by decide
  exact fun terminal mem => hkinds _ (shape.kind_mem terminal mem)

theorem isProper_parameter (parameter : Parameter) :
    ∀ terminal ∈ parameter.spelling, terminal.IsProper := by
  simp only [Parameter.spelling, List.forall_mem_cons]
  exact ⟨isProper_identifier _, by decide, isProper_typeName _, by simp⟩

theorem isProper_parameters (parameters : List Parameter) :
    ∀ terminal ∈ spellParameters parameters, terminal.IsProper := by
  fun_induction spellParameters parameters with
  | case1 => simp
  | case2 last => exact isProper_parameter last
  | case3 first second others ih =>
      simp only [List.forall_mem_append, List.forall_mem_cons]
      exact ⟨isProper_parameter first, by decide, ih⟩

mutual

theorem isProper_statement (node : Node) (shape : node.IsStatement) :
    ∀ terminal ∈ node.spelling, terminal.IsProper := by
  cases shape with
  | @ifChain links shape =>
      rw [Node.spelling, List.forall_mem_cons]
      exact ⟨by decide, isProper_chain links shape⟩
  | @whileLoop condition content head statements =>
      simp only [Node.spelling, List.forall_mem_cons, List.forall_mem_append]
      exact ⟨by decide, head.isProper, isProper_body content statements, by decide, by simp⟩
  | @function signature content statements =>
      simp only [Node.spelling, Signature.spelling, List.forall_mem_cons, List.forall_mem_append]
      exact ⟨by decide, ⟨⟨⟨isProper_identifier _, by decide, by simp⟩,
        isProper_parameters _⟩, by decide, by decide, isProper_typeName _, by simp⟩,
        isProper_body content statements, by decide, by simp⟩
  | @declaration name ascribed initial value =>
      have hascribed : ∀ terminal ∈ spellAscription ascribed, terminal.IsProper := by
        cases ascribed with
        | none => simp [spellAscription]
        | some ty =>
            simp only [spellAscription, List.forall_mem_cons]
            exact ⟨by decide, isProper_typeName ty, by simp⟩
      simp only [Node.spelling, List.forall_mem_cons, List.forall_mem_append]
      exact ⟨⟨⟨by decide, isProper_identifier name, by simp⟩, hascribed⟩, by decide,
        value.isProper⟩
  | @assignment name assigned value =>
      simp only [Node.spelling, List.forall_mem_cons, List.forall_mem_append]
      exact ⟨⟨isProper_identifier name, by decide, by simp⟩, value.isProper⟩
  | returnValue value =>
      rw [Node.spelling, List.forall_mem_cons]
      exact ⟨by decide, value.isProper⟩
  | breakLoop => exact List.forall_mem_singleton.2 (by decide)
  | nextRound => exact List.forall_mem_singleton.2 (by decide)
  | expression value => exact value.isProper

theorem isProper_chain (links : Chain) (shape : links.IsIf) :
    ∀ terminal ∈ links.spelling, terminal.IsProper := by
  cases links with
  | done => cases shape
  | always content others => cases shape
  | when condition content others =>
      have hlinks : condition.IsExpression BinaryOp.loosest ∧
          (∀ node ∈ content, node.IsStatement) ∧
          ∀ terminal ∈ others.spelling, terminal.IsProper := by
        cases shape with
        | last head statements => exact ⟨head, statements, by simp [Chain.spelling]⟩
        | otherwise head statements finals =>
            refine ⟨head, statements, ?_⟩
            simp only [Chain.spelling, List.forall_mem_cons, List.forall_mem_append]
            exact ⟨by decide, isProper_body _ finals, by decide, by simp⟩
        | link head statements links => exact ⟨head, statements, isProper_chain others links⟩
      obtain ⟨head, statements, hothers⟩ := hlinks
      have hconnective : others.connective ≠ .bad ∧ others.connective ≠ .eof := by
        cases others <;> simp [Chain.connective]
      simp only [Chain.spelling, List.forall_mem_cons, List.forall_mem_append]
      exact ⟨head.isProper, by decide, isProper_body content statements, hconnective, hothers⟩

theorem isProper_body (content : List Node) (shape : ∀ node ∈ content, node.IsStatement) :
    ∀ terminal ∈ spellBody content, terminal.IsProper := by
  cases content with
  | nil => simp [spellBody]
  | cons first others =>
      obtain ⟨shape, shapes⟩ := List.forall_mem_cons.1 shape
      have hending : ∀ terminal ∈ first.ending, terminal.IsProper := by
        cases first <;> simp only [Node.ending] <;> decide
      simp only [spellBody, List.forall_mem_append]
      exact ⟨⟨isProper_statement first shape, hending⟩, isProper_body others shapes⟩

end

namespace Grammar

/-- Statements are read from a spelling of them, and up to the end of the tokens if there is no
fault. -/
theorem statementsFrom_sound (limit : Nat) (tokens : List Token) :
    (∀ node ∈ (statementsFrom limit tokens tokens).1, node.IsReadable (limit + 1)) ∧
      ∃ rest, Spans (spellBody (statementsFrom limit tokens tokens).1) tokens rest ∧
        ((statementsFrom limit tokens tokens).2 = none → rest = []) := by
  induction hn : tokens.length using Nat.strongRecOn generalizing tokens with
  | ind n ih =>
    cases tokens with
    | nil => exact ⟨by simp [statementsFrom], [], by simp [statementsFrom, spellBody], fun _ => rfl⟩
    | cons token others =>
        rw [statementsFrom_self]
        cases hstatement : statement limit (token :: others) with
        | error fault rest =>
            exact ⟨by simp, token :: others, by simp [spellBody], by simp⟩
        | ok node middle =>
            have shorter := ((takes_statement limit).ok hstatement).2
            obtain ⟨readable, hspans⟩ := (readsStatements_statement limit _ _ _).1 hstatement
            obtain ⟨readables, rest, hothers, hend⟩ := ih middle.length (by omega) middle rfl
            exact ⟨List.forall_mem_cons.2 ⟨readable, readables⟩, rest,
              spans_append.2 ⟨middle, hspans, hothers⟩, hend⟩

theorem isReadable_of_mem_parse {tokens : List Token} {node : Node}
    (mem : node ∈ (parse tokens).statements) : node.IsReadable (nestingLimit + 1) :=
  (statementsFrom_sound nestingLimit (beforeEnd tokens)).1 node mem

theorem statementsFrom_of_spans {limit : Nat} {program : List Node} {tokens rest : List Token}
    (readable : ∀ node ∈ program, node.IsReadable (limit + 1))
    (hspans : Spans (spellBody program) tokens rest) :
    statementsFrom limit tokens tokens =
      (program ++ (statementsFrom limit rest rest).1, (statementsFrom limit rest rest).2) := by
  induction program generalizing tokens with
  | nil =>
      rw [spellBody, spans_nil] at hspans
      subst hspans
      rfl
  | cons first others ih =>
      obtain ⟨readable, readables⟩ := List.forall_mem_cons.1 readable
      obtain ⟨middle, hfirst, hothers⟩ := spans_append.1 hspans
      have hstart := headKind_mem_statementStarts readable.shape hfirst
      have hrun := (readsStatements_statement limit _ _ _).2 ⟨readable, hfirst⟩
      cases tokens with
      | nil => exact absurd hstart (by decide)
      | cons token after =>
          rw [statementsFrom_self, hrun]
          simp only [ih readables hothers, List.cons_append]

theorem statementsFrom_complete {limit : Nat} {program : List Node} {tokens : List Token}
    (readable : ∀ node ∈ program, node.IsReadable (limit + 1))
    (hspans : Spans (spellBody program) tokens []) :
    statementsFrom limit tokens tokens = (program, none) := by
  rw [statementsFrom_of_spans readable hspans, statementsFrom, List.append_nil]

end Grammar

open Grammar

/-- A list of tokens is read as a program without an error exactly if the tokens before its end
spell the program and the program is one that can be read. -/
theorem parseWithin_eq_iff {limit : Nat} {program : List Node} {tokens : List Token} :
    parseWithin limit tokens = ⟨program, none⟩ ↔
      (∀ node ∈ program, node.IsReadable (limit + 1)) ∧
        Spans (spellBody program) (beforeEnd tokens) [] := by
  constructor
  · intro h
    obtain ⟨readable, rest, hspans, hend⟩ := statementsFrom_sound limit (beforeEnd tokens)
    simp only [parseWithin, Parse.mk.injEq, Option.map_eq_none_iff] at h
    rw [h.1] at readable hspans
    rw [hend h.2] at hspans
    exact ⟨readable, hspans⟩
  · rintro ⟨readable, hspans⟩
    simp only [parseWithin, statementsFrom_complete readable hspans, Option.map_none]

/-- What is read from any list of tokens are statements of the grammar that nest within the limit.
The tokens in front of the list spell them, and if there is no error then these are all tokens up to
the end mark. -/
theorem parse_spells (tokens : List Token) :
    (∀ node ∈ (parse tokens).statements,
      node.IsStatement ∧ node.depth ≤ nestingLimit ∧ node.IsSeparated) ∧
      ∃ written, List.Forall₂ Token.Spells written (spellBody (parse tokens).statements) ∧
        written <+: tokens ∧ ((parse tokens).failure = none → written = beforeEnd tokens) := by
  obtain ⟨readable, rest, ⟨written, hspells, hbefore⟩, hend⟩ :=
    statementsFrom_sound nestingLimit (beforeEnd tokens)
  have hfront : written <+: beforeEnd tokens := ⟨rest, hbefore.symm⟩
  refine ⟨?_, written, hspells, hfront.trans (List.takeWhile_prefix _), ?_⟩
  · intro node mem
    have hnode := readable node mem
    exact ⟨hnode.shape, Nat.le_of_lt_succ hnode.depth_lt, hnode.separated⟩
  · intro hnone
    rw [hbefore, hend (Option.map_eq_none_iff.1 hnone), List.append_nil]

theorem beforeEnd_append_of_open {first : List Token} (second : List Token)
    (isOpen : ∀ token ∈ first, token.kind ≠ .eof) :
    beforeEnd (first ++ second) = first ++ beforeEnd second :=
  List.takeWhile_append_of_pos (by simpa using isOpen)

theorem beforeEnd_of_open {tokens : List Token} (isOpen : ∀ token ∈ tokens, token.kind ≠ .eof) :
    beforeEnd tokens = tokens := by
  have hend : beforeEnd [] = [] := rfl
  have happend := beforeEnd_append_of_open [] isOpen
  rwa [hend, List.append_nil] at happend

theorem beforeEnd_append_mark {first : List Token} (isOpen : ∀ token ∈ first, token.kind ≠ .eof)
    {mark : Token} (hmark : mark.kind = .eof) (after : List Token) :
    beforeEnd (first ++ mark :: after) = first := by
  rw [beforeEnd_append_of_open _ isOpen, beforeEnd, List.takeWhile_cons_of_neg (by simpa),
    List.append_nil]

theorem endLine_append {first second : List Token} (isOpen : ∀ token ∈ first, token.kind ≠ .eof)
    (nonempty : second ≠ []) : endLine (first ++ second) = endLine second := by
  have hnone : first.find? (·.kind = .eof) = none := by simpa using isOpen
  rw [endLine, endLine, List.find?_append, hnone, Option.none_or,
    List.getLast?_append_of_ne_nil first nonempty]

theorem beforeEnd_append {written following : List Token} {terminals : List Terminal}
    (proper : ∀ terminal ∈ terminals, terminal.IsProper)
    (hspells : List.Forall₂ Token.Spells written terminals) (hend : headKind following = .eof) :
    beforeEnd (written ++ following) = written := by
  induction hspells with
  | nil =>
      cases following with
      | nil => rfl
      | cons token others => exact List.takeWhile_cons_of_neg (by simpa [headKind] using hend)
  | cons hspell _ ih =>
      obtain ⟨hfirst, hothers⟩ := List.forall_mem_cons.1 proper
      have hkind := hspell.kind_eq ▸ hfirst.2
      rw [beforeEnd, List.cons_append, List.takeWhile_cons_of_pos (by simpa using hkind)]
      exact congrArg _ (ih hothers)

/-- A program of the grammar that nests within the limit has a spelling, and from each of its
spellings exactly this program is read, without an error, unless the body of a loop in it begins
with a minus sign. -/
theorem parse_eq_iff_isSeparated {program : List Node} (shape : ∀ node ∈ program, node.IsStatement)
    (depth : ∀ node ∈ program, node.depth ≤ nestingLimit) :
    (∃ written, List.Forall₂ Token.Spells written (spellBody program)) ∧
      ∀ written following, List.Forall₂ Token.Spells written (spellBody program) →
        headKind following = .eof →
          (parse (written ++ following) = ⟨program, none⟩ ↔
            ∀ node ∈ program, node.IsSeparated) := by
  have proper := isProper_body program shape
  constructor
  · -- any list of proper terminals has a spelling, whether or not it is that of a program
    generalize spellBody program = terminals at proper
    induction terminals with
    | nil => exact ⟨[], .nil⟩
    | cons first others ih =>
        obtain ⟨hfirst, hothers⟩ := List.forall_mem_cons.1 proper
        obtain ⟨token, hspells⟩ := hfirst.exists_spells
        obtain ⟨written, hwritten⟩ := ih hothers
        exact ⟨token :: written, .cons hspells hwritten⟩
  · intro written following hspells hend
    rw [parse, parseWithin_eq_iff, beforeEnd_append proper hspells hend]
    constructor
    · rintro ⟨readable, -⟩ node mem
      exact (readable node mem).separated
    · intro separated
      refine ⟨fun node mem => ?_, written, hspells, by rw [List.append_nil]⟩
      exact ⟨shape node mem, Nat.lt_succ_of_le (depth node mem), separated node mem⟩

/-- The body of a loop is told from the condition of the loop, but not if it begins with a minus
sign. -/
theorem parse_loops :
    parse ([⟨.kwWhile, "while", 1⟩, ⟨.identifier, "b", 1⟩, ⟨.kwIf, "if", 2⟩, ⟨.identifier, "c", 2⟩,
      ⟨.kwThen, "then", 2⟩, ⟨.kwBreak, "break", 2⟩, ⟨.semicolon, ";", 2⟩, ⟨.kwElse, "else", 3⟩,
      ⟨.kwThen, "then", 3⟩, ⟨.identifier, "n", 3⟩, ⟨.assign, "=", 3⟩, ⟨.minus, "-", 3⟩,
      ⟨.integer, "07", 3⟩, ⟨.semicolon, ";", 3⟩, ⟨.kwEndIf, "endif", 3⟩, ⟨.kwEnd, "end", 4⟩] ++
      [⟨.eof, "", 4⟩]) =
      ⟨[.whileLoop (.identifier "b") [.ifChain (.when (.identifier "c") [.breakLoop]
        (.always [.assignment "n" (.unary .minus (.literal (.integer ⟨7, by decide, by decide⟩)))]
          .done))]], none⟩ ∧
    parse ([⟨.kwWhile, "while", 1⟩, ⟨.identifier, "b", 1⟩, ⟨.minus, "-", 1⟩, ⟨.identifier, "n", 1⟩,
      ⟨.semicolon, ";", 1⟩, ⟨.kwEnd, "end", 1⟩] ++ []) ≠
      ⟨[.whileLoop (.identifier "b") [.unary .minus (.identifier "n")]], none⟩ := by
  constructor
  · refine ((parse_eq_iff_isSeparated ?_ ?_).2 _ _ ?_ ?_).2 ?_
    · intro node mem
      rw [List.mem_singleton.1 mem]
      refine .whileLoop .identifier (List.forall_mem_singleton.2 (.ifChain ?_))
      refine .otherwise .identifier (List.forall_mem_singleton.2 .breakLoop) ?_
      exact List.forall_mem_singleton.2 (.assignment (.unary (.literal (by simp))))
    · decide
    · decide
    · decide
    · simp [Node.IsSeparated, Chain.IsSeparated, AreSeparated, spellBody, Node.spelling]
  · intro h
    have separated := ((parse_eq_iff_isSeparated ?_ ?_).2 _ _ ?_ ?_).1 h
    · simp [Node.IsSeparated, spellBody, Node.spelling, UnaryOp.kind] at separated
    · intro node mem
      rw [List.mem_singleton.1 mem]
      exact .whileLoop .identifier (List.forall_mem_singleton.2 (.expression (.unary .identifier)))
    · decide
    · decide
    · decide

end Script

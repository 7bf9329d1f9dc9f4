import Script.Node.Render
import Script.Proofs.Grammar.Shape
import Script.Proofs.Grammar.Source
import Script.Proofs.Token.Printed
/-!
# The textual form as lexemes

The textual form of a tree is a row of lexemes, which can be given without a detour through
characters.  Where a tree comes from a text, scanning its textual form finds exactly these lexemes.
-/

namespace Script

open Lexeme Scan Grammar

def Parameter.items (parameter : Parameter) : List Item :=
  [(.identifier, parameter.name), (.colon, ":"), (.identifier, parameter.ty.name)]

def itemsOfParameters : List Parameter → List Item
  | [] => []
  | [last] => last.items
  | first :: second :: others =>
    first.items ++ (.comma, ",") :: itemsOfParameters (second :: others)

def Signature.items (signature : Signature) : List Item :=
  (.identifier, signature.name) :: (.leftParen, "(") ::
    (itemsOfParameters signature.parameters ++
      [(.rightParen, ")"), (.colon, ":"), (.identifier, signature.result.name)])

def Chain.leadItem : Chain → Item
  | done => (.kwEndIf, "endif")
  | when _ _ _ => (.kwElseIf, "elseif")
  | always _ _ => (.kwElse, "else")

mutual

def Node.items : Node → List Item
  | .literal value => [value.item]
  | .identifier name => [(.identifier, name)]
  | .declaration name (some ty) initial =>
    (.identifier, name) :: (.colon, ":") :: (.identifier, ty.name) :: (.assign, "=") ::
      initial.items
  | .declaration name none initial => (.identifier, name) :: (.assign, "=") :: initial.items
  | .assignment name value => (.identifier, name) :: (.assign, "=") :: value.items
  | .binary op left right =>
    (.leftParen, "(") :: (left.items ++ (op.kind, op.symbol) :: (right.items ++
      [(.rightParen, ")")]))
  | .unary op operand =>
    (.leftParen, "(") :: (op.kind, op.symbol) :: (operand.items ++ [(.rightParen, ")")])
  | .conditional condition onTrue onFalse =>
    (.leftParen, "(") :: (condition.items ++ (.kwThen, "then") :: (onTrue.items ++
      (.kwElse, "else") :: (onFalse.items ++ [(.rightParen, ")")])))
  | .ifChain chain => (.kwIf, "if") :: chain.items
  | .whileLoop condition body =>
    (.kwWhile, "while") :: (condition.items ++ (itemsOfBody body ++ [(.kwEnd, "end")]))
  | .breakLoop => [(.kwBreak, "break")]
  | .nextRound => [(.kwNext, "next")]
  | .function signature body =>
    (.kwDef, "def") :: (signature.items ++ (itemsOfBody body ++ [(.kwEnd, "end")]))
  | .returnValue value => (.kwReturn, "return") :: value.items
  | .malformed => []
  | .endOfInput => []

def Chain.items : Chain → List Item
  | .done => []
  | .when condition body others =>
    condition.items ++ (.kwThen, "then") :: (itemsOfBody body ++ others.leadItem :: others.items)
  | .always body others =>
    (.kwThen, "then") :: (itemsOfBody body ++ others.leadItem :: others.items)

def itemsOfBody : List Node → List Item
  | [] => []
  | statement :: rest =>
    statement.items ++ ((if rest.isEmpty then [] else [(.semicolon, ";")]) ++ itemsOfBody rest)

end

/-- Whether a terminal can be spelled by a token of a text: identifiers are words, and numbers have
no sign. -/
def Terminal.IsLexical : Terminal → Prop
  | identifier name => IsLexeme name.toList .identifier name.toList
  | literal value => value.IsUnsigned
  | _ => True

theorem Lexeme.IsLexeme.isDigit_of_integer {spelling content : List Char}
    (h : IsLexeme spelling .integer content) : content.all Char.isDigit = true := by
  have hwords : ∀ kind ∈ Kind.wordKinds, kind ≠ .integer := by decide
  have hpairs : ∀ kind ∈ Kind.pairKinds, kind ≠ .integer := by decide
  have hsymbols : ∀ kind ∈ Kind.symbolKinds, kind ≠ .integer := by decide
  generalize hkind : Kind.integer = kind at h
  cases h with
  | word => exact absurd hkind.symm (hwords _ (Kind.ofWord_mem _))
  | integer digits => exact List.all_eq_true.2 digits
  | text => cases hkind
  | character => cases hkind
  | pair known => exact absurd hkind.symm (hpairs _ (Kind.mem_of_ofPair? known))
  | symbol known => exact absurd hkind.symm (hsymbols _ (Kind.mem_of_ofSymbol? known))

theorem endsLexeme_blank (cs : List Char) : EndsLexeme (' ' :: cs) :=
  endsLexeme_cons (by decide) cs

theorem endsLexeme_rightParen (cs : List Char) : EndsLexeme (")".toList ++ cs) :=
  endsLexeme_cons (c := ')') (by decide) cs

theorem spells_reserved (word : String) (kind : Kind) (reserved : (word, kind) ∈ Kind.reserved)
    {rest : List Char} (ends : EndsLexeme rest) : Spells rest word.toList [(kind, word)] := by
  have hall : ∀ entry ∈ Kind.reserved, IsLexeme entry.1.toList entry.2 entry.1.toList ∧
      entry.2 ≠ .integer := by
    simp only [Kind.reserved, List.forall_mem_cons]
    repeat' apply And.intro
    all_goals first | exact .of_all rfl rfl | simp
  exact spells_word (hall _ reserved).1 (hall _ reserved).2 ends

theorem spells_blank (rest : List Char) : Spells rest " ".toList [] :=
  (spells_nil rest).blank

theorem spells_reserved_blank (word : String) (kind : Kind)
    (reserved : (word, kind) ∈ Kind.reserved) (rest : List Char) :
    Spells rest (word ++ " ").toList [(kind, word)] := by
  rw [String.toList_append]
  exact (spells_reserved word kind reserved (endsLexeme_blank rest)).append (spells_blank rest)

theorem spells_leftParen (rest : List Char) : Spells rest "(".toList [(.leftParen, "(")] :=
  spells_symbol rfl (by decide) rest

theorem spells_rightParen (rest : List Char) : Spells rest ")".toList [(.rightParen, ")")] :=
  spells_symbol rfl (by decide) rest

theorem spells_not (rest : List Char) :
    Spells rest "(not ".toList [(.leftParen, "("), (.kwNot, "not")] :=
  (spells_leftParen _).append (spells_reserved_blank "not" .kwNot (by decide) rest)

theorem spells_minus (rest : List Char) :
    Spells rest "(-".toList [(.leftParen, "("), (.minus, "-")] :=
  (spells_leftParen _).append (spells_symbol rfl (by decide) rest)

theorem spells_then (rest : List Char) : Spells rest " then ".toList [(.kwThen, "then")] :=
  (spells_reserved_blank "then" .kwThen (by decide) rest).blank

theorem spells_else (rest : List Char) : Spells rest " else ".toList [(.kwElse, "else")] :=
  (spells_reserved_blank "else" .kwElse (by decide) rest).blank

theorem spells_colon (rest : List Char) : Spells rest ": ".toList [(.colon, ":")] :=
  (spells_symbol (c := ':') rfl (by decide) _).append (spells_blank rest)

theorem spells_comma (rest : List Char) : Spells rest ", ".toList [(.comma, ",")] :=
  (spells_symbol (c := ',') rfl (by decide) _).append (spells_blank rest)

theorem spells_assign (rest : List Char) : Spells rest " = ".toList [(.assign, "=")] :=
  have hsign : IsLexeme "=".toList .assign "=".toList := .symbol rfl
  ((spells_word hsign (by decide) (endsLexeme_blank rest)).append (spells_blank rest)).blank

theorem spells_op (op : BinaryOp) {rest : List Char} (ends : EndsLexeme rest) :
    Spells rest op.symbol.toList [(op.kind, op.symbol)] := by
  have hlexeme : IsLexeme op.symbol.toList op.kind op.symbol.toList := by
    cases op with
    | arithmetic op => cases op <;> exact .symbol rfl
    | order op =>
        cases op with
        | greater => exact .symbol rfl
        | greaterEquals => exact .pair rfl
        | less => exact .symbol rfl
        | lessEquals => exact .pair rfl
    | equals => exact .pair rfl
    | notEquals => exact .pair rfl
    | and => exact .of_all rfl rfl
    | or => exact .of_all rfl rfl
  have noNumber : op.kind ≠ .integer := by
    unfold BinaryOp.kind
    split <;> decide
  exact spells_word hlexeme noNumber ends

theorem spells_typeName (ty : Ty) {rest : List Char} (ends : EndsLexeme rest) :
    Spells rest ty.name.toList [(.identifier, ty.name)] := by
  have hlexeme : IsLexeme ty.name.toList .identifier ty.name.toList := by
    cases ty <;> exact .of_all rfl rfl
  exact spells_word hlexeme (by decide) ends

theorem Node.IsExpression.spells {level : Nat} {node : Node} (shape : node.IsExpression level)
    (lexical : ∀ terminal ∈ node.spelling, terminal.IsLexical) {rest : List Char}
    (ends : EndsLexeme rest) : Spells rest node.render.toList node.items := by
  induction shape generalizing rest with
  | literal => exact Value.spells_render (lexical _ (List.mem_singleton_self _)) ends
  | identifier => exact spells_word (lexical _ (List.mem_singleton_self _)) (by decide) ends
  | @unary _ op operand inner ih =>
      rw [Node.spelling, List.forall_mem_cons] at lexical
      have hinside := (ih lexical.2 (endsLexeme_rightParen rest)).append (spells_rightParen rest)
      cases op with
      | minus =>
          simp only [Node.render, String.toList_append, List.append_assoc]
          exact (spells_minus _).append hinside
      | not =>
          simp only [Node.render, String.toList_append, List.append_assoc]
          exact (spells_not _).append hinside
  | @binary _ op left right _ _ _ ihLeft ihRight =>
      simp only [Node.spelling, List.forall_mem_append, List.forall_mem_cons] at lexical
      obtain ⟨lexicalLeft, -, lexicalRight⟩ := lexical
      simp only [Node.render, String.toList_append, List.append_assoc]
      refine (spells_leftParen _).cons ?_
      refine (ihLeft lexicalLeft (endsLexeme_blank _)).append (.blank ?_)
      refine (spells_op op (endsLexeme_blank _)).cons (.blank ?_)
      exact (ihRight lexicalRight (endsLexeme_rightParen rest)).append (spells_rightParen rest)
  | conditional _ _ _ _ ihCondition ihTrue ihFalse =>
      simp only [Node.spelling, List.forall_mem_append, List.forall_mem_cons] at lexical
      obtain ⟨lexicalCondition, -, lexicalTrue, -, lexicalFalse⟩ := lexical
      simp only [Node.render, String.toList_append, List.append_assoc]
      refine (spells_leftParen _).cons ?_
      refine (ihCondition lexicalCondition (endsLexeme_blank _)).append ((spells_then _).cons ?_)
      refine (ihTrue lexicalTrue (endsLexeme_blank _)).append ((spells_else _).cons ?_)
      exact (ihFalse lexicalFalse (endsLexeme_rightParen rest)).append (spells_rightParen rest)

theorem spells_parameter {parameter : Parameter}
    (lexical : ∀ terminal ∈ parameter.spelling, terminal.IsLexical) {rest : List Char}
    (ends : EndsLexeme rest) : Spells rest parameter.render.toList parameter.items := by
  have hname := lexical (.identifier parameter.name) (List.mem_cons_self ..)
  simp only [Parameter.render, String.toList_append, List.append_assoc]
  refine (spells_word hname (by decide) (endsLexeme_cons (by decide) _)).cons ?_
  exact (spells_colon _).cons (spells_typeName parameter.ty ends)

theorem spells_parameters {parameters : List Parameter}
    (lexical : ∀ terminal ∈ spellParameters parameters, terminal.IsLexical) {rest : List Char}
    (ends : EndsLexeme rest) :
    Spells rest (", ".intercalate (parameters.map Parameter.render)).toList
      (itemsOfParameters parameters) := by
  fun_induction spellParameters parameters with
  | case1 => exact spells_nil rest
  | case2 last =>
      rw [List.map_singleton, String.intercalate_singleton]
      exact spells_parameter lexical ends
  | case3 first second others ih =>
      obtain ⟨lexicalFirst, -, lexicalOthers⟩ :=
        List.forall_mem_append.1 lexical |>.imp_right List.forall_mem_cons.1
      rw [List.map_cons, List.map_cons, String.intercalate_cons_cons, String.toList_append,
        String.toList_append, List.append_assoc, ← List.map_cons]
      refine (spells_parameter lexicalFirst ?_).append ((spells_comma _).cons (ih lexicalOthers))
      exact endsLexeme_cons (c := ',') (by decide) _

theorem spells_signature {signature : Signature}
    (lexical : ∀ terminal ∈ signature.spelling, terminal.IsLexical) {rest : List Char}
    (ends : EndsLexeme rest) : Spells rest signature.render.toList signature.items := by
  simp only [Signature.spelling, List.forall_mem_append, List.forall_mem_cons] at lexical
  obtain ⟨⟨⟨hname, -, -⟩, hparameters⟩, -⟩ := lexical
  have hresult : Spells rest ("): ".toList ++ signature.result.name.toList)
      [(.rightParen, ")"), (.colon, ":"), (.identifier, signature.result.name)] :=
    (spells_rightParen _).cons ((spells_colon _).cons (spells_typeName signature.result ends))
  simp only [Signature.render, String.toList_append, List.append_assoc]
  refine (spells_word hname (by decide) (endsLexeme_cons (by decide) _)).cons ?_
  refine (spells_leftParen _).cons ((spells_parameters hparameters ?_).append hresult)
  exact endsLexeme_cons (c := ')') (by decide)
    (": ".toList ++ (signature.result.name.toList ++ rest))

theorem endsLexeme_body {rest : List Char} (ends : EndsLexeme rest) (body : List Node) :
    EndsLexeme ((renderBody body).toList ++ rest) := by
  cases body with
  | nil => exact ends
  | cons statement others =>
      simp only [renderBody, String.toList_append, List.append_assoc]
      exact endsLexeme_blank _

theorem endsLexeme_lead (links : Chain) (rest : List Char) :
    EndsLexeme (links.lead.toList ++ rest) := by
  cases links with
  | done => exact endsLexeme_blank _
  | when condition body others =>
      rw [Chain.lead]
      exact endsLexeme_blank _
  | always body others =>
      rw [Chain.lead]
      exact endsLexeme_blank _

theorem spells_closed {body : List Node} {rest : List Char}
    (hbody : Spells (" end".toList ++ rest) (renderBody body).toList (itemsOfBody body))
    (ends : EndsLexeme rest) : Spells rest ((renderBody body).toList ++ " end".toList)
      (itemsOfBody body ++ [(.kwEnd, "end")]) :=
  hbody.append (spells_reserved "end" .kwEnd (by decide) ends).blank

theorem spells_lead {links : Chain} {rest : List Char} (ends : EndsLexeme rest)
    (hlinks : Spells rest links.render.toList links.items) :
    Spells rest (links.lead.toList ++ links.render.toList) (links.leadItem :: links.items) := by
  cases links with
  | done => exact (spells_reserved "endif" .kwEndIf (by decide) ends).blank
  | when condition body others =>
      rw [Chain.lead]
      exact (spells_reserved_blank "elseif" .kwElseIf (by decide) _).blank.cons hlinks
  | always body others =>
      rw [Chain.lead]
      exact (spells_else _).cons hlinks

theorem spells_link {body : List Node} {links : Chain} {rest : List Char}
    (hbody : Spells (links.lead.toList ++ (links.render.toList ++ rest)) (renderBody body).toList
      (itemsOfBody body))
    (hlinks : Spells rest links.render.toList links.items) (ends : EndsLexeme rest) :
    Spells rest
      ("then".toList ++ ((renderBody body).toList ++ (links.lead.toList ++ links.render.toList)))
      ((.kwThen, "then") :: (itemsOfBody body ++ links.leadItem :: links.items)) := by
  have hlead := spells_lead ends hlinks
  rw [← List.append_assoc] at hbody
  refine (spells_reserved "then" .kwThen (by decide) ?_).cons (hbody.append hlead)
  rw [List.append_assoc, List.append_assoc]
  exact endsLexeme_body (endsLexeme_lead links _) body

mutual

theorem spells_statement (node : Node) (shape : node.IsStatement)
    (lexical : ∀ terminal ∈ node.spelling, terminal.IsLexical) {rest : List Char}
    (ends : EndsLexeme rest) : Spells rest node.render.toList node.items := by
  cases shape with
  | @ifChain links shape =>
      rw [Node.spelling, List.forall_mem_cons] at lexical
      rw [Node.render, String.toList_append]
      exact (spells_reserved_blank "if" .kwIf (by decide) _).cons
        (spells_chain links shape lexical.2 ends)
  | @whileLoop condition content head statements =>
      simp only [Node.spelling, List.forall_mem_cons, List.forall_mem_append] at lexical
      obtain ⟨-, lexicalHead, lexicalBody, -⟩ := lexical
      simp only [Node.render, String.toList_append, List.append_assoc]
      have hbody : Spells (" end".toList ++ rest) _ _ :=
        spells_body content statements lexicalBody (endsLexeme_blank _)
      refine (spells_reserved_blank "while" .kwWhile (by decide) _).cons ?_
      refine (head.spells lexicalHead ?_).append (spells_closed hbody ends)
      rw [List.append_assoc]
      exact endsLexeme_body (endsLexeme_blank _) content
  | @function signature content statements =>
      simp only [Node.spelling, List.forall_mem_cons, List.forall_mem_append] at lexical
      obtain ⟨-, lexicalHead, lexicalBody, -⟩ := lexical
      simp only [Node.render, String.toList_append, List.append_assoc]
      have hbody : Spells (" end".toList ++ rest) _ _ :=
        spells_body content statements lexicalBody (endsLexeme_blank _)
      refine (spells_reserved_blank "def" .kwDef (by decide) _).cons ?_
      refine (spells_signature lexicalHead ?_).append (spells_closed hbody ends)
      rw [List.append_assoc]
      exact endsLexeme_body (endsLexeme_blank _) content
  | @declaration name ascribed initial value =>
      simp only [Node.spelling, List.forall_mem_cons, List.forall_mem_append] at lexical
      obtain ⟨⟨⟨-, hname, -⟩, -⟩, -, lexical⟩ := lexical
      have hvalue := (spells_assign _).cons (value.spells lexical ends)
      cases ascribed with
      | none =>
          simp only [Node.render, String.toList_append, List.append_assoc]
          exact (spells_word hname (by decide) (endsLexeme_blank _)).cons hvalue
      | some ty =>
          simp only [Node.render, String.toList_append, List.append_assoc]
          refine (spells_word hname (by decide) (endsLexeme_cons (by decide) _)).cons ?_
          exact (spells_colon _).cons ((spells_typeName ty (endsLexeme_blank _)).cons hvalue)
  | assignment value =>
      simp only [Node.spelling, List.forall_mem_cons, List.forall_mem_append] at lexical
      obtain ⟨⟨hname, -⟩, lexical⟩ := lexical
      simp only [Node.render, String.toList_append, List.append_assoc]
      refine (spells_word hname (by decide) (endsLexeme_blank _)).cons ?_
      exact (spells_assign _).cons (value.spells lexical ends)
  | returnValue value =>
      rw [Node.spelling, List.forall_mem_cons] at lexical
      rw [Node.render, String.toList_append]
      exact (spells_reserved_blank "return" .kwReturn (by decide) _).cons
        (value.spells lexical.2 ends)
  | breakLoop => exact spells_reserved "break" .kwBreak (by decide) ends
  | nextRound => exact spells_reserved "next" .kwNext (by decide) ends
  | expression value => exact value.spells lexical ends

theorem spells_chain (links : Chain) (shape : links.IsIf)
    (lexical : ∀ terminal ∈ links.spelling, terminal.IsLexical) {rest : List Char}
    (ends : EndsLexeme rest) : Spells rest links.render.toList links.items := by
  cases links with
  | done => cases shape
  | always content others => cases shape
  | when condition content others =>
      simp only [Chain.spelling, List.forall_mem_cons, List.forall_mem_append] at lexical
      obtain ⟨lexicalHead, -, lexicalBody, -, lexicalOthers⟩ := lexical
      have hlinks : condition.IsExpression BinaryOp.loosest ∧
          (∀ node ∈ content, node.IsStatement) ∧
          Spells rest others.render.toList others.items := by
        cases shape with
        | last head statements => exact ⟨head, statements, spells_nil rest⟩
        | @otherwise _ _ final head statements finals =>
            rw [Chain.spelling, List.forall_mem_cons, List.forall_mem_append] at lexicalOthers
            have hfinal := spells_body final finals lexicalOthers.2.1 (endsLexeme_lead .done rest)
            have hdone : Spells rest Chain.done.render.toList Chain.done.items := spells_nil rest
            have hlink := spells_link hfinal hdone ends
            simp only [Chain.render, String.toList_append, List.append_assoc]
            exact ⟨head, statements, hlink⟩
        | link head statements links =>
            exact ⟨head, statements, spells_chain others links lexicalOthers ends⟩
      obtain ⟨head, statements, hothers⟩ := hlinks
      have hbody := spells_body content statements lexicalBody
        (endsLexeme_lead others (others.render.toList ++ rest))
      have hlink := (spells_link hbody hothers ends).blank
      simp only [Chain.render, String.toList_append, List.append_assoc]
      exact (head.spells lexicalHead (endsLexeme_blank _)).append hlink

theorem spells_body (content : List Node) (shape : ∀ node ∈ content, node.IsStatement)
    (lexical : ∀ terminal ∈ spellBody content, terminal.IsLexical) {rest : List Char}
    (ends : EndsLexeme rest) :
    Spells rest (renderBody content).toList (itemsOfBody content) := by
  cases content with
  | nil => exact spells_nil rest
  | cons first others =>
      obtain ⟨hfirst, shapes⟩ := List.forall_mem_cons.1 shape
      simp only [spellBody, List.forall_mem_append] at lexical
      have hothers := spells_body others shapes lexical.2 ends
      cases others with
      | nil =>
          simp only [renderBody, itemsOfBody, List.isEmpty_nil, if_true, String.append_empty,
            String.toList_append, List.append_nil]
          exact (spells_statement first hfirst lexical.1.1 ends).blank
      | cons second others =>
          rw [renderBody, itemsOfBody]
          simp only [List.isEmpty_cons, Bool.false_eq_true, if_false, String.toList_append,
            List.append_assoc]
          refine .blank ((spells_statement first hfirst lexical.1.1 ?_).append ?_)
          · exact endsLexeme_cons (c := ';') (by decide) _
          · exact (spells_symbol (c := ';') rfl (by decide) _).cons hothers

end

theorem Token.Spells.isLexical {token : Token} {terminal : Terminal} (h : token.Spells terminal)
    (isLexeme : token.IsLexeme) : terminal.IsLexical := by
  obtain ⟨spelling, hlexeme⟩ := isLexeme
  cases terminal with
  | mark kind => trivial
  | typeName ty => trivial
  | identifier name =>
      obtain ⟨hkind, rfl⟩ := h
      rw [hkind] at hlexeme
      have hspelling := hlexeme.content_eq (by decide) (by decide)
      rwa [← hspelling] at hlexeme
  | literal value =>
      cases value with
      | integer i =>
          obtain ⟨hkind, hvalue⟩ := h
          rw [hkind] at hlexeme
          rw [Integer.ofNumeral?_of_digits hlexeme.isDigit_of_integer] at hvalue
          obtain ⟨n, -, hn⟩ := Option.bind_eq_some_iff.1 hvalue
          rw [Terminal.IsLexical, Value.IsUnsigned, Integer.ofInt?_eq_some_iff.1 hn]
          exact Int.natCast_nonneg n
      | _ => trivial

theorem forall_isLexical {taken : List Token} {terminals : List Terminal}
    (h : List.Forall₂ Token.Spells taken terminals) (isLexeme : ∀ token ∈ taken, token.IsLexeme) :
    ∀ terminal ∈ terminals, terminal.IsLexical := by
  induction h with
  | nil => simp
  | cons hspells _ ih =>
      obtain ⟨hfirst, hothers⟩ := List.forall_mem_cons.1 isLexeme
      exact List.forall_mem_cons.2 ⟨hspells.isLexical hfirst, ih hothers⟩

/-- A statement that is read from the tokens of a text is one of the grammar, and scanning its
textual form finds the lexemes of this form. -/
theorem exists_scan_render {source : String} {tokens : List Token}
    (hscan : scan source = .ok tokens) {node : Node}
    (mem : node ∈ (parse tokens).statements) : node.IsStatement ∧ ∃ found,
      scan node.render = .ok found ∧ found.map Token.item = node.items ++ [(.eof, "")] := by
  obtain ⟨found, mark, rfl, hmark, isLexeme⟩ := exists_eq_append_of_scan hscan
  obtain ⟨readable, rest, ⟨taken, hspells, hfound⟩, -⟩ :=
    statementsFrom_sound nestingLimit (beforeEnd (found ++ [mark]))
  rw [beforeEnd_concat hmark isLexeme] at readable hspells hfound
  replace mem : node ∈ (statementsFrom nestingLimit found found).1 := by
    rwa [parse, parseWithin, beforeEnd_concat hmark isLexeme] at mem
  have shape := (readable node mem).shape
  have lexical : ∀ terminal ∈ node.spelling, terminal.IsLexical := by
    intro terminal hterminal
    refine forall_isLexical hspells (fun token htoken => isLexeme token ?_) terminal ?_
    · rw [hfound]
      exact List.mem_append_left rest htoken
    · obtain ⟨before, after, hsplit⟩ := List.append_of_mem mem
      rw [hsplit, spellBody_append, spellBody]
      simp [hterminal]
  exact ⟨shape, exists_scan_of_spells (spells_statement node shape lexical endsLexeme_nil)⟩

end Script

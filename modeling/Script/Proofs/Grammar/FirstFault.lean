import Mathlib.Data.List.TakeWhile
import Mathlib.Order.Bounds.Defs
import Script.Proofs.Grammar.Completion
import Script.Proofs.Grammar.Program
/-!
# Errors are found at the first impossible token

A program is told to be wrong at the first token with which it can not be right any more, whatever
follows.  The tokens before this one are the beginning of some program without an error, and the
tokens after it have no influence on the error.  The limit on nesting is left aside: a list of
tokens is accepted here if it is read without an error under some limit.
-/

namespace Script

/-- Each level of nesting in an expression is spelled by a token at least. -/
theorem Node.IsExpression.nesting_lt_length {level : Nat} {node : Node}
    (shape : node.IsExpression level) : node.nesting < node.spelling.length := by
  induction shape with
  | literal nonvoid => simp [Node.nesting, Node.spelling]
  | identifier => simp [Node.nesting, Node.spelling]
  | unary inner ih =>
      simp only [Node.nesting, Node.spelling, List.length_cons]
      omega
  | binary le onLeft onRight ihLeft ihRight =>
      simp only [Node.nesting, Node.spelling, List.length_append, List.length_cons]
      omega
  | conditional le ofCondition ofTrue ofFalse ihCondition ihTrue ihFalse =>
      simp only [Node.nesting, Node.spelling, List.length_append, List.length_cons]
      omega

mutual

theorem depth_le_length_of_isStatement (node : Node) (shape : node.IsStatement) :
    node.depth ≤ node.statementSpelling.length := by
  cases shape with
  | declaration value | assignment value | returnValue value =>
      have := value.nesting_lt_length
      simp only [Node.depth, Node.statementSpelling, Node.spelling, List.length_append,
        List.length_cons]
      omega
  | @ifChain links shape =>
      have := depth_le_length_of_isIf links shape
      simp only [Node.depth, Node.statementSpelling, Node.spelling, List.length_append,
        List.length_cons]
      omega
  | @whileLoop condition content head statements =>
      have hhead := head.nesting_lt_length
      have hbody := depthOfBody_le_length content statements
      simp only [Node.depth, Node.statementSpelling, Node.spelling, List.length_append,
        List.length_cons]
      omega
  | @function signature content statements =>
      have hbody := depthOfBody_le_length content statements
      simp only [Node.depth, Node.statementSpelling, Node.spelling, List.length_append,
        List.length_cons]
      omega
  | breakLoop | nextRound => simp [Node.depth]
  | expression value =>
      have := value.nesting_lt_length
      rw [value.depth_eq, value.statementSpelling_eq, List.length_append]
      omega

theorem depth_le_length_of_isIf (links : Chain) (shape : links.IsIf) :
    links.depth ≤ links.spelling.length := by
  cases shape with
  | @last condition content head statements =>
      have hhead := head.nesting_lt_length
      have hbody := depthOfBody_le_length content statements
      simp only [Chain.depth, Chain.spelling, List.length_append, List.length_cons]
      omega
  | @otherwise condition content final head statements finals =>
      have hhead := head.nesting_lt_length
      have hbody := depthOfBody_le_length content statements
      have hfinal := depthOfBody_le_length final finals
      simp only [Chain.depth, Chain.spelling, List.length_append, List.length_cons]
      omega
  | @link condition content others head statements shape =>
      have hhead := head.nesting_lt_length
      have hbody := depthOfBody_le_length content statements
      have hlinks := depth_le_length_of_isIf others shape
      rw [Chain.depth_link shape]
      simp only [Chain.spelling, List.length_append, List.length_cons]
      omega

theorem depthOfBody_le_length (content : List Node) (shape : ∀ node ∈ content, node.IsStatement) :
    depthOfBody content ≤ (spellBody content).length + 1 := by
  cases content with
  | nil => simp [depthOfBody]
  | cons first others =>
      obtain ⟨shape, shapes⟩ := List.forall_mem_cons.1 shape
      have hfirst := depth_le_length_of_isStatement first shape
      have hothers := depthOfBody_le_length others shapes
      rw [Node.statementSpelling, List.length_append] at hfirst
      simp only [depthOfBody, spellBody, List.length_append]
      omega

end

namespace Grammar

def withEndMark (tokens : List Token) : List Token :=
  if tokens.getLast?.map (·.kind) = some .eof then tokens
  else tokens ++ [⟨.eof, "", (tokens.getLast?.map (·.line)).getD 1⟩]

/-- Whether a list of tokens is read without an error if nesting may go deep enough. -/
def IsAccepted (tokens : List Token) : Prop := ∃ limit, (parseWithin limit tokens).failure = none

/-- Whether a list of tokens can be completed to one that is accepted. -/
def IsViable (tokens : List Token) : Prop := ∃ following, IsAccepted (tokens ++ following)

theorem failure_eq_none_iff {limit : Nat} {tokens : List Token} :
    (parseWithin limit tokens).failure = none ↔
      ∃ program : List Node, (∀ node ∈ program, node.IsReadable (limit + 1)) ∧
        Spans (spellBody program) (beforeEnd tokens) [] := by
  constructor
  · intro h
    exact ⟨(parseWithin limit tokens).statements, parseWithin_eq_iff.1 (by rw [← h])⟩
  · rintro ⟨program, h⟩
    rw [parseWithin_eq_iff.2 h]

theorem failure_eq_none_of_le {few many : Nat} (le : few ≤ many) {tokens : List Token}
    (h : (parseWithin few tokens).failure = none) : (parseWithin many tokens).failure = none := by
  obtain ⟨program, readable, hspans⟩ := failure_eq_none_iff.1 h
  refine failure_eq_none_iff.2 ⟨program, fun node mem => ?_, hspans⟩
  have hnode := readable node mem
  exact ⟨hnode.shape, Nat.lt_of_lt_of_le hnode.depth_lt (Nat.succ_le_succ le), hnode.separated⟩

/-- A list of tokens is never shorter than the nesting in it is deep, so a limit as great as its
length is no limit. -/
theorem isAccepted_iff {tokens : List Token} :
    IsAccepted tokens ↔ (parseWithin tokens.length tokens).failure = none := by
  refine ⟨fun ⟨limit, h⟩ => ?_, fun h => ⟨_, h⟩⟩
  obtain ⟨program, readable, written, hspells, hbefore⟩ := failure_eq_none_iff.1 h
  have shapes : ∀ node ∈ program, node.IsStatement := fun node mem => (readable node mem).shape
  have hlength : (spellBody program).length ≤ tokens.length := by
    rw [← hspells.length_eq, ← List.append_nil written, ← hbefore]
    exact (List.takeWhile_prefix _).length_le
  have hdepth := depthOfBody_le_iff.1 (depthOfBody_le_length program shapes)
  refine failure_eq_none_iff.2 ⟨program, fun node mem => ?_, written, hspells, hbefore⟩
  have hnode := hdepth node mem
  exact ⟨shapes node mem, by omega, (readable node mem).separated⟩

instance (tokens : List Token) : Decidable (IsAccepted tokens) :=
  decidable_of_iff _ isAccepted_iff.symm

theorem IsViable.of_append {first second : List Token} (h : IsViable (first ++ second)) :
    IsViable first := by
  obtain ⟨following, h⟩ := h
  exact ⟨second ++ following, by rwa [← List.append_assoc]⟩

section EndMark

theorem isOpen_beforeEnd (tokens : List Token) : ∀ token ∈ beforeEnd tokens, token.kind ≠ .eof := by
  intro token mem
  simpa using List.mem_takeWhile_imp mem

theorem endLine_append_of_open {first : List Token} (isOpen : ∀ token ∈ first, token.kind ≠ .eof)
    {mark : Token} (hmark : mark.kind = .eof) (after : List Token) :
    endLine (first ++ mark :: after) = mark.line := by
  rw [endLine_append isOpen (List.cons_ne_nil _ _), endLine, List.find?_cons_of_pos (by simpa)]

/-- A list with an end mark is the list before the end, an end mark, and what nothing depends on. -/
theorem exists_endMark (tokens : List Token) : ∃ mark after,
    withEndMark tokens = beforeEnd tokens ++ mark :: after ∧ mark.kind = .eof ∧
      endLine tokens = mark.line := by
  cases hfind : tokens.find? (·.kind = .eof) with
  | some mark =>
      obtain ⟨hmark, first, after, rfl, hfirst⟩ := List.find?_eq_some_iff_append.1 hfind
      have isOpen : ∀ token ∈ first, token.kind ≠ .eof := by simpa using hfirst
      have hmark : mark.kind = .eof := by simpa using hmark
      rw [beforeEnd_append_mark isOpen hmark, endLine_append_of_open isOpen hmark, withEndMark]
      split
      · exact ⟨mark, after, rfl, hmark, rfl⟩
      · exact ⟨mark, after ++ [_], by rw [List.append_assoc, List.cons_append], hmark, rfl⟩
  | none =>
      have isOpen : ∀ token ∈ tokens, token.kind ≠ .eof := by simpa using hfind
      have hlast : tokens.getLast?.map (·.kind) ≠ some .eof := by
        intro h
        obtain ⟨token, htoken, hkind⟩ := Option.map_eq_some_iff.1 h
        exact isOpen token (List.mem_of_getLast? htoken) hkind
      rw [beforeEnd_of_open isOpen, withEndMark, if_neg hlast, endLine, hfind]
      exact ⟨_, [], rfl, rfl, rfl⟩

theorem beforeEnd_withEndMark (tokens : List Token) :
    beforeEnd (withEndMark tokens) = beforeEnd tokens := by
  obtain ⟨mark, after, htokens, hmark, -⟩ := exists_endMark tokens
  rw [htokens, beforeEnd_append_mark (isOpen_beforeEnd tokens) hmark]

theorem parse_withEndMark (tokens : List Token) : parse (withEndMark tokens) = parse tokens := by
  obtain ⟨mark, after, htokens, hmark, hline⟩ := exists_endMark tokens
  have hend : endLine (withEndMark tokens) = endLine tokens := by
    rw [htokens, endLine_append_of_open (isOpen_beforeEnd tokens) hmark, hline]
  rw [parse, parse, parseWithin, parseWithin, beforeEnd_withEndMark, hend]

end EndMark

/-- A program is read like a body that ends with the tokens. -/
theorem body_statement (limit : Nat) (tokens : List Token)
    (isOpen : ∀ token ∈ tokens, token.kind ≠ .eof) :
    body (statement limit) [] tokens =
      match statementsFrom limit tokens tokens with
      | (nodes, none) => .ok nodes []
      | (_, some (fault, rest)) => .error fault rest := by
  induction hn : tokens.length using Nat.strongRecOn generalizing tokens with
  | ind n ih =>
    rw [body_apply (takes_statement limit)]
    cases tokens with
    | nil => rfl
    | cons token others =>
        have hkind : headKind (token :: others) ≠ .eof := isOpen token (by simp)
        rw [if_neg (by simpa using hkind), statementsFrom_self]
        cases hrun : statement limit (token :: others) with
        | error fault rest => rfl
        | ok node rest =>
            obtain ⟨hsuffix, shorter⟩ := (takes_statement limit).ok hrun
            simp only
            have isOpen' : ∀ token ∈ rest, token.kind ≠ .eof := fun found mem =>
              isOpen found (hsuffix.mem mem)
            rw [ih rest.length (by omega) rest isOpen' rfl]
            cases hrest : statementsFrom limit rest rest with
            | mk nodes failure => cases failure <;> rfl

/-- The error of a program is the fault of the body that the program is. -/
theorem error?_parseWithin (limit : Nat) (tokens : List Token) :
    (parseWithin limit tokens).error? =
      match body (statement limit) [] (beforeEnd tokens) with
      | .ok _ _ => none
      | .error fault rest => some ⟨fault, fault.line rest (endLine tokens)⟩ := by
  rw [body_statement limit _ (isOpen_beforeEnd tokens), Parse.error?, parseWithin]
  cases statementsFrom limit (beforeEnd tokens) (beforeEnd tokens) with
  | mk nodes failure =>
      cases failure with
      | none => rfl
      | some found => rfl

/-- The line of a fault is the one of the first token from the fault on. -/
theorem Fault.line_eq (fault : Fault) (rest : List Token) (endLine : Nat) :
    fault.line rest endLine = ((fault.remaining rest).head?.map (·.line)).getD endLine := by
  cases fault <;> cases rest <;> rfl

/-- A fault with the first token of `culprit :: following` has the line of this token, also if it is
the end mark. -/
theorem line_culprit {taken : List Token} (isOpen : ∀ token ∈ taken, token.kind ≠ .eof)
    {culprit : Token} {following rest : List Token} {fault : Fault}
    (h : fault.remaining rest = beforeEnd (culprit :: following)) :
    fault.line rest (endLine (taken ++ culprit :: following)) = culprit.line := by
  rw [Fault.line_eq, h, beforeEnd]
  by_cases hend : culprit.kind = .eof
  · rw [List.takeWhile_cons_of_neg (by simpa), endLine_append_of_open isOpen hend]
    rfl
  · rw [List.takeWhile_cons_of_pos (by simpa)]
    rfl

theorem head?_beforeEnd_cons (culprit : Token) (following others : List Token) :
    (beforeEnd (culprit :: following)).head? = (beforeEnd (culprit :: others)).head? := by
  by_cases hend : culprit.kind = .eof
  · simp [beforeEnd, hend]
  · simp [beforeEnd, hend]

theorem exists_written {terminals : List Terminal}
    (proper : ∀ terminal ∈ terminals, terminal.IsProper) :
    ∃ written, List.Forall₂ Token.Spells written terminals := by
  induction terminals with
  | nil => exact ⟨[], .nil⟩
  | cons first others ih =>
      obtain ⟨hfirst, hothers⟩ := List.forall_mem_cons.1 proper
      obtain ⟨token, hspells⟩ := hfirst.exists_spells
      obtain ⟨written, hwritten⟩ := ih hothers
      exact ⟨token :: written, .cons hspells hwritten⟩

/-- Tokens that spell the beginning of a program can be completed. -/
theorem isViable_of_spells {program : List Node} {before after : List Terminal}
    {taken : List Token} (hprogram : bodies program (before ++ after))
    (hspells : List.Forall₂ Token.Spells taken before) : IsViable taken := by
  obtain ⟨legible, hterminals⟩ := hprogram
  have proper := isProper_body program fun node mem => (legible node mem).shape
  rw [hterminals] at proper
  obtain ⟨written, hwritten⟩ := exists_written (List.forall_mem_append.1 proper).2
  have hall := List.rel_append hspells hwritten
  have hbefore : beforeEnd (taken ++ written ++ []) = taken ++ written :=
    beforeEnd_append proper hall rfl
  rw [List.append_nil] at hbefore
  have hdepth := depthOfBody_le_iff.1 (Nat.le_refl (depthOfBody program))
  refine ⟨written, depthOfBody program, failure_eq_none_iff.2 ⟨program, fun node mem => ?_, ?_⟩⟩
  · exact (legible node mem).isReadable (Nat.lt_succ_of_lt (hdepth node mem))
  · rw [hbefore, hterminals]
    exact ⟨_, hall, (List.append_nil _).symm⟩

/-- What is read up to a fault can be completed, and the fault is there with any greater limit and
whatever comes after the token that it concerns. -/
theorem error?_parseWithin_append {tokens : List Token} {error : GrammarError}
    (failed : (parse tokens).error? = some error) (limited : error.fault ≠ .tooDeep) :
    ∃ taken culprit following, withEndMark tokens = taken ++ culprit :: following ∧
      error.line = culprit.line ∧ IsViable taken ∧
      ∀ limit, nestingLimit ≤ limit → ∀ others,
        (parseWithin limit (taken ++ culprit :: others)).error? = some error := by
  rw [← parse_withEndMark, parse, error?_parseWithin, beforeEnd_withEndMark] at failed
  cases hrun : body (statement nestingLimit) [] (beforeEnd tokens) with
  | ok nodes rest => simp [hrun] at failed
  | error fault rest =>
      simp only [hrun, Option.some.injEq] at failed
      subst failed
      -- what has been taken spells the beginning of a program
      obtain ⟨program, before, after, hprogram, taken, hspells, hstream⟩ :=
        ((keeps_body (keeps_statement nestingLimit) []).keeps _).error hrun limited
      obtain ⟨mark, rear, htokens, -⟩ := exists_endMark tokens
      obtain ⟨culprit, following, hculprit⟩ : ∃ culprit following,
          fault.remaining rest ++ mark :: rear = culprit :: following :=
        List.exists_cons_of_ne_nil (by simp)
      rw [hstream, List.append_assoc, hculprit] at htokens
      have isOpen : ∀ token ∈ taken, token.kind ≠ .eof := fun token mem =>
        isOpen_beforeEnd tokens token (hstream ▸ List.mem_append_left _ mem)
      have hremaining : fault.remaining rest = beforeEnd (culprit :: following) := by
        have hbefore := beforeEnd_withEndMark tokens
        rw [htokens, beforeEnd_append_of_open _ isOpen, hstream] at hbefore
        exact (List.append_cancel_left hbefore).symm
      have hline := line_culprit isOpen hremaining
      refine ⟨taken, culprit, following, htokens, by rw [htokens, hline],
        isViable_of_spells hprogram hspells, fun limit le others => ?_⟩
      -- with a greater limit, and whatever follows the culprit, reading finds the same fault
      have settles := settles_body (takes_statement nestingLimit) (takes_statement limit)
        (settles_statement le) []
      obtain ⟨taken', hstream', hsettled⟩ := (settles (beforeEnd tokens)).error hrun limited
      obtain rfl : taken' = taken := List.append_cancel_right (hstream'.symm.trans hstream)
      obtain ⟨rest', hrun', hrest'⟩ := hsettled (beforeEnd (culprit :: others))
        (by rw [hremaining]; exact head?_beforeEnd_cons _ _ _)
      rw [error?_parseWithin, beforeEnd_append_of_open _ isOpen, hrun']
      simp only [line_culprit isOpen hrest', htokens, hline]

end Grammar

open Grammar

/-- The error of a program, if it is not for the limit on nesting, concerns the first token up to
which the program can not be completed, and depends on nothing after this token. -/
theorem first_impossible_of_parse {tokens : List Token} {error : GrammarError}
    (failed : (parse tokens).error? = some error) (limited : error.fault ≠ .tooDeep) :
    ∃ (k : Nat) (lt : k < (withEndMark tokens).length),
      IsLeast {k | ¬ IsViable ((withEndMark tokens).take (k + 1))} k ∧
      (withEndMark tokens)[k].line = error.line ∧
      (∀ j ≤ k, IsViable ((withEndMark tokens).take j)) ∧
      ∀ following,
        (parse ((withEndMark tokens).take (k + 1) ++ following)).error? = some error := by
  obtain ⟨taken, culprit, after, htokens, hline, hviable, hfails⟩ :=
    error?_parseWithin_append failed limited
  rw [htokens]
  have htake : (taken ++ culprit :: after).take (taken.length + 1) = taken ++ [culprit] := by
    rw [List.take_length_add_append]
    rfl
  have shorter (j : Nat) (le : j ≤ taken.length) :
      IsViable ((taken ++ culprit :: after).take j) := by
    rw [List.take_append_of_le_length le]
    exact IsViable.of_append ((List.take_append_drop j taken).symm ▸ hviable)
  refine ⟨taken.length, by simp, ⟨?_, fun j impossible => ?_⟩, ?_, shorter, fun following => ?_⟩
  · -- a completion within some limit is one within any greater limit, where the error is found too
    rintro ⟨following, limit, haccepted⟩
    have hmore := failure_eq_none_of_le (Nat.le_max_left limit nestingLimit) haccepted
    have herror := hfails _ (Nat.le_max_right limit nestingLimit) following
    rw [htake, List.append_assoc, List.singleton_append] at hmore
    simp [Parse.error?, hmore] at herror
  · by_contra lt
    exact impossible (shorter (j + 1) (by omega))
  · simpa using hline.symm
  · rw [htake, List.append_assoc, List.singleton_append]
    exact hfails nestingLimit (Nat.le_refl _) following

def untypable : List Token :=
  [⟨.kwIf, "if", 1⟩, ⟨.identifier, "b", 1⟩, ⟨.kwThen, "then", 1⟩, ⟨.kwLet, "let", 2⟩,
    ⟨.identifier, "x", 2⟩, ⟨.colon, ":", 2⟩, ⟨.identifier, "float", 3⟩, ⟨.assign, "=", 4⟩]

/-- The fault is with the name, which has been taken when the fault is found. -/
theorem first_impossible_untypable :
    ((parse untypable).error? = some ⟨.unknownType ⟨.identifier, "float", 3⟩, 3⟩ ∧
      Fault.unknownType ⟨.identifier, "float", 3⟩ ≠ .tooDeep) ∧
    ∃ (k : Nat) (lt : k < (withEndMark untypable).length),
      IsLeast {k | ¬ IsViable ((withEndMark untypable).take (k + 1))} k ∧
      (withEndMark untypable)[k].line = 3 ∧
      (∀ j ≤ k, IsViable ((withEndMark untypable).take j)) ∧
      ∀ following, (parse ((withEndMark untypable).take (k + 1) ++ following)).error? =
        some ⟨.unknownType ⟨.identifier, "float", 3⟩, 3⟩ := by
  have failed : (parse untypable).error? = some ⟨.unknownType ⟨.identifier, "float", 3⟩, 3⟩ := by
    decide
  have limited : Fault.unknownType ⟨.identifier, "float", 3⟩ ≠ .tooDeep := by decide
  exact ⟨⟨failed, limited⟩, first_impossible_of_parse failed limited⟩

end Script

import Script.Proofs.Grammar.FirstFault
import Script.Proofs.Grammar.Walk
/-!
# How far reading goes

Reading a list of tokens goes on from position to position and comes to an end at the first end mark
at the latest.  No reader takes this mark or what is behind it, although the readers are not told
where it is: on the whole list they do what they do on the tokens before the mark.
-/

namespace Script

mutual

def Node.size : Node → Nat
  | .declaration _ _ initial => initial.size + 1
  | .assignment _ value => value.size + 1
  | .binary _ left right => left.size + right.size + 1
  | .unary _ operand => operand.size + 1
  | .conditional condition onTrue onFalse => condition.size + onTrue.size + onFalse.size + 1
  | .ifChain chain => chain.size + 1
  | .whileLoop condition body => condition.size + sizeOfBody body + 1
  | .function _ body => sizeOfBody body + 1
  | .returnValue value => value.size + 1
  | .literal _ | .identifier _ | .breakLoop | .nextRound | .malformed | .endOfInput => 1

def Chain.size : Chain → Nat
  | .done => 0
  | .when condition body others => condition.size + sizeOfBody body + others.size
  | .always body others => sizeOfBody body + others.size

def sizeOfBody : List Node → Nat
  | [] => 0
  | statement :: others => statement.size + sizeOfBody others

end

theorem Node.IsExpression.size_le {level : Nat} {node : Node} (shape : node.IsExpression level) :
    node.size ≤ node.spelling.length := by
  induction shape with
  | literal nonvoid => simp [Node.size, Node.spelling]
  | identifier => simp [Node.size, Node.spelling]
  | unary inner ih =>
      simp only [Node.size, Node.spelling, List.length_cons]
      omega
  | binary le onLeft onRight ihLeft ihRight =>
      simp only [Node.size, Node.spelling, List.length_append, List.length_cons]
      omega
  | conditional le ofCondition ofTrue ofFalse ihCondition ihTrue ihFalse =>
      simp only [Node.size, Node.spelling, List.length_append, List.length_cons]
      omega

mutual

theorem size_le_of_isStatement (node : Node) (shape : node.IsStatement) :
    node.size ≤ node.spelling.length := by
  cases shape with
  | declaration value | assignment value | returnValue value =>
      have hvalue := value.size_le
      simp only [Node.size, Node.spelling, List.length_append, List.length_cons]
      omega
  | @ifChain links shape =>
      have hlinks := size_le_of_isIf links shape
      simp only [Node.size, Node.spelling, List.length_cons]
      omega
  | @whileLoop condition content head statements =>
      have hhead := head.size_le
      have hbody := sizeOfBody_le content statements
      simp only [Node.size, Node.spelling, List.length_append, List.length_cons]
      omega
  | @function signature content statements =>
      have hbody := sizeOfBody_le content statements
      simp only [Node.size, Node.spelling, List.length_append, List.length_cons]
      omega
  | breakLoop | nextRound => simp [Node.size, Node.spelling]
  | expression value => exact value.size_le

theorem size_le_of_isIf (links : Chain) (shape : links.IsIf) :
    links.size ≤ links.spelling.length := by
  cases shape with
  | @last condition content head statements =>
      have hhead := head.size_le
      have hbody := sizeOfBody_le content statements
      simp only [Chain.size, Chain.spelling, List.length_append, List.length_cons]
      omega
  | @otherwise condition content final head statements finals =>
      have hhead := head.size_le
      have hbody := sizeOfBody_le content statements
      have hfinal := sizeOfBody_le final finals
      simp only [Chain.size, Chain.spelling, List.length_append, List.length_cons]
      omega
  | @link condition content others head statements shape =>
      have hhead := head.size_le
      have hbody := sizeOfBody_le content statements
      have hlinks := size_le_of_isIf others shape
      simp only [Chain.size, Chain.spelling, List.length_append, List.length_cons]
      omega

/-- Each node is spelled by a token of its own at least. -/
theorem sizeOfBody_le (content : List Node) (shape : ∀ node ∈ content, node.IsStatement) :
    sizeOfBody content ≤ (spellBody content).length := by
  cases content with
  | nil => exact Nat.le_refl 0
  | cons first others =>
      obtain ⟨shape, shapes⟩ := List.forall_mem_cons.1 shape
      have hfirst := size_le_of_isStatement first shape
      have hothers := sizeOfBody_le others shapes
      simp only [sizeOfBody, spellBody, List.length_append]
      omega

end

namespace Grammar

variable {α β : Type}

def leaving (rear : List Token) :
    EStateM.Result Fault (List Token) α → EStateM.Result Fault (List Token) α
  | .ok a rest => .ok a (rest ++ rear)
  | .error fault rest => .error fault (rest ++ rear)

/-- Whether an end mark behind the tokens stops a reader like the end of the tokens does, so that
what is behind the mark is not seen. -/
def StopsAt (reader : Reader α) (tokens : List Token) : Prop :=
  (∀ token ∈ tokens, token.kind ≠ .eof) →
    (∀ a rest, reader tokens = .ok a rest → ∀ token ∈ rest, token.kind ≠ .eof) ∧
      ∀ mark rear, mark.kind = .eof →
        reader (tokens ++ mark :: rear) = leaving (mark :: rear) (reader tokens)

theorem headKind_append_mark (tokens : List Token) {mark : Token} (hmark : mark.kind = .eof)
    (rear : List Token) : headKind (tokens ++ mark :: rear) = headKind tokens := by
  cases tokens with
  | nil => exact hmark
  | cons token rest => rfl

theorem operand_mark {mark : Token} (hmark : mark.kind = .eof) :
    operand mark = .error (.expected .expression) := by
  simp [operand, hmark]

theorem StopsAt.bind {first : Reader α} {next : α → Reader β} {tokens : List Token}
    (hfirst : StopsAt first tokens)
    (hnext : ∀ a rest, first tokens = .ok a rest → StopsAt (next a) rest) :
    StopsAt (first >>= next) tokens := by
  intro isOpen
  obtain ⟨hrest, hmarked⟩ := hfirst isOpen
  rw [Step.bind_apply]
  simp only [Step.bind_apply]
  cases hrun : first tokens with
  | error fault rest =>
      refine ⟨by simp, fun mark rear hmark => ?_⟩
      rw [hmarked mark rear hmark, hrun]
      rfl
  | ok a rest =>
      obtain ⟨hlast, hmarked'⟩ := hnext a rest hrun (hrest a rest hrun)
      refine ⟨hlast, fun mark rear hmark => ?_⟩
      rw [hmarked mark rear hmark, hrun]
      exact hmarked' mark rear hmark

theorem stopsAt_expect {kind : Kind} (inside : kind ≠ .eof) (what : Expectation)
    (tokens : List Token) : StopsAt (expect kind what) tokens := by
  intro isOpen
  cases tokens with
  | nil =>
      refine ⟨by simp [expect], fun mark rear hmark => ?_⟩
      have hkind : mark.kind ≠ kind := by rw [hmark]; exact inside.symm
      simp [expect, hkind, leaving]
  | cons token rest =>
      by_cases hkind : token.kind = kind
      · refine ⟨?_, fun mark rear hmark => by simp [expect, hkind, leaving]⟩
        intro a rest' hrun
        simp only [expect, hkind, if_true, EStateM.Result.ok.injEq] at hrun
        rw [← hrun.2]
        exact (List.forall_mem_cons.1 isOpen).2
      · exact ⟨by simp [expect, hkind], fun mark rear hmark => by simp [expect, hkind, leaving]⟩

theorem stopsAt_primary (tokens : List Token) : StopsAt primary tokens := by
  intro isOpen
  cases tokens with
  | nil =>
      refine ⟨by simp [primary], fun mark rear hmark => ?_⟩
      simp [primary, operand_mark hmark, leaving]
  | cons token rest =>
      cases hoperand : operand token with
      | ok node =>
          refine ⟨?_, fun mark rear _ => by simp [primary, hoperand, leaving]⟩
          intro a rest' hrun
          simp only [primary, hoperand, EStateM.Result.ok.injEq] at hrun
          rw [← hrun.2]
          exact (List.forall_mem_cons.1 isOpen).2
      | error fault =>
          refine ⟨by simp [primary, hoperand], fun mark rear _ => ?_⟩
          simp [primary, hoperand, leaving]

theorem stopsAt_advance {tokens : List Token} (inside : headKind tokens ≠ .eof) :
    StopsAt advance tokens := by
  intro isOpen
  cases tokens with
  | nil => exact absurd rfl inside
  | cons token rest =>
      refine ⟨?_, fun mark rear _ => rfl⟩
      intro a rest' hrun
      simp only [advance_apply, List.tail_cons, EStateM.Result.ok.injEq] at hrun
      rw [← hrun.2]
      exact (List.forall_mem_cons.1 isOpen).2

/-- The two tokens that are looked at are before the end mark, or the second one is the mark. -/
theorem stopsAt_choice {first second : Reader α} {tokens : List Token}
    (inside : headKind tokens ≠ .eof) (hfirst : StopsAt first tokens)
    (hsecond : StopsAt second tokens) :
    StopsAt (get >>= fun tokens => if headKind tokens.tail = .assign then first else second)
      tokens := by
  have happly (other : List Token) :
      (get >>= fun tokens => if headKind tokens.tail = .assign then first else second) other =
        if headKind other.tail = .assign then first other else second other := by
    rw [Step.get_bind]
    split <;> rfl
  cases tokens with
  | nil => exact absurd rfl inside
  | cons token rest =>
      intro isOpen
      have htail (mark : Token) (rear : List Token) (hmark : mark.kind = .eof) :
          headKind (token :: rest ++ mark :: rear).tail = headKind rest :=
        headKind_append_mark rest hmark rear
      by_cases hassign : headKind rest = .assign
      · obtain ⟨hopen, hmarked⟩ := hfirst isOpen
        rw [happly, List.tail_cons, if_pos hassign]
        refine ⟨hopen, fun mark rear hmark => ?_⟩
        rw [happly, htail mark rear hmark, if_pos hassign]
        exact hmarked mark rear hmark
      · obtain ⟨hopen, hmarked⟩ := hsecond isOpen
        rw [happly, List.tail_cons, if_neg hassign]
        refine ⟨hopen, fun mark rear hmark => ?_⟩
        rw [happly, htail mark rear hmark, if_neg hassign]
        exact hmarked mark rear hmark

theorem walk_stopsAt : Walk StopsAt where
  pure a tokens := by
    refine fun isOpen => ⟨fun b rest hrun => ?_, fun mark rear _ => rfl⟩
    cases hrun
    exact isOpen
  fails general tokens := fun _ => ⟨by simp, fun mark rear _ => rfl⟩
  bind := .bind
  peek tokens := by
    refine fun isOpen => ⟨fun kind rest hrun => ?_, fun mark rear hmark => ?_⟩
    · cases hrun
      exact isOpen
    · rw [peek_apply, headKind_append_mark tokens hmark]
      rfl
  advance := stopsAt_advance
  expect inside _ := stopsAt_expect inside _
  primary := stopsAt_primary
  choice := stopsAt_choice

/-- Whether a reader that begins at a position of the stream, at the latest at its end mark at
`last`, ends at a position that is not beyond `last` either, and behind where it began if it
succeeds. -/
def Advances (stream : List Token) (last : Nat) (reader : Reader α) : Prop :=
  ∀ position ≤ last,
    (∃ a next, position < next ∧ next ≤ last ∧
      reader (stream.drop position) = .ok a (stream.drop next)) ∨
    ∃ fault next, position ≤ next ∧ next ≤ last ∧
      reader (stream.drop position) = .error fault (stream.drop next)

section Positions

variable {before : List Token} {mark : Token}

theorem exists_drop_of_suffix {position : Nat} {rest : List Token}
    (h : rest <:+ before.drop position) (le : position ≤ before.length) :
    ∃ next, position ≤ next ∧ next ≤ before.length ∧ rest = before.drop next := by
  have shorter := h.length_le
  rw [List.length_drop] at shorter
  refine ⟨before.length - rest.length, by omega, by omega, ?_⟩
  exact List.suffix_iff_eq_drop.1 (h.trans (List.drop_suffix position before))

/-- On the stream a reader does what it does on the tokens before the end mark. -/
theorem read_stream (isOpen : ∀ token ∈ before, token.kind ≠ .eof) (hmark : mark.kind = .eof)
    (rear : List Token) {reader : Reader α} (stops : ∀ tokens, StopsAt reader tokens)
    {position : Nat} (le : position ≤ before.length) :
    reader ((before ++ mark :: rear).drop position) =
      leaving (mark :: rear) (reader (before.drop position)) := by
  rw [List.drop_append_of_le_length le]
  refine (stops _ fun token mem => isOpen token (List.mem_of_mem_drop mem)).2 mark rear hmark

/-- What a reader does from a position before the end mark, told for the tokens before the mark and
for the whole stream. -/
theorem read_position (isOpen : ∀ token ∈ before, token.kind ≠ .eof) (hmark : mark.kind = .eof)
    (rear : List Token) {reader : Reader α} (takes : Takes 1 reader)
    (stops : ∀ tokens, StopsAt reader tokens) {position : Nat} (le : position ≤ before.length) :
    (∃ a next, position < next ∧ next ≤ before.length ∧
      reader (before.drop position) = .ok a (before.drop next) ∧
      reader ((before ++ mark :: rear).drop position) =
        .ok a ((before ++ mark :: rear).drop next)) ∨
    ∃ fault next, position ≤ next ∧ next ≤ before.length ∧
      reader (before.drop position) = .error fault (before.drop next) ∧
      reader ((before ++ mark :: rear).drop position) =
        .error fault ((before ++ mark :: rear).drop next) := by
  have hstream := read_stream isOpen hmark rear stops le
  cases hrun : reader (before.drop position) with
  | ok a rest =>
      obtain ⟨hsuffix, shorter⟩ := takes.ok hrun
      obtain ⟨next, hle, hnext, rfl⟩ := exists_drop_of_suffix hsuffix le
      rw [List.length_drop, List.length_drop] at shorter
      refine .inl ⟨a, next, by omega, hnext, rfl, ?_⟩
      rw [hstream, hrun, leaving, List.drop_append_of_le_length hnext]
  | error fault rest =>
      obtain ⟨next, hle, hnext, rfl⟩ := exists_drop_of_suffix (takes.error hrun) le
      refine .inr ⟨fault, next, hle, hnext, rfl, ?_⟩
      rw [hstream, hrun, leaving, List.drop_append_of_le_length hnext]

theorem advances_of_stops (isOpen : ∀ token ∈ before, token.kind ≠ .eof)
    (hmark : mark.kind = .eof) (rear : List Token) {reader : Reader α} (takes : Takes 1 reader)
    (stops : ∀ tokens, StopsAt reader tokens) :
    Advances (before ++ mark :: rear) before.length reader := by
  intro position le
  rcases read_position isOpen hmark rear takes stops le with
    ⟨a, next, hlt, hnext, -, hrun⟩ | ⟨fault, next, hle, hnext, -, hrun⟩
  · exact .inl ⟨a, next, hlt, hnext, hrun⟩
  · exact .inr ⟨fault, next, hle, hnext, hrun⟩

end Positions

/-- What comes of reading the statements of a stream from a position on, where `last` is the
position of its end mark: the statements, and the fault that has ended the reading with its
position.  Reading goes on as long as it is not at the end mark, and each statement is behind the
one before it. -/
inductive ReadsProgram (stream : List Token) (last : Nat) :
    (position : Nat) → List Node → Option (Fault × Nat) → Prop
  | done : ReadsProgram stream last last [] none
  | fault {position next : Nat} {fault : Fault} (inside : position < last) (le : position ≤ next)
      (within : next ≤ last)
      (run : statement nestingLimit (stream.drop position) = .error fault (stream.drop next)) :
      ReadsProgram stream last position [] (some (fault, next))
  | statement {position next : Nat} {node : Node} {others : List Node}
      {failure : Option (Fault × Nat)} (inside : position < last) (progress : position < next)
      (within : next ≤ last)
      (run : statement nestingLimit (stream.drop position) = .ok node (stream.drop next))
      (rest : ReadsProgram stream last next others failure) :
      ReadsProgram stream last position (node :: others) failure

theorem readsProgram_of_stops {before : List Token} {mark : Token}
    (isOpen : ∀ token ∈ before, token.kind ≠ .eof) (hmark : mark.kind = .eof) (rear : List Token)
    {position : Nat} (le : position ≤ before.length) :
    ReadsProgram (before ++ mark :: rear) before.length position
      (statementsFrom nestingLimit (before.drop position) (before.drop position)).1
      ((statementsFrom nestingLimit (before.drop position) (before.drop position)).2.map
        fun (fault, rest) => (fault, before.length - rest.length)) := by
  induction hn : before.length - position using Nat.strongRecOn generalizing position with
  | ind n ih =>
    have hread := read_position isOpen hmark rear (takes_statement nestingLimit)
      (walk_stopsAt.statement nestingLimit) le
    by_cases hlast : position = before.length
    · rw [hlast, List.drop_length]
      exact .done
    · have hlt : position < before.length := by omega
      rw [List.drop_eq_getElem_cons hlt, statementsFrom_self, ← List.drop_eq_getElem_cons hlt]
      rcases hread with ⟨node, next, hprogress, hnext, hrun, hstream⟩ |
        ⟨fault, next, hle, hnext, hrun, hstream⟩
      · simp only [hrun]
        exact .statement hlt hprogress hnext hstream (ih _ (by omega) hnext rfl)
      · simp only [hrun, Option.map_some, List.length_drop]
        have hposition : before.length - (before.length - next) = next := by omega
        rw [hposition]
        exact .fault hlt hle hnext hstream

/-- Whether the loops of the readers end by themselves on the given tokens: a bound on their rounds
that is no less than the number of tokens plays no part, and a loop that succeeds is left at a token
that ends it. -/
structure LoopsEnd (tokens : List Token) : Prop where
  operators (budget level : Nat) (left : Node) (bound : List Token)
    (enough : tokens.length ≤ bound.length) :
    operatorsFrom (level + 1) (upTo budget level) bound left tokens =
      operatorsFrom (level + 1) (upTo budget level) tokens left tokens
  operatorsLeft (budget level : Nat) (left node : Node) (rest : List Token)
    (run : operatorsFrom (level + 1) (upTo budget level) tokens left tokens = .ok node rest) :
    operatorAt (level + 1) (headKind rest) = none
  body (budget : Nat) (stops : List Kind) (bound : List Token)
    (enough : tokens.length ≤ bound.length) :
    bodyFrom (nestedStatement budget) stops bound tokens =
      Grammar.body (nestedStatement budget) stops tokens
  bodyLeft (budget : Nat) (stops : List Kind) (nodes : List Node) (rest : List Token)
    (run : Grammar.body (nestedStatement budget) stops tokens = .ok nodes rest) :
    headKind rest = .eof ∨ headKind rest ∈ stops
  parameters (bound : List Token) (enough : tokens.length ≤ bound.length) :
    parametersFrom bound tokens = parametersFrom tokens tokens
  parametersLeft (found : List Parameter) (rest : List Token)
    (run : parametersFrom tokens tokens = .ok found rest) : headKind rest ≠ .comma

theorem operatorAt_of_operatorsFrom {level : Nat} {operand : Reader Node} (takes : Takes 1 operand)
    {left node : Node} {tokens rest : List Token}
    (run : operatorsFrom level operand tokens left tokens = .ok node rest) :
    operatorAt level (headKind rest) = none := by
  induction hn : tokens.length using Nat.strongRecOn generalizing left tokens with
  | ind n ih =>
    rw [operatorsFrom_self takes] at run
    cases hop : operatorAt level (headKind tokens) with
    | none =>
        simp only [hop, EStateM.Result.ok.injEq] at run
        rw [← run.2, hop]
    | some op =>
        simp only [hop] at run
        cases hright : operand tokens.tail with
        | error fault middle => simp [hright] at run
        | ok right middle =>
            simp only [hright] at run
            have shorter := (takes.ok hright).2
            rw [List.length_tail] at shorter
            exact ih middle.length (by omega) run rfl

theorem headKind_of_body {statement : Reader Node} (takes : Takes 1 statement) {stops : List Kind}
    {nodes : List Node} {tokens rest : List Token}
    (run : body statement stops tokens = .ok nodes rest) :
    headKind rest = .eof ∨ headKind rest ∈ stops := by
  induction hn : tokens.length using Nat.strongRecOn generalizing nodes tokens with
  | ind n ih =>
    rw [body_apply takes] at run
    by_cases hstop : headKind tokens = .eof ∨ headKind tokens ∈ stops
    · simp only [if_pos hstop, EStateM.Result.ok.injEq] at run
      rwa [← run.2]
    · rw [if_neg hstop] at run
      cases hfirst : statement tokens with
      | error fault middle => simp [hfirst] at run
      | ok first middle =>
          have shorter := (takes.ok hfirst).2
          cases hothers : body statement stops middle with
          | error fault last => simp [hfirst, hothers] at run
          | ok others last =>
              simp only [hfirst, hothers, EStateM.Result.ok.injEq] at run
              obtain ⟨-, rfl⟩ := run
              exact ih middle.length (by omega) hothers rfl

theorem headKind_of_parametersFrom {found : List Parameter} {bound tokens rest : List Token}
    (run : parametersFrom bound tokens = .ok found rest) : headKind rest ≠ .comma := by
  induction bound generalizing found tokens with
  | nil => cases run
  | cons _ bound ih =>
      obtain ⟨first, middle, -, hmiddle⟩ := (Step.bind_eq_ok_iff _).1 run
      rw [peek_bind] at hmiddle
      by_cases hcomma : headKind middle = .comma
      · rw [if_pos hcomma, Step.bind_apply, advance_apply] at hmiddle
        obtain ⟨others, last, hothers, hlast⟩ := (Step.bind_eq_ok_iff _).1 hmiddle
        obtain ⟨-, rfl⟩ := Step.pure_eq_ok_iff.1 hlast
        exact ih hothers
      · rw [if_neg hcomma] at hmiddle
        obtain ⟨-, rfl⟩ := Step.pure_eq_ok_iff.1 hmiddle
        exact hcomma

theorem loopsEnd (tokens : List Token) : LoopsEnd tokens where
  operators budget level left bound enough :=
    operatorsFrom_congr (takes_upTo budget level) bound tokens tokens left enough (Nat.le_refl _)
  operatorsLeft budget level _ _ _ run := operatorAt_of_operatorsFrom (takes_upTo budget level) run
  body budget stops bound enough :=
    bodyFrom_congr (takes_nested budget).1 stops bound tokens tokens enough (Nat.le_refl _)
  bodyLeft budget _ _ _ run := headKind_of_body (takes_nested budget).1 run
  parameters bound enough :=
    parametersFrom_congr bound tokens tokens enough (Nat.le_refl _)
  parametersLeft _ _ run := headKind_of_parametersFrom run

end Grammar

open Grammar

/-- How far a program is read from a stream of tokens, where `last` is the position of the first end
mark in the stream. -/
structure Parse.Extent (stream : List Token) (last : Nat) (found : Parse) : Prop where
  /-- There is an end mark at `last`, so this is a position in the stream. -/
  endMark : ∃ mark, stream[last]? = some mark ∧ mark.kind = .eof
  /-- There is no end mark before. -/
  isFirst : ∀ position < last, ∀ token, stream[position]? = some token → token.kind ≠ .eof
  /-- Where a second token is looked at, behind an identifier, it is in the stream too. -/
  ahead : ∀ position ≤ last, headKind (stream.drop position) = .identifier → position + 1 ≤ last
  /-- No reader goes beyond the end mark, and each one that succeeds takes a token. -/
  statements (budget : Nat) : Advances stream last (statement budget) ∧
    Advances stream last (nestedStatement budget) ∧ Advances stream last (nestedChain budget)
  expressions (budget : Nat) : Advances stream last (expression budget) ∧
    Advances stream last (unary budget) ∧ ∀ level, Advances stream last (upTo budget level)
  loops (position : Nat) : LoopsEnd (stream.drop position)
  /-- The statements are read one after the other, up to the end mark or to a fault. -/
  program : ReadsProgram stream last 0 found.statements
    (found.failure.map fun failure => (failure.error.fault, failure.position))
  size_le : sizeOfBody found.statements ≤ last

theorem sizeOfBody_parse_le (tokens : List Token) :
    sizeOfBody (parse tokens).statements ≤ (beforeEnd tokens).length := by
  obtain ⟨readable, rest, ⟨written, hspells, hbefore⟩, -⟩ :=
    statementsFrom_sound nestingLimit (beforeEnd tokens)
  have hsize := sizeOfBody_le _ fun node mem => (readable node mem).shape
  have hwritten := hspells.length_eq
  calc sizeOfBody (parse tokens).statements
      ≤ written.length := hwritten ▸ hsize
    _ ≤ (written ++ rest).length := by simp
    _ = (beforeEnd tokens).length := by rw [← hbefore]

/-- What is behind the first end mark makes no difference. -/
theorem parse_append_mark {first : List Token} (isOpen : ∀ token ∈ first, token.kind ≠ .eof)
    {mark : Token} (hmark : mark.kind = .eof) (after : List Token) :
    parse (first ++ mark :: after) = parse (first ++ [mark]) := by
  simp only [parse, parseWithin, beforeEnd_append_mark isOpen hmark,
    endLine_append_of_open isOpen hmark]

theorem parse_take (tokens : List Token) :
    parse (tokens.take ((beforeEnd tokens).length + 1)) = parse tokens := by
  cases hfind : tokens.find? (·.kind = .eof) with
  | some mark =>
      obtain ⟨hmark, first, after, rfl, hfirst⟩ := List.find?_eq_some_iff_append.1 hfind
      have isOpen : ∀ token ∈ first, token.kind ≠ .eof := by simpa using hfirst
      have hmark : mark.kind = .eof := by simpa using hmark
      have htake : (first ++ mark :: after).take (first.length + 1) = first ++ [mark] := by
        simp [List.take_append, List.take_of_length_le]
      rw [beforeEnd_append_mark isOpen hmark, htake, parse_append_mark isOpen hmark after]
  | none =>
      have isOpen : ∀ token ∈ tokens, token.kind ≠ .eof := by simpa using hfind
      rw [beforeEnd_of_open isOpen, List.take_of_length_le (Nat.le_succ _)]

/-- Any list of tokens is read to its first end mark at most, where a mark is put at the end of a
list that does not have one there.  Reading always comes to an end, there are no more nodes in what
is read than tokens before the mark, and what is behind the mark makes no difference. -/
theorem extent_of_parse (tokens : List Token) :
    (parse tokens).Extent (withEndMark tokens) (beforeEnd tokens).length ∧
      parse (tokens.take ((beforeEnd tokens).length + 1)) = parse tokens := by
  refine ⟨?_, parse_take tokens⟩
  obtain ⟨mark, rear, hstream, hmark, -⟩ := exists_endMark tokens
  have isOpen := isOpen_beforeEnd tokens
  rw [hstream]
  have hadvances {α : Type} {reader : Reader α} (takes : Takes 1 reader)
      (stops : ∀ tokens, StopsAt reader tokens) :
      Advances (beforeEnd tokens ++ mark :: rear) (beforeEnd tokens).length reader :=
    advances_of_stops isOpen hmark rear takes stops
  constructor
  case endMark => exact ⟨mark, by simp, hmark⟩
  case isFirst =>
    intro position inside token htoken
    rw [List.getElem?_append_left inside] at htoken
    exact isOpen token (List.mem_of_getElem? htoken)
  case ahead =>
    intro position le hname
    by_contra beyond
    have hlast : position = (beforeEnd tokens).length := by omega
    rw [hlast, List.drop_left, headKind, hmark] at hname
    cases hname
  case statements =>
    intro budget
    have hnested := walk_stopsAt.nested budget
    exact ⟨hadvances (takes_statement budget) (walk_stopsAt.statement budget),
      hadvances (takes_nested budget).1 hnested.1, hadvances (takes_nested budget).2 hnested.2⟩
  case expressions =>
    intro budget
    exact ⟨hadvances (takes_expression budget) (walk_stopsAt.expression budget),
      hadvances (takes_unary budget) (walk_stopsAt.unary budget),
      fun level => hadvances (takes_upTo budget level) (walk_stopsAt.upTo budget level)⟩
  case loops => exact fun position => loopsEnd _
  case program =>
    have hprogram := readsProgram_of_stops isOpen hmark rear (Nat.zero_le _)
    rw [List.drop_zero] at hprogram
    simpa [parse, parseWithin, Option.map_map, Function.comp_def] using hprogram
  case size_le => exact sizeOfBody_parse_le tokens

end Script

import Script.Proofs.Grammar.Program
import Script.Proofs.Padding
import Script.Proofs.Run.Interchange
/-!
# Links as nested branches

A link of an `if` that has a condition is the same as a final link whose body is an `if` that begins
there.  Written in this way, the links after it are evaluated in one more scope.  That scope stays
empty, so it changes nothing.
-/

namespace Script

/-- The links of an `if` as they stand after another link: in a final link, unless they are one. -/
def Chain.asElse : Chain → Chain
  | .when condition body others => .always [.ifChain (.when condition body others)] .done
  | chain => chain

mutual

/-- The tree in which no link of an `if` but the first one has a condition. -/
def Node.nestLinks : Node → Node
  | .declaration name ascription initial => .declaration name ascription initial.nestLinks
  | .assignment name value => .assignment name value.nestLinks
  | .binary op left right => .binary op left.nestLinks right.nestLinks
  | .unary op operand => .unary op operand.nestLinks
  | .conditional condition onTrue onFalse =>
    .conditional condition.nestLinks onTrue.nestLinks onFalse.nestLinks
  | .ifChain chain => .ifChain chain.nestLinks
  | .whileLoop condition body => .whileLoop condition.nestLinks (nestLinksOfBody body)
  | .function signature body => .function signature (nestLinksOfBody body)
  | .returnValue value => .returnValue value.nestLinks
  | .literal value => .literal value
  | .identifier name => .identifier name
  | .breakLoop => .breakLoop
  | .nextRound => .nextRound
  | .malformed => .malformed
  | .endOfInput => .endOfInput

def Chain.nestLinks : Chain → Chain
  | .done => .done
  | .when condition body others =>
    .when condition.nestLinks (nestLinksOfBody body) others.nestLinks.asElse
  | .always body others => .always (nestLinksOfBody body) others.nestLinks

def nestLinksOfBody : List Node → List Node
  | [] => []
  | statement :: others => statement.nestLinks :: nestLinksOfBody others

end

theorem Node.IsExpression.nestLinks_eq {level : Nat} {node : Node} (h : node.IsExpression level) :
    node.nestLinks = node := by
  induction h with
  | literal | identifier => rfl
  | unary _ ih => rw [Node.nestLinks, ih]
  | binary _ _ _ ihLeft ihRight => rw [Node.nestLinks, ihLeft, ihRight]
  | conditional _ _ _ _ ihCondition ihTrue ihFalse =>
      rw [Node.nestLinks, ihCondition, ihTrue, ihFalse]

theorem Chain.IsIf.asElse_nestLinks {chain : Chain} (h : chain.IsIf) :
    chain.nestLinks.asElse = .always [.ifChain chain.nestLinks] .done := by
  cases h with
  | last | otherwise | link => rw [Chain.nestLinks, Chain.asElse]

example :
    (Chain.when (.literal (.boolean true)) [] (.when (.identifier "x") []
      (.always [.breakLoop] .done))).nestLinks =
      .when (.literal (.boolean true)) []
        (.always [.ifChain (.when (.identifier "x") [] (.always [.breakLoop] .done))] .done) := rfl

namespace Evaluation

section

variable {α : Type} {evaluation : Eval α} {state after : State}

theorem inScope_eq_ok {a : α} {outer : Scopes} (h : evaluation state.push = .ok a after)
    (hpop : after.scopes.pop? = some outer) :
    inScope evaluation state = .ok a (after.leave outer) := by
  simp only [inScope, attempt, h, hpop]

theorem inScope_eq_fault {fault : Fault} {outer : Scopes}
    (h : evaluation state.push = .error (.fault fault) after)
    (hpop : after.scopes.pop? = some outer) :
    inScope evaluation state = .error (.fault fault) (after.leave outer) := by
  simp only [inScope, attempt, h, hpop]

theorem inScope_eq_abort {abort : Abort} (h : evaluation state.push = .error (.abort abort) after) :
    inScope evaluation state = .error (.abort abort) after := by
  simp only [inScope, attempt, h]

end

theorem evalBody_singleton (rounds : Nat) (last : Value) (node : Node) :
    evalBody rounds last [node] = eval rounds node := by
  funext state
  rw [evalBody, Step.bind_apply]
  cases eval rounds node state with
  | ok signal after => cases signal <;> rfl
  | error stop after => rfl

/-- Whether a state differs from another one only in its log, in the bodies of functions, and in
that it has no empty frame where one has been put in.  No frame has been put around the global
one. -/
structure State.Padded (pads : List Bool) (state other : State) : Prop where
  frames : Padding pads state.scopes.frames other.scopes.frames
  signatures : state.functions.map (·.signature) = other.functions.map (·.signature)
  reports : state.reports = other.reports
  outermost : pads.getLast? = some false

namespace State.Padded

variable {pads : List Bool} {state other : State}

theorem push (h : state.Padded pads other) : state.push.Padded (false :: pads) other.push :=
  ⟨.frame .empty h.frames, h.signatures, h.reports, by rw [List.getLast?_cons, h.outermost]; rfl⟩

/-- An empty frame is put in by opening a scope in the second state only. -/
theorem nest (h : state.Padded pads other) : state.Padded (true :: pads) other.push :=
  ⟨.pad h.frames, h.signatures, h.reports, by rw [List.getLast?_cons, h.outermost]; rfl⟩

theorem outermost_of_cons {isPad : Bool} (h : state.Padded (isPad :: pads) other)
    (hne : pads ≠ []) : pads.getLast? = some false := by
  rw [← h.outermost, List.getLast?_cons_of_ne_nil hne]

theorem of_alike (h : state.Alike other) :
    state.Padded (false :: state.scopes.enclosing.map fun _ => false) other := by
  refine ⟨by rw [← h.scopes]; exact .refl state.scopes.frames, h.signatures, h.reports, ?_⟩
  rw [List.getLast?_cons, List.getLast?_map]
  cases state.scopes.enclosing.getLast? <;> rfl

theorem alike (h : state.Padded pads other) (none : ∀ isPad ∈ pads, isPad = false) :
    state.Alike other := by
  have hframes := h.frames.eq_of_forall none
  exact ⟨Scopes.eq_of_frames_eq hframes.symm, h.signatures, h.reports⟩

end State.Padded

theorem coupling_padded : Coupling State.Padded (false :: ·) where
  get?_eq padded name := (padded.frames.findSome?_eq name).symm
  innermostBinds_eq padded name := by
    rw [Scopes.innermostBinds, Scopes.innermostBinds, (Padding.frame_iff.1 padded.frames).1]
  signatures_eq padded := padded.signatures
  report padded mismatch := by
    refine ⟨padded.frames, padded.signatures, ?_, padded.outermost⟩
    rw [State.reports_report, State.reports_report, padded.reports]
  insert padded name v :=
    ⟨padded.frames.insert name v, padded.signatures, padded.reports, padded.outermost⟩
  set? {pads state other} padded name := by
    have hfound : other.scopes.find? name = (state.scopes.find? name).map (shift pads) :=
      padded.frames.findIn_eq name
    rw [hfound]
    cases hfind : state.scopes.find? name with
    | none => exact .none
    | some frame =>
        have lt : frame < pads.count false := padded.frames.depth_eq ▸ Scopes.find?_lt hfind
        refine .some fun padded v => ?_
        obtain ⟨updated, updated', hset, hset', hframes⟩ := padded.frames.exists_set? lt name v
        rw [hset, hset']
        exact .some ⟨hframes, padded.signatures, padded.reports, padded.outermost⟩
  declare {_ _ _} padded {_ _} same := by
    refine ⟨padded.frames, ?_, padded.reports, padded.outermost⟩
    simp only [State.functions_declare, List.map_append, padded.signatures, List.map_singleton,
      same]
  push padded := padded.push
  leave {pads state other} padded := by
    -- with no entry left the scope is the global one, which is closed in neither state
    by_cases hpads : pads = []
    · subst hpads
      have hpop : state.scopes.pop? = none :=
        (Scopes.pop?_eq_none_iff _).2 padded.frames.depth_eq
      have hpop' : other.scopes.pop? = none := by
        rw [Scopes.pop?_eq_none_iff, ← Scopes.length_frames]
        exact padded.frames.length_others
      rw [hpop, hpop']
      exact .none
    · have outermost := padded.outermost_of_cons hpads
      have pos : 0 < pads.count false := List.count_pos_iff.2 (List.mem_of_getLast? outermost)
      obtain ⟨outer, outer', hpop, hpop', hframes⟩ := padded.frames.exists_pop? pos
      rw [hpop, hpop']
      exact .some ⟨hframes, padded.signatures, padded.reports, outermost⟩

/-- What binds no variable outside of scopes of its own can be put into one more scope. -/
theorem Simulates.nested {α : Type} {pads : List Bool} {first second : Eval α}
    (h : Simulates (State.Padded (true :: pads)) first second) :
    Simulates (State.Padded pads) first (Evaluation.inScope second) := by
  intro state other padded
  have hends := h state other.push padded.nest
  generalize hsecond : second other.push = result' at hends
  generalize first state = result at hends ⊢
  cases hends with
  | ok after =>
      obtain ⟨outer, hpop, hframes⟩ := after.frames.exists_pop?_of_pad
      rw [inScope_eq_ok hsecond hpop]
      exact .ok ⟨hframes, after.signatures, after.reports, padded.outermost⟩
  | fault after =>
      obtain ⟨outer, hpop, hframes⟩ := after.frames.exists_pop?_of_pad
      rw [inScope_eq_fault hsecond hpop]
      exact .fault ⟨hframes, after.signatures, after.reports, padded.outermost⟩
  | abort =>
      rw [inScope_eq_abort hsecond]
      exact .abort

theorem simulates_of_isExpression {level : Nat} {node : Node} (h : node.IsExpression level)
    (rounds : Nat) (pads : List Bool) :
    Simulates (State.Padded pads) (eval rounds node) (eval rounds node.nestLinks) := by
  rw [h.nestLinks_eq]
  exact coupling_padded.simulates_eval rounds pads node (.inl h.isFormula)

theorem Simulates.when {rounds : Nat} {pads : List Bool} {condition : Node} {body : List Node}
    {others others' : Chain} (head : condition.IsExpression BinaryOp.loosest)
    (hbody : Simulates (State.Padded (false :: pads)) (evalBody rounds .void body)
      (evalBody rounds .void (nestLinksOfBody body)))
    (hothers : Simulates (State.Padded pads) (evalChain rounds others) (evalChain rounds others')) :
    Simulates (State.Padded pads) (evalChain rounds (.when condition body others))
      (evalChain rounds (.when condition.nestLinks (nestLinksOfBody body) others')) := by
  have hcondition := Simulates.asValue (simulates_of_isExpression head rounds pads)
  refine .bind (coupling_padded.holds _ .ifLink hcondition) fun b => ?_
  cases b with
  | true => exact coupling_padded.inScope _ hbody
  | false => exact hothers

mutual

/-- A statement binds variables in the innermost frame, so this has to be one of both states. -/
theorem simulates_eval (rounds : Nat) (pads : List Bool) (node : Node) (h : node.IsStatement) :
    Simulates (State.Padded (false :: pads)) (eval rounds node) (eval rounds node.nestLinks) := by
  cases h with
  | declaration value =>
      have hvalue := simulates_of_isExpression value rounds (false :: pads)
      rw [Node.nestLinks]
      exact .map _ (coupling_padded.declareVariable _ _ _ (.asValue hvalue))
  | assignment value =>
      have hvalue := simulates_of_isExpression value rounds (false :: pads)
      rw [Node.nestLinks]
      exact .map _ (coupling_padded.assignVariable _ _ (.asValue hvalue))
  | @ifChain chain links =>
      rw [Node.nestLinks]
      exact simulates_evalChain rounds (false :: pads) chain links
  | @whileLoop condition body head statements =>
      have hcondition := Simulates.asValue (simulates_of_isExpression head rounds (false :: pads))
      have hbody := simulates_evalBody rounds (false :: pads) .void body statements
      rw [Node.nestLinks]
      exact .repeatWhile (coupling_padded.holds _ .whileLoop hcondition)
        (coupling_padded.inScope _ hbody) rounds
  | breakLoop => exact .pure _
  | nextRound => exact .pure _
  | function =>
      rw [Node.nestLinks]
      exact .bind (coupling_padded.declareFunction _ rfl) fun _ => .pure _
  | returnValue value =>
      have hvalue := simulates_of_isExpression value rounds (false :: pads)
      rw [Node.nestLinks]
      exact .bind (.asValue hvalue) fun _ => .pure _
  | expression value => exact simulates_of_isExpression value rounds (false :: pads)

/-- The links of an `if` bind variables in scopes of their own only, so around these any frames may
have been put in. -/
theorem simulates_evalChain (rounds : Nat) (pads : List Bool) (chain : Chain) (h : chain.IsIf) :
    Simulates (State.Padded pads) (evalChain rounds chain) (evalChain rounds chain.nestLinks) := by
  cases h with
  | @last condition body head statements =>
      have hbody := simulates_evalBody rounds pads .void body statements
      rw [Chain.nestLinks]
      exact .when head hbody (.pure _)
  | @otherwise condition body final head statements finals =>
      have hbody := simulates_evalBody rounds pads .void body statements
      have hfinal := simulates_evalBody rounds pads .void final finals
      rw [Chain.nestLinks]
      exact .when head hbody (coupling_padded.inScope _ hfinal)
  | @link condition body others head statements links =>
      have hbody := simulates_evalBody rounds pads .void body statements
      -- the other links are evaluated in the scope of the final link that holds them now
      have hothers := simulates_evalChain rounds (true :: pads) others links
      rw [Chain.nestLinks, links.asElse_nestLinks]
      refine .when head hbody ?_
      rw [evalChain, evalBody_singleton]
      exact .nested hothers

theorem simulates_evalBody (rounds : Nat) (pads : List Bool) (last : Value) (body : List Node)
    (h : ∀ node ∈ body, node.IsStatement) :
    Simulates (State.Padded (false :: pads)) (evalBody rounds last body)
      (evalBody rounds last (nestLinksOfBody body)) := by
  cases body with
  | nil => exact .pure _
  | cons statement others =>
      obtain ⟨hstatement, hothers⟩ := List.forall_mem_cons.1 h
      refine .bind (simulates_eval rounds pads statement hstatement) fun signal => ?_
      cases signal with
      | value v => exact simulates_evalBody rounds pads v others hothers
      | jump jump => exact .pure _
      | leave => exact .pure _

end

theorem interchangeable_nestLinks {node : Node} (h : node.IsStatement) (rounds : Nat) :
    Interchangeable rounds node node.nestLinks := by
  intro state other alike
  have hends := simulates_eval rounds (state.scopes.enclosing.map fun _ => false) node h state other
    (.of_alike alike)
  exact hends.mono fun _ _ padded => padded.alike (by simp)

/-- A program and the one in which every link of an `if` with a condition, except for first ones, is
an `if` of its own in a final link are answered in the same way.  Within the same number of rounds
both are carried to their ends or neither is, they write the same, and they leave the same variables
and signatures. -/
theorem finishes_nestLinks_iff (rounds : Nat) (tokens : List Token) (state : State)
    (scopes : Scopes) (signatures : List Signature) :
    let program := (parse tokens).statements
    (∀ responses, Finishes (respondAll rounds program) state responses scopes signatures ↔
      Finishes (respondAll rounds (program.map Node.nestLinks)) state responses scopes
        signatures) ∧
    ∀ output, Finishes (Session.perform rounds program) state output scopes signatures ↔
      Finishes (Session.perform rounds (program.map Node.nestLinks)) state output scopes
        signatures := by
  intro program
  have hprogram : List.Forall₂ (Interchangeable rounds) program (program.map Node.nestLinks) :=
    List.forall₂_map_right_iff.2 <| List.forall₂_same.2 fun node mem =>
      interchangeable_nestLinks (Grammar.isReadable_of_mem_parse mem).shape rounds
  exact ⟨fun responses => finishes_respondAll_iff hprogram state responses scopes signatures,
    fun output => finishes_perform_iff hprogram state output scopes signatures⟩

end Evaluation

end Script

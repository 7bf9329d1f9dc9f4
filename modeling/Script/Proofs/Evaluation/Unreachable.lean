import Script.Proofs.Evaluation.Atomicity
import Script.Proofs.Evaluation.Course
import Script.Proofs.Evaluation.Resolution
import Script.Proofs.Frames
import Script.Proofs.Grammar.LexicalFaults
/-!
# Cases that programs in texts never lead to

Some cases have to be dealt with although no program in a text leads to them: a literal whose lexeme
is malformed, a node that is no statement, an operation on integers that is none, a variable without
a value.  Each is ruled out by what has been done before with the text: it has been turned into
tokens, these have been read as statements of the grammar, and variables have been bound to values
of expressions only.
-/

namespace Script

open Grammar

def Frame.IsVoidFree (frame : Frame) : Prop := ∀ binding ∈ frame.bindings, binding.2 ≠ .void

/-- Whether no variable is bound to the value that is none, hidden variables included. -/
def Scopes.IsVoidFree (scopes : Scopes) : Prop := ∀ frame ∈ scopes.frames, frame.IsVoidFree

theorem Scopes.IsVoidFree.get?_ne {scopes : Scopes} (h : scopes.IsVoidFree) (name : String) :
    scopes.get? name ≠ some .void := by
  intro hvoid
  obtain ⟨frame, mem, hlookup⟩ := List.exists_of_findSome?_eq_some hvoid
  obtain ⟨front, rest, hbindings, -⟩ := List.lookup_eq_some_iff.1 hlookup
  exact h frame mem (name, .void) (by simp [hbindings]) rfl

theorem Scopes.isVoidFree_fresh : Scopes.fresh.IsVoidFree := by
  simp [IsVoidFree, Frame.IsVoidFree, fresh, frames, Frame.empty]

theorem Scopes.isVoidFree_push {scopes : Scopes} (h : scopes.IsVoidFree) :
    scopes.push.IsVoidFree := by
  rw [IsVoidFree, frames_push, List.forall_mem_cons]
  exact ⟨by simp [Frame.IsVoidFree, Frame.empty], h⟩

theorem Scopes.IsVoidFree.pop? {scopes outer : Scopes} (h : scopes.IsVoidFree)
    (hpop : scopes.pop? = some outer) : outer.IsVoidFree := by
  obtain ⟨innermost, enclosing⟩ := scopes
  cases enclosing with
  | nil => cases hpop
  | cons frame others =>
      cases hpop
      exact (List.forall_mem_cons.1 h).2

namespace Evaluation

section Operations

/-- What is done with the operands of a binary operator: two integers are handed on together with
the operator, and everything else is settled. -/
inductive Treatment
  | settled (answer : Answer)
  | integers (op : BinaryOp) (left right : Integer)

def treatment (op : BinaryOp) (left right : Value) : Treatment :=
  match op with
  | .and =>
    match left, right with
    | .boolean l, .boolean r => .settled (.value (.boolean (l && r)))
    | l, r => .settled (.mismatch (.operands op l.ty r.ty))
  | .or =>
    match left, right with
    | .boolean l, .boolean r => .settled (.value (.boolean (l || r)))
    | l, r => .settled (.mismatch (.operands op l.ty r.ty))
  | .equals =>
    .settled (if left.ty = right.ty then .value (.boolean (left = right))
      else .mismatch (.operands op left.ty right.ty))
  | .notEquals =>
    .settled (if left.ty = right.ty then .value (.boolean (left ≠ right))
      else .mismatch (.operands op left.ty right.ty))
  | .order _ | .arithmetic _ =>
    if left.ty = .boolean ∨ right.ty = .boolean then .settled (.mismatch (.booleanOperand op))
    else
      match left, right with
      | .integer l, .integer r => .integers op l r
      | .text l, .text r =>
        .settled (if op = .arithmetic .add then .value (.text (l ++ r))
          else .mismatch (.operands op .string .string))
      | l, r => .settled (.mismatch (.operands op l.ty r.ty))

/-- An operation on two integers.  It is told for each operator, whether it takes integers or
not. -/
def integerOperation (op : BinaryOp) (left right : Integer) : Answer :=
  match op with
  | .arithmetic op => arithmetic op left right
  | .order op => .value (.boolean (inOrder op left right))
  | .equals => .value (.boolean (left = right))
  | .notEquals => .value (.boolean (left ≠ right))
  | .and | .or => .fault (.mismatch (.operands op .integer .integer))

def Treatment.answer : Treatment → Answer
  | settled answer => answer
  | integers op left right => integerOperation op left right

theorem answer_treatment (op : BinaryOp) (left right : Value) :
    (treatment op left right).answer = binary op left right := by
  cases op with
  | and | or => cases left <;> cases right <;> rfl
  | equals | notEquals => rfl
  | order op =>
      cases left <;> cases right <;>
        simp [treatment, binary, unfit, Value.ty, Treatment.answer, integerOperation]
  | arithmetic op =>
      cases op <;> cases left <;> cases right <;>
        simp [treatment, binary, unfit, Value.ty, Treatment.answer, integerOperation]

/-- Integers are handed on with the operator that has them as operands. -/
theorem eq_of_treatment {op op' : BinaryOp} {left right : Value} {l r : Integer}
    (h : treatment op left right = .integers op' l r) :
    op' = op ∧ op ≠ .and ∧ op ≠ .or := by
  cases op with
  | and | or => cases left <;> cases right <;> cases h
  | equals | notEquals => cases h
  | order op | arithmetic op =>
      simp only [treatment] at h
      split at h
      · cases h
      · split at h <;> cases h
        simp

theorem binary_ne_void (op : BinaryOp) (left right : Value) :
    binary op left right ≠ .value .void := by
  intro h
  unfold binary at h
  split at h
  case h_9 op l r =>
    have hinteger := has_arithmetic op l r
    rw [h] at hinteger
    cases hinteger with
    | value h => cases h
  case h_5 | h_6 => split at h <;> cases h
  all_goals cases h

theorem unary_ne_void (op : UnaryOp) (operand : Value) : unary op operand ≠ .value .void := by
  intro h
  unfold unary at h
  split at h
  case h_2 i =>
    have hinteger := has_ranged (.negation i) (-i.val)
    rw [h] at hinteger
    cases hinteger with
    | value h => cases h
  all_goals cases h

theorem response_ne_void {answer : Answer} (h : answer ≠ .value .void) :
    answer.response.result ≠ .ok .void := by
  cases answer with
  | value v => simpa [Answer.response] using h
  | mismatch mismatch => simp [Answer.response]
  | fault fault => simp [Answer.response]

theorem andThen_ne_void (first : Response) {next : Value → Response}
    (h : ∀ v, (next v).result ≠ .ok .void) : (first.andThen next).result ≠ .ok .void := by
  unfold Response.andThen
  cases hresult : first.result with
  | ok v => exact h v
  | error fault => simp [hresult]

end Operations

theorem meaning_ne_void {level : Nat} {node : Node} (h : node.IsExpression level)
    {visible : String → Option Value} (nonvoid : ∀ name, visible name ≠ some .void) :
    (node.meaning visible).result ≠ .ok .void := by
  induction h with
  | literal hvalue => simpa [Node.meaning] using hvalue
  | @identifier _ name =>
      rw [Node.meaning]
      cases hvalue : visible name with
      | none => simp
      | some v =>
          intro hvoid
          cases hvoid
          exact nonvoid name hvalue
  | unary _ _ =>
      rw [Node.meaning]
      exact andThen_ne_void _ fun v => response_ne_void (unary_ne_void _ v)
  | binary _ _ _ _ _ =>
      rw [Node.meaning]
      exact andThen_ne_void _ fun l => andThen_ne_void _ fun r =>
        response_ne_void (binary_ne_void _ l r)
  | conditional _ _ _ _ _ ihTrue ihFalse =>
      rw [Node.meaning]
      refine andThen_ne_void _ fun v => ?_
      cases v.asBoolean? with
      | none => simp
      | some b =>
          cases b with
          | true => exact ihTrue
          | false => exact ihFalse

theorem scopes_of_asValue {level : Nat} {node : Node} (h : node.IsExpression level) {rounds : Nat}
    {state after : State} {v : Value} (run : asValue (eval rounds node) state = .ok v after) :
    (node.meaning state.scopes.get?).result = .ok v ∧ after.scopes = state.scopes := by
  obtain ⟨last, hscopes, -, ⟨v', hvalue, hrun⟩ | ⟨fault, hrun⟩⟩ := asValue_cases h rounds state
  · rw [hrun, EStateM.Result.ok.injEq] at run
    obtain ⟨rfl, rfl⟩ := run
    exact ⟨hvalue, hscopes⟩
  · rw [hrun] at run
    cases run

theorem Effect.isVoidFree {value : Value} {before after : State} {node : Node}
    (effect : Effect value before after node) (shape : node.IsStatement)
    (voidFree : before.scopes.IsVoidFree) : after.scopes.IsVoidFree := by
  cases effect with
  | declaration _ initialized scopes =>
      have hinitial : value ≠ .void := by
        rintro rfl
        cases shape with
        | declaration formula => exact meaning_ne_void formula voidFree.get?_ne initialized
        | expression formula => cases formula
      obtain ⟨hinnermost, henclosing⟩ := List.forall_mem_cons.1 voidFree
      rw [scopes, Scopes.IsVoidFree, Scopes.frames, List.forall_mem_cons]
      refine ⟨?_, henclosing⟩
      rw [Frame.IsVoidFree, List.forall_mem_append, List.forall_mem_singleton]
      exact ⟨hinnermost, hinitial⟩
  | @assignment name assigned inner outer frame rebound found _ rebinds evaluated scopes =>
      have hvalue : value ≠ .void := by
        rintro rfl
        cases shape with
        | assignment formula => exact meaning_ne_void formula voidFree.get?_ne evaluated
        | expression formula => cases formula
      -- one binding of one frame has changed, and all others are those from before
      obtain ⟨first, old, rest, hbefore, -, hafter⟩ := rebinds
      rw [Scopes.IsVoidFree, found, List.forall_mem_append, List.forall_mem_cons] at voidFree
      obtain ⟨hinner, hframe, houter⟩ := voidFree
      rw [Frame.IsVoidFree, hbefore, List.forall_mem_append, List.forall_mem_cons] at hframe
      have hrebound : rebound.IsVoidFree := by
        rw [Frame.IsVoidFree, hafter, List.forall_mem_append, List.forall_mem_cons]
        exact ⟨hframe.1, hvalue, hframe.2.2⟩
      rw [Scopes.IsVoidFree, scopes, List.forall_mem_append, List.forall_mem_cons]
      exact ⟨hinner, hrebound, houter⟩
  | function _ _ scopes => rwa [scopes]
  | expression _ _ scopes => rwa [scopes]

theorem TakesEffect.isVoidFree {node : Node} {before : State}
    {outcome : EStateM.Result Stop State Signal} (takes : TakesEffect node before outcome)
    (shape : node.IsStatement) (voidFree : before.scopes.IsVoidFree) :
    (Step.last outcome).scopes.IsVoidFree := by
  cases outcome with
  | ok signal after =>
      cases signal with
      | value v => exact Effect.isVoidFree takes shape voidFree
      | jump jump => exact takes.1 ▸ voidFree
      | leave => exact takes.1 ▸ voidFree
  | error stop after =>
      cases stop with
      | fault fault => exact takes.1 ▸ voidFree
      | abort abort => exact False.elim takes

/-- Whether a visit is one of a statement of the grammar where no variable is without a value. -/
structure Visit.IsSound (visit : Visit) : Prop where
  shape : visit.node.IsStatement
  voidFree : visit.state.scopes.IsVoidFree

/-- Whether evaluations that begin where no variable is without a value visit such states only, and
statements of the grammar there, and end in such a state. -/
def IsSound (before : State) (visits : List Visit) (after : State) : Prop :=
  before.scopes.IsVoidFree → (∀ visit ∈ visits, visit.IsSound) ∧ after.scopes.IsVoidFree

theorem chronicle_isSound : Chronicle IsSound where
  refl state := fun voidFree => ⟨by simp, voidFree⟩
  trans hfirst hsecond := by
    intro voidFree
    obtain ⟨hvisits, hmiddle⟩ := hfirst voidFree
    obtain ⟨hothers, hlast⟩ := hsecond hmiddle
    exact ⟨List.forall_mem_append.2 ⟨hvisits, hothers⟩, hlast⟩
  congr h hfirst _ hsecond _ := by rwa [IsSound, ← hfirst, ← hsecond]
  opened h := fun voidFree => h (Scopes.isVoidFree_push voidFree)
  closed h hpop := by
    intro voidFree
    obtain ⟨hvisits, hlast⟩ := h voidFree
    exact ⟨hvisits, hlast.pop? hpop⟩

theorem mem_thereafter {α : Type} {evaluation : Eval α} {visits : α → State → List Visit}
    {state : State} {visit : Visit} (mem : visit ∈ thereafter evaluation visits state) :
    ∃ a after, evaluation state = .ok a after ∧ visit ∈ visits a after := by
  cases hrun : evaluation state with
  | ok a after =>
      rw [thereafter_of_ok hrun] at mem
      exact ⟨a, after, rfl, mem⟩
  | error stop after =>
      rw [thereafter_of_error hrun] at mem
      cases mem

theorem isStatement_of_isExpression {level : Nat} {node : Node} (h : node.IsExpression level) :
    node.IsStatement := by
  cases h with
  | literal nonvoid => exact .expression (.literal nonvoid)
  | identifier => exact .expression .identifier
  | unary inner => exact .expression (.unary inner)
  | binary _ onLeft onRight =>
      exact .expression (.binary (Nat.le_succ_of_le (BinaryOp.level_le_loosest _)) onLeft onRight)
  | conditional _ ofCondition ofTrue ofFalse =>
      exact .expression (.conditional (Nat.le_refl _) ofCondition ofTrue ofFalse)

/-- In the course of an expression only expressions are visited, and the scopes do not change. -/
theorem course_expression {level : Nat} {node : Node} (h : node.IsExpression level) (rounds : Nat)
    (state : State) :
    ∀ visit ∈ course rounds node state,
      visit.node.IsStatement ∧ visit.state.scopes = state.scopes := by
  have hnode := isStatement_of_isExpression h
  induction h generalizing state with
  | literal | identifier => exact List.forall_mem_singleton.2 ⟨hnode, rfl⟩
  | unary inner ih =>
      exact List.forall_mem_cons.2 ⟨⟨hnode, rfl⟩, ih state (isStatement_of_isExpression inner)⟩
  | binary _ onLeft onRight ihLeft ihRight =>
      refine List.forall_mem_cons.2 ⟨⟨hnode, rfl⟩, List.forall_mem_append.2 ⟨?_, ?_⟩⟩
      · exact ihLeft state (isStatement_of_isExpression onLeft)
      · intro visit mem
        obtain ⟨l, after, hrun, hvisit⟩ := mem_thereafter mem
        rw [← (scopes_of_asValue onLeft hrun).2]
        exact ihRight after (isStatement_of_isExpression onRight) visit hvisit
  | conditional _ ofCondition ofTrue ofFalse ihCondition ihTrue ihFalse =>
      refine List.forall_mem_cons.2 ⟨⟨hnode, rfl⟩, List.forall_mem_append.2 ⟨?_, ?_⟩⟩
      · exact ihCondition state (isStatement_of_isExpression ofCondition)
      · intro visit mem
        obtain ⟨v, after, hrun, hvisit⟩ := mem_thereafter mem
        rw [← (scopes_of_asValue ofCondition hrun).2]
        cases hcondition : v.asBoolean? with
        | none => simp [hcondition] at hvisit
        | some b =>
            simp only [hcondition] at hvisit
            cases b with
            | true => exact ihTrue after (isStatement_of_isExpression ofTrue) visit hvisit
            | false => exact ihFalse after (isStatement_of_isExpression ofFalse) visit hvisit

/-- A statement that takes effect is sound if it is visited with expressions only, which are on the
same scopes. -/
theorem isSound_of_takesEffect {node : Node} (shape : node.IsStatement) {rounds : Nat}
    (takes : ∀ state, TakesEffect node state (eval rounds node state))
    (h : ∀ state, ∀ visit ∈ course rounds node state,
      visit.node.IsStatement ∧ visit.state.scopes = state.scopes) :
    Chronicles IsSound (course rounds node) (eval rounds node) := by
  intro state voidFree
  refine ⟨fun visit mem => ?_, (takes state).isVoidFree shape voidFree⟩
  obtain ⟨hshape, hscopes⟩ := h state visit mem
  exact ⟨hshape, hscopes ▸ voidFree⟩

theorem isSound_expression {level : Nat} {node : Node} (h : node.IsExpression level)
    (rounds : Nat) : Chronicles IsSound (course rounds node) (eval rounds node) :=
  isSound_of_takesEffect (isStatement_of_isExpression h) (takesEffect_expression h rounds)
    (course_expression h rounds)

theorem isSound_enter {node : Node} {evaluation : Eval Signal} {visits : State → List Visit}
    (shape : node.IsStatement) (h : Chronicles IsSound visits evaluation) :
    Chronicles IsSound (fun state => ⟨node, state⟩ :: visits state) evaluation := by
  intro state voidFree
  obtain ⟨hvisits, hlast⟩ := h state voidFree
  exact ⟨List.forall_mem_cons.2 ⟨⟨shape, voidFree⟩, hvisits⟩, hlast⟩

theorem isSound_when {rounds level : Nat} {condition : Node} {body : List Node} {others : Chain}
    (head : condition.IsExpression level)
    (hbody : Chronicles IsSound (courseOfBody rounds body) (evalBody rounds .void body))
    (hothers : Chronicles IsSound (courseOfChain rounds others) (evalChain rounds others)) :
    Chronicles IsSound (courseOfChain rounds (.when condition body others))
      (evalChain rounds (.when condition body others)) := by
  have hcondition := chronicle_isSound.asValue (isSound_expression head rounds)
  refine chronicle_isSound.bind (chronicle_isSound.holds .ifLink hcondition) fun applies => ?_
  cases applies with
  | true => exact chronicle_isSound.inScope hbody
  | false => exact hothers

mutual

theorem isSound_eval (rounds : Nat) (node : Node) (shape : node.IsStatement) :
    Chronicles IsSound (course rounds node) (eval rounds node) := by
  have hshape := shape
  cases shape with
  | declaration value =>
      have takes := takesEffect_declaration value
      refine isSound_of_takesEffect hshape (takes _ _ rounds) fun state => ?_
      refine List.forall_mem_cons.2 ⟨⟨hshape, rfl⟩, fun visit mem => ?_⟩
      split at mem
      · cases mem
      · exact course_expression value rounds state visit mem
  | assignment value =>
      refine isSound_of_takesEffect hshape (takesEffect_assignment value _ rounds) fun state => ?_
      refine List.forall_mem_cons.2 ⟨⟨hshape, rfl⟩, fun visit mem => ?_⟩
      split at mem
      · exact course_expression value rounds state visit mem
      · cases mem
  | returnValue value =>
      refine isSound_of_takesEffect hshape (takesEffect_returnValue value rounds) fun state => ?_
      exact List.forall_mem_cons.2 ⟨⟨hshape, rfl⟩, course_expression value rounds state⟩
  | function =>
      refine isSound_of_takesEffect hshape (takesEffect_function _ _ rounds) fun state => ?_
      exact List.forall_mem_singleton.2 ⟨hshape, rfl⟩
  | breakLoop | nextRound =>
      refine isSound_of_takesEffect hshape (fun _ => ⟨rfl, rfl⟩) fun state => ?_
      exact List.forall_mem_singleton.2 ⟨hshape, rfl⟩
  | @ifChain chain links => exact isSound_enter hshape (isSound_evalChain rounds chain links)
  | @whileLoop condition body head statements =>
      have hcondition := chronicle_isSound.asValue (isSound_expression head rounds)
      have hbody := chronicle_isSound.inScope (isSound_evalBody rounds .void body statements)
      exact isSound_enter hshape (chronicle_isSound.repeatWhile
        (chronicle_isSound.holds .whileLoop hcondition) hbody rounds)
  | expression value => exact isSound_expression value rounds

theorem isSound_evalChain (rounds : Nat) (chain : Chain) (links : chain.IsIf) :
    Chronicles IsSound (courseOfChain rounds chain) (evalChain rounds chain) := by
  cases links with
  | @last condition body head statements =>
      exact isSound_when head (isSound_evalBody rounds .void body statements)
        (chronicle_isSound.pure _)
  | @otherwise condition body final head statements finals =>
      exact isSound_when head (isSound_evalBody rounds .void body statements)
        (chronicle_isSound.inScope (isSound_evalBody rounds .void final finals))
  | @link condition body others head statements links =>
      exact isSound_when head (isSound_evalBody rounds .void body statements)
        (isSound_evalChain rounds others links)

theorem isSound_evalBody (rounds : Nat) (last : Value) (body : List Node)
    (statements : ∀ node ∈ body, node.IsStatement) :
    Chronicles IsSound (courseOfBody rounds body) (evalBody rounds last body) := by
  cases body with
  | nil => exact chronicle_isSound.pure _
  | cons statement others =>
      obtain ⟨shape, shapes⟩ := List.forall_mem_cons.1 statements
      refine chronicle_isSound.bind (isSound_eval rounds statement shape) fun signal => ?_
      cases signal with
      | value v => exact isSound_evalBody rounds v others shapes
      | jump jump => exact chronicle_isSound.pure _
      | leave => exact chronicle_isSound.pure _

end

/-- Whether an evaluation comes to none of the cases that are dealt with as a precaution only. -/
structure Visit.IsOrdinary (rounds : Nat) (visit : Visit) : Prop where
  /-- Nodes that stand for no statement are not evaluated. -/
  node_ne : visit.node ≠ .malformed ∧ visit.node ≠ .endOfInput
  /-- All variables have values, before and after. -/
  voidFree : visit.state.scopes.IsVoidFree ∧
    (Step.last (eval rounds visit.node visit.state)).scopes.IsVoidFree
  /-- No initial value has the type of what is no value. -/
  ascribed : ∀ name initial, visit.node = .declaration name (some .void) initial →
    ∀ signal after, eval rounds visit.node visit.state ≠ .ok signal after
  /-- The frame in which a name has been found still binds it when the new value is there, and so
  it is given this value. -/
  rebinds : ∀ name value, visit.node = .assignment name value → ∀ index v after,
    visit.state.scopes.find? name = some index →
    asValue (eval rounds value) visit.state = .ok v after →
    (Scopes.valueIn index name after.scopes.frames).isSome ∧
      ∃ scopes, after.scopes.set? index name v = some scopes ∧
        Scopes.valueIn index name scopes.frames = some v
  /-- Integers are handed on only with operators that take integers. -/
  operands : ∀ op left right, visit.node = .binary op left right → ∀ l middle r after,
    asValue (eval rounds left) visit.state = .ok l middle →
    asValue (eval rounds right) middle = .ok r after →
    binary op l r = (treatment op l r).answer ∧
      (∀ op' i j, treatment op l r = .integers op' i j → op' ≠ .and ∧ op' ≠ .or) ∧
      ∀ mismatch, binary op l r ≠ .fault (.mismatch mismatch)

theorem ascribed_of_isExpression {level : Nat} {initial : Node} (h : initial.IsExpression level)
    {state : State} (voidFree : state.scopes.IsVoidFree) (rounds : Nat) (name : String)
    (signal : Signal) (after : State) :
    eval rounds (.declaration name (some .void) initial) state ≠ .ok signal after := by
  rw [eval, Step.map_apply, declareVariable, Step.get_bind]
  by_cases hbound : state.scopes.innermostBinds name
  · simp [hbound]
  · rw [if_neg hbound, Step.bind_apply]
    cases hrun : asValue (eval rounds initial) state with
    | error stop last => simp
    | ok v last =>
        have hvalue : v ≠ .void := by
          rintro rfl
          exact meaning_ne_void h voidFree.get?_ne (scopes_of_asValue h hrun).1
        have hty : Ty.void ≠ v.ty := by
          cases v with
          | void => exact absurd rfl hvalue
          | _ => simp [Value.ty]
        simp [Option.filter, hty]

theorem rebinds_of_isExpression {level : Nat} {value : Node} (h : value.IsExpression level)
    {rounds index : Nat} {name : String} {v : Value} {state after : State}
    (found : state.scopes.find? name = some index)
    (run : asValue (eval rounds value) state = .ok v after) :
    (Scopes.valueIn index name after.scopes.frames).isSome ∧
      ∃ scopes, after.scopes.set? index name v = some scopes ∧
        Scopes.valueIn index name scopes.frames = some v := by
  rw [(scopes_of_asValue h run).2]
  have hbinds : (Scopes.valueIn index name state.scopes.frames).isSome :=
    (Scopes.findIn_eq_some_iff.1 found).1
  refine ⟨hbinds, ?_⟩
  cases hset : state.scopes.set? index name v with
  | none =>
      have hle := (Scopes.set?_eq_none_iff _ _ _ _).1 hset
      have hlt := Scopes.find?_lt found
      omega
  | some scopes =>
      refine ⟨scopes, rfl, ?_⟩
      rw [Scopes.frames_set? hset, Scopes.valueIn_rebindIn, if_pos ⟨rfl, rfl, hbinds⟩]

theorem Visit.IsSound.isOrdinary {visit : Visit} (h : visit.IsSound) (rounds : Nat) :
    visit.IsOrdinary rounds := by
  obtain ⟨node, state⟩ := visit
  obtain ⟨shape, voidFree⟩ := h
  constructor
  case node_ne =>
    constructor
    · rintro rfl
      cases shape with
      | expression value => cases value
    · rintro rfl
      cases shape with
      | expression value => cases value
  case voidFree => exact ⟨voidFree, (isSound_eval rounds node shape state voidFree).2⟩
  case ascribed =>
    rintro name initial rfl
    cases shape with
    | declaration value => exact ascribed_of_isExpression value voidFree rounds name
    | expression value => cases value
  case rebinds =>
    rintro name value rfl index v after found run
    cases shape with
    | assignment value => exact rebinds_of_isExpression value found run
    | expression value => cases value
  case operands =>
    intro op left right _ l middle r after _ _
    refine ⟨(answer_treatment op l r).symm, fun op' i j htreatment => ?_, fun mismatch hfault => ?_⟩
    · obtain ⟨rfl, hnone⟩ := eq_of_treatment htreatment
      exact hnone
    · cases isArithmetic_of_binary hfault

end Evaluation

open Evaluation

/-- Whether a node is one of the statements that are kept of a program in a text. -/
def Node.IsKept (node : Node) : Prop :=
  ∃ source tokens, scan source = .ok tokens ∧ node ∈ (parse tokens).statements

/-- No program in a text has a malformed literal.  When statements of programs in texts are run one
after the other on one state, each evaluation is an ordinary one, and no variable is without a value
in the end. -/
theorem isOrdinary_of_isKept :
    (∀ source tokens, scan source = .ok tokens →
      ∀ error, (parse tokens).error? = some error →
        (∀ lexeme, error.fault ≠ .noInteger lexeme) ∧ error.fault ≠ .expected .character) ∧
    ∀ programs : List (List Node), (∀ program ∈ programs, ∀ node ∈ program, node.IsKept) →
      ∀ (rounds : Nat) (log : Log) (sink : Sink),
        (∀ visit ∈ Run.courseOfAll rounds programs ⟨.fresh log, sink⟩, visit.IsOrdinary rounds) ∧
          (Run.consoleAfter rounds programs ⟨.fresh log, sink⟩).state.scopes.IsVoidFree := by
  constructor
  · intro source tokens hscan error failed
    have hfault := not_isLexical_of_scan hscan failed
    constructor
    · intro lexeme h
      exact hfault (h ▸ trivial)
    · intro h
      exact hfault (h ▸ trivial)
  · intro programs kept rounds log sink
    have hsound : ∀ program ∈ programs, ∀ node ∈ program,
        Chronicles IsSound (course rounds node) (eval rounds node) := by
      intro program hprogram node hnode
      obtain ⟨source, tokens, -, mem⟩ := kept program hprogram node hnode
      exact isSound_eval rounds node (isReadable_of_mem_parse mem).shape
    obtain ⟨hvisits, hlast⟩ := Run.related_courseOfAll chronicle_isSound rounds programs hsound
      ⟨.fresh log, sink⟩ Scopes.isVoidFree_fresh
    exact ⟨fun visit mem => (hvisits visit mem).isOrdinary rounds, hlast⟩

/-- A variable is declared and then given the opposite of its value. -/
theorem isOrdinary_opposite :
    (∀ visit ∈ Run.courseOfAll 1 [[.declaration "x" none (.literal (.boolean true)),
        .assignment "x" (.unary .not (.identifier "x"))]] ⟨.fresh (.empty .error), .empty none⟩,
      visit.IsOrdinary 1) := by
  have hscan : scan "let x = true; x = not x;" = .ok [⟨.kwLet, "let", 1⟩, ⟨.identifier, "x", 1⟩,
      ⟨.assign, "=", 1⟩, ⟨.boolean, "true", 1⟩, ⟨.semicolon, ";", 1⟩, ⟨.identifier, "x", 1⟩,
      ⟨.assign, "=", 1⟩, ⟨.kwNot, "not", 1⟩, ⟨.identifier, "x", 1⟩, ⟨.semicolon, ";", 1⟩,
      ⟨.eof, "", 1⟩] := rfl
  refine (isOrdinary_of_isKept.2 _ ?_ 1 _ _).1
  simp only [List.forall_mem_singleton]
  exact fun node mem => ⟨_, _, hscan, mem⟩

end Script

import Script.Proofs.Evaluation.Discipline
import Script.Proofs.Evaluation.Typing
/-!
# Names are resolved before evaluation

Which names are bound where can be told from the text of a statement.  The check goes through a
statement in the order of the text, with one set of names for the global frame and one for each
body around the place where it is.  A statement that passes the check never fails for a name, since
at each point of its evaluation the frames bind exactly the names of the sets.
-/

namespace Script

def isVisible (sets : List (List String)) (name : String) : Bool := sets.any (name ∈ ·)

def Node.isResolved (sets : List (List String)) : Node → Bool
  | .literal _ => true
  | .identifier name => isVisible sets name
  | .binary _ left right => left.isResolved sets && right.isResolved sets
  | .unary _ operand => operand.isResolved sets
  | .conditional condition onTrue onFalse =>
    condition.isResolved sets && (onTrue.isResolved sets && onFalse.isResolved sets)
  | _ => false

mutual

/-- Checks the names in a statement, where `names` are bound in the scope of the statement and
`sets` in the scopes around it, the innermost first.  The result are the names that are bound in the
scope after the statement.  A body has a scope of its own, which is forgotten at its end.
Declarations of functions are not checked. -/
def Node.resolve (sets : List (List String)) (names : List String) : Node → Option (List String)
  | .declaration name _ initial =>
    if initial.isResolved (names :: sets) ∧ name ∉ names then some (name :: names) else none
  | .assignment name value =>
    if isVisible (names :: sets) name ∧ value.isResolved (names :: sets) then some names else none
  | .ifChain chain => if chain.isResolved (names :: sets) then some names else none
  | .whileLoop condition body =>
    if condition.isResolved (names :: sets) ∧ (resolveBody (names :: sets) [] body).isSome then
      some names
    else none
  | .breakLoop => some names
  | .nextRound => some names
  | .function _ _ => none
  | .returnValue value => if value.isResolved (names :: sets) then some names else none
  | node => if node.isResolved (names :: sets) then some names else none

def Chain.isResolved (sets : List (List String)) : Chain → Bool
  | .done => true
  | .when condition body others =>
    condition.isResolved sets && ((resolveBody sets [] body).isSome && others.isResolved sets)
  | .always body others => (resolveBody sets [] body).isSome && others.isResolved sets

def resolveBody (sets : List (List String)) (names : List String) :
    List Node → Option (List String)
  | [] => some names
  | statement :: others => (statement.resolve sets names).bind (resolveBody sets · others)

end

namespace Frame

def BindsExactly (names : List String) (frame : Frame) : Prop :=
  ∀ name, frame.binds name = true ↔ name ∈ names

theorem bindsExactly_empty : empty.BindsExactly [] := by
  intro name
  simp [binds]

theorem BindsExactly.insert {names : List String} {frame : Frame} (h : frame.BindsExactly names)
    (name : String) (value : Value) : (frame.insert name value).BindsExactly (name :: names) := by
  intro other
  rw [List.mem_cons, ← h other, binds, get?_insert]
  by_cases hname : name = other
  · simp [hname]
  · simp [hname, Ne.symm hname, binds]

theorem BindsExactly.rebind {names : List String} {frame : Frame} (h : frame.BindsExactly names)
    (name : String) (value : Value) : (frame.rebind name value).BindsExactly names := by
  intro other
  rw [← h other, binds, get?_rebind]
  by_cases hname : name = other ∧ frame.binds name = true
  · rw [if_pos hname, ← hname.1]
    simp [hname.2]
  · rw [if_neg hname, binds]

end Frame

namespace Scopes

/-- Whether the innermost frame binds exactly `names` and the frames around it exactly `sets`. -/
structure BindsExactly (names : List String) (sets : List (List String)) (scopes : Scopes) :
    Prop where
  innermost : scopes.innermost.BindsExactly names
  enclosing : List.Forall₂ (fun names frame => frame.BindsExactly names) sets scopes.enclosing

variable {names : List String} {sets : List (List String)} {scopes : Scopes}

theorem BindsExactly.frames (h : scopes.BindsExactly names sets) :
    List.Forall₂ (fun names frame => frame.BindsExactly names) (names :: sets) scopes.frames :=
  .cons h.innermost h.enclosing

theorem BindsExactly.insert (h : scopes.BindsExactly names sets) (name : String) (value : Value) :
    (scopes.insert name value).BindsExactly (name :: names) sets :=
  ⟨h.innermost.insert name value, h.enclosing⟩

theorem bindsExactly_rebindIn {sets : List (List String)} {frames : List Frame}
    (h : List.Forall₂ (fun names frame => frame.BindsExactly names) sets frames) (index : Nat)
    (name : String) (value : Value) :
    List.Forall₂ (fun names frame => frame.BindsExactly names) sets
      (rebindIn index name value frames) := by
  induction h with
  | nil => exact .nil
  | cons first others ih =>
      rw [rebindIn]
      split
      · exact .cons (first.rebind name value) others
      · exact .cons first ih

theorem BindsExactly.set? (h : scopes.BindsExactly names sets) {index : Nat} {name : String}
    {value : Value} {updated : Scopes} (hset : scopes.set? index name value = some updated) :
    updated.BindsExactly names sets := by
  have hframes := bindsExactly_rebindIn h.frames index name value
  rw [← frames_set? hset] at hframes
  exact ⟨(List.forall₂_cons.1 hframes).1, (List.forall₂_cons.1 hframes).2⟩

theorem exists_binds_of_isVisible {sets : List (List String)} {frames : List Frame}
    (h : List.Forall₂ (fun names frame => frame.BindsExactly names) sets frames) {name : String}
    (visible : isVisible sets name) : ∃ frame ∈ frames, frame.binds name = true := by
  induction h with
  | nil => cases visible
  | @cons names frame sets frames first others ih =>
      rw [isVisible, List.any_cons, Bool.or_eq_true, decide_eq_true_eq] at visible
      rcases visible with mem | mem
      · exact ⟨frame, by simp, (first name).2 mem⟩
      · obtain ⟨found, hfound, hbinds⟩ := ih mem
        exact ⟨found, List.mem_cons_of_mem _ hfound, hbinds⟩

theorem get?_ne_none_of_binds {name : String} {frame : Frame} (mem : frame ∈ scopes.frames)
    (hbinds : frame.binds name = true) : scopes.get? name ≠ none := by
  intro hnone
  have := List.findSome?_eq_none_iff.1 hnone frame mem
  simp [Frame.binds, this] at hbinds

theorem findIn_ne_none_of_binds {name : String} {frames : List Frame} {frame : Frame}
    (mem : frame ∈ frames) (hbinds : frame.binds name = true) : findIn name frames ≠ none := by
  induction frames with
  | nil => cases mem
  | cons first others ih =>
      rw [findIn]
      split
      · simp
      · rename_i hfirst
        rcases List.mem_cons.1 mem with rfl | mem
        · exact absurd hbinds hfirst
        · exact ih mem

end Scopes

namespace Evaluation

/-- Whether a fault is that a name is not bound, or bound already. -/
inductive Fault.IsOfName : Fault → Prop
  | redeclared (name : String) : Fault.IsOfName (.redeclared name)
  | undefined (name : String) : Fault.IsOfName (.undefined name)

theorem Fault.IsArithmetic.not_isOfName {fault : Fault} (h : fault.IsArithmetic) :
    ¬ fault.IsOfName := by
  cases h <;> rintro ⟨⟩

theorem isArithmetic_of_binary {op : BinaryOp} {left right : Value} {fault : Fault}
    (h : binary op left right = .fault fault) : fault.IsArithmetic := by
  unfold binary at h
  split at h
  · cases h
  · cases h
  · cases h
  · cases h
  · split at h <;> cases h
  · split at h <;> cases h
  · cases h
  · cases h
  · rename_i op l r
    have harithmetic := has_arithmetic op l r
    rw [h] at harithmetic
    cases harithmetic with
    | fault h => exact h
  · cases h
  · cases h

theorem isArithmetic_of_unary {op : UnaryOp} {operand : Value} {fault : Fault}
    (h : unary op operand = .fault fault) : fault.IsArithmetic := by
  unfold unary at h
  split at h
  · cases h
  · rename_i i
    have hranged := has_ranged (.negation i) (-i.val)
    rw [h] at hranged
    cases hranged with
    | fault h => exact h
  · cases h

/-- Whether an evaluation that starts on scopes as in `before` never fails for a name, and ends on
scopes as in `after` if it has a result. -/
def Resolves {α : Type} (before : Scopes → Prop) (evaluation : Eval α)
    (after : α → Scopes → Prop) : Prop :=
  ∀ state, before state.scopes →
    match evaluation state with
    | .ok a last => after a last.scopes
    | .error (.fault fault) _ => ¬ fault.IsOfName
    | .error (.abort _) _ => True

namespace Resolves

variable {α β : Type} {before : Scopes → Prop}

theorem pure {a : α} {after : α → Scopes → Prop} (h : ∀ scopes, before scopes → after a scopes) :
    Resolves before (pure a) after :=
  fun state hstate => h state.scopes hstate

theorem fail {fault : Fault} (h : ¬ fault.IsOfName) (after : α → Scopes → Prop) :
    Resolves before (fail fault) after :=
  fun _ _ => h

theorem report (mismatch : Mismatch) : Resolves before (report mismatch) fun _ => before :=
  fun _ hstate => hstate

theorem bind {first : Eval α} {next : α → Eval β} {between : α → Scopes → Prop}
    {after : β → Scopes → Prop} (hfirst : Resolves before first between)
    (hnext : ∀ a, Resolves (between a) (next a) after) :
    Resolves before (first >>= next) after := by
  intro state hstate
  have hends := hfirst state hstate
  rw [Step.bind_apply]
  cases hrun : first state with
  | ok a last =>
      rw [hrun] at hends
      exact hnext a last hends
  | error stop last =>
      rw [hrun] at hends
      cases stop with
      | fault fault => exact hends
      | abort abort => trivial

theorem weaken {evaluation : Eval α} {before' : Scopes → Prop} {after after' : α → Scopes → Prop}
    (h : Resolves before evaluation after) (hbefore : ∀ scopes, before' scopes → before scopes)
    (hafter : ∀ a scopes, after a scopes → after' a scopes) :
    Resolves before' evaluation after' := by
  intro state hstate
  have hends := h state (hbefore _ hstate)
  cases hrun : evaluation state with
  | ok a last =>
      rw [hrun] at hends
      exact hafter a _ hends
  | error stop last =>
      rw [hrun] at hends
      cases stop with
      | fault fault => exact hends
      | abort abort => trivial

theorem map {evaluation : Eval α} (f : α → β) (h : Resolves before evaluation fun _ => before) :
    Resolves before (f <$> evaluation) fun _ => before :=
  bind h fun _ => pure fun _ hscopes => hscopes

theorem asValue {evaluation : Eval Signal} {after : Scopes → Prop}
    (h : Resolves before evaluation fun _ => after) :
    Resolves before (asValue evaluation) fun _ => after := by
  refine bind h fun signal => ?_
  cases signal with
  | value v => exact pure fun _ hscopes => hscopes
  | jump jump => exact fail (by rintro ⟨⟩) _
  | leave => exact fail (by rintro ⟨⟩) _

theorem settle {answer : Answer} (h : ∀ fault, answer = .fault fault → fault.IsArithmetic) :
    Resolves before (settle answer) fun _ => before := by
  cases answer with
  | value v => exact pure fun _ hscopes => hscopes
  | mismatch mismatch => exact report mismatch
  | fault fault => exact fail (h fault rfl).not_isOfName _

theorem holds {condition : Eval Value} (construct : Construct)
    (h : Resolves before condition fun _ => before) :
    Resolves before (holds construct condition) fun _ => before := by
  refine bind h fun v => ?_
  cases v.asBoolean? with
  | some b => exact pure fun _ hscopes => hscopes
  | none => exact bind (report _) fun _ => pure fun _ hscopes => hscopes

theorem repeatWhile {condition : Eval Bool} {body : Eval Signal}
    (hcondition : Resolves before condition fun _ => before)
    (hbody : Resolves before body fun _ => before) (rounds : Nat) :
    Resolves before (repeatWhile condition body rounds) fun _ => before := by
  induction rounds with
  | zero => exact fun _ _ => trivial
  | succ rounds ih =>
      refine bind hcondition fun b => ?_
      cases b with
      | false => exact pure fun _ hscopes => hscopes
      | true =>
          refine bind hbody fun signal => ?_
          cases signal with
          | value v => exact ih
          | leave => exact pure fun _ hscopes => hscopes
          | jump jump =>
              cases jump with
              | breakLoop => exact pure fun _ hscopes => hscopes
              | nextRound => exact ih

variable {names : List String} {sets : List (List String)}

theorem variableValue {name : String} (visible : isVisible (names :: sets) name) :
    Resolves (·.BindsExactly names sets) (variableValue name)
      fun _ => (·.BindsExactly names sets) := by
  intro state hstate
  obtain ⟨frame, mem, hbinds⟩ := Scopes.exists_binds_of_isVisible hstate.frames visible
  rw [variableValue_apply]
  cases hvalue : state.scopes.get? name with
  | none => exact absurd hvalue (Scopes.get?_ne_none_of_binds mem hbinds)
  | some v => exact hstate

theorem declareVariable {name : String} (fresh : name ∉ names) (ascription : Option Ty)
    {initial : Eval Value} (h : Resolves (·.BindsExactly names sets) initial
      fun _ => (·.BindsExactly names sets)) :
    Resolves (·.BindsExactly names sets) (declareVariable name ascription initial)
      fun _ => (·.BindsExactly (name :: names) sets) := by
  intro state hstate
  have hunbound : state.scopes.innermostBinds name = false := by
    rw [Bool.eq_false_iff]
    exact fun hbound => fresh ((hstate.innermost name).1 hbound)
  rw [Evaluation.declareVariable, Step.get_bind, if_neg (Bool.eq_false_iff.1 hunbound)]
  refine bind h (fun v => ?_) state hstate
  cases ascription.filter (· ≠ v.ty) with
  | some ty => exact fail (by rintro ⟨⟩) _
  | none => exact fun state hstate => hstate.insert name v

theorem assignVariable {name : String} (visible : isVisible (names :: sets) name)
    {value : Eval Value} (h : Resolves (·.BindsExactly names sets) value
      fun _ => (·.BindsExactly names sets)) :
    Resolves (·.BindsExactly names sets) (assignVariable name value)
      fun _ => (·.BindsExactly names sets) := by
  intro state hstate
  obtain ⟨frame, mem, hbinds⟩ := Scopes.exists_binds_of_isVisible hstate.frames visible
  simp only [Evaluation.assignVariable, Step.bind_apply, Step.get_apply]
  cases hfind : state.scopes.find? name with
  | none => exact absurd hfind (Scopes.findIn_ne_none_of_binds mem hbinds)
  | some index =>
      refine bind h (fun v last hlast => ?_) state hstate
      simp only [Step.bind_apply, Step.get_apply]
      cases hset : last.scopes.set? index name v with
      | none => trivial
      | some updated => exact hlast.set? hset

end Resolves

theorem resolves_eval_of_isResolved {names : List String} {sets : List (List String)} (rounds : Nat)
    (node : Node) (checked : node.isResolved (names :: sets)) :
    Resolves (·.BindsExactly names sets) (eval rounds node)
      fun _ => (·.BindsExactly names sets) := by
  cases node with
  | literal v => exact .pure fun _ hscopes => hscopes
  | identifier name => exact .map _ (.variableValue checked)
  | binary op left right =>
      obtain ⟨hleft, hright⟩ := Bool.and_eq_true_iff.1 checked
      refine .bind (.asValue (resolves_eval_of_isResolved rounds left hleft)) fun l => ?_
      refine .bind (.asValue (resolves_eval_of_isResolved rounds right hright)) fun r => ?_
      exact .map _ (.settle fun _ => isArithmetic_of_binary)
  | unary op operand =>
      refine .bind (.asValue (resolves_eval_of_isResolved rounds operand checked)) fun v => ?_
      exact .map _ (.settle fun _ => isArithmetic_of_unary)
  | conditional condition onTrue onFalse =>
      obtain ⟨hcondition, hbranches⟩ := Bool.and_eq_true_iff.1 checked
      obtain ⟨htrue, hfalse⟩ := Bool.and_eq_true_iff.1 hbranches
      refine .bind (.asValue (resolves_eval_of_isResolved rounds condition hcondition)) fun v => ?_
      cases v.asBoolean? with
      | none => exact .map _ (.report _)
      | some b =>
          cases b with
          | true => exact .map _ (.asValue (resolves_eval_of_isResolved rounds onTrue htrue))
          | false => exact .map _ (.asValue (resolves_eval_of_isResolved rounds onFalse hfalse))
  | _ => cases checked

/-- How the scopes are after a statement: a value leaves the names as the check says, and a jump
leaves them as they were around the scope of the statement. -/
structure Leaves (names : List String) (sets : List (List String)) (signal : Signal)
    (scopes : Scopes) : Prop where
  enclosing : List.Forall₂ (fun names frame => frame.BindsExactly names) sets scopes.enclosing
  innermost : ∀ v, signal = .value v → scopes.innermost.BindsExactly names

theorem leaves_of_bindsExactly {names : List String} {sets : List (List String)} {scopes : Scopes}
    (signal : Signal) (h : scopes.BindsExactly names sets) : Leaves names sets signal scopes :=
  ⟨h.enclosing, fun _ _ => h.innermost⟩

theorem Leaves.bindsExactly {names : List String} {sets : List (List String)} {v : Value}
    {scopes : Scopes} (h : Leaves names sets (.value v) scopes) :
    scopes.BindsExactly names sets :=
  ⟨h.innermost v rfl, h.enclosing⟩

theorem Resolves.leaves {names after : List String} {sets : List (List String)}
    {evaluation : Eval Signal} (h : Resolves (·.BindsExactly names sets) evaluation
      fun _ => (·.BindsExactly after sets)) :
    Resolves (·.BindsExactly names sets) evaluation (Leaves after sets) :=
  h.weaken (fun _ hscopes => hscopes) fun signal _ => leaves_of_bindsExactly signal

/-- An evaluation in a scope of its own starts without names in this scope.  The names of the scopes
around it are there again afterwards. -/
theorem Resolves.inScope {names after : List String} {sets : List (List String)}
    {evaluation : Eval Signal} (h : Resolves (·.BindsExactly [] (names :: sets)) evaluation
      (Leaves after (names :: sets))) :
    Resolves (·.BindsExactly names sets) (inScope evaluation)
      fun _ => (·.BindsExactly names sets) := by
  intro state hstate
  have hends := h state.push ⟨Frame.bindsExactly_empty, hstate.frames⟩
  unfold Evaluation.inScope attempt
  cases hrun : evaluation state.push with
  | ok a last =>
      rw [hrun] at hends
      -- whichever names a jump leaves in the scope, the scope is closed with them
      obtain ⟨frame, others, hframe, hothers, henclosing⟩ :=
        List.forall₂_cons_left_iff.1 hends.enclosing
      have hpop : last.scopes.pop? = some ⟨frame, others⟩ := by rw [Scopes.pop?, henclosing]
      simp only [hpop]
      exact ⟨hframe, hothers⟩
  | error stop last =>
      rw [hrun] at hends
      cases stop with
      | abort abort => trivial
      | fault fault =>
          cases hpop : last.scopes.pop? with
          | none => simp only [hpop]
          | some outer =>
              simp only [hpop]
              exact hends

mutual

theorem resolves_eval {names after : List String} {sets : List (List String)} (rounds : Nat)
    (node : Node) (checked : node.resolve sets names = some after) :
    Resolves (·.BindsExactly names sets) (eval rounds node) (Leaves after sets) := by
  cases node with
  | declaration name ascription initial =>
      obtain ⟨⟨hinitial, fresh⟩, hafter⟩ := Option.ite_none_right_eq_some.1 checked
      cases hafter
      have hvalue := resolves_eval_of_isResolved rounds initial hinitial
      exact .leaves (.bind (.declareVariable fresh ascription (.asValue hvalue)) fun _ =>
        .pure fun _ hscopes => hscopes)
  | assignment name value =>
      obtain ⟨⟨visible, hvalue⟩, hafter⟩ := Option.ite_none_right_eq_some.1 checked
      cases hafter
      have hvalue := resolves_eval_of_isResolved rounds value hvalue
      exact .leaves (.map _ (.assignVariable visible (.asValue hvalue)))
  | ifChain chain =>
      obtain ⟨hchain, hafter⟩ := Option.ite_none_right_eq_some.1 checked
      cases hafter
      exact .leaves (resolves_evalChain rounds chain hchain)
  | whileLoop condition body =>
      obtain ⟨⟨hcondition, hbody⟩, hafter⟩ := Option.ite_none_right_eq_some.1 checked
      cases hafter
      obtain ⟨left, hleft⟩ := Option.isSome_iff_exists.1 hbody
      have hcondition := resolves_eval_of_isResolved rounds condition hcondition
      exact .leaves (.repeatWhile (.holds .whileLoop (.asValue hcondition))
        (resolves_evalBody rounds .void body hleft).inScope rounds)
  | breakLoop =>
      cases checked
      exact .pure fun _ => leaves_of_bindsExactly _
  | nextRound =>
      cases checked
      exact .pure fun _ => leaves_of_bindsExactly _
  | function signature body => cases checked
  | returnValue value =>
      obtain ⟨hvalue, hafter⟩ := Option.ite_none_right_eq_some.1 checked
      cases hafter
      have hvalue := resolves_eval_of_isResolved rounds value hvalue
      exact .leaves (.bind (.asValue hvalue) fun _ => .pure fun _ hscopes => hscopes)
  | literal | identifier | binary | unary | conditional | malformed | endOfInput =>
      simp only [Node.resolve, Option.ite_none_right_eq_some, Option.some.injEq] at checked
      obtain ⟨hnode, rfl⟩ := checked
      exact .leaves (resolves_eval_of_isResolved rounds _ hnode)

theorem resolves_evalChain {names : List String} {sets : List (List String)} (rounds : Nat)
    (chain : Chain) (checked : chain.isResolved (names :: sets)) :
    Resolves (·.BindsExactly names sets) (evalChain rounds chain)
      fun _ => (·.BindsExactly names sets) := by
  cases chain with
  | done => exact .pure fun _ hscopes => hscopes
  | when condition body others =>
      obtain ⟨hcondition, hlinks⟩ := Bool.and_eq_true_iff.1 checked
      obtain ⟨hbody, hothers⟩ := Bool.and_eq_true_iff.1 hlinks
      refine .bind (.holds .ifLink (.asValue
        (resolves_eval_of_isResolved rounds condition hcondition))) fun b => ?_
      cases b with
      | true =>
          obtain ⟨left, hleft⟩ := Option.isSome_iff_exists.1 hbody
          exact (resolves_evalBody rounds .void body hleft).inScope
      | false => exact resolves_evalChain rounds others hothers
  | always body others =>
      obtain ⟨left, hleft⟩ := Option.isSome_iff_exists.1 (Bool.and_eq_true_iff.1 checked).1
      exact (resolves_evalBody rounds .void body hleft).inScope

theorem resolves_evalBody {names after : List String} {sets : List (List String)} (rounds : Nat)
    (last : Value) (body : List Node) (checked : resolveBody sets names body = some after) :
    Resolves (·.BindsExactly names sets) (evalBody rounds last body) (Leaves after sets) := by
  cases body with
  | nil =>
      cases checked
      exact .pure fun _ => leaves_of_bindsExactly _
  | cons statement others =>
      obtain ⟨between, hstatement, hothers⟩ := Option.bind_eq_some_iff.1 checked
      refine .bind (resolves_eval rounds statement hstatement) fun signal => ?_
      cases signal with
      | value v =>
          have hrest := resolves_evalBody rounds v others hothers
          exact hrest.weaken (fun _ hleaves => hleaves.bindsExactly) fun _ _ hleaves => hleaves
      -- behind a jump the names of the other statements stay unbound
      | jump jump => exact .pure fun _ hleaves => ⟨hleaves.enclosing, by rintro v ⟨⟩⟩
      | leave => exact .pure fun _ hleaves => ⟨hleaves.enclosing, by rintro v ⟨⟩⟩

end

/-- A statement whose names are checked against the names of the global frame is answered, if its
loops end, with a value or with a fault that is not for a name. -/
theorem respond_of_resolve {names : List String} {node : Node} {state : State} {frame : Frame}
    (checked : (node.resolve [] names).isSome) (global : state.scopes = ⟨frame, []⟩)
    (bound : ∀ name, frame.binds name = true ↔ name ∈ names) (rounds : Nat) :
    match respond rounds node state with
    | .ok response _ =>
      ∀ name, response.result ≠ .error (.undefined name) ∧
        response.result ≠ .error (.redeclared name)
    | .error abort _ => abort = .exhausted := by
  obtain ⟨after, hafter⟩ := Option.isSome_iff_exists.1 checked
  have hstart : (state.note (.statement node)).scopes.BindsExactly names [] := by
    rw [State.scopes_note, global]
    exact ⟨bound, .nil⟩
  have hresolves := Resolves.asValue
    ((resolves_eval rounds node hafter).weaken (fun _ hscopes => hscopes)
      fun _ _ hleaves => hleaves.enclosing) _ hstart
  -- the check says nothing of an evaluation that is given up, which is one that runs out of rounds
  have hends := Disciplined.asValue (disciplined_eval rounds node (List.Subset.refl _))
    (state.note (.statement node))
  simp only [respond, Step.bind_apply, Step.modify_apply, attempt]
  cases hrun : asValue (eval rounds node) (state.note (.statement node)) with
  | ok v last =>
      intro name
      constructor
      · rintro ⟨⟩
      · rintro ⟨⟩
  | error stop last =>
      rw [hrun] at hresolves hends
      cases stop with
      | abort abort => exact hends
      | fault fault =>
          intro name
          constructor
          · rintro ⟨⟩
            exact hresolves (.undefined name)
          · rintro ⟨⟩
            exact hresolves (.redeclared name)

/-- A loop with a declaration in its body, which is hidden inside a branch by a declaration whose
initial value is that of the hidden variable. -/
def countdown : Node :=
  let zero := .literal (.integer .zero)
  let one := .literal (.integer ⟨1, by decide, by decide⟩)
  .whileLoop (.binary (.order .greater) (.identifier "n") zero)
    [.declaration "m" none (.binary (.arithmetic .subtract) (.identifier "n") one),
    .assignment "n" (.identifier "m"),
    .ifChain (.when (.binary .equals (.identifier "m") one)
      [.declaration "m" (some .integer) (.identifier "m"), .nextRound] .done),
    .breakLoop]

def counting : State :=
  ⟨⟨⟨[("n", .integer ⟨2, by decide, by decide⟩)]⟩, []⟩, [], #[], .empty .error⟩

/-- The variable of the loop is declared anew in each round. -/
theorem respond_countdown :
    (countdown.resolve [] ["n"]).isSome ∧
      match respond 3 countdown counting with
      | .ok response _ =>
        ∀ name, response.result ≠ .error (.undefined name) ∧
          response.result ≠ .error (.redeclared name)
      | .error abort _ => abort = .exhausted := by
  have checked : (countdown.resolve [] ["n"]).isSome := by decide
  have bound (name : String) :
      counting.scopes.innermost.binds name = true ↔ name ∈ ["n"] := by
    by_cases hname : "n" = name
    · simp [counting, Frame.binds, Frame.get?, ← hname]
    · simp [counting, Frame.binds, Frame.get?, Ne.symm hname]
  exact ⟨checked, @respond_of_resolve ["n"] countdown counting _ checked rfl bound 3⟩

end Evaluation

end Script

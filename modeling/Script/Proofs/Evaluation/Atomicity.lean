import Script.Proofs.Evaluation.Meaning
import Script.Proofs.Scopes
/-!
# Statements that take effect at once or not at all

A statement that is not made of other statements changes at most one thing: a binding or an entry in
the table of functions.  It makes this change when all else has gone well, so a statement that ends
with a fault or a jump has changed nothing.
-/

namespace Script

def Node.IsSimple : Node → Prop
  | .ifChain _ | .whileLoop _ _ => False
  | _ => True

/-- Whether a frame has become another one in which a name that it binds has the given value. -/
def Frame.Rebinds (name : String) (value : Value) (before after : Frame) : Prop :=
  ∃ first old rest, before.bindings = first ++ (name, old) :: rest ∧
    (∀ binding ∈ first, binding.1 ≠ name) ∧ after.bindings = first ++ (name, value) :: rest

theorem Frame.rebinds_rebind {frame : Frame} {name : String} (h : frame.binds name = true)
    (value : Value) : frame.Rebinds name value (frame.rebind name value) := by
  have hbound : frame.bindings.lookup name ≠ none := Option.isSome_iff_ne_none.1 h
  rw [Frame.rebind, if_pos h]
  exact exists_update_eq hbound value

namespace Evaluation

/-- The change by which a simple statement with the given value has turned one state into the
other. -/
inductive Effect (value : Value) (before after : State) : Node → Prop
  | declaration {name : String} {ascription : Option Ty} {initial : Node}
      (unbound : ∀ binding ∈ before.scopes.innermost.bindings, binding.1 ≠ name)
      (initialized : (initial.meaning before.scopes.get?).result = .ok value)
      (scopes : after.scopes = ⟨⟨before.scopes.innermost.bindings ++ [(name, value)]⟩,
        before.scopes.enclosing⟩)
      (functions : after.functions = before.functions) :
      Effect value before after (.declaration name ascription initial)
  | assignment {name : String} {assigned : Node} {inner outer : List Frame} {frame rebound : Frame}
      (found : before.scopes.frames = inner ++ frame :: outer)
      (innermost : ∀ other ∈ inner, other.binds name = false)
      (rebinds : frame.Rebinds name value rebound)
      (evaluated : (assigned.meaning before.scopes.get?).result = .ok value)
      (scopes : after.scopes.frames = inner ++ rebound :: outer)
      (functions : after.functions = before.functions) :
      Effect value before after (.assignment name assigned)
  | function {signature : Signature} {body : List Node} (void : value = .void)
      (undeclared : before.declares signature.name = false)
      (scopes : after.scopes = before.scopes)
      (functions : after.functions = before.functions ++ [⟨signature, body⟩]) :
      Effect value before after (.function signature body)
  | expression {node : Node} (formula : node.IsFormula)
      (evaluated : (node.meaning before.scopes.get?).result = .ok value)
      (scopes : after.scopes = before.scopes) (functions : after.functions = before.functions) :
      Effect value before after node

/-- Whether a simple statement has ended with a value and has had its effect, or with a jump or a
fault and has had none. -/
def TakesEffect (node : Node) (before : State) : EStateM.Result Stop State Signal → Prop
  | .ok (.value v) after => Effect v before after node
  | .ok (.jump _) after | .ok .leave after | .error (.fault _) after =>
    after.scopes = before.scopes ∧ after.functions = before.functions
  | .error (.abort _) _ => False

/-- Asking for the value of an expression gives its value or a fault, and changes no scopes and no
functions. -/
theorem asValue_cases {level : Nat} {node : Node} (h : node.IsExpression level) (rounds : Nat)
    (state : State) :
    ∃ after, after.scopes = state.scopes ∧ after.functions = state.functions ∧
      ((∃ v, (node.meaning state.scopes.get?).result = .ok v ∧
          asValue (eval rounds node) state = .ok v after) ∨
        ∃ fault, asValue (eval rounds node) state = .error (.fault fault) after) := by
  obtain ⟨after, hrun, hscopes, hfunctions, -⟩ := comesTo_eval h.isFormula rounds state
  refine ⟨after, hscopes, hfunctions, ?_⟩
  rw [asValue_apply, hrun]
  unfold Response.ending
  cases (node.meaning state.scopes.get?).result with
  | ok v => exact .inl ⟨v, rfl, rfl⟩
  | error fault => exact .inr ⟨fault, rfl⟩

variable {level : Nat}

theorem takesEffect_expression {node : Node} (h : node.IsExpression level) (rounds : Nat)
    (state : State) : TakesEffect node state (eval rounds node state) := by
  obtain ⟨after, hrun, hscopes, hfunctions, -⟩ := comesTo_eval h.isFormula rounds state
  rw [hrun]
  unfold Response.ending
  cases hresult : (node.meaning state.scopes.get?).result with
  | ok v => exact Effect.expression h.isFormula hresult hscopes hfunctions
  | error fault => exact ⟨hscopes, hfunctions⟩

theorem takesEffect_declaration {initial : Node} (h : initial.IsExpression level) (name : String)
    (ascription : Option Ty) (rounds : Nat) (state : State) :
    TakesEffect (.declaration name ascription initial) state
      (eval rounds (.declaration name ascription initial) state) := by
  rw [eval, Step.map_apply, declareVariable, Step.get_bind]
  by_cases hbound : state.scopes.innermostBinds name
  · rw [if_pos hbound]
    exact ⟨rfl, rfl⟩
  · rw [if_neg hbound, Step.bind_apply]
    obtain ⟨after, hscopes, hfunctions, ⟨v, hvalue, hrun⟩ | ⟨fault, hrun⟩⟩ :=
      asValue_cases h rounds state
    · simp only [hrun]
      cases ascription.filter (· ≠ v.ty) with
      | some ty => exact ⟨hscopes, hfunctions⟩
      | none =>
          have hunbound : state.scopes.innermost.get? name = none := by
            simpa [Scopes.innermostBinds, Frame.binds] using hbound
          have hinsert := Frame.update_of_lookup_eq_none hunbound v
          have hinserted : after.scopes.insert name v =
              ⟨⟨state.scopes.innermost.bindings ++ [(name, v)]⟩, state.scopes.enclosing⟩ := by
            rw [hscopes, Scopes.insert, Frame.insert, hinsert]
          exact Effect.declaration (Frame.lookup_eq_none_iff.1 hunbound) hvalue hinserted hfunctions
    · rw [hrun]
      exact ⟨hscopes, hfunctions⟩

/-- The frame in which the name has been found before the value was evaluated is the one that has
the new value, since the scopes have not changed in between. -/
theorem takesEffect_assignment {assigned : Node} (h : assigned.IsExpression level) (name : String)
    (rounds : Nat) (state : State) :
    TakesEffect (.assignment name assigned) state
      (eval rounds (.assignment name assigned) state) := by
  rw [eval, Step.map_apply, assignVariable, Step.get_bind]
  cases hfind : state.scopes.find? name with
  | none => exact ⟨rfl, rfl⟩
  | some index =>
      simp only [Step.bind_apply]
      obtain ⟨after, hscopes, hfunctions, ⟨v, hvalue, hrun⟩ | ⟨fault, hrun⟩⟩ :=
        asValue_cases h rounds state
      · rw [hrun]
        simp only [Step.get_apply, hscopes]
        obtain ⟨inner, frame, outer, hframes, hinner, hbinds, rfl⟩ :=
          Scopes.exists_eq_append_of_findIn hfind
        cases hset : state.scopes.set? outer.length name v with
        | none =>
            have hle := (Scopes.set?_eq_none_iff _ _ _ _).1 hset
            have hlt := Scopes.find?_lt hfind
            omega
        | some updated =>
            have hupdated := Scopes.frames_set? hset
            rw [hframes, Scopes.rebindIn_append] at hupdated
            exact Effect.assignment hframes hinner (Frame.rebinds_rebind hbinds v) hvalue hupdated
              hfunctions
      · rw [hrun]
        exact ⟨hscopes, hfunctions⟩

theorem takesEffect_function (signature : Signature) (body : List Node) (rounds : Nat)
    (state : State) :
    TakesEffect (.function signature body) state
      (eval rounds (.function signature body) state) := by
  rw [eval, Step.bind_apply, declareFunction, Step.get_bind]
  by_cases hdeclared : state.declares signature.name
  · rw [if_pos hdeclared]
    exact ⟨rfl, rfl⟩
  · rw [if_neg hdeclared]
    cases firstRepeat? [] (signature.parameters.map (·.name)) with
    | some name => exact ⟨rfl, rfl⟩
    | none => exact Effect.function rfl (Bool.eq_false_iff.2 hdeclared) rfl rfl

theorem takesEffect_returnValue {value : Node} (h : value.IsExpression level) (rounds : Nat)
    (state : State) :
    TakesEffect (.returnValue value) state (eval rounds (.returnValue value) state) := by
  rw [eval, Step.bind_apply]
  obtain ⟨after, hscopes, hfunctions, ⟨v, -, hrun⟩ | ⟨fault, hrun⟩⟩ :=
    asValue_cases h rounds state
  · rw [hrun]
    exact ⟨hscopes, hfunctions⟩
  · rw [hrun]
    exact ⟨hscopes, hfunctions⟩

/-- A statement of the grammar that is no `if` and no loop ends, whatever the state is.  With a
value it has made one change: a declaration has bound its name to the value in the innermost frame,
an assignment has given the value to the name in the innermost frame that binds it, and a function
has been entered into the table.  With a fault or a jump it has changed nothing. -/
theorem takesEffect_of_isSimple {node : Node} (h : node.IsStatement) (simple : node.IsSimple)
    (rounds : Nat) (state : State) : TakesEffect node state (eval rounds node state) := by
  cases h with
  | declaration value => exact takesEffect_declaration value _ _ rounds state
  | assignment value => exact takesEffect_assignment value _ rounds state
  | ifChain => exact simple.elim
  | whileLoop => exact simple.elim
  | breakLoop => exact ⟨rfl, rfl⟩
  | nextRound => exact ⟨rfl, rfl⟩
  | function => exact takesEffect_function _ _ rounds state
  | returnValue value => exact takesEffect_returnValue value rounds state
  | expression value => exact takesEffect_expression value rounds state

def lengthening : Node :=
  .assignment "s" (.binary (.arithmetic .add) (.identifier "s") (.literal (.text "b")))

theorem takesEffect_lengthening :
    lengthening.IsStatement ∧ lengthening.IsSimple ∧
      TakesEffect lengthening sheltered (eval 1 lengthening sheltered) := by
  have h : lengthening.IsStatement :=
    .assignment (.binary (by decide) .identifier (.literal (by decide)))
  exact ⟨h, trivial, takesEffect_of_isSimple h trivial 1 sheltered⟩

end Evaluation

end Script

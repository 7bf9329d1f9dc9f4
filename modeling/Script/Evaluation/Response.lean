import Script.Evaluation.Node
/-!
# Responses to statements

A statement that stands in no body is answered by the mismatches that were reported during its
evaluation and by its value or its fault.  Nothing that one statement reports is left over for the
next one.
-/

namespace Script.Evaluation

structure Response where
  reports : List Mismatch
  result : Except Fault Value

def errorLine (message : String) : String := "error: " ++ message

def Response.lines (response : Response) : List String :=
  response.reports.map (errorLine ·.message) ++
    [match response.result with
      | .ok v => v.render
      | .error fault => errorLine fault.message]

/-- Evaluates a statement that stands in no body. -/
def respond (rounds : Nat) (node : Node) : Guarded Response := do
  modify (·.note (.statement node))
  let result ← attempt (asValue (eval rounds node))
  modify fun state => state.note (.depthAfterStatement state.scopes.depth)
  let reports := (← get).reports.toList
  modify fun state => { state with reports := #[] }
  pure ⟨reports, result⟩

theorem respond_apply (rounds : Nat) (node : Node) (state : State) :
    respond rounds node state =
      match asValue (eval rounds node) (state.note (.statement node)) with
      | .ok v last => .ok ⟨last.reports.toList, .ok v⟩
        { last.note (.depthAfterStatement last.scopes.depth) with reports := #[] }
      | .error (.fault fault) last => .ok ⟨last.reports.toList, .error fault⟩
        { last.note (.depthAfterStatement last.scopes.depth) with reports := #[] }
      | .error (.abort abort) last => .error abort last := by
  simp only [respond, Step.bind_apply, Step.modify_apply, attempt]
  cases asValue (eval rounds node) (state.note (.statement node)) with
  | ok v last => rfl
  | error stop last => cases stop <;> rfl

end Script.Evaluation

import Script.Proofs.Evaluation.Simulation
/-!
# What an evaluation depends on

An evaluation reads the scopes and the signatures of the declared functions.  It goes the same way
from two states that agree in these and in the reports so far, whatever their logs hold and whatever
the bodies of the functions are.
-/

namespace Script.Evaluation

/-- Whether two states differ only in their logs and in the bodies of functions. -/
structure State.Alike (first second : State) : Prop where
  scopes : first.scopes = second.scopes
  signatures : first.functions.map (·.signature) = second.functions.map (·.signature)
  reports : first.reports = second.reports

namespace State.Alike

variable {first second : State}

theorem refl (state : State) : state.Alike state := ⟨rfl, rfl, rfl⟩

theorem fresh (log log' : Log) : (State.fresh log).Alike (State.fresh log') := ⟨rfl, rfl, rfl⟩

theorem symm (h : first.Alike second) : second.Alike first :=
  ⟨h.scopes.symm, h.signatures.symm, h.reports.symm⟩

theorem trans {third : State} (h : first.Alike second) (h' : second.Alike third) :
    first.Alike third :=
  ⟨h.scopes.trans h'.scopes, h.signatures.trans h'.signatures, h.reports.trans h'.reports⟩

/-- What is recorded makes no difference. -/
theorem note (h : first.Alike second) (event event' : Event) :
    (first.note event).Alike (second.note event') :=
  ⟨h.scopes, h.signatures, h.reports⟩

theorem foldl_note (state : State) (events : List Event) :
    state.Alike (events.foldl State.note state) := by
  induction events generalizing state with
  | nil => exact refl state
  | cons event others ih =>
      have hnoted : state.Alike (state.note event) := ⟨rfl, rfl, rfl⟩
      exact hnoted.trans (ih (state.note event))

theorem report (h : first.Alike second) (mismatch : Mismatch) :
    (first.report mismatch).Alike (second.report mismatch) :=
  ⟨h.scopes, h.signatures, by rw [reports_report, reports_report, h.reports]⟩

theorem push (h : first.Alike second) : first.push.Alike second.push :=
  ⟨by rw [scopes_push, scopes_push, h.scopes], h.signatures, h.reports⟩

theorem rescope (h : first.Alike second) (scopes : Scopes) :
    ({ first with scopes } : State).Alike { second with scopes } :=
  ⟨rfl, h.signatures, h.reports⟩

theorem leave (h : first.Alike second) (scopes : Scopes) :
    (first.leave scopes).Alike (second.leave scopes) :=
  ⟨rfl, h.signatures, h.reports⟩

theorem declare (h : first.Alike second) {function function' : Function}
    (same : function.signature = function'.signature) :
    (first.declare function).Alike (second.declare function') := by
  refine ⟨h.scopes, ?_, h.reports⟩
  rw [functions_declare, functions_declare, List.map_append, List.map_append, h.signatures,
    List.map_singleton, List.map_singleton, same]

end State.Alike

theorem coupling_alike : Coupling (fun _ : Unit => State.Alike) id where
  get?_eq alike name := by rw [alike.scopes]
  innermostBinds_eq alike name := by rw [alike.scopes]
  signatures_eq alike := alike.signatures
  report alike := alike.report
  insert alike name v := by
    rw [alike.scopes]
    exact alike.rescope _
  set? {_ state other} alike name := by
    rw [alike.scopes]
    cases other.scopes.find? name with
    | none => exact .none
    | some frame =>
        refine .some fun {after after'} alike v => ?_
        rw [alike.scopes]
        cases after'.scopes.set? frame name v with
        | none => exact .none
        | some scopes => exact .some (alike.rescope scopes)
  declare alike := alike.declare
  push alike := alike.push
  leave {_ state other} alike := by
    rw [alike.scopes]
    cases other.scopes.pop? with
    | none => exact .none
    | some outer => exact .some (alike.leave outer)

theorem simulates_alike (rounds : Nat) (node : Node) :
    Simulates State.Alike (eval rounds node) (eval rounds node) :=
  coupling_alike.simulates_eval rounds () node (.inr ⟨(), rfl⟩)

end Script.Evaluation

import Script.Proofs.Evaluation.Discipline
import Script.Run.Program
import Script.Run.Session
/-!
# The output of a run

A sink without a capacity takes every line, so what a run writes is told by the lines alone, and the
lines do not depend on what has been written before.  Evaluating a program writes the lines of the
responses to its statements.
-/

namespace Script

open Evaluation

def bytesOf (lines : List String) : ByteArray := (String.join (lines.map (· ++ "\n"))).toUTF8

@[simp] theorem bytesOf_nil : bytesOf [] = .empty := rfl

theorem bytesOf_append (first second : List String) :
    bytesOf (first ++ second) = bytesOf first ++ bytesOf second := by
  rw [bytesOf, List.map_append, String.join_append]
  exact String.toByteArray_append

theorem bytesOf_singleton (line : String) : bytesOf [line] = (line ++ "\n").toUTF8 := by
  rw [bytesOf, List.map_singleton, String.join_cons, String.join_nil, String.append_empty]

/-- Whether a run from `state` writes the lines to a sink without a capacity and ends in `after`
with the given result. -/
def Run.Writes {α : Type} (run : Run α) (state : State) (lines : List String) (after : State)
    (result : Except Halt α) : Prop :=
  ∀ written, run ⟨state, ⟨none, written⟩⟩ =
    match result with
    | .ok a => .ok a ⟨after, ⟨none, written ++ bytesOf lines⟩⟩
    | .error halt => .error halt ⟨after, ⟨none, written ++ bytesOf lines⟩⟩

namespace Run.Writes

variable {α β : Type} {state middle after : State} {lines others : List String}

theorem pure (a : α) (state : State) : Writes (pure a) state [] state (.ok a) := by
  intro written
  rw [bytesOf_nil, ByteArray.append_empty]
  rfl

theorem throw (halt : Halt) (state : State) :
    Writes (throw halt : Run α) state [] state (.error halt) := by
  intro written
  rw [bytesOf_nil, ByteArray.append_empty]
  rfl

theorem note (event : Event) (state : State) :
    Writes (Run.note event) state [] (state.note event) (.ok ()) := by
  intro written
  rw [bytesOf_nil, ByteArray.append_empty]
  rfl

theorem emit (line : String) (state : State) : Writes (emit line) state [line] state (.ok ()) := by
  intro written
  rw [bytesOf_singleton]
  rfl

theorem bind {run : Run α} {next : α → Run β} {a : α} {result : Except Halt β}
    (first : Writes run state lines middle (.ok a))
    (second : Writes (next a) middle others after result) :
    Writes (run >>= next) state (lines ++ others) after result := by
  intro written
  rw [Step.bind_apply, first written]
  simp only [second (written ++ bytesOf lines), bytesOf_append, ByteArray.append_assoc]

theorem bind_silent {run : Run α} {next : α → Run β} {a : α} {result : Except Halt β}
    (first : Writes run state [] middle (.ok a))
    (second : Writes (next a) middle lines after result) :
    Writes (run >>= next) state lines after result :=
  bind first second

theorem bind_pure {run : Run α} {a : α} {b : β} (first : Writes run state lines after (.ok a)) :
    Writes (run >>= fun _ => Pure.pure b) state lines after (.ok b) := by
  have hwrites : Writes (run >>= fun _ => Pure.pure b) state (lines ++ []) after (.ok b) :=
    bind first (pure b after)
  rwa [List.append_nil] at hwrites

theorem bind_error {run : Run α} (next : α → Run β) {halt : Halt}
    (first : Writes run state lines after (.error halt)) :
    Writes (run >>= next) state lines after (.error halt) := by
  intro written
  rw [Step.bind_apply, first written]

theorem forM_emit (f : α → String) (elements : List α) (state : State) :
    Writes (elements.forM fun a => Run.emit (f a)) state (elements.map f) state (.ok ()) := by
  induction elements with
  | nil => exact pure () state
  | cons a others ih => exact bind (emit (f a) state) ih

theorem forM_note (events : List Event) (state : State) :
    Writes (events.forM Run.note) state [] (events.foldl State.note state) (.ok ()) := by
  induction events generalizing state with
  | nil => exact pure () state
  | cons event others ih => exact bind_silent (note event state) (ih _)

theorem respond {rounds : Nat} {node : Node} {response : Response}
    (h : Evaluation.respond rounds node state = .ok response after) :
    Writes (Run.respond rounds node) state [] after (.ok response) := by
  intro written
  rw [Run.respond, h, bytesOf_nil, ByteArray.append_empty]

theorem perform {rounds : Nat} {node : Node} {response : Response}
    (h : Evaluation.respond rounds node state = .ok response after) :
    Writes (Run.perform rounds node) state response.lines after (.ok ()) := by
  have hlines := forM_emit id response.lines after
  rw [List.map_id] at hlines
  exact bind_silent (respond h) hlines

/-- A statement that is not answered is not written about. -/
theorem perform_error {rounds : Nat} {node : Node} {abort : Abort}
    (h : Evaluation.respond rounds node state = .error abort after) :
    Writes (Run.perform rounds node) state [] after (.error (.aborted abort)) := by
  refine bind_error _ fun written => ?_
  rw [Run.respond, h, bytesOf_nil, ByteArray.append_empty]

end Run.Writes

namespace Evaluation

def respondAll (rounds : Nat) (program : List Node) : Guarded (List Response) :=
  program.mapM (respond rounds)

theorem respondAll_cons (rounds : Nat) (node : Node) (others : List Node) :
    respondAll rounds (node :: others) = (do
      let response ← respond rounds node
      let responses ← respondAll rounds others
      pure (response :: responses)) :=
  List.mapM_cons

theorem respondAll_append (rounds : Nat) (first second : List Node) :
    respondAll rounds (first ++ second) = (do
      let responses ← respondAll rounds first
      let others ← respondAll rounds second
      pure (responses ++ others)) :=
  List.mapM_append

theorem respond_error {rounds : Nat} {node : Node} {state after : State} {abort : Abort}
    (h : respond rounds node state = .error abort after) : abort = .exhausted := by
  have hends := Disciplined.asValue (disciplined_eval rounds node (List.Subset.refl _))
    (state.note (.statement node))
  rw [respond_apply] at h
  generalize asValue (eval rounds node) (state.note (.statement node)) = result at hends h
  cases result with
  | ok v middle => cases h
  | error stop middle =>
      cases stop with
      | fault fault => cases h
      | abort abort =>
          cases h
          exact hends

theorem respondAll_cons_eq_ok_iff {rounds : Nat} {node : Node} {others : List Node}
    {state after : State} {answers : List Response} :
    respondAll rounds (node :: others) state = .ok answers after ↔
      ∃ response responses middle,
        respond rounds node state = .ok response middle ∧
        respondAll rounds others middle = .ok responses after ∧
        answers = response :: responses := by
  simp only [respondAll_cons, Step.bind_eq_ok_iff, Step.pure_eq_ok_iff]
  constructor
  · rintro ⟨response, middle, hfirst, responses, last, hothers, rfl, rfl⟩
    exact ⟨response, responses, middle, hfirst, hothers, rfl⟩
  · rintro ⟨response, responses, middle, hfirst, hothers, rfl⟩
    exact ⟨response, middle, hfirst, responses, after, hothers, rfl, rfl⟩

theorem respondAll_cons_eq_error_iff {rounds : Nat} {node : Node} {others : List Node}
    {state after : State} {abort : Abort} :
    respondAll rounds (node :: others) state = .error abort after ↔
      respond rounds node state = .error abort after ∨
        ∃ response middle, respond rounds node state = .ok response middle ∧
          respondAll rounds others middle = .error abort after := by
  simp only [respondAll_cons, Step.bind_eq_error_iff, Step.pure_apply, reduceCtorEq, and_false,
    exists_false, or_false]

/-- Only a loop that has used up its rounds keeps a program from being answered. -/
theorem respondAll_error {rounds : Nat} {program : List Node} {state after : State} {abort : Abort}
    (h : respondAll rounds program state = .error abort after) : abort = .exhausted := by
  induction program generalizing state with
  | nil => cases h
  | cons node others ih =>
      rcases respondAll_cons_eq_error_iff.1 h with hfirst | ⟨response, middle, -, hothers⟩
      · exact respond_error hfirst
      · exact ih hothers

end Evaluation

def linesOf (responses : List Response) : List String := responses.flatMap Response.lines

namespace Run.Writes

variable {state after : State}

theorem forM_perform {rounds : Nat} {program : List Node} {responses : List Response}
    (h : respondAll rounds program state = .ok responses after) :
    Writes (program.forM (Run.perform rounds)) state (linesOf responses) after (.ok ()) := by
  induction program generalizing state responses with
  | nil =>
      cases h
      exact pure () _
  | cons node others ih =>
      obtain ⟨response, found, middle, hfirst, hothers, rfl⟩ := respondAll_cons_eq_ok_iff.1 h
      exact bind (perform hfirst) (ih hothers)

theorem forM_perform_error {rounds : Nat} {program : List Node} {abort : Abort}
    (h : respondAll rounds program state = .error abort after) :
    ∃ lines, Writes (program.forM (Run.perform rounds)) state lines after
      (.error (.aborted abort)) := by
  induction program generalizing state with
  | nil => cases h
  | cons node others ih =>
      rcases respondAll_cons_eq_error_iff.1 h with hfirst | ⟨response, middle, hfirst, hothers⟩
      · exact ⟨[], bind_error _ (perform_error hfirst)⟩
      · obtain ⟨lines, hlines⟩ := ih hothers
        exact ⟨_, bind (perform hfirst) hlines⟩

theorem performAll {rounds : Nat} {program : List Node} {responses : List Response}
    (h : respondAll rounds program (state.note (.evaluating program.length)) =
      .ok responses after) :
    Writes (Run.performAll rounds program) state (linesOf responses) after (.ok ()) :=
  bind_silent (note _ state) (forM_perform h)

theorem performAll_error {rounds : Nat} {program : List Node} {abort : Abort}
    (h : respondAll rounds program (state.note (.evaluating program.length)) =
      .error abort after) :
    ∃ lines, Writes (Run.performAll rounds program) state lines after
      (.error (.aborted abort)) := by
  obtain ⟨lines, hlines⟩ := forM_perform_error h
  exact ⟨lines, bind_silent (note _ state) hlines⟩

end Run.Writes

theorem Session.perform_eq (rounds : Nat) (program : List Node) :
    Session.perform rounds program = (do
      modify (·.note (.evaluating program.length))
      let responses ← respondAll rounds program
      pure (bytesOf (linesOf responses))) := by
  funext state
  rw [Step.bind_apply, Step.modify_apply, Session.perform, Sink.empty]
  simp only [Step.bind_apply]
  cases h : respondAll rounds program (state.note (.evaluating program.length)) with
  | ok responses after =>
      rw [Run.Writes.performAll h, ByteArray.empty_append]
      rfl
  | error abort after =>
      obtain ⟨lines, hlines⟩ := Run.Writes.performAll_error h
      rw [hlines]

theorem exists_respondAll {rounds : Nat} {program : List Node} {state : State}
    (h : ∀ after, Session.perform rounds program state ≠ .error .exhausted after) :
    ∃ responses after, respondAll rounds program
      (state.note (.evaluating program.length)) = .ok responses after := by
  rw [Session.perform_eq] at h
  simp only [Step.bind_apply, Step.modify_apply] at h
  cases hrun : respondAll rounds program (state.note (.evaluating program.length)) with
  | error abort after =>
      rw [hrun, respondAll_error hrun] at h
      exact absurd rfl (h after)
  | ok responses after => exact ⟨responses, after, rfl⟩

def Conclusion.ofResult : Except Halt Unit → Conclusion
  | .ok _ => .success
  | .error (.failed reason) => .failure reason
  | .error (.aborted reason) => .abort reason

def Conclusion.leaving (console : Console) : Conclusion → EStateM.Result Halt Console Unit
  | success => .ok () console
  | failure reason => .error (.failed reason) console
  | abort reason => .error (.aborted reason) console

theorem Run.Writes.eq_leaving {run : Run Unit} {state after : State} {lines : List String}
    {result : Except Halt Unit} (h : Writes run state lines after result) :
    run ⟨state, .empty none⟩ =
      (Conclusion.ofResult result).leaving ⟨after, ⟨none, bytesOf lines⟩⟩ := by
  rw [Sink.empty, h, ByteArray.empty_append]
  cases result with
  | ok => rfl
  | error halt => cases halt <;> rfl

theorem runProgram_of_leaving {rounds : Nat} {dumps : Bool} {log : Log} {source : String}
    {conclusion : Conclusion} {console : Console}
    (h : Run.program rounds dumps source ⟨.fresh log, .empty none⟩ = conclusion.leaving console) :
    runProgram rounds dumps none log source =
      ⟨console.sink.written, conclusion, console.state.log⟩ := by
  rw [runProgram, h]
  cases conclusion <;> rfl

theorem runProgram_of_writes {rounds : Nat} {dumps : Bool} {log : Log} {source : String}
    {lines : List String} {after : State} {result : Except Halt Unit}
    (h : (Run.program rounds dumps source).Writes (.fresh log) lines after result) :
    runProgram rounds dumps none log source =
      ⟨bytesOf lines, Conclusion.ofResult result, after.log⟩ :=
  runProgram_of_leaving h.eq_leaving

end Script

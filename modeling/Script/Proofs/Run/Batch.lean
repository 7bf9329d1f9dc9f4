import Script.Evaluation.Rounds
import Script.Proofs.Run.Stages
/-!
# Texts one by one and all at once

A session that is given texts one after the other writes what a run of all of them, each on lines of
its own, writes.  From one text to the next it keeps the variables and the functions, and nothing
else that an evaluation depends on.
-/

namespace Script

open Evaluation

def Session.Submission.ofResponses (responses : List Response) : Session.Submission :=
  .evaluated (bytesOf (linesOf responses)) none

theorem readsAs_intercalate {sources : List String} {programs : List (List Node)}
    (h : List.Forall₂ ReadsAs sources programs) :
    ReadsAs ("\n".intercalate sources) programs.flatten := by
  induction h with
  | nil => exact ⟨_, rfl, rfl⟩
  | @cons source program sources programs hfirst hothers ih =>
      cases hothers with
      | nil =>
          rw [String.intercalate_singleton, List.flatten_singleton]
          exact hfirst
      | cons hsecond hothers =>
          rw [String.intercalate_cons_cons, List.flatten_cons]
          exact hfirst.append ih

theorem respondAll_of_le {few many : Nat} (le : few ≤ many) {program : List Node}
    {state after : State} {responses : List Response}
    (h : respondAll few program state = .ok responses after) :
    respondAll many program state = .ok responses after := by
  induction program generalizing state responses with
  | nil => exact h
  | cons node others ih =>
      obtain ⟨response, found, middle, hfirst, hothers, rfl⟩ := respondAll_cons_eq_ok_iff.1 h
      have hsame := respond_eq_of_le le node state (by rw [hfirst]; simp)
      rw [hfirst] at hsame
      exact respondAll_cons_eq_ok_iff.2 ⟨response, found, middle, hsame.symm, ih hothers, rfl⟩

theorem bytesOf_linesOf_flatten (answers : List (List Response)) :
    bytesOf (linesOf answers.flatten) =
      (answers.map fun responses => bytesOf (linesOf responses)).foldr (· ++ ·) .empty := by
  induction answers with
  | nil => rfl
  | cons responses others ih =>
      rw [List.flatten_cons, linesOf, List.flatMap_append, bytesOf_append, List.map_cons,
        List.foldr_cons, ← ih]
      rfl

theorem exists_forall₂_readsAs {sources : List String}
    (h : ∀ source ∈ sources, ∃ program, ReadsAs source program) :
    ∃ programs, List.Forall₂ ReadsAs sources programs := by
  induction sources with
  | nil => exact ⟨[], .nil⟩
  | cons source others ih =>
      obtain ⟨⟨program, hprogram⟩, hothers⟩ := List.forall_mem_cons.1 h
      obtain ⟨programs, hprograms⟩ := ih hothers
      exact ⟨program :: programs, .cons hprogram hprograms⟩

theorem submit_eq {source : String} {program : List Node} (h : ReadsAs source program)
    (rounds : Nat) (state : State) :
    ∃ noted : State, state.Alike noted ∧ Session.submit rounds source state =
      match respondAll rounds program noted with
      | .ok responses after => .ok (.ofResponses responses) after
      | .error abort after => .error abort after := by
  obtain ⟨tokens, hscan, hparse⟩ := h
  let events : List Event :=
    .scanned tokens.length :: (parse tokens).events ++ [.evaluating program.length]
  refine ⟨events.foldl State.note state, .foldl_note state events, ?_⟩
  simp only [events, Session.submit, hscan, hparse, Session.perform_eq, bind_assoc, pure_bind,
    Step.bind_apply, Step.modify_apply, List.foldl_append, List.foldl_cons, List.foldl_nil,
    List.cons_append]
  cases respondAll rounds program _ <;> rfl

/-- A session comes to an end if the programs of its texts do in a row, from a state that is alike.
Then it has their responses. -/
theorem session_cases {sources : List String} {programs : List (List Node)}
    (h : List.Forall₂ ReadsAs sources programs) (rounds : Nat) {state other : State}
    (alike : state.Alike other) :
    (∃ (answers : List (List Response)) (after last : State),
      sources.mapM (Session.submit rounds) state =
        .ok (answers.map Session.Submission.ofResponses) after ∧
      respondAll rounds programs.flatten other = .ok answers.flatten last) ∨
    ∃ after last, sources.mapM (Session.submit rounds) state = .error .exhausted after ∧
      respondAll rounds programs.flatten other = .error .exhausted last := by
  induction h generalizing state other with
  | nil => exact .inl ⟨[], state, other, rfl, rfl⟩
  | @cons source program sources programs hfirst _ ih =>
      obtain ⟨noted, hnoted, hsubmit⟩ := submit_eq hfirst rounds state
      rw [List.mapM_cons, Step.bind_apply, hsubmit, List.flatten_cons, respondAll_append,
        Step.bind_apply]
      -- the session has recorded more than the run that it is compared to, and nothing else
      rcases respondAll_cases program (hnoted.symm.trans alike) with
        ⟨responses, middle, middle', hrun, hrun', alike⟩ | ⟨middle, middle', hrun, hrun'⟩
      · rw [hrun, hrun']
        simp only [Step.bind_apply]
        rcases ih alike with
          ⟨answers, after, last, hsession, hanswers⟩ | ⟨after, last, hsession, hrest⟩
        · rw [hsession, hanswers]
          exact .inl ⟨responses :: answers, after, last, rfl, rfl⟩
        · rw [hsession, hrest]
          exact .inr ⟨after, last, rfl, rfl⟩
      · rw [hrun, hrun']
        exact .inr ⟨middle, middle', rfl, rfl⟩

/-- A session that is given readable texts one after the other and comes to an end writes, all in
all, what a run of the texts below each other writes, and this run succeeds. -/
theorem run_of_session {few many : Nat} (le : few ≤ many) {sources : List String} {log : Log}
    (readable : ∀ source ∈ sources, ∃ program, ReadsAs source program)
    (halts : ∀ after, sources.mapM (Session.submit few) (.fresh log) ≠ .error .exhausted after) :
    ∃ (outputs : List ByteArray) (after : State),
      sources.mapM (Session.submit few) (.fresh log) =
        .ok (outputs.map fun output => Session.Submission.evaluated output none) after ∧
      ∀ log', (runProgram many false none log' ("\n".intercalate sources)).output =
          outputs.foldr (· ++ ·) .empty ∧
        (runProgram many false none log' ("\n".intercalate sources)).conclusion = .success := by
  obtain ⟨programs, hprograms⟩ := exists_forall₂_readsAs readable
  obtain ⟨answers, after, last, hsession, hanswers⟩ | ⟨after, -, hexhausted, -⟩ :=
    session_cases hprograms few (.refl (.fresh log))
  case inr => exact absurd hexhausted (halts after)
  obtain ⟨tokens, hstage⟩ := readsAs_intercalate hprograms
  refine ⟨answers.map fun responses => bytesOf (linesOf responses), after, ?_, fun log' => ?_⟩
  · rw [hsession, List.map_map]
    rfl
  · have alike := (State.Alike.fresh log log').trans
      (.foldl_note _ ((Stage.evaluated tokens programs.flatten).events ("\n".intercalate sources)))
    have hnoted := alike.trans (.foldl_note _ [.evaluating programs.flatten.length])
    obtain ⟨_, hresponses, -⟩ := respondAll_of_alike hnoted (respondAll_of_le le hanswers)
    have hwrites := Run.Writes.program_responded hstage hresponses false
    rw [runProgram_of_writes hwrites, ← bytesOf_linesOf_flatten]
    exact ⟨rfl, rfl⟩

/-- The comment at the end of a text does not reach into the next one. -/
theorem run_two_texts :
    (runProgram 1 false none (.empty .error)
        ("\n".intercalate ["let x = y; # why", "x;"])).conclusion = .success ∧
      (runProgram 1 false none (.empty .error)
        ("\n".intercalate ["let x = y; # why", "x;"])).output =
        bytesOf ["error: undefined variable 'y'"] ++ bytesOf ["error: undefined variable 'x'"] := by
  have hfirst : scan "let x = y; # why" = .ok [⟨.kwLet, "let", 1⟩, ⟨.identifier, "x", 1⟩,
      ⟨.assign, "=", 1⟩, ⟨.identifier, "y", 1⟩, ⟨.semicolon, ";", 1⟩, ⟨.eof, "", 1⟩] := rfl
  have hsecond : scan "x;" = .ok [⟨.identifier, "x", 1⟩, ⟨.semicolon, ";", 1⟩, ⟨.eof, "", 1⟩] := rfl
  have hreads : ReadsAs "let x = y; # why" [.declaration "x" none (.identifier "y")] :=
    ⟨_, hfirst, rfl⟩
  have hreads' : ReadsAs "x;" [.identifier "x"] := ⟨_, hsecond, rfl⟩
  have readable : ∀ source ∈ ["let x = y; # why", "x;"], ∃ program, ReadsAs source program :=
    List.forall_mem_cons.2 ⟨⟨_, hreads⟩, List.forall_mem_singleton.2 ⟨_, hreads'⟩⟩
  have hresponses : ∃ last, respondAll 1 [.declaration "x" none (.identifier "y"), .identifier "x"]
      (.fresh (.empty .error)) =
        .ok [⟨[], .error (.undefined "y")⟩, ⟨[], .error (.undefined "x")⟩] last := ⟨_, rfl⟩
  obtain ⟨last, hresponses⟩ := hresponses
  obtain ⟨answers, after, last', hsession, hanswers⟩ | ⟨_, _, -, hexhausted⟩ :=
    session_cases (.cons hreads (.cons hreads' .nil)) 1 (.refl (.fresh (.empty .error)))
  case inr => cases hexhausted.symm.trans hresponses
  obtain ⟨hanswers, -⟩ := (EStateM.Result.ok.injEq ..).mp (hanswers.symm.trans hresponses)
  have halts : ∀ after, ["let x = y; # why", "x;"].mapM (Session.submit 1)
      (.fresh (.empty .error)) ≠ .error .exhausted after := by
    intro after' h
    cases h.symm.trans hsession
  obtain ⟨outputs, after', houtputs, hrun⟩ := run_of_session (Nat.le_refl 1) readable halts
  obtain ⟨hmap, -⟩ := (EStateM.Result.ok.injEq ..).mp (houtputs.symm.trans hsession)
  have houtputs : outputs = answers.map fun responses => bytesOf (linesOf responses) := by
    refine List.map_injective_iff.2 (fun first second h => ?_) (hmap.trans ?_)
    · cases h
      rfl
    · rw [List.map_map]
      rfl
  obtain ⟨houtput, hconclusion⟩ := hrun (.empty .error)
  refine ⟨hconclusion, ?_⟩
  rw [houtput, houtputs, ← bytesOf_linesOf_flatten, hanswers, ← bytesOf_append]
  rfl

end Script

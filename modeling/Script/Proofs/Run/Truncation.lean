import Script.Proofs.Run.Output
/-!
# Sinks that fill up

A run writes to a sink with a capacity what it writes to a sink without one, up to the first byte
that does not fit.  There it fails, and nothing of what would have come later happens.
-/

namespace Script

open Evaluation (State)

theorem extract_zero_of_size_le {bytes : ByteArray} {n : Nat} (le : bytes.size ≤ n) :
    bytes.extract 0 n = bytes := by
  have hmax := ByteArray.extract_zero_max_size (a := bytes) (i := n)
  rwa [Nat.max_eq_left le] at hmax

theorem extract_zero_append_of_le {first : ByteArray} (second : ByteArray) {n : Nat}
    (le : n ≤ first.size) : (first ++ second).extract 0 n = first.extract 0 n := by
  have hnone : second.extract 0 0 = .empty := ByteArray.extract_eq_empty_iff.2 (by omega)
  rw [ByteArray.extract_append, Nat.zero_sub, Nat.sub_eq_zero_of_le le, hnone,
    ByteArray.append_empty]

namespace Sink

theorem accepts_iff (capacity : Nat) (written bytes : ByteArray) :
    (Sink.mk (some capacity) written).accepts bytes ↔ (written ++ bytes).size ≤ capacity := by
  rw [accepts, decide_eq_true_iff, ByteArray.size_append]

theorem accepts_of_append {sink : Sink} {first second : ByteArray}
    (h : sink.accepts (first ++ second)) : sink.accepts first := by
  rcases sink with ⟨_ | capacity, written⟩
  · rfl
  · rw [accepts_iff, ByteArray.size_append] at h ⊢
    rw [ByteArray.size_append] at h
    omega

theorem write_append {sink : Sink} {first : ByteArray} (h : sink.accepts first)
    (second : ByteArray) : sink.write (first ++ second) = (sink.write first).write second := by
  rcases sink with ⟨_ | capacity, written⟩
  · simp only [write, ByteArray.append_assoc]
  · rw [accepts_iff, ByteArray.size_append] at h
    have hfirst : first.extract 0 (capacity - written.size) = first :=
      extract_zero_of_size_le (by omega)
    simp only [write, hfirst, ByteArray.extract_append, ByteArray.size_append, Nat.zero_sub,
      Nat.sub_add_eq, ByteArray.append_assoc]

theorem accepts_append {sink : Sink} {first : ByteArray} (h : sink.accepts first)
    (second : ByteArray) : sink.accepts (first ++ second) = (sink.write first).accepts second := by
  rcases sink with ⟨_ | capacity, written⟩
  · rfl
  · rw [accepts_iff, ByteArray.size_append] at h
    have hfirst : first.extract 0 (capacity - written.size) = first :=
      extract_zero_of_size_le (by omega)
    simp only [accepts, write, hfirst, ByteArray.size_append, Nat.add_assoc]

/-- What comes after the first byte that does not fit is lost. -/
theorem write_append_of_full {sink : Sink} {first : ByteArray} (h : ¬ sink.accepts first)
    (second : ByteArray) : sink.write (first ++ second) = sink.write first := by
  rcases sink with ⟨_ | capacity, written⟩
  · exact absurd rfl h
  · rw [accepts_iff, ByteArray.size_append] at h
    simp only [write, extract_zero_append_of_le second
      (by omega : capacity - written.size ≤ first.size)]

/-- A sink with a capacity holds the first bytes of all that has been given to it. -/
theorem write_eq_extract {capacity : Nat} {written : ByteArray} (room : written.size ≤ capacity)
    (bytes : ByteArray) :
    (Sink.mk (some capacity) written).write bytes =
      ⟨some capacity, (written ++ bytes).extract 0 capacity⟩ := by
  rw [write, ByteArray.extract_append, extract_zero_of_size_le room, Nat.zero_sub]

end Sink

namespace Run

variable {α β : Type}

def sinkAfter : EStateM.Result Halt Console α → Sink
  | .ok _ console => console.sink
  | .error _ console => console.sink

def ending : EStateM.Result Halt Console α → Except Halt α
  | .ok a _ => .ok a
  | .error halt _ => .error halt

/-- How a run ends on a sink with a capacity, where it ends with the first result on a sink without
one. -/
inductive EndsWithin (capacity : Nat) :
    EStateM.Result Halt Console α → EStateM.Result Halt Console α → Prop
  | ok {a : α} {state : State} {written : ByteArray} (fits : written.size ≤ capacity) :
      EndsWithin capacity (.ok a ⟨state, ⟨none, written⟩⟩) (.ok a ⟨state, ⟨some capacity, written⟩⟩)
  | error {halt : Halt} {state : State} {written : ByteArray} (fits : written.size ≤ capacity) :
      EndsWithin capacity (.error halt ⟨state, ⟨none, written⟩⟩)
        (.error halt ⟨state, ⟨some capacity, written⟩⟩)
  | full {result : EStateM.Result Halt Console α} {state : State} {written : ByteArray}
      (sink : sinkAfter result = ⟨none, written⟩) (exceeded : capacity < written.size) :
      EndsWithin capacity result
        (.error (.failed .sinkFull) ⟨state, ⟨some capacity, written.extract 0 capacity⟩⟩)

theorem EndsWithin.written_eq {capacity : Nat} {result result' : EStateM.Result Halt Console α}
    (h : EndsWithin capacity result result') :
    (sinkAfter result').written = (sinkAfter result).written.extract 0 capacity := by
  cases h with
  | ok fits => exact (extract_zero_of_size_le fits).symm
  | error fits => exact (extract_zero_of_size_le fits).symm
  | full sink exceeded => rw [sink]; rfl

theorem EndsWithin.ending_eq {capacity : Nat} {result result' : EStateM.Result Halt Console α}
    (h : EndsWithin capacity result result') :
    ending result' =
      if (sinkAfter result).written.size ≤ capacity then ending result
      else .error (.failed .sinkFull) := by
  cases h with
  | ok fits => exact (if_pos fits).symm
  | error fits => exact (if_pos fits).symm
  | full sink exceeded =>
      rw [sink, if_neg (Nat.not_le_of_lt exceeded)]
      rfl

/-- Whether a run only adds to what has been written, and does the same on a sink with a capacity as
long as everything fits. -/
structure Streams (run : Run α) : Prop where
  adds (state : State) (written : ByteArray) :
    ∃ more, sinkAfter (run ⟨state, ⟨none, written⟩⟩) = ⟨none, written ++ more⟩
  within {capacity : Nat} (state : State) {written : ByteArray} (room : written.size ≤ capacity) :
    EndsWithin capacity (run ⟨state, ⟨none, written⟩⟩) (run ⟨state, ⟨some capacity, written⟩⟩)

def put (bytes : ByteArray) : Run Unit := fun console =>
  if console.sink.accepts bytes then .ok () { console with sink := console.sink.write bytes }
  else .error (.failed .sinkFull) { console with sink := console.sink.write bytes }

theorem emit_eq_put (line : String) : emit line = put (line ++ "\n").toUTF8 := rfl

/-- It makes no difference whether a line is written as a whole or in pieces. -/
theorem put_append (first second : ByteArray) :
    put (first ++ second) = put first >>= fun _ => put second := by
  funext console
  rw [Step.bind_apply, put]
  by_cases hfirst : console.sink.accepts first
  · rw [put, if_pos hfirst, Sink.accepts_append hfirst, Sink.write_append hfirst]
    rfl
  · have hwhole : ¬ console.sink.accepts (first ++ second) :=
      fun haccepts => hfirst (Sink.accepts_of_append haccepts)
    rw [put, if_neg hfirst, if_neg hwhole, Sink.write_append_of_full hfirst]

namespace Streams

theorem pure (a : α) : Streams (pure a) where
  adds _ _ := ⟨.empty, by rw [ByteArray.append_empty]; rfl⟩
  within _ _ room := .ok room

theorem throw (halt : Halt) : Streams (throw halt : Run α) where
  adds _ _ := ⟨.empty, by rw [ByteArray.append_empty]; rfl⟩
  within _ _ room := .error room

theorem note (event : Event) : Streams (note event) where
  adds _ _ := ⟨.empty, by rw [ByteArray.append_empty]; rfl⟩
  within _ _ room := .ok room

theorem put (bytes : ByteArray) : Streams (put bytes) where
  adds state written := ⟨bytes, rfl⟩
  within {capacity} state written room := by
    rw [Run.put, Run.put, Sink.write_eq_extract room]
    by_cases hfits : (written ++ bytes).size ≤ capacity
    · rw [if_pos ((Sink.accepts_iff capacity written bytes).2 hfits), extract_zero_of_size_le hfits]
      exact .ok hfits
    · rw [if_neg (mt (Sink.accepts_iff capacity written bytes).1 hfits)]
      exact .full rfl (by omega)

theorem bind {first : Run α} {next : α → Run β} (hfirst : Streams first)
    (hnext : ∀ a, Streams (next a)) : Streams (first >>= next) where
  adds state written := by
    obtain ⟨more, hmore⟩ := hfirst.adds state written
    rw [Step.bind_apply]
    cases hrun : first ⟨state, ⟨none, written⟩⟩ with
    | error halt console =>
        rw [hrun] at hmore
        exact ⟨more, hmore⟩
    | ok a console =>
        rw [hrun] at hmore
        obtain ⟨others, hothers⟩ := (hnext a).adds console.state (written ++ more)
        rw [← hmore] at hothers
        exact ⟨more ++ others, by rw [← ByteArray.append_assoc]; exact hothers⟩
  within {capacity} state written room := by
    have hends := hfirst.within state room
    rw [Step.bind_apply, Step.bind_apply]
    generalize first ⟨state, ⟨none, written⟩⟩ = result,
      first ⟨state, ⟨some capacity, written⟩⟩ = result' at hends ⊢
    cases hends with
    | ok fits => exact (hnext _).within _ fits
    | error fits => exact .error fits
    | @full _ _ written' sink exceeded =>
        -- what is written after the sink is full does not change what it holds
        cases result with
        | error halt console => exact .full sink exceeded
        | ok a console =>
            obtain ⟨more, hmore⟩ := (hnext a).adds console.state written'
            rw [← extract_zero_append_of_le more (Nat.le_of_lt exceeded)]
            refine .full (?_ : sinkAfter (next a console) = _) ?_
            · rw [← hmore, ← sink]
              rfl
            · rw [ByteArray.size_append]
              omega

theorem forM {f : α → Run Unit} (h : ∀ a, Streams (f a)) (elements : List α) :
    Streams (elements.forM f) := by
  induction elements with
  | nil => exact pure ()
  | cons first others ih => exact bind (h first) fun _ => ih

theorem emit (line : String) : Streams (emit line) := put (line ++ "\n").toUTF8

theorem respond (rounds : Nat) (node : Node) : Streams (respond rounds node) where
  adds state written := by
    refine ⟨.empty, ?_⟩
    rw [ByteArray.append_empty, Run.respond]
    cases Evaluation.respond rounds node state <;> rfl
  within state written room := by
    rw [Run.respond, Run.respond]
    cases Evaluation.respond rounds node state with
    | ok response after => exact .ok room
    | error abort after => exact .error room

theorem performAll (rounds : Nat) (program : List Node) : Streams (performAll rounds program) := by
  refine bind (note _) fun _ => forM (fun node => ?_) program
  exact bind (respond rounds node) fun response => forM emit response.lines

theorem onDemand (dumps : Bool) {run : Run Unit} (h : Streams run) :
    Streams (if dumps then run else Pure.pure ()) := by
  cases dumps with
  | false => exact pure ()
  | true => exact h

theorem dumpTokens (dumps : Bool) (tokens : List Token) : Streams (dumpTokens dumps tokens) := by
  have hline : ∀ token : Token, Streams (Run.emit token.render) := fun token => emit token.render
  exact onDemand dumps (forM hline tokens)

theorem dumpStatements (dumps : Bool) (statements : List Node) :
    Streams (dumpStatements dumps statements) := by
  have hline : ∀ node : Node, Streams (Run.emit ("ast: " ++ node.render)) := fun node => emit _
  exact onDemand dumps (forM hline statements)

theorem tokens (dumps : Bool) (source : String) : Streams (tokens dumps source) := by
  refine bind (note _) fun _ => ?_
  cases scan source with
  | error error =>
      exact bind (dumpTokens dumps error.tokens) fun _ => bind (emit _) fun _ => throw _
  | ok found => exact bind (note _) fun _ => bind (dumpTokens dumps found) fun _ => pure _

theorem statements (dumps : Bool) (tokens : List Token) : Streams (statements dumps tokens) := by
  refine bind (note _) fun _ => bind (forM note _) fun _ => bind (note _) fun _ => ?_
  refine bind (dumpStatements dumps _) fun _ => ?_
  cases (parse tokens).error? with
  | some error => exact bind (emit _) fun _ => throw _
  | none => exact pure _

theorem program (rounds : Nat) (dumps : Bool) (source : String) :
    Streams (program rounds dumps source) :=
  bind (tokens dumps source) fun found => bind (statements dumps found) fun read =>
    performAll rounds read

end Streams

end Run

theorem output_runProgram (rounds : Nat) (dumps : Bool) (capacity : Option Nat) (log : Log)
    (source : String) :
    (runProgram rounds dumps capacity log source).output =
      (Run.sinkAfter
        (Run.program rounds dumps source ⟨.fresh log, .empty capacity⟩)).written := by
  rw [runProgram]
  rcases Run.program rounds dumps source ⟨.fresh log, .empty capacity⟩ with _ | ⟨_ | _⟩ <;> rfl

theorem conclusion_runProgram (rounds : Nat) (dumps : Bool) (capacity : Option Nat) (log : Log)
    (source : String) :
    (runProgram rounds dumps capacity log source).conclusion =
      .ofResult (Run.ending
        (Run.program rounds dumps source ⟨.fresh log, .empty capacity⟩)) := by
  rw [runProgram]
  rcases Run.program rounds dumps source ⟨.fresh log, .empty capacity⟩ with _ | ⟨_ | _⟩ <;> rfl

/-- A run on a sink with a capacity leaves the first bytes of the whole output in the sink, as many
as fit.  It concludes as it would without the capacity if these are all, and with the error of the
sink if they are not. -/
theorem runProgram_limited (rounds : Nat) (dumps : Bool) (capacity : Nat) (log : Log)
    (source : String) :
    (runProgram rounds dumps (some capacity) log source).output =
        (runProgram rounds dumps none log source).output.extract 0 capacity ∧
      (runProgram rounds dumps (some capacity) log source).conclusion =
        if (runProgram rounds dumps none log source).output.size ≤ capacity then
          (runProgram rounds dumps none log source).conclusion
        else .failure .sinkFull := by
  have room : ByteArray.empty.size ≤ capacity := Nat.zero_le capacity
  have hends := (Run.Streams.program rounds dumps source).within (.fresh log) room
  simp only [output_runProgram, conclusion_runProgram]
  refine ⟨hends.written_eq, ?_⟩
  rw [Sink.empty, hends.ending_eq, apply_ite Conclusion.ofResult]
  rfl

end Script

import Script.Proofs.Evaluation.Alike
import Script.Proofs.Run.Output
/-!
# Statements that can be put for each other

A statement can be put for another one if the two are evaluated in the same way from states that are
alike.  If this is done to the statements of a program, it is answered by the same responses, writes
the same output and leaves the same variables and signatures.
-/

namespace Script

open Evaluation

namespace Evaluation

def Interchangeable (rounds : Nat) (node node' : Node) : Prop :=
  Simulates State.Alike (eval rounds node) (eval rounds node')

namespace Interchangeable

variable {rounds : Nat} {node node' : Node} {state other after : State} {response : Response}

theorem refl (rounds : Nat) (node : Node) : Interchangeable rounds node node :=
  simulates_alike rounds node

theorem symm (h : Interchangeable rounds node node') : Interchangeable rounds node' node :=
  fun state other alike => (h other state alike.symm).symm.mono fun _ _ after => after.symm

theorem respond (h : Interchangeable rounds node node') (alike : state.Alike other)
    (hrun : Evaluation.respond rounds node state = .ok response after) :
    ∃ last, Evaluation.respond rounds node' other = .ok response last ∧ after.Alike last := by
  have hends := Simulates.asValue h _ _ (alike.note (.statement node) (.statement node'))
  rw [respond_apply] at hrun ⊢
  generalize Evaluation.asValue (eval rounds node) _ = result,
    Evaluation.asValue (eval rounds node') _ = result' at hends hrun ⊢
  cases hends with
  | ok alike =>
      cases hrun
      refine ⟨_, by rw [alike.reports], ?_⟩
      exact ⟨alike.scopes, alike.signatures, rfl⟩
  | fault alike =>
      cases hrun
      refine ⟨_, by rw [alike.reports], ?_⟩
      exact ⟨alike.scopes, alike.signatures, rfl⟩
  | abort => cases hrun

end Interchangeable

variable {rounds : Nat} {program program' : List Node} {state other after : State}
  {responses : List Response}

/-- Programs of statements that can be put for each other are answered in the same way. -/
theorem respondAll_of_interchangeable (h : List.Forall₂ (Interchangeable rounds) program program')
    (alike : state.Alike other) (hrun : respondAll rounds program state = .ok responses after) :
    ∃ last, respondAll rounds program' other = .ok responses last ∧ after.Alike last := by
  induction h generalizing state other responses with
  | nil =>
      cases hrun
      exact ⟨other, rfl, alike⟩
  | cons hnode _ ih =>
      obtain ⟨response, found, middle, hfirst, hothers, rfl⟩ := respondAll_cons_eq_ok_iff.1 hrun
      obtain ⟨middle', hfirst', alike⟩ := hnode.respond alike hfirst
      obtain ⟨last, hothers', alike⟩ := ih alike hothers
      exact ⟨last, respondAll_cons_eq_ok_iff.2 ⟨_, _, _, hfirst', hothers', rfl⟩, alike⟩

theorem respondAll_of_alike (alike : state.Alike other)
    (hrun : respondAll rounds program state = .ok responses after) :
    ∃ last, respondAll rounds program other = .ok responses last ∧ after.Alike last :=
  respondAll_of_interchangeable (List.forall₂_same.2 fun node _ => .refl rounds node) alike hrun

theorem respondAll_cases (program : List Node) (alike : state.Alike other) :
    (∃ responses after last, respondAll rounds program state = .ok responses after ∧
      respondAll rounds program other = .ok responses last ∧ after.Alike last) ∨
    ∃ after last, respondAll rounds program state = .error .exhausted after ∧
      respondAll rounds program other = .error .exhausted last := by
  cases hrun : respondAll rounds program state with
  | ok responses after =>
      obtain ⟨last, hrun', alike⟩ := respondAll_of_alike alike hrun
      exact .inl ⟨responses, after, last, rfl, hrun', alike⟩
  | error abort after =>
      cases hrun' : respondAll rounds program other with
      | ok responses last =>
          obtain ⟨_, hanswered, -⟩ := respondAll_of_alike alike.symm hrun'
          cases hrun.symm.trans hanswered
      | error abort' last =>
          rw [respondAll_error hrun, respondAll_error hrun']
          exact .inr ⟨after, last, rfl, rfl⟩

theorem perform_of_interchangeable (h : List.Forall₂ (Interchangeable rounds) program program')
    (alike : state.Alike other) {output : ByteArray}
    (hrun : Session.perform rounds program state = .ok output after) :
    ∃ last, Session.perform rounds program' other = .ok output last ∧ after.Alike last := by
  simp only [Session.perform_eq, Step.bind_apply, Step.modify_apply] at hrun ⊢
  have hnoted := alike.note (.evaluating program.length) (.evaluating program'.length)
  cases hall : respondAll rounds program (state.note (.evaluating program.length)) with
  | error abort last =>
      rw [hall] at hrun
      cases hrun
  | ok responses last =>
      rw [hall] at hrun
      cases hrun
      obtain ⟨last', hall', alike⟩ := respondAll_of_interchangeable h hnoted hall
      exact ⟨last', by rw [hall']; rfl, alike⟩

/-- Whether a step is carried to its end with the given result and leaves the given variables and
signatures. -/
def Finishes {α : Type} (step : Guarded α) (state : State) (result : α) (scopes : Scopes)
    (signatures : List Signature) : Prop :=
  ∃ after, step state = .ok result after ∧ after.scopes = scopes ∧
    after.functions.map (·.signature) = signatures

theorem Finishes.of_alike {α : Type} {first second : Guarded α} {result : α} {scopes : Scopes}
    {signatures : List Signature} (h : Finishes first state result scopes signatures)
    (same : ∀ after, first state = .ok result after →
      ∃ last, second state = .ok result last ∧ after.Alike last) :
    Finishes second state result scopes signatures := by
  obtain ⟨after, hrun, rfl, rfl⟩ := h
  obtain ⟨last, hrun', alike⟩ := same after hrun
  exact ⟨last, hrun', alike.scopes.symm, alike.signatures.symm⟩

theorem forall₂_interchangeable_symm
    (h : List.Forall₂ (Interchangeable rounds) program program') :
    List.Forall₂ (Interchangeable rounds) program' program :=
  h.flip.imp fun _ _ => Interchangeable.symm

theorem finishes_respondAll_iff (h : List.Forall₂ (Interchangeable rounds) program program')
    (state : State) (responses : List Response) (scopes : Scopes) (signatures : List Signature) :
    Finishes (respondAll rounds program) state responses scopes signatures ↔
      Finishes (respondAll rounds program') state responses scopes signatures :=
  ⟨fun hends => hends.of_alike fun _ => respondAll_of_interchangeable h (.refl state),
    fun hends => hends.of_alike fun _ =>
      respondAll_of_interchangeable (forall₂_interchangeable_symm h) (.refl state)⟩

theorem finishes_perform_iff (h : List.Forall₂ (Interchangeable rounds) program program')
    (state : State) (output : ByteArray) (scopes : Scopes) (signatures : List Signature) :
    Finishes (Session.perform rounds program) state output scopes signatures ↔
      Finishes (Session.perform rounds program') state output scopes signatures :=
  ⟨fun hends => hends.of_alike fun _ => perform_of_interchangeable h (.refl state),
    fun hends => hends.of_alike fun _ =>
      perform_of_interchangeable (forall₂_interchangeable_symm h) (.refl state)⟩

end Evaluation

end Script

import Script.Proofs.Evaluation.Evolution
/-!
# Reports and records

A mismatch is recorded where it is reported, so the records of an evaluation tell which reports have
been made in it.  A statement is answered with exactly the reports of its own evaluation, in the
order in which they were made, and it leaves none behind.
-/

namespace Script

open Evaluation

def Event.mismatch? : Event → Option Mismatch
  | mismatch m => some m
  | _ => none

def mismatchesOf (events : List Event) : List Mismatch := events.filterMap Event.mismatch?

theorem mismatchesOf_append (first second : List Event) :
    mismatchesOf (first ++ second) = mismatchesOf first ++ mismatchesOf second :=
  List.filterMap_append

def Log.HearsMismatches (log : Log) : Prop := Level.warn.rank ≤ log.threshold.rank

theorem Log.threshold_record (log : Log) (event : Event) :
    (log.record event).threshold = log.threshold := by
  unfold record
  split <;> rfl

theorem Log.mismatchesOf_record {log : Log} (hears : log.HearsMismatches) (event : Event) :
    mismatchesOf (log.record event).events.toList =
      mismatchesOf log.events.toList ++ mismatchesOf [event] := by
  unfold record
  split
  · rw [Array.toList_push, mismatchesOf_append]
  · rename_i hlevel
    cases event with
    | mismatch m => exact absurd hears hlevel
    | _ => exact (List.append_nil _).symm

/-- A log that keeps mismatches has all of those that it is told of, in their order. -/
theorem Log.mismatchesOf_foldl_record (events : List Event) {log : Log}
    (hears : log.HearsMismatches) :
    mismatchesOf (events.foldl Log.record log).events.toList =
      mismatchesOf log.events.toList ++ mismatchesOf events := by
  induction events generalizing log with
  | nil => exact (List.append_nil _).symm
  | cons event others ih =>
      have hothers : (log.record event).HearsMismatches := by
        rwa [HearsMismatches, threshold_record]
      rw [List.foldl_cons, ih hothers, mismatchesOf_record hears, List.append_assoc,
        ← mismatchesOf_append, List.singleton_append]

namespace Evaluation

/-- Whether the events have been recorded between two states, and the reports have grown by the
mismatches among them. -/
structure Recorded (allowed : String → Prop) (events : List Event) (before after : State) :
    Prop where
  log : after.log = events.foldl Log.record before.log
  reports : after.reports.toList = before.reports.toList ++ mismatchesOf events
  mentions : ∀ mismatch ∈ mismatchesOf events, mismatch.MentionsOnly allowed

namespace Recorded

variable {allowed : String → Prop} {before middle after : State} {events others : List Event}

theorem trans (first : Recorded allowed events before middle)
    (second : Recorded allowed others middle after) :
    Recorded allowed (events ++ others) before after where
  log := by rw [List.foldl_append, second.log, first.log]
  reports := by
    rw [mismatchesOf_append, second.reports, first.reports, List.append_assoc]
  mentions := by
    rw [mismatchesOf_append, List.forall_mem_append]
    exact ⟨first.mentions, second.mentions⟩

theorem silent (hlog : after.log = before.log) (hreports : after.reports = before.reports) :
    Recorded allowed [] before after where
  log := hlog
  reports := by rw [hreports, mismatchesOf, List.filterMap_nil, List.append_nil]
  mentions := by simp [mismatchesOf]

theorem event {event : Event} (none : event.mismatch? = none)
    (hlog : after.log = before.log.record event) (hreports : after.reports = before.reports) :
    Recorded allowed [event] before after where
  log := hlog
  reports := by rw [hreports, mismatchesOf, List.filterMap_cons_none none, List.filterMap_nil,
    List.append_nil]
  mentions := by simp [mismatchesOf, none]

theorem report (before : State) {mismatch : Mismatch} (mentions : mismatch.MentionsOnly allowed) :
    Recorded allowed [.mismatch mismatch] before (before.report mismatch) where
  log := rfl
  reports := Array.toList_push
  mentions := List.forall_mem_singleton.2 mentions

end Recorded

/-- Every change that an evaluation makes is recorded, and a report is made with each mismatch that
is recorded. -/
theorem evolution_recorded (allowed : String → Prop) :
    Evolution allowed fun before after => ∃ events, Recorded allowed events before after where
  refl state := ⟨[], .silent rfl rfl⟩
  trans := by
    rintro first second third ⟨events, hfirst⟩ ⟨others, hsecond⟩
    exact ⟨events ++ others, hfirst.trans hsecond⟩
  report state _ mentions := ⟨_, .report state mentions⟩
  rescope state scopes := ⟨[], .silent rfl rfl⟩
  push state := ⟨[.pushed _], .event rfl rfl rfl⟩
  leave state scopes := ⟨[.popped _], .event rfl rfl rfl⟩
  declare state _ _ := ⟨[.functionDeclared _], .event rfl rfl rfl⟩

/-- Whether a statement is answered with a response.  When its evaluation begins, no reports are
pending; the reports of the response are the mismatches that are recorded until its evaluation ends,
and they are pending no longer after that. -/
structure Answered (rounds : Nat) (node : Node) (before : State) (response : Response)
    (after : State) : Prop where
  pending : before.reports = #[]
  evaluated : ∃ last events,
    (asValue (eval rounds node) (before.note (.statement node)) =
      match response.result with
      | .ok v => .ok v last
      | .error fault => .error (.fault fault) last) ∧
    last.log = events.foldl Log.record (before.note (.statement node)).log ∧
    last.reports.toList = mismatchesOf events ∧ last.reports.toList = response.reports ∧
    after = { last.note (.depthAfterStatement last.scopes.depth) with reports := #[] }

inductive Transcript (rounds : Nat) : State → List Node → List Response → State → Prop
  | nil (state : State) : Transcript rounds state [] [] state
  | cons {before middle after : State} {node : Node} {others : List Node} {response : Response}
      {responses : List Response} (first : Answered rounds node before response middle)
      (rest : Transcript rounds middle others responses after) :
      Transcript rounds before (node :: others) (response :: responses) after

theorem Answered.reports_eq {rounds : Nat} {node : Node} {before after : State}
    {response : Response} (h : Answered rounds node before response after) :
    after.reports = #[] := by
  obtain ⟨last, events, -, -, -, -, rfl⟩ := h.evaluated
  rfl

theorem Answered.exists_log {rounds : Nat} {node : Node} {before after : State}
    {response : Response} (h : Answered rounds node before response after) :
    ∃ events, after.log = events.foldl Log.record before.log ∧
      mismatchesOf events = response.reports := by
  obtain ⟨last, events, -, hlog, hevents, hreports, rfl⟩ := h.evaluated
  refine ⟨.statement node :: events ++ [.depthAfterStatement last.scopes.depth], ?_, ?_⟩
  · rw [List.foldl_append, List.foldl_cons]
    exact congrArg (Log.record · _) hlog
  · rw [mismatchesOf_append, ← hreports, hevents]
    exact List.append_nil _

theorem Transcript.exists_log {rounds : Nat} {program : List Node} {before after : State}
    {responses : List Response} (h : Transcript rounds before program responses after) :
    ∃ events, after.log = events.foldl Log.record before.log ∧
      mismatchesOf events = responses.flatMap Response.reports := by
  induction h with
  | nil state => exact ⟨[], rfl, rfl⟩
  | cons first _ ih =>
      obtain ⟨events, hlog, hreports⟩ := first.exists_log
      obtain ⟨others, hothers, hmismatches⟩ := ih
      refine ⟨events ++ others, ?_, ?_⟩
      · rw [hothers, hlog, List.foldl_append]
      · rw [mismatchesOf_append, hreports, hmismatches, List.flatMap_cons]

/-- A statement that is evaluated where no reports are pending is answered with its own reports,
whether it has a value or a fault. -/
theorem answered_of_respond {allowed : String → Prop} {rounds : Nat} {node : Node}
    {before after : State} {response : Response} (pending : before.reports = #[])
    (mentions : ∀ terminal ∈ node.spelling, terminal.MentionsOnly allowed)
    (h : respond rounds node before = .ok response after) :
    Answered rounds node before response after ∧ response.MentionsOnly allowed := by
  have hevolves := (evolution_recorded allowed).asValue
    (evolves_eval (evolution_recorded allowed) rounds node mentions) (before.note (.statement node))
  rw [respond_apply] at h
  cases hrun : asValue (eval rounds node) (before.note (.statement node)) with
  | ok v last =>
      rw [hrun] at hevolves h
      obtain ⟨events, hlog, hreports, hmentions⟩ := hevolves
      rw [State.reports_note, pending, List.nil_append] at hreports
      cases h
      rw [← hreports] at hmentions
      refine ⟨⟨pending, last, events, hrun, hlog, hreports, rfl, rfl⟩, hmentions, ?_⟩
      rintro fault ⟨⟩
  | error stop last =>
      rw [hrun] at hevolves h
      cases stop with
      | abort abort => cases h
      | fault fault =>
          obtain ⟨⟨events, hlog, hreports, hmentions⟩, hfault⟩ := hevolves
          rw [State.reports_note, pending, List.nil_append] at hreports
          cases h
          rw [← hreports] at hmentions
          refine ⟨⟨pending, last, events, hrun, hlog, hreports, rfl, rfl⟩, hmentions, ?_⟩
          rintro _ ⟨⟩
          exact hfault

end Evaluation

end Script

import Script.Proofs.Evaluation.Course
/-!
# The table of functions

A function is entered into the table where its declaration succeeds, and nothing is ever taken out
or replaced.  So at each point of a run the table holds the functions whose declarations have
succeeded so far, in this order, and a declaration succeeds if none of them has its name and its
parameters have different names.
-/

namespace Script

namespace Evaluation

def Visit.declared? (rounds : Nat) (visit : Visit) : Option Function :=
  match visit.node, eval rounds visit.node visit.state with
  | .function signature body, .ok _ _ => some ⟨signature, body⟩
  | _, _ => none

def declaredIn (rounds : Nat) (visits : List Visit) : List Function :=
  visits.filterMap (Visit.declared? rounds)

/-- Whether each of the visits finds the table as the declarations before it have left it, where the
functions `before` were in the table at first and `after` are in the end. -/
inductive Threads (rounds : Nat) : (before : List Function) → List Visit →
    (after : List Function) → Prop
  | nil (functions : List Function) : Threads rounds functions [] functions
  | cons {visit : Visit} {others : List Visit} {after : List Function}
      (rest : Threads rounds (visit.state.functions ++ (visit.declared? rounds).toList) others
        after) : Threads rounds visit.state.functions (visit :: others) after

namespace Threads

variable {rounds : Nat} {before middle after : List Function} {visits others : List Visit}

/-- A visit that declares nothing leaves the table to the next one. -/
theorem enter {visit : Visit} (declares : visit.declared? rounds = none)
    (rest : Threads rounds visit.state.functions others after) :
    Threads rounds visit.state.functions (visit :: others) after := by
  apply cons
  rwa [declares, Option.toList_none, List.append_nil]

theorem trans (first : Threads rounds before visits middle)
    (second : Threads rounds middle others after) :
    Threads rounds before (visits ++ others) after := by
  induction first with
  | nil => exact second
  | cons _ ih => exact cons (ih second)

theorem functions_eq (h : Threads rounds before visits after) :
    after = before ++ declaredIn rounds visits := by
  induction h with
  | nil => exact (List.append_nil _).symm
  | @cons visit others after _ ih =>
      rw [ih, List.append_assoc]
      cases hdeclared : visit.declared? rounds with
      | none => rw [declaredIn, declaredIn, List.filterMap_cons_none hdeclared]; rfl
      | some function => rw [declaredIn, declaredIn, List.filterMap_cons_some hdeclared]; rfl

theorem exists_trans (h : Threads rounds before (visits ++ others) after) :
    ∃ middle, Threads rounds before visits middle ∧ Threads rounds middle others after := by
  induction visits generalizing before with
  | nil => exact ⟨before, nil before, h⟩
  | cons visit visits ih =>
      cases h with
      | cons rest =>
          obtain ⟨middle, hvisits, hothers⟩ := ih rest
          exact ⟨middle, cons hvisits, hothers⟩

/-- What a visit finds in the table are the functions from before and those declared since. -/
theorem visited {visit : Visit} (h : Threads rounds before (visits ++ visit :: others) after) :
    visit.state.functions = before ++ declaredIn rounds visits := by
  obtain ⟨middle, hvisits, hrest⟩ := h.exists_trans
  cases hrest with
  | cons _ => exact hvisits.functions_eq

end Threads

def Declares (rounds : Nat) (before : State) (visits : List Visit) (after : State) : Prop :=
  Threads rounds before.functions visits after.functions

theorem chronicle_declares (rounds : Nat) : Chronicle (Declares rounds) where
  refl state := .nil state.functions
  trans := .trans
  congr h _ hfirst _ hsecond := by rwa [Declares, ← hfirst, ← hsecond]
  opened h := h
  closed h _ := h

section Parts

variable {rounds : Nat} {visits : State → List Visit}

theorem declares_declareVariable {initial : Eval Value} (name : String) (ascription : Option Ty)
    (h : Chronicles (Declares rounds) visits initial) :
    Chronicles (Declares rounds)
      (fun state => if state.scopes.innermostBinds name then [] else visits state)
      (declareVariable name ascription initial) := by
  intro state
  rw [declareVariable, Step.get_bind]
  by_cases hbound : state.scopes.innermostBinds name
  · simp only [if_pos hbound]
    exact .nil _
  · simp only [if_neg hbound]
    refine (chronicle_declares rounds).bind_silent h (fun v => ?_) state
    cases ascription.filter (· ≠ v.ty) with
    | some ty => exact (chronicle_declares rounds).fail _
    | none => exact fun state => .nil state.functions

theorem declares_assignVariable {value : Eval Value} (name : String)
    (h : Chronicles (Declares rounds) visits value) :
    Chronicles (Declares rounds)
      (fun state => if (state.scopes.find? name).isSome then visits state else [])
      (assignVariable name value) := by
  intro state
  rw [assignVariable, Step.get_bind]
  cases hfind : state.scopes.find? name with
  | none =>
      simp only [hfind]
      exact .nil _
  | some frame =>
      simp only [hfind, Option.isSome_some, if_true]
      refine (chronicle_declares rounds).bind_silent h (fun v after => ?_) state
      rw [Step.get_bind]
      cases after.scopes.set? frame name v <;> exact .nil after.functions

/-- A node that is no declaration of a function leaves the table to its parts. -/
theorem declares_enter {α : Type} {node : Node} {evaluation : Eval α}
    (other : ∀ signature body, node ≠ .function signature body)
    (h : Chronicles (Declares rounds) visits evaluation) :
    Chronicles (Declares rounds) (fun state => ⟨node, state⟩ :: visits state) evaluation := by
  intro state
  have hnone : Visit.declared? rounds ⟨node, state⟩ = none := by
    cases node with
    | function signature body => exact absurd rfl (other signature body)
    | _ => rfl
  exact Threads.enter hnone (h state)

end Parts

/-- A declaration changes the table only, and only if it succeeds. -/
theorem eval_function (rounds : Nat) (signature : Signature) (body : List Node) (state : State) :
    eval rounds (.function signature body) state =
      if state.declares signature.name then
        .error (.fault (.redeclared signature.name)) state
      else
        match firstRepeat? [] (signature.parameters.map (·.name)) with
        | some name => .error (.fault (.redeclared name)) state
        | none => .ok (.value .void) (state.declare ⟨signature, body⟩) := by
  rw [eval, Step.bind_apply, declareFunction, Step.get_bind]
  by_cases hdeclared : state.declares signature.name
  · simp only [if_pos hdeclared, fail_apply]
  · simp only [if_neg hdeclared]
    cases firstRepeat? [] (signature.parameters.map (·.name)) <;> rfl

theorem declares_function (rounds : Nat) (signature : Signature) (body : List Node) :
    Chronicles (Declares rounds) (course rounds (.function signature body))
      (eval rounds (.function signature body)) := by
  intro state
  have hdeclared : (Step.last (eval rounds (.function signature body) state)).functions =
      state.functions ++ (Visit.declared? rounds ⟨.function signature body, state⟩).toList := by
    simp only [Visit.declared?]
    rw [eval_function]
    split
    · simp
    · split <;> simp
  rw [Declares, hdeclared]
  exact @Threads.cons rounds ⟨.function signature body, state⟩ [] _ (.nil _)

mutual

theorem declares_eval (rounds : Nat) (node : Node) :
    Chronicles (Declares rounds) (course rounds node) (eval rounds node) := by
  have chronicle := chronicle_declares rounds
  cases node with
  | literal v => exact declares_enter (by simp) (chronicle.pure _)
  | identifier name =>
      exact declares_enter (by simp) (chronicle.map _ (chronicle.variableValue name))
  | declaration name ascription initial =>
      have hinitial := chronicle.asValue (declares_eval rounds initial)
      exact declares_enter (by simp)
        (chronicle.map _ (declares_declareVariable name ascription hinitial))
  | assignment name value =>
      have hvalue := chronicle.asValue (declares_eval rounds value)
      exact declares_enter (by simp) (chronicle.map _ (declares_assignVariable name hvalue))
  | binary op left right =>
      have hleft := chronicle.asValue (declares_eval rounds left)
      have hright := chronicle.asValue (declares_eval rounds right)
      refine declares_enter (by simp) (chronicle.bind hleft fun l => ?_)
      exact chronicle.bind_silent hright fun r => chronicle.map _ (chronicle.settle _)
  | unary op operand =>
      have hoperand := chronicle.asValue (declares_eval rounds operand)
      refine declares_enter (by simp) (chronicle.bind_silent hoperand fun v => ?_)
      exact chronicle.map _ (chronicle.settle _)
  | conditional condition onTrue onFalse =>
      have hcondition := chronicle.asValue (declares_eval rounds condition)
      refine declares_enter (by simp) (chronicle.bind hcondition fun v => ?_)
      cases v.asBoolean? with
      | none => exact chronicle.map _ (chronicle.report _)
      | some b =>
          cases b with
          | true => exact chronicle.map _ (chronicle.asValue (declares_eval rounds onTrue))
          | false => exact chronicle.map _ (chronicle.asValue (declares_eval rounds onFalse))
  | ifChain chain => exact declares_enter (by simp) (declares_evalChain rounds chain)
  | whileLoop condition body =>
      have hcondition := chronicle.asValue (declares_eval rounds condition)
      have hbody := chronicle.inScope (declares_evalBody rounds .void body)
      exact declares_enter (by simp)
        (chronicle.repeatWhile (chronicle.holds .whileLoop hcondition) hbody rounds)
  | breakLoop | nextRound | malformed | endOfInput =>
      exact declares_enter (by simp) (chronicle.pure _)
  | function signature body => exact declares_function rounds signature body
  | returnValue value =>
      have hvalue := chronicle.asValue (declares_eval rounds value)
      exact declares_enter (by simp) (chronicle.bind_silent hvalue fun v => chronicle.pure _)

theorem declares_evalChain (rounds : Nat) (chain : Chain) :
    Chronicles (Declares rounds) (courseOfChain rounds chain) (evalChain rounds chain) := by
  have chronicle := chronicle_declares rounds
  cases chain with
  | done => exact chronicle.pure _
  | when condition body others =>
      have hcondition := chronicle.asValue (declares_eval rounds condition)
      refine chronicle.bind (chronicle.holds .ifLink hcondition) fun applies => ?_
      cases applies with
      | true => exact chronicle.inScope (declares_evalBody rounds .void body)
      | false => exact declares_evalChain rounds others
  | always body others => exact chronicle.inScope (declares_evalBody rounds .void body)

theorem declares_evalBody (rounds : Nat) (last : Value) (body : List Node) :
    Chronicles (Declares rounds) (courseOfBody rounds body) (evalBody rounds last body) := by
  have chronicle := chronicle_declares rounds
  cases body with
  | nil => exact chronicle.pure _
  | cons statement others =>
      refine chronicle.bind (declares_eval rounds statement) fun signal => ?_
      cases signal with
      | value v => exact declares_evalBody rounds v others
      | jump jump => exact chronicle.pure _
      | leave => exact chronicle.pure _

end

theorem firstRepeat?_eq_none_iff {seen names : List String} :
    firstRepeat? seen names = none ↔ names.Nodup ∧ ∀ name ∈ names, name ∉ seen := by
  induction names generalizing seen with
  | nil => simp [firstRepeat?]
  | cons first others ih =>
      rw [firstRepeat?]
      by_cases hseen : first ∈ seen
      · simp [hseen]
      · rw [if_neg hseen, ih, List.nodup_cons, List.forall_mem_cons]
        simp only [List.mem_cons, not_or]
        grind

theorem exists_of_firstRepeat?_eq_some {seen names : List String} {name : String}
    (h : firstRepeat? seen names = some name) :
    ∃ front rest, names = front ++ name :: rest ∧ front.Nodup ∧ (∀ other ∈ front, other ∉ seen) ∧
      (name ∈ front ∨ name ∈ seen) := by
  induction names generalizing seen with
  | nil => cases h
  | cons first others ih =>
      rw [firstRepeat?] at h
      by_cases hseen : first ∈ seen
      · rw [if_pos hseen, Option.some.injEq] at h
        subst h
        exact ⟨[], others, rfl, .nil, by simp, .inr hseen⟩
      · rw [if_neg hseen] at h
        obtain ⟨front, rest, hsplit, hnodup, hfresh, hmem⟩ := ih h
        refine ⟨first :: front, rest, by rw [hsplit]; rfl, ?_, ?_, ?_⟩
        · refine List.nodup_cons.2 ⟨fun hfirst => ?_, hnodup⟩
          exact hfresh first hfirst List.mem_cons_self
        · exact List.forall_mem_cons.2 ⟨hseen, fun other hother hmem' =>
            hfresh other hother (List.mem_cons_of_mem _ hmem')⟩
        · grind

structure Declaring (rounds : Nat) (known : List Function) (signature : Signature)
    (body : List Node) (state : State) : Prop where
  /-- It succeeds if and only if its name is free and its parameters differ. -/
  succeeds_iff : (∃ signal after, eval rounds (.function signature body) state = .ok signal after) ↔
    (∀ function ∈ known, function.signature.name ≠ signature.name) ∧
      (signature.parameters.map (·.name)).Nodup
  /-- A name that is taken is complained about first. -/
  taken : (∃ function ∈ known, function.signature.name = signature.name) →
    eval rounds (.function signature body) state =
      .error (.fault (.redeclared signature.name)) state
  /-- With a free name the complaint is about the first parameter that repeats an earlier one. -/
  repeated : (∀ function ∈ known, function.signature.name ≠ signature.name) →
    ¬ (signature.parameters.map (·.name)).Nodup →
    ∃ front name rest, signature.parameters.map (·.name) = front ++ name :: rest ∧ front.Nodup ∧
      name ∈ front ∧
      eval rounds (.function signature body) state = .error (.fault (.redeclared name)) state
  /-- Variables have no part in it, whatever their names. -/
  unscoped : ∀ scopes, eval rounds (.function signature body) { state with scopes } =
    match eval rounds (.function signature body) state with
    | .ok signal after => .ok signal { after with scopes }
    | .error stop after => .error stop { after with scopes }
  /-- No identifier comes to mean something else. -/
  scopes_eq : (Step.last (eval rounds (.function signature body) state)).scopes = state.scopes

theorem declares_eq_true_iff (state : State) (name : String) :
    state.declares name = true ↔ ∃ function ∈ state.functions, function.signature.name = name := by
  simp [State.declares]

theorem declaring (rounds : Nat) (signature : Signature) (body : List Node) (state : State) :
    Declaring rounds state.functions signature body state := by
  have hfree : (∀ function ∈ state.functions, function.signature.name ≠ signature.name) ↔
      ¬ state.declares signature.name = true := by
    rw [declares_eq_true_iff]
    simp only [not_exists, not_and, ne_eq]
  have hnodup : (signature.parameters.map (·.name)).Nodup ↔
      firstRepeat? [] (signature.parameters.map (·.name)) = none := by
    simp [firstRepeat?_eq_none_iff]
  constructor
  case succeeds_iff =>
    rw [hfree, hnodup, eval_function]
    by_cases hdeclared : state.declares signature.name
    · simp [hdeclared]
    · cases firstRepeat? [] (signature.parameters.map (·.name)) <;> simp [hdeclared]
  case taken =>
    intro htaken
    rw [eval_function, if_pos ((declares_eq_true_iff _ _).2 htaken)]
  case repeated =>
    intro hname hrepeats
    rw [hnodup] at hrepeats
    obtain ⟨name, hname'⟩ := Option.ne_none_iff_exists'.1 hrepeats
    obtain ⟨front, rest, hsplit, hfront, -, hmem⟩ := exists_of_firstRepeat?_eq_some hname'
    refine ⟨front, name, rest, hsplit, hfront, by simpa using hmem, ?_⟩
    rw [eval_function, if_neg (hfree.1 hname), hname']
  case unscoped =>
    intro scopes
    have hsame : ({ state with scopes } : State).declares signature.name =
      state.declares signature.name := rfl
    rw [eval_function, eval_function, hsame]
    by_cases hdeclared : state.declares signature.name
    · simp only [if_pos hdeclared]
    · simp only [if_neg hdeclared]
      cases firstRepeat? [] (signature.parameters.map (·.name)) <;> rfl
  case scopes_eq =>
    rw [eval_function]
    by_cases hdeclared : state.declares signature.name
    · rw [if_pos hdeclared, Step.last_error]
    · rw [if_neg hdeclared]
      cases firstRepeat? [] (signature.parameters.map (·.name)) <;> rfl

theorem declared?_eq_some {rounds : Nat} {visit : Visit} {function : Function}
    (h : visit.declared? rounds = some function) :
    ∀ other ∈ visit.state.functions, other.signature.name ≠ function.signature.name := by
  obtain ⟨node, state⟩ := visit
  cases node with
  | function signature body =>
      cases hrun : eval rounds (.function signature body) state with
      | error stop after => simp [Visit.declared?, hrun] at h
      | ok signal after =>
          have hfunction : (⟨signature, body⟩ : Function) = function := by
            simpa [Visit.declared?, hrun] using h
          subst hfunction
          exact ((declaring rounds signature body state).succeeds_iff.1 ⟨signal, after, hrun⟩).1
  | _ => cases h

namespace Threads

variable {rounds : Nat} {before after : List Function} {visits others : List Visit}

/-- A name that is taken is not declared again. -/
theorem nodup_names (h : Threads rounds before visits after)
    (distinct : (before.map (·.signature.name)).Nodup) :
    (after.map (·.signature.name)).Nodup := by
  induction h with
  | nil => exact distinct
  | @cons visit others after _ ih =>
      apply ih
      cases hdeclared : visit.declared? rounds with
      | none => simpa using distinct
      | some function =>
          rw [Option.toList_some, List.map_append, List.map_singleton]
          refine List.nodup_append.2 ⟨distinct, by simp, fun name hname other hother => ?_⟩
          obtain ⟨first, hfirst, rfl⟩ := List.mem_map.1 hname
          rw [List.mem_singleton.1 hother]
          exact declared?_eq_some hdeclared first hfirst

theorem prefix_of_mem {visit before' : Visit}
    (h : Threads rounds before (visits ++ visit :: others) after) (hmem : before' ∈ visits) :
    before'.state.functions <+: visit.state.functions := by
  obtain ⟨front, rest, rfl⟩ := List.append_of_mem hmem
  have hvisit := h.visited
  rw [List.append_assoc, List.cons_append] at h
  rw [hvisit, h.visited, declaredIn, declaredIn, List.filterMap_append, ← List.append_assoc]
  exact List.prefix_append _ _

end Threads

/-- What holds between an evaluation and those before it in a run, as far as it concerns the
table. -/
structure Visit.Follows (rounds : Nat) (earlier : List Visit) (visit : Visit) : Prop where
  /-- The table holds the functions declared before, wherever this was and whatever became of the
  statements around them. -/
  functions_eq : visit.state.functions = declaredIn rounds earlier
  /-- No name stands twice in it. -/
  names_nodup : (visit.state.functions.map (·.signature.name)).Nodup
  /-- What has once been in the table is still there, unchanged. -/
  kept : ∀ before ∈ earlier, before.state.functions <+: visit.state.functions
  declaring : ∀ signature body, visit.node = .function signature body →
    Declaring rounds (declaredIn rounds earlier) signature body visit.state

end Evaluation

namespace Run

open Evaluation

/-- When programs are run one after the other on one state, a declaration of a function succeeds if
and only if no declaration of its name has succeeded before and its parameters have different names.
This is so at each evaluation of a declaration, in a body, in a round of a loop, or in a statement
that fails later on.  In the end the table holds all functions whose declarations have succeeded. -/
theorem follows_of_courseOfAll (rounds : Nat) (programs : List (List Node)) (log : Log)
    (sink : Sink) :
    (consoleAfter rounds programs ⟨.fresh log, sink⟩).state.functions =
        declaredIn rounds (courseOfAll rounds programs ⟨.fresh log, sink⟩) ∧
      ∀ (earlier : List Visit) (visit : Visit) (later : List Visit),
        courseOfAll rounds programs ⟨.fresh log, sink⟩ = earlier ++ visit :: later →
        visit.Follows rounds earlier := by
  have hthreads := related_courseOfAll (chronicle_declares rounds) rounds programs
    (fun program _ node _ => declares_eval rounds node) ⟨.fresh log, sink⟩
  refine ⟨hthreads.functions_eq, fun earlier visit later hsplit => ?_⟩
  rw [hsplit] at hthreads
  have hvisited : visit.state.functions = declaredIn rounds earlier := hthreads.visited
  constructor
  case functions_eq => exact hvisited
  case names_nodup =>
    obtain ⟨middle, hearlier, hvisit⟩ := hthreads.exists_trans
    cases hvisit with
    | cons _ => exact hearlier.nodup_names .nil
  case kept => exact fun _ hmem => hthreads.prefix_of_mem hmem
  case declaring =>
    intro signature body hnode
    rw [← hvisited]
    exact Evaluation.declaring rounds signature body visit.state

/-- A loop declares a function in its first round and fails in its second one. -/
theorem redeclared_in_second_round : ∃ earlier visit,
    courseOfAll 2 [[.whileLoop (.literal (.boolean true)) [.function ⟨"f", [], .void⟩ []]]]
        ⟨.fresh (.empty .error), .empty none⟩ = earlier ++ [visit] ∧
      eval 2 (.function ⟨"f", [], .void⟩ []) visit.state =
        .error (.fault (.redeclared "f")) visit.state := by
  let visits := courseOfAll 2
    [[.whileLoop (.literal (.boolean true)) [.function ⟨"f", [], .void⟩ []]]]
    ⟨.fresh (.empty .error), .empty none⟩
  have hne : visits ≠ [] := by simp [visits, courseOfAll, courseOfProgram, courseOfEach, course]
  have hsplit : visits = visits.dropLast ++ [visits.getLast hne] :=
    (List.dropLast_concat_getLast hne).symm
  have hfollows := (follows_of_courseOfAll 2 _ _ _).2 _ _ _ hsplit
  refine ⟨_, _, hsplit, (hfollows.declaring _ _ rfl).taken ⟨⟨⟨"f", [], .void⟩, []⟩, ?_, rfl⟩⟩
  exact List.mem_singleton.2 rfl

end Run

end Script

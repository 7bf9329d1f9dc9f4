import Mathlib.Data.List.Infix
import Mathlib.Data.List.Induction
import Script.Proofs.Frames
/-!
# The scope stack and its history

What a stack of scopes answers follows from what has been done to it.  The frames on it are those of
the pushes that no pop has undone.  A name is found in the innermost frame into which it has been
inserted since the frame was pushed, with the value that was written there last.
-/

namespace Script.Scopes

inductive Op
  | push
  | pop
  | insert (name : String) (value : Value)
  | set (index : Nat) (name : String) (value : Value)
  | find (name : String)
  | get (name : String)
  | innermostBinds (name : String)
deriving DecidableEq

/-- The stack after an operation.  One that fails leaves the stack as it is. -/
def perform (scopes : Scopes) : Op → Scopes
  | .push => scopes.push
  | .pop => scopes.pop?.getD scopes
  | .insert name value => scopes.insert name value
  | .set index name value => (scopes.set? index name value).getD scopes
  | .find _ | .get _ | .innermostBinds _ => scopes

abbrev History := List Op

def after (history : History) : Scopes := history.foldl perform .fresh

namespace History

/-- Whether no pop among the operations undoes a push before them: at no time have there been more
pops than pushes. -/
def Spares (later : History) : Prop :=
  ∀ front ∈ later.inits, front.count .pop ≤ front.count .push

instance (later : History) : Decidable later.Spares :=
  inferInstanceAs (Decidable (∀ front ∈ later.inits, front.count .pop ≤ front.count .push))

/-- The number of pushes that no later pop undoes. -/
def openPushes : History → Nat
  | [] => 0
  | op :: later => openPushes later + if op = .push ∧ Spares later then 1 else 0

/-- The number of frames: the global one, and one for each push that has not been undone. -/
def depth (history : History) : Nat := 1 + openPushes history

/-- Whether there is a frame with the given index in the end which was last pushed before the
operations `later`. -/
structure IsSince (index : Nat) (earlier later : History) : Prop where
  present : index < depth (earlier ++ later)
  notPushed : ∀ front rest, later = front ++ .push :: rest → depth (earlier ++ front) ≠ index

/-- Whether the name was inserted while the frame with the given index was the innermost one, since
this frame was last pushed. -/
def Binds (history : History) (index : Nat) (name : String) : Prop :=
  ∃ earlier value later, history = earlier ++ .insert name value :: later ∧
    depth earlier = index + 1 ∧ IsSince index earlier (.insert name value :: later)

/-- Whether an operation gives the name a value in the frame with the given index: an insert while
this frame is the innermost one, or a set that addresses the frame while it binds the name. -/
def Writes (earlier : History) (index : Nat) (name : String) (value : Value) : Op → Prop
  | .insert name' value' => name' = name ∧ value' = value ∧ depth earlier = index + 1
  | .set index' name' value' =>
    index' = index ∧ name' = name ∧ value' = value ∧ Binds earlier index name
  | _ => False

/-- Whether the value is the one that the name was given last in the frame with the given index,
since this frame was last pushed. -/
def LastWritten (history : History) (index : Nat) (name : String) (value : Value) : Prop :=
  ∃ earlier op later, history = earlier ++ op :: later ∧ Writes earlier index name value op ∧
    IsSince index earlier (op :: later) ∧
    ∀ front other rest value', later = front ++ other :: rest →
      ¬ Writes (earlier ++ op :: front) index name value' other

end History

/-! ## The depth -/

namespace History

def strayPops : History → Nat
  | [] => 0
  | op :: later =>
    if op = .pop then strayPops later + 1
    else if op = .push then strayPops later - 1
    else strayPops later

theorem strayPops_le_iff (later : History) (n : Nat) :
    strayPops later ≤ n ↔ ∀ front, front <+: later → front.count .pop ≤ front.count .push + n := by
  induction later generalizing n with
  | nil => simp [strayPops]
  | cons op later ih =>
      have hfronts : (∀ front, front <+: op :: later →
            front.count .pop ≤ front.count .push + n) ↔
          ∀ front, front <+: later →
            (op :: front).count .pop ≤ (op :: front).count .push + n := by
        constructor
        · exact fun h front hfront => h _ ((List.prefix_cons_inj op).2 hfront)
        · intro h front hfront
          rcases List.prefix_cons_iff.1 hfront with rfl | ⟨others, rfl, hothers⟩
          · simp
          · exact h others hothers
      rw [hfronts, strayPops]
      split
      · rename_i hpop
        subst hpop
        cases n with
        | zero =>
            refine iff_of_false (Nat.not_succ_le_zero _) fun h => ?_
            exact absurd (h [] List.nil_prefix) (by decide)
        | succ n =>
            rw [Nat.succ_le_succ_iff, ih]
            simp [← Nat.add_assoc]
      · rename_i hpop
        split
        · rename_i hpush
          have hle : strayPops later - 1 ≤ n ↔ strayPops later ≤ n + 1 := by omega
          rw [hle, ih, hpush]
          simp [Nat.add_right_comm, Nat.add_assoc]
        · rename_i hpush
          rw [ih]
          simp [List.count_cons_of_ne hpop, List.count_cons_of_ne hpush]

theorem spares_iff (later : History) : later.Spares ↔ strayPops later = 0 := by
  rw [← Nat.le_zero, strayPops_le_iff]
  simp [Spares]

/-- A pop undoes the last push that is open, and if there is none then it is stray. -/
theorem concat_pop (history : History) :
    openPushes (history ++ [.pop]) = openPushes history - 1 ∧
      strayPops (history ++ [.pop]) =
        strayPops history + if openPushes history = 0 then 1 else 0 := by
  induction history with
  | nil => decide
  | cons op later ih =>
      obtain ⟨hopen, hstray⟩ := ih
      rw [List.cons_append]
      simp only [openPushes, strayPops, spares_iff, hopen, hstray]
      -- a push is open if nothing after it is stray, and else it takes one stray pop away
      by_cases hclosed : openPushes later = 0 <;> grind

theorem concat_of_ne_pop (history : History) {op : Op} (noPop : op ≠ .pop) :
    openPushes (history ++ [op]) = openPushes history + (if op = .push then 1 else 0) ∧
      strayPops (history ++ [op]) = strayPops history := by
  induction history with
  | nil => by_cases hpush : op = .push <;> simp [openPushes, strayPops, spares_iff, noPop, hpush]
  | cons first later ih =>
      obtain ⟨hopen, hstray⟩ := ih
      simp only [List.cons_append, openPushes, strayPops, spares_iff, hopen, hstray]
      exact ⟨Nat.add_right_comm _ _ _, trivial⟩

end History

def Op.depth (n : Nat) : Op → Nat
  | .push => n + 1
  | .pop => max 1 (n - 1)
  | _ => n

theorem History.depth_concat (history : History) (op : Op) :
    depth (history ++ [op]) = op.depth (depth history) := by
  by_cases hpop : op = .pop
  · rw [hpop, depth, (concat_pop history).1, depth, Op.depth]
    omega
  · rw [depth, (concat_of_ne_pop history hpop).1, depth]
    cases op with
    | push => simp [Op.depth, Nat.add_assoc]
    | pop => exact absurd rfl hpop
    | insert | set | find | get | innermostBinds => rfl

theorem depth_perform (scopes : Scopes) (op : Op) :
    (scopes.perform op).depth = op.depth scopes.depth := by
  cases op with
  | push => rfl
  | pop =>
      obtain ⟨innermost, enclosing⟩ := scopes
      cases enclosing with
      | nil => rfl
      | cons frame outer => simp [perform, pop?, depth, Op.depth]
  | set index name value =>
      rw [perform]
      cases hset : scopes.set? index name value with
      | none => rfl
      | some updated =>
          rw [Option.getD_some, ← length_frames, frames_set? hset, length_rebindIn, length_frames]
          rfl
  | insert | find | get | innermostBinds => rfl

@[simp] theorem after_concat (history : History) (op : Op) :
    after (history ++ [op]) = (after history).perform op := by
  rw [after, List.foldl_concat, after]

theorem depth_after (history : History) : (after history).depth = history.depth := by
  induction history using List.reverseRecOn with
  | nil => rfl
  | append_singleton history op ih =>
      rw [after_concat, depth_perform, History.depth_concat, ih]

/-! ## One more operation in a history -/

namespace History

variable {history earlier later : History} {op : Op} {index : Nat} {name : String} {value : Value}

/-- An operation of a longer history is the last one or one of those before. -/
theorem concat_eq_append_cons_iff {other : Op} : history ++ [op] = earlier ++ other :: later ↔
    (history = earlier ∧ op = other ∧ later = []) ∨
      ∃ rest, history = earlier ++ other :: rest ∧ later = rest ++ [op] := by
  constructor
  · intro h
    rcases List.eq_nil_or_concat later with rfl | ⟨rest, last, rfl⟩
    · obtain ⟨rfl, hop⟩ := List.append_inj' h rfl
      exact .inl ⟨rfl, (List.cons.inj hop).1, rfl⟩
    · rw [List.concat_eq_append, ← List.cons_append, ← List.append_assoc] at h
      obtain ⟨rfl, hop⟩ := List.append_inj' h rfl
      rw [(List.cons.inj hop).1]
      exact .inr ⟨rest, rfl, List.concat_eq_append⟩
  · rintro (⟨rfl, rfl, rfl⟩ | ⟨rest, rfl, rfl⟩)
    · rfl
    · rw [List.append_assoc, List.cons_append]

theorem isSince_nil : IsSince index earlier [] ↔ index < earlier.depth := by
  constructor
  · intro h
    simpa using h.present
  · intro h
    exact ⟨by simpa using h, by simp⟩

/-- A frame that is not pushed anew lasts as long as it stays on the stack. -/
theorem isSince_concat : IsSince index earlier (later ++ [op]) ↔
    IsSince index earlier later ∧ index < depth (earlier ++ (later ++ [op])) := by
  constructor
  · intro h
    refine ⟨⟨?_, fun front rest hlater => ?_⟩, h.present⟩
    · have hpresent := h.present
      rw [← List.append_assoc, depth_concat] at hpresent
      -- a push would either push this very frame or one further in, and nothing else adds a frame
      by_cases hpush : op = .push
      · have hne := h.notPushed later [] (by rw [hpush])
        rw [hpush, Op.depth] at hpresent
        omega
      · have hpos : 1 ≤ depth (earlier ++ later) := Nat.le_add_right 1 _
        have hle : op.depth (depth (earlier ++ later)) ≤ depth (earlier ++ later) := by
          cases op with
          | push => exact absurd rfl hpush
          | pop => exact Nat.max_le.2 ⟨hpos, Nat.sub_le _ _⟩
          | insert | set | find | get | innermostBinds => exact Nat.le_refl _
        exact Nat.lt_of_lt_of_le hpresent hle
    · exact h.notPushed front (rest ++ [op]) (by rw [hlater, List.append_assoc, List.cons_append])
  · rintro ⟨h, hpresent⟩
    refine ⟨hpresent, fun front rest hlater => ?_⟩
    rcases concat_eq_append_cons_iff.1 hlater with ⟨rfl, -⟩ | ⟨others, rfl, -⟩
    · exact Nat.ne_of_gt h.present
    · exact h.notPushed front others rfl

theorem Binds.lt_depth (h : Binds history index name) : index < history.depth := by
  obtain ⟨earlier, value, later, rfl, -, hsince⟩ := h
  exact hsince.present

theorem Writes.lt_depth (h : Writes history index name value op) : index < history.depth := by
  cases op with
  | insert name' value' =>
      obtain ⟨-, -, hdepth⟩ := h
      omega
  | set index' name' value' =>
      obtain ⟨-, -, -, hbinds⟩ := h
      exact hbinds.lt_depth
  | push | pop | find | get | innermostBinds => exact h.elim

theorem Writes.depth_concat (h : Writes history index name value op) :
    depth (history ++ [op]) = history.depth := by
  rw [History.depth_concat]
  cases op with
  | insert | set => rfl
  | push | pop | find | get | innermostBinds => exact h.elim

/-- What is written stands in a frame that is on the stack before and afterwards. -/
theorem Writes.isSince (h : Writes history index name value op) :
    IsSince index history [op] := by
  have hpresent : index < depth (history ++ [op]) := h.depth_concat ▸ h.lt_depth
  rw [← List.nil_append [op], isSince_concat]
  exact ⟨isSince_nil.2 h.lt_depth, hpresent⟩

theorem binds_concat : Binds (history ++ [op]) index name ↔
    (∃ value, op = .insert name value ∧ history.depth = index + 1) ∨
      (Binds history index name ∧ index < depth (history ++ [op])) := by
  constructor
  · rintro ⟨earlier, value, later, hhistory, hdepth, hsince⟩
    rcases concat_eq_append_cons_iff.1 hhistory with ⟨rfl, rfl, rfl⟩ | ⟨rest, rfl, rfl⟩
    · exact .inl ⟨value, rfl, hdepth⟩
    · rw [← List.cons_append, isSince_concat, ← List.append_assoc] at hsince
      obtain ⟨hbefore, hpresent⟩ := hsince
      exact .inr ⟨⟨earlier, value, rest, rfl, hdepth, hbefore⟩, hpresent⟩
  · rintro (⟨value, rfl, hdepth⟩ | ⟨⟨earlier, value, later, rfl, hdepth, hsince⟩, hpresent⟩)
    · have hwrites : Writes history index name value (.insert name value) := ⟨rfl, rfl, hdepth⟩
      exact ⟨history, value, [], rfl, hdepth, hwrites.isSince⟩
    · rw [List.append_assoc] at hpresent ⊢
      exact ⟨earlier, value, later ++ [op], rfl, hdepth, isSince_concat.2 ⟨hsince, hpresent⟩⟩

theorem lastWritten_concat : LastWritten (history ++ [op]) index name value ↔
    Writes history index name value op ∨
      (LastWritten history index name value ∧ (∀ other, ¬ Writes history index name other op) ∧
        index < depth (history ++ [op])) := by
  constructor
  · rintro ⟨earlier, first, later, hhistory, hwrites, hsince, hlast⟩
    rcases concat_eq_append_cons_iff.1 hhistory with ⟨rfl, rfl, rfl⟩ | ⟨rest, rfl, rfl⟩
    · exact .inl hwrites
    · rw [← List.cons_append, isSince_concat, ← List.append_assoc] at hsince
      obtain ⟨hbefore, hpresent⟩ := hsince
      refine .inr ⟨⟨earlier, first, rest, rfl, hwrites, hbefore, ?_⟩, ?_, hpresent⟩
      · intro front other others value' hrest
        exact hlast front other (others ++ [op]) value'
          (by rw [hrest, List.append_assoc, List.cons_append])
      · exact fun other => hlast rest op [] other rfl
  · rintro (hwrites | ⟨⟨earlier, first, later, rfl, hwrites, hsince, hlast⟩, hnone, hpresent⟩)
    · exact ⟨history, op, [], rfl, hwrites, hwrites.isSince, by simp⟩
    · rw [List.append_assoc] at hpresent ⊢
      refine ⟨earlier, first, later ++ [op], rfl, hwrites,
        isSince_concat.2 ⟨hsince, hpresent⟩, ?_⟩
      intro front other rest value' hlater
      rcases concat_eq_append_cons_iff.1 hlater with ⟨rfl, rfl, -⟩ | ⟨others, rfl, -⟩
      · exact hnone value'
      · exact hlast front other others value' rfl

theorem not_binds_nil : ¬ Binds [] index name := by
  rintro ⟨earlier, value, later, h, -⟩
  simp at h

theorem not_lastWritten_nil : ¬ LastWritten [] index name value := by
  rintro ⟨earlier, op, later, h, -⟩
  simp at h

/-- A frame binds the names that have been written into it. -/
theorem binds_iff_exists : Binds history index name ↔
    ∃ value, LastWritten history index name value := by
  induction history using List.reverseRecOn with
  | nil => simp [not_binds_nil, not_lastWritten_nil]
  | append_singleton history op ih =>
      rw [binds_concat]
      constructor
      · rintro (⟨value, rfl, hdepth⟩ | ⟨hbinds, hpresent⟩)
        · exact ⟨value, lastWritten_concat.2 (.inl ⟨rfl, rfl, hdepth⟩)⟩
        · by_cases hwrites : ∃ value, Writes history index name value op
          · obtain ⟨value, hwrites⟩ := hwrites
            exact ⟨value, lastWritten_concat.2 (.inl hwrites)⟩
          · obtain ⟨value, hlast⟩ := ih.1 hbinds
            exact ⟨value, lastWritten_concat.2 (.inr ⟨hlast, not_exists.1 hwrites, hpresent⟩)⟩
      · rintro ⟨value, hlast⟩
        rcases lastWritten_concat.1 hlast with hwrites | ⟨hbefore, -, hpresent⟩
        · have hpresent := hwrites.isSince.present
          cases op with
          | insert name' value' =>
              obtain ⟨rfl, rfl, hdepth⟩ := hwrites
              exact .inl ⟨_, rfl, hdepth⟩
          | set index' name' value' =>
              obtain ⟨-, -, -, hbinds⟩ := hwrites
              exact .inr ⟨hbinds, hpresent⟩
          | push | pop | find | get | innermostBinds => exact hwrites.elim
        · exact .inr ⟨ih.2 ⟨value, hbefore⟩, hpresent⟩

end History

/-! ## What a step does -/

def written (scopes : Scopes) (index : Nat) (name : String) : Op → Option Value
  | .insert name' value => if name' = name ∧ scopes.depth = index + 1 then some value else none
  | .set index' name' value =>
    if index' = index ∧ name' = name ∧ (valueIn index name scopes.frames).isSome then some value
    else none
  | _ => none

/-- What an operation does to a frame: it writes a value into it, takes it off the stack or leaves
it alone. -/
theorem valueIn_perform (scopes : Scopes) (op : Op) (index : Nat) (name : String) :
    valueIn index name (scopes.perform op).frames =
      if index < (scopes.perform op).depth then
        (scopes.written index name op).or (valueIn index name scopes.frames)
      else none := by
  split
  · rename_i hpresent
    cases op with
    | push => exact valueIn_push scopes
    | pop =>
        obtain ⟨innermost, enclosing⟩ := scopes
        cases enclosing with
        | nil => rfl
        | cons frame outer => exact (valueIn_cons_of_lt innermost hpresent).symm
    | insert name' value =>
        rw [perform, valueIn_insert, written]
        split <;> rfl
    | set index' name' value =>
        rw [perform, written]
        cases hset : scopes.set? index' name' value with
        | none =>
            -- a set beyond the stack does nothing, and writes nothing into a frame that is there
            have hle := (set?_eq_none_iff scopes index' name' value).1 hset
            rw [← length_frames] at hle
            have habsent : valueIn index' name scopes.frames = none := valueIn_of_length_le hle
            rw [Option.getD_none, if_neg, Option.none_or]
            rintro ⟨rfl, -, hsome⟩
            rw [habsent] at hsome
            cases hsome
        | some updated =>
            rw [Option.getD_some, frames_set? hset, valueIn_rebindIn]
            split <;> rfl
    | find | get | innermostBinds => rfl
  · rename_i habsent
    exact valueIn_of_length_le (Nat.le_of_not_lt habsent)

/-- While the values in the frames are those that were written last, the next operation writes what
it writes by the history. -/
theorem written_eq_some_iff {history : History} {index : Nat} {name : String}
    (agree : ∀ value, valueIn index name (after history).frames = some value ↔
      history.LastWritten index name value) (op : Op) (value : Value) :
    (after history).written index name op = some value ↔ history.Writes index name value op := by
  cases op with
  | insert name' value' =>
      rw [written, Option.ite_none_right_eq_some, depth_after, Option.some.injEq]
      exact ⟨fun ⟨⟨hname, hdepth⟩, hvalue⟩ => ⟨hname, hvalue, hdepth⟩,
        fun ⟨hname, hvalue, hdepth⟩ => ⟨⟨hname, hdepth⟩, hvalue⟩⟩
  | set index' name' value' =>
      have hbinds : (valueIn index name (after history).frames).isSome ↔
          history.Binds index name := by
        rw [Option.isSome_iff_exists, History.binds_iff_exists]
        exact exists_congr agree
      rw [written, Option.ite_none_right_eq_some, hbinds, Option.some.injEq]
      exact ⟨fun ⟨⟨hindex, hname, hbinds⟩, hvalue⟩ => ⟨hindex, hname, hvalue, hbinds⟩,
        fun ⟨hindex, hname, hvalue, hbinds⟩ => ⟨⟨hindex, hname, hbinds⟩, hvalue⟩⟩
  | push | pop | find | get | innermostBinds => exact ⟨nofun, False.elim⟩

/-- What stands in a frame is what was written into it last. -/
theorem valueIn_after (history : History) (index : Nat) (name : String) (value : Value) :
    valueIn index name (after history).frames = some value ↔
      history.LastWritten index name value := by
  -- on the last operation, for which all values before it matter: a set needs the name to be bound
  induction history using List.reverseRecOn generalizing value with
  | nil =>
      refine iff_of_false ?_ History.not_lastWritten_nil
      simp [after, fresh, frames, valueIn]
  | append_singleton history op ih =>
      have hwrites := written_eq_some_iff ih op
      have hnone : (after history).written index name op = none ↔
          ∀ other, ¬ History.Writes history index name other op := by
        rw [Option.eq_none_iff_forall_ne_some]
        exact forall_congr' fun other => not_congr (hwrites other)
      have hpresent (h : History.Writes history index name value op) :
          index < History.depth (history ++ [op]) := h.isSince.present
      rw [after_concat, valueIn_perform, ← after_concat, depth_after, History.lastWritten_concat,
        Option.ite_none_right_eq_some, Option.or_eq_some_iff, hwrites, hnone, ih]
      tauto

theorem isSome_valueIn_after (history : History) (index : Nat) (name : String) :
    (valueIn index name (after history).frames).isSome ↔ history.Binds index name := by
  rw [Option.isSome_iff_exists, History.binds_iff_exists]
  exact exists_congr (valueIn_after history index name)

/-! ## What a stack answers -/

theorem find?_after (history : History) (name : String) (index : Nat) :
    (after history).find? name = some index ↔
      IsGreatest {index | history.Binds index name} index := by
  simp only [find?, findIn_eq_some_iff, isSome_valueIn_after]

theorem find?_after_eq_none_iff (history : History) (name : String) :
    (after history).find? name = none ↔ ∀ index, ¬ history.Binds index name := by
  simp only [find?, findIn_eq_none_iff, isSome_valueIn_after]

theorem get?_after (history : History) (name : String) (value : Value) :
    (after history).get? name = some value ↔
      ∃ index, (after history).find? name = some index ∧ history.LastWritten index name value := by
  rw [get?, findSome?_eq_bind_findIn, Option.bind_eq_some_iff]
  simp only [find?, valueIn_after]

/-- Whether a stack answers as the operations tell that have been done to it since it was fresh. -/
structure Reflects (scopes : Scopes) (history : History) : Prop where
  depth : scopes.depth = 1 + history.openPushes
  pop : scopes.pop? = none ↔ history.openPushes = 0
  popFailed : scopes.pop? = none → scopes.perform .pop = scopes
  set (index : Nat) (name : String) (value : Value) :
    scopes.set? index name value = none ↔ scopes.depth ≤ index
  setFailed (index : Nat) (name : String) (value : Value) :
    scopes.set? index name value = none → scopes.perform (.set index name value) = scopes
  setUnbound (index : Nat) (name : String) (value : Value) :
    index < scopes.depth → ¬ history.Binds index name →
      scopes.set? index name value = some scopes
  find (name : String) (index : Nat) :
    scopes.find? name = some index ↔ IsGreatest {index | history.Binds index name} index
  findNone (name : String) : scopes.find? name = none ↔ ∀ index, ¬ history.Binds index name
  get (name : String) (value : Value) :
    scopes.get? name = some value ↔
      ∃ index, scopes.find? name = some index ∧ history.LastWritten index name value
  getNone (name : String) : scopes.get? name = none ↔ scopes.find? name = none
  innermostBinds (name : String) :
    scopes.innermostBinds name = true ↔ scopes.find? name = some (scopes.depth - 1)

/-- Whatever has been done to a fresh stack, what it answers follows from that. -/
theorem reflects_after (history : History) : (after history).Reflects history where
  depth := depth_after history
  pop := by rw [pop?_eq_none_iff, depth_after, History.depth, Nat.add_eq_left]
  popFailed h := by rw [perform, h, Option.getD_none]
  set := set?_eq_none_iff (after history)
  setFailed index name value h := by rw [perform, h, Option.getD_none]
  setUnbound index name value lt h := by
    rw [← isSome_valueIn_after, Option.not_isSome_iff_eq_none] at h
    exact set?_of_valueIn_eq_none lt h value
  find := find?_after history
  findNone := find?_after_eq_none_iff history
  get := get?_after history
  getNone := get?_eq_none_iff (after history)
  innermostBinds := innermostBinds_iff (after history)

/-- A frame that takes the place of a popped one does not bind what the popped one bound. -/
example : (after [.insert "x" (.boolean true), .push, .insert "x" (.boolean false), .pop,
    .push]).get? "x" = some (.boolean true) := by decide

end Script.Scopes

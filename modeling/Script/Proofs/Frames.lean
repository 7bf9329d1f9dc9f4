import Mathlib.Order.Bounds.Basic
import Script.Proofs.Scopes
/-!
# Frames by their indexes

What a stack of scopes is asked can be told from the values that its frames give to names, where a
frame is known by its index.
-/

namespace Script.Scopes

/-- The value of a name in the frame with the given index, where the last frame has index 0. -/
def valueIn (index : Nat) (name : String) : List Frame → Option Value
  | [] => none
  | frame :: outer => if index = outer.length then frame.get? name else valueIn index name outer

variable {frames : List Frame} {index : Nat} {name : String}

theorem valueIn_of_length_le (h : frames.length ≤ index) : valueIn index name frames = none := by
  induction frames with
  | nil => rfl
  | cons frame outer ih =>
      rw [List.length_cons] at h
      rw [valueIn, if_neg (by omega), ih (by omega)]

theorem valueIn_cons_of_lt (frame : Frame) (h : index < frames.length) :
    valueIn index name (frame :: frames) = valueIn index name frames := by
  rw [valueIn, if_neg (Nat.ne_of_lt h)]

theorem valueIn_push (scopes : Scopes) :
    valueIn index name scopes.push.frames = valueIn index name scopes.frames := by
  rw [frames_push, valueIn]
  split
  · rename_i hindex
    rw [Frame.get?_empty, valueIn_of_length_le (Nat.le_of_eq hindex.symm)]
  · rfl

theorem valueIn_insert (scopes : Scopes) (other : String) (value : Value) :
    valueIn index name (scopes.insert other value).frames =
      if other = name ∧ scopes.depth = index + 1 then some value
      else valueIn index name scopes.frames := by
  rw [insert, frames, frames, valueIn, valueIn, depth, Frame.get?_insert]
  grind

theorem valueIn_rebindIn (target : Nat) (other : String) (value : Value) (frames : List Frame) :
    valueIn index name (rebindIn target other value frames) =
      if target = index ∧ other = name ∧ (valueIn index name frames).isSome then some value
      else valueIn index name frames := by
  induction frames with
  | nil => simp [rebindIn, valueIn]
  | cons frame outer ih =>
      rw [rebindIn, valueIn]
      split
      · rw [valueIn, Frame.get?_rebind, Frame.binds]
        grind
      · rw [valueIn, length_rebindIn, ih]
        grind

theorem rebindIn_of_valueIn_eq_none (h : valueIn index name frames = none) (value : Value) :
    rebindIn index name value frames = frames := by
  induction frames with
  | nil => rfl
  | cons frame outer ih =>
      rw [valueIn] at h
      rw [rebindIn]
      split
      · rename_i hindex
        rw [if_pos hindex] at h
        rw [Frame.rebind, Frame.binds, h, if_neg (by simp)]
      · rename_i hindex
        rw [if_neg hindex] at h
        rw [ih h]

theorem set?_of_valueIn_eq_none {scopes : Scopes} (lt : index < scopes.depth)
    (h : valueIn index name scopes.frames = none) (value : Value) :
    scopes.set? index name value = some scopes := by
  have hdefined : scopes.set? index name value ≠ none :=
    fun hnone => Nat.not_le_of_lt lt ((set?_eq_none_iff scopes index name value).1 hnone)
  obtain ⟨updated, hset⟩ := Option.ne_none_iff_exists'.1 hdefined
  have hframes := frames_set? hset
  rw [rebindIn_of_valueIn_eq_none h] at hframes
  obtain ⟨hinnermost, henclosing⟩ := List.cons.inj hframes
  obtain ⟨innermost, enclosing⟩ := scopes
  obtain ⟨innermost', enclosing'⟩ := updated
  cases hinnermost
  cases henclosing
  exact hset

/-- The frames further in than the one in which a name is found do not bind it. -/
theorem isGreatest_of_findIn (h : findIn name frames = some index) :
    IsGreatest {index | (valueIn index name frames).isSome} index := by
  induction frames with
  | nil => cases h
  | cons frame outer ih =>
      rw [findIn] at h
      split at h
      · rename_i hbinds
        cases h
        refine ⟨by rwa [Set.mem_ofPred_eq, valueIn, if_pos rfl], fun other hother => ?_⟩
        by_contra hlt
        have habsent : valueIn other name (frame :: outer) = none :=
          valueIn_of_length_le (Nat.lt_of_not_le hlt)
        rw [Set.mem_ofPred_eq, habsent] at hother
        cases hother
      · rename_i hbinds
        obtain ⟨hmem, hupper⟩ := ih h
        refine ⟨?_, fun other hother => ?_⟩
        · rwa [Set.mem_ofPred_eq, valueIn_cons_of_lt frame (findIn_lt h)]
        · rw [Set.mem_ofPred_eq, valueIn] at hother
          split at hother
          · exact absurd hother hbinds
          · exact hupper hother

theorem findIn_ne_none_of_isSome (h : (valueIn index name frames).isSome) :
    findIn name frames ≠ none := by
  induction frames with
  | nil => cases h
  | cons frame outer ih =>
      rw [findIn]
      rw [valueIn] at h
      split
      · exact Option.some_ne_none _
      · rename_i hbinds
        split at h
        · exact absurd h hbinds
        · exact ih h

theorem findIn_eq_some_iff : findIn name frames = some index ↔
    IsGreatest {index | (valueIn index name frames).isSome} index := by
  refine ⟨isGreatest_of_findIn, fun h => ?_⟩
  obtain ⟨found, hfind⟩ := Option.ne_none_iff_exists'.1 (findIn_ne_none_of_isSome h.1)
  rw [hfind, (isGreatest_of_findIn hfind).unique h]

theorem findIn_eq_none_iff :
    findIn name frames = none ↔ ∀ index, ¬ (valueIn index name frames).isSome := by
  constructor
  · exact fun hnone index hsome => findIn_ne_none_of_isSome hsome hnone
  · intro h
    cases hfind : findIn name frames with
    | none => rfl
    | some index => exact absurd (isGreatest_of_findIn hfind).1 (h index)

theorem findSome?_eq_bind_findIn (frames : List Frame) (name : String) :
    frames.findSome? (·.get? name) =
      (findIn name frames).bind fun index => valueIn index name frames := by
  induction frames with
  | nil => rfl
  | cons frame outer ih =>
      rw [List.findSome?_cons, findIn, Frame.binds]
      cases hframe : frame.get? name with
      | some value => simp [valueIn, hframe]
      | none =>
          simp only [Option.isSome_none, Bool.false_eq_true, if_false]
          rw [ih]
          refine Option.bind_congr fun index hfind => ?_
          rw [valueIn_cons_of_lt frame (findIn_lt hfind)]

theorem get?_eq_none_iff (scopes : Scopes) (name : String) :
    scopes.get? name = none ↔ scopes.find? name = none := by
  rw [get?, findSome?_eq_bind_findIn, Option.bind_eq_none_iff, find?]
  constructor
  · intro h
    cases hfind : findIn name scopes.frames with
    | none => rfl
    | some index =>
        have hsome := (isGreatest_of_findIn hfind).1
        rw [Set.mem_ofPred_eq, h index hfind] at hsome
        cases hsome
  · intro h index hfind
    rw [h] at hfind
    cases hfind

theorem innermostBinds_iff (scopes : Scopes) (name : String) :
    scopes.innermostBinds name = true ↔ scopes.find? name = some (scopes.depth - 1) := by
  rw [innermostBinds, find?, frames, depth, Nat.add_sub_cancel]
  constructor
  · intro h
    rw [findIn, if_pos h]
  · intro h
    have hsome := (isGreatest_of_findIn h).1
    rwa [Set.mem_ofPred_eq, valueIn, if_pos rfl] at hsome

end Script.Scopes

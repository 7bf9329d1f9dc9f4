import Script.Proofs.Scopes
/-!
# Empty frames between others

An empty frame binds nothing.  Putting some into a stack of frames moves the frames around them, and
the values of all names stay.  Bindings that are made in both stacks, each in the frame where it
stands there, keep the stacks like that.
-/

namespace Script

/-- Frames with empty frames between them.  The list tells for each frame of the second stack
whether it has been put in. -/
inductive Padding : (pads : List Bool) → (frames others : List Frame) → Prop
  | nil : Padding [] [] []
  | frame {pads : List Bool} {frames others : List Frame} (frame : Frame)
      (h : Padding pads frames others) : Padding (false :: pads) (frame :: frames) (frame :: others)
  | pad {pads : List Bool} {frames others : List Frame} (h : Padding pads frames others) :
      Padding (true :: pads) frames (.empty :: others)

/-- The index that a frame has when empty frames have been put in. -/
def shift : (pads : List Bool) → (index : Nat) → Nat
  | [], _ => 0
  | false :: pads, index => if index = pads.count false then pads.length else shift pads index
  | true :: pads, index => shift pads index

theorem shift_lt {pads : List Bool} {index : Nat} (lt : index < pads.count false) :
    shift pads index < pads.length := by
  induction pads with
  | nil => exact absurd lt (Nat.not_lt_zero _)
  | cons isPad pads ih =>
      rw [List.length_cons]
      cases isPad with
      | true =>
          rw [List.count_cons_of_ne (by decide)] at lt
          exact Nat.lt_succ_of_lt (ih lt)
      | false =>
          rw [List.count_cons_self] at lt
          rw [shift]
          split
          · omega
          · exact Nat.lt_succ_of_lt (ih (by omega))

namespace Padding

variable {pads : List Bool} {frames others : List Frame}

theorem length_frames (h : Padding pads frames others) : frames.length = pads.count false := by
  induction h with
  | nil => rfl
  | frame frame _ ih => rw [List.length_cons, ih, List.count_cons_self]
  | pad _ ih => rw [ih, List.count_cons_of_ne (by decide)]

theorem length_others (h : Padding pads frames others) : others.length = pads.length := by
  induction h with
  | nil => rfl
  | frame frame _ ih => rw [List.length_cons, ih, List.length_cons]
  | pad _ ih => rw [List.length_cons, ih, List.length_cons]

theorem ne_nil (h : Padding pads frames others) (hne : frames ≠ []) : others ≠ [] := by
  cases h with
  | nil => exact hne
  | frame => exact List.cons_ne_nil _ _
  | pad => exact List.cons_ne_nil _ _

theorem eq_of_forall (h : Padding pads frames others) (none : ∀ isPad ∈ pads, isPad = false) :
    others = frames := by
  induction h with
  | nil => rfl
  | frame frame _ ih => rw [ih (List.forall_mem_cons.1 none).2]
  | pad => cases (List.forall_mem_cons.1 none).1

theorem refl (frames : List Frame) : Padding (frames.map fun _ => false) frames frames := by
  induction frames with
  | nil => exact .nil
  | cons frame others ih => exact .frame frame ih

theorem findSome?_eq (h : Padding pads frames others) (name : String) :
    others.findSome? (·.get? name) = frames.findSome? (·.get? name) := by
  induction h with
  | nil => rfl
  | frame frame _ ih => rw [List.findSome?_cons, List.findSome?_cons, ih]
  | pad _ ih => rw [List.findSome?_cons, Frame.get?_empty, ih]

theorem findIn_eq (h : Padding pads frames others) (name : String) :
    Scopes.findIn name others = (Scopes.findIn name frames).map (shift pads) := by
  induction h with
  | nil => rfl
  | @frame pads frames others frame h ih =>
      rw [Scopes.findIn, Scopes.findIn]
      split
      · rw [Option.map_some, shift, if_pos h.length_frames, h.length_others]
      · rw [ih]
        cases hfind : Scopes.findIn name frames with
        | none => rfl
        | some index =>
            have lt := Scopes.findIn_lt hfind
            rw [h.length_frames] at lt
            rw [Option.map_some, Option.map_some, shift, if_neg (Nat.ne_of_lt lt)]
  | pad _ ih => exact ih

theorem rebindIn (h : Padding pads frames others) {index : Nat} (lt : index < frames.length)
    (name : String) (value : Value) :
    Padding pads (Scopes.rebindIn index name value frames)
      (Scopes.rebindIn (shift pads index) name value others) := by
  induction h with
  | nil => exact .nil
  | @frame pads frames others frame h ih =>
      rw [List.length_cons] at lt
      rw [Scopes.rebindIn, Scopes.rebindIn, shift, ← h.length_frames]
      by_cases hindex : index = frames.length
      · rw [if_pos hindex, if_pos hindex, if_pos h.length_others.symm]
        exact .frame _ h
      · have hlt : shift pads index < others.length := by
          rw [h.length_others]
          exact shift_lt (by rw [← h.length_frames]; omega)
        rw [if_neg hindex, if_neg hindex, if_neg (Nat.ne_of_lt hlt)]
        exact .frame _ (ih (by omega))
  | @pad pads frames others h ih =>
      have hlt : shift pads index < others.length := by
        rw [h.length_others]
        exact shift_lt (by rw [← h.length_frames]; omega)
      rw [Scopes.rebindIn, shift, if_neg (Nat.ne_of_lt hlt)]
      exact .pad (ih lt)

theorem frame_iff {frame frame' : Frame} :
    Padding (false :: pads) (frame :: frames) (frame' :: others) ↔
      frame' = frame ∧ Padding pads frames others := by
  constructor
  · rintro ⟨⟩
    exact ⟨rfl, ‹_›⟩
  · rintro ⟨rfl, h⟩
    exact .frame _ h

theorem pad_iff {frame : Frame} :
    Padding (true :: pads) frames (frame :: others) ↔
      frame = .empty ∧ Padding pads frames others := by
  constructor
  · rintro ⟨⟩
    exact ⟨rfl, ‹_›⟩
  · rintro ⟨rfl, h⟩
    exact .pad h

end Padding

theorem Scopes.eq_of_frames_eq {scopes others : Scopes} (h : scopes.frames = others.frames) :
    scopes = others := by
  obtain ⟨innermost, enclosing⟩ := scopes
  obtain ⟨innermost', enclosing'⟩ := others
  obtain ⟨rfl, rfl⟩ := List.cons.inj h
  rfl

theorem Scopes.exists_pop? {scopes : Scopes} (hne : scopes.enclosing ≠ []) :
    ∃ outer, scopes.pop? = some outer ∧ outer.frames = scopes.enclosing := by
  obtain ⟨innermost, _ | ⟨frame, enclosing⟩⟩ := scopes
  · exact absurd rfl hne
  · exact ⟨⟨frame, enclosing⟩, rfl, rfl⟩

theorem Scopes.exists_set? {scopes : Scopes} {index : Nat} (lt : index < scopes.depth)
    (name : String) (value : Value) : ∃ updated, scopes.set? index name value = some updated := by
  rw [← Option.ne_none_iff_exists', Ne, Scopes.set?_eq_none_iff]
  exact Nat.not_le_of_lt lt

namespace Padding

variable {pads : List Bool} {scopes others : Scopes}

theorem depth_eq (h : Padding pads scopes.frames others.frames) :
    scopes.depth = pads.count false := by
  rw [← Scopes.length_frames, h.length_frames]

theorem insert (h : Padding (false :: pads) scopes.frames others.frames) (name : String)
    (value : Value) :
    Padding (false :: pads) (scopes.insert name value).frames
      (others.insert name value).frames := by
  obtain ⟨hinnermost, henclosing⟩ := frame_iff.1 h
  exact frame_iff.2 ⟨congrArg (·.insert name value) hinnermost, henclosing⟩

/-- A scope that both stacks have is closed in both. -/
theorem exists_pop? (h : Padding (false :: pads) scopes.frames others.frames)
    (pos : 0 < pads.count false) :
    ∃ outer outer', scopes.pop? = some outer ∧ others.pop? = some outer' ∧
      Padding pads outer.frames outer'.frames := by
  obtain ⟨-, henclosing⟩ := frame_iff.1 h
  have hne : scopes.enclosing ≠ [] := by
    rw [← List.length_pos_iff, henclosing.length_frames]
    exact pos
  obtain ⟨outer, hpop, houter⟩ := Scopes.exists_pop? hne
  obtain ⟨outer', hpop', houter'⟩ := Scopes.exists_pop? (henclosing.ne_nil hne)
  exact ⟨outer, outer', hpop, hpop', by rw [houter, houter']; exact henclosing⟩

/-- A scope that has been put in is closed in the second stack only. -/
theorem exists_pop?_of_pad (h : Padding (true :: pads) scopes.frames others.frames) :
    ∃ outer, others.pop? = some outer ∧ Padding pads scopes.frames outer.frames := by
  obtain ⟨-, henclosing⟩ := pad_iff.1 h
  obtain ⟨outer, hpop, houter⟩ := Scopes.exists_pop? (henclosing.ne_nil (List.cons_ne_nil _ _))
  exact ⟨outer, hpop, by rw [houter]; exact henclosing⟩

theorem exists_set? (h : Padding pads scopes.frames others.frames) {index : Nat}
    (lt : index < pads.count false) (name : String) (value : Value) :
    ∃ updated updated', scopes.set? index name value = some updated ∧
      others.set? (shift pads index) name value = some updated' ∧
      Padding pads updated.frames updated'.frames := by
  obtain ⟨updated, hset⟩ := Scopes.exists_set? (h.depth_eq ▸ lt) name value
  have hlt : shift pads index < others.depth := by
    rw [← Scopes.length_frames, h.length_others]
    exact shift_lt lt
  obtain ⟨updated', hset'⟩ := Scopes.exists_set? hlt name value
  refine ⟨updated, updated', hset, hset', ?_⟩
  rw [Scopes.frames_set? hset, Scopes.frames_set? hset']
  exact h.rebindIn (by rw [h.length_frames]; exact lt) name value

end Padding

end Script

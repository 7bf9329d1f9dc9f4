import Mathlib.Data.List.Forall2
import Script.Scopes
/-!
# What changes leave alone in scopes

Binding a variable in the innermost frame may add a name there, and rebinding one adds no name at
all.  Either way the values of other names stay, and so does everything in the other frames.
-/

namespace Script

namespace Frame

def names (frame : Frame) : List String := frame.bindings.map Prod.fst

theorem names_update (name : String) (value : Value) (bindings : List (String × Value)) :
    (update name value bindings).map Prod.fst =
      if (bindings.lookup name).isSome then bindings.map Prod.fst
      else bindings.map Prod.fst ++ [name] := by
  induction bindings with
  | nil => rfl
  | cons binding rest ih =>
      obtain ⟨bound, old⟩ := binding
      by_cases hname : bound = name
      · simp [update, hname]
      · simp only [update, lookup_cons_eq_ite, if_neg hname, List.map_cons, ih]
        split <;> rfl

theorem names_insert (frame : Frame) (name : String) (value : Value) :
    (frame.insert name value).names =
      if frame.binds name then frame.names else frame.names ++ [name] :=
  names_update name value frame.bindings

theorem names_rebind (frame : Frame) (name : String) (value : Value) :
    (frame.rebind name value).names = frame.names := by
  unfold rebind
  split
  · rename_i hbinds
    rw [names_insert, if_pos hbinds]
  · rfl

theorem lookup_eq_none_iff {name : String} {bindings : List (String × Value)} :
    bindings.lookup name = none ↔ ∀ binding ∈ bindings, binding.1 ≠ name := by
  simp only [List.lookup_eq_none_iff, bne_iff_ne, ne_comm]

/-- A name that is not bound yet is bound after all others. -/
theorem update_of_lookup_eq_none {name : String} {bindings : List (String × Value)}
    (h : bindings.lookup name = none) (value : Value) :
    update name value bindings = bindings ++ [(name, value)] := by
  induction bindings with
  | nil => rfl
  | cons binding rest ih =>
      obtain ⟨bound, old⟩ := binding
      rw [lookup_cons_eq_ite] at h
      split at h
      · cases h
      · rename_i hname
        rw [update, if_neg hname, ih h, List.cons_append]

/-- A name that is bound already gets its new value in its old place. -/
theorem exists_update_eq {name : String} {bindings : List (String × Value)}
    (h : bindings.lookup name ≠ none) (value : Value) :
    ∃ first old rest, bindings = first ++ (name, old) :: rest ∧
      (∀ binding ∈ first, binding.1 ≠ name) ∧
        update name value bindings = first ++ (name, value) :: rest := by
  induction bindings with
  | nil => exact absurd rfl h
  | cons binding rest ih =>
      obtain ⟨bound, old⟩ := binding
      by_cases hname : bound = name
      · subst hname
        refine ⟨[], old, rest, rfl, by simp, ?_⟩
        rw [update, if_pos rfl, List.nil_append]
      · rw [lookup_cons_eq_ite, if_neg hname] at h
        obtain ⟨first, found, others, rfl, hfirst, hupdate⟩ := ih h
        refine ⟨(bound, old) :: first, found, others, rfl, ?_, ?_⟩
        · exact List.forall_mem_cons.2 ⟨hname, hfirst⟩
        · rw [update, if_neg hname, hupdate, List.cons_append]

theorem names_isPrefix_insert (frame : Frame) (name : String) (value : Value) :
    frame.names <+: (frame.insert name value).names := by
  rw [names_insert]
  split
  · exact List.prefix_rfl
  · exact List.prefix_append _ _

/-- Whether a frame has become another one with the same names, of which only those among `targets`
may have another value. -/
structure Keeps (targets : List String) (before after : Frame) : Prop where
  names : after.names = before.names
  values : ∀ name ∉ targets, after.get? name = before.get? name

theorem Keeps.refl (targets : List String) (frame : Frame) : frame.Keeps targets frame :=
  ⟨rfl, fun _ _ => rfl⟩

theorem Keeps.trans {targets : List String} {before middle after : Frame}
    (first : before.Keeps targets middle) (second : middle.Keeps targets after) :
    before.Keeps targets after where
  names := second.names.trans first.names
  values name other := (second.values name other).trans (first.values name other)

theorem keeps_rebind {targets : List String} {name : String} (mem : name ∈ targets) (frame : Frame)
    (value : Value) : frame.Keeps targets (frame.rebind name value) where
  names := names_rebind frame name value
  values other hother := by
    have hne : name ≠ other := fun h => hother (h ▸ mem)
    rw [get?_rebind, if_neg (fun h => hne h.1)]

end Frame

namespace Scopes

/-- Whether scopes have become others by changes to the variables among `targets`.  There are as
many frames as before, and the same names in each, except that the innermost frame may have more. -/
structure Keeps (targets : List String) (before after : Scopes) : Prop where
  names : before.innermost.names <+: after.innermost.names
  values : ∀ name ∉ targets, after.innermost.get? name = before.innermost.get? name
  enclosing : List.Forall₂ (Frame.Keeps targets) before.enclosing after.enclosing

theorem keeps_frames_refl (targets : List String) (frames : List Frame) :
    List.Forall₂ (Frame.Keeps targets) frames frames :=
  List.forall₂_same.2 fun frame _ => .refl targets frame

theorem keeps_frames_trans {targets : List String} {before middle after : List Frame}
    (first : List.Forall₂ (Frame.Keeps targets) before middle)
    (second : List.Forall₂ (Frame.Keeps targets) middle after) :
    List.Forall₂ (Frame.Keeps targets) before after := by
  induction first generalizing after with
  | nil => exact second
  | cons hframe _ ih =>
      obtain ⟨frame, others, hnext, hothers, rfl⟩ := List.forall₂_cons_left_iff.1 second
      exact .cons (hframe.trans hnext) (ih hothers)

theorem keeps_rebindIn {targets : List String} {name : String} (mem : name ∈ targets) (index : Nat)
    (value : Value) (frames : List Frame) :
    List.Forall₂ (Frame.Keeps targets) frames (rebindIn index name value frames) := by
  induction frames with
  | nil => exact .nil
  | cons frame outer ih =>
      unfold rebindIn
      split
      · exact .cons (Frame.keeps_rebind mem frame value) (keeps_frames_refl targets outer)
      · exact .cons (.refl targets frame) ih

namespace Keeps

variable {targets : List String} {before middle after : Scopes}

theorem refl (targets : List String) (scopes : Scopes) : scopes.Keeps targets scopes :=
  ⟨List.prefix_rfl, fun _ _ => rfl, keeps_frames_refl targets _⟩

theorem trans (first : before.Keeps targets middle) (second : middle.Keeps targets after) :
    before.Keeps targets after where
  names := first.names.trans second.names
  values name other := (second.values name other).trans (first.values name other)
  enclosing := keeps_frames_trans first.enclosing second.enclosing

theorem depth_eq (h : before.Keeps targets after) : after.depth = before.depth := by
  rw [depth, depth, h.enclosing.length_eq]

end Keeps

theorem keeps_insert {targets : List String} {name : String} (mem : name ∈ targets)
    (scopes : Scopes) (value : Value) : scopes.Keeps targets (scopes.insert name value) where
  names := Frame.names_isPrefix_insert scopes.innermost name value
  values other hother := by
    have hne : name ≠ other := fun h => hother (h ▸ mem)
    rw [insert, Frame.get?_insert, if_neg hne]
  enclosing := keeps_frames_refl targets scopes.enclosing

theorem keeps_set? {targets : List String} {name : String} (mem : name ∈ targets)
    {scopes updated : Scopes} {index : Nat} {value : Value}
    (h : scopes.set? index name value = some updated) : scopes.Keeps targets updated := by
  unfold set? at h
  split at h
  · cases h
    have hframe := Frame.keeps_rebind mem scopes.innermost value
    have hnames : scopes.innermost.names <+: (scopes.innermost.rebind name value).names :=
      hframe.names ▸ List.prefix_rfl
    exact ⟨hnames, hframe.values, keeps_frames_refl targets _⟩
  · split at h
    · cases h
      exact ⟨List.prefix_rfl, fun _ _ => rfl, keeps_rebindIn mem index value scopes.enclosing⟩
    · cases h

/-- A frame that is opened can be closed again, whatever has happened inside of it, and the frames
outside of it have the names that they had before. -/
theorem Keeps.exists_pop? {targets : List String} {scopes after : Scopes}
    (h : scopes.push.Keeps targets after) :
    ∃ outer, after.pop? = some outer ∧ scopes.Keeps targets outer := by
  obtain ⟨frame, others, hframe, hothers, heq⟩ := List.forall₂_cons_left_iff.1 h.enclosing
  have hpop : after.pop? = some ⟨frame, others⟩ := by rw [pop?, heq]
  have hnames : scopes.innermost.names <+: frame.names := hframe.names ▸ List.prefix_rfl
  exact ⟨⟨frame, others⟩, hpop, hnames, hframe.values, hothers⟩

theorem findIn_lt {name : String} {frames : List Frame} {index : Nat}
    (h : findIn name frames = some index) : index < frames.length := by
  induction frames with
  | nil => cases h
  | cons frame outer ih =>
      rw [findIn] at h
      rw [List.length_cons]
      split at h
      · cases h
        omega
      · have := ih h
        omega

theorem exists_eq_append_of_findIn {name : String} {frames : List Frame} {index : Nat}
    (h : findIn name frames = some index) :
    ∃ inner frame outer, frames = inner ++ frame :: outer ∧
      (∀ other ∈ inner, other.binds name = false) ∧ frame.binds name = true ∧
        index = outer.length := by
  induction frames with
  | nil => cases h
  | cons frame outer ih =>
      rw [findIn] at h
      split at h
      · rename_i hbinds
        cases h
        exact ⟨[], frame, outer, rfl, by simp, hbinds, rfl⟩
      · rename_i hbinds
        obtain ⟨inner, found, others, rfl, hinner, hfound, hindex⟩ := ih h
        refine ⟨frame :: inner, found, others, rfl, ?_, hfound, hindex⟩
        exact List.forall_mem_cons.2 ⟨Bool.eq_false_iff.2 hbinds, hinner⟩

theorem rebindIn_append (name : String) (value : Value) (inner : List Frame) (frame : Frame)
    (outer : List Frame) :
    rebindIn outer.length name value (inner ++ frame :: outer) =
      inner ++ frame.rebind name value :: outer := by
  induction inner with
  | nil => rw [List.nil_append, rebindIn, if_pos rfl, List.nil_append]
  | cons first others ih =>
      have hne : outer.length ≠ (others ++ frame :: outer).length := by
        rw [List.length_append, List.length_cons]
        omega
      rw [List.cons_append, rebindIn, if_neg hne, ih, List.cons_append]

theorem find?_lt {scopes : Scopes} {name : String} {index : Nat}
    (h : scopes.find? name = some index) : index < scopes.depth := by
  rw [← length_frames]
  exact findIn_lt h

end Scopes

end Script

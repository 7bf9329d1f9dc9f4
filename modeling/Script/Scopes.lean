import Script.Value
/-!
# The scope stack

A frame binds names to values.  Scopes are a stack of frames of which the innermost one is at
hand; the outermost one is the global frame and can not be popped, so a stack is never empty.
Frames are addressed by their distance from the global frame, which has index 0.
-/

namespace Script

/-- The names bound in one scope, in the order in which they were bound first. -/
structure Frame where
  bindings : List (String × Value)
deriving DecidableEq

namespace Frame

def empty : Frame := ⟨[]⟩

/-- The bindings with `name` bound to `value`: an older binding of `name` keeps its place. -/
def update (name : String) (value : Value) : List (String × Value) → List (String × Value)
  | [] => [(name, value)]
  | (bound, old) :: rest =>
    if bound = name then (bound, value) :: rest else (bound, old) :: update name value rest

def get? (frame : Frame) (name : String) : Option Value := frame.bindings.lookup name

def binds (frame : Frame) (name : String) : Bool := (frame.get? name).isSome

def insert (frame : Frame) (name : String) (value : Value) : Frame :=
  ⟨update name value frame.bindings⟩

/-- Gives a bound name a new value, and leaves the frame alone if the name is not bound. -/
def rebind (frame : Frame) (name : String) (value : Value) : Frame :=
  if frame.binds name then frame.insert name value else frame

@[simp] theorem get?_empty (name : String) : empty.get? name = none := rfl

theorem lookup_cons_eq_ite (name bound : String) (value : Value) (rest : List (String × Value)) :
    List.lookup name ((bound, value) :: rest) =
      if bound = name then some value else rest.lookup name := by
  by_cases h : bound = name
  · rw [h, List.lookup_cons_self, if_pos rfl]
  · rw [if_neg h, List.lookup_cons, beq_false_of_ne (Ne.symm h)]

theorem lookup_update (name other : String) (value : Value) (bindings : List (String × Value)) :
    (update name value bindings).lookup other =
      if name = other then some value else bindings.lookup other := by
  induction bindings with
  | nil => rw [update, lookup_cons_eq_ite]
  | cons binding rest ih =>
    obtain ⟨bound, old⟩ := binding
    by_cases hname : bound = name
    · subst hname
      by_cases hother : bound = other <;> simp [update, lookup_cons_eq_ite, hother]
    · by_cases hother : bound = other
      · subst hother
        simp [update, hname, Ne.symm hname]
      · simp [update, lookup_cons_eq_ite, hname, hother, ih]

theorem get?_insert (frame : Frame) (name other : String) (value : Value) :
    (frame.insert name value).get? other =
      if name = other then some value else frame.get? other :=
  lookup_update name other value frame.bindings

@[simp] theorem get?_insert_self (frame : Frame) (name : String) (value : Value) :
    (frame.insert name value).get? name = some value := by
  simp [get?_insert]

theorem get?_rebind (frame : Frame) (name other : String) (value : Value) :
    (frame.rebind name value).get? other =
      if name = other ∧ frame.binds name = true then some value else frame.get? other := by
  unfold rebind
  split <;> simp_all [get?_insert]

end Frame

structure Scopes where
  innermost : Frame
  enclosing : List Frame
deriving DecidableEq

namespace Scopes

def fresh : Scopes := ⟨.empty, []⟩

def frames (scopes : Scopes) : List Frame := scopes.innermost :: scopes.enclosing

def depth (scopes : Scopes) : Nat := scopes.enclosing.length + 1

def push (scopes : Scopes) : Scopes := ⟨.empty, scopes.frames⟩

/-- Closes the innermost frame, unless it is the global one. -/
def pop? (scopes : Scopes) : Option Scopes :=
  match scopes.enclosing with
  | [] => none
  | frame :: rest => some ⟨frame, rest⟩

/-- The index of the first frame of `frames` that binds `name`, where the last one has index 0. -/
def findIn (name : String) : List Frame → Option Nat
  | [] => none
  | frame :: outer => if frame.binds name then some outer.length else findIn name outer

def find? (scopes : Scopes) (name : String) : Option Nat := findIn name scopes.frames

def get? (scopes : Scopes) (name : String) : Option Value :=
  scopes.frames.findSome? (·.get? name)

def innermostBinds (scopes : Scopes) (name : String) : Bool := scopes.innermost.binds name

def insert (scopes : Scopes) (name : String) (value : Value) : Scopes :=
  { scopes with innermost := scopes.innermost.insert name value }

/-- Rebinds `name` in the frame with the given index, where the last frame has index 0. -/
def rebindIn (index : Nat) (name : String) (value : Value) : List Frame → List Frame
  | [] => []
  | frame :: outer =>
    if index = outer.length then frame.rebind name value :: outer
    else frame :: rebindIn index name value outer

/-- Gives `name` a new value in the frame with the given index.  A frame that does not bind the
name stays as it is.  There is no result if the stack has no such frame. -/
def set? (scopes : Scopes) (index : Nat) (name : String) (value : Value) : Option Scopes :=
  if index = scopes.enclosing.length then
    some { scopes with innermost := scopes.innermost.rebind name value }
  else if index < scopes.enclosing.length then
    some { scopes with enclosing := rebindIn index name value scopes.enclosing }
  else none

@[simp] theorem depth_fresh : fresh.depth = 1 := rfl

@[simp] theorem frames_push (scopes : Scopes) : scopes.push.frames = .empty :: scopes.frames := rfl

@[simp] theorem depth_push (scopes : Scopes) : scopes.push.depth = scopes.depth + 1 := rfl

@[simp] theorem pop?_push (scopes : Scopes) : scopes.push.pop? = some scopes := rfl

theorem pop?_eq_none_iff (scopes : Scopes) : scopes.pop? = none ↔ scopes.depth = 1 := by
  rcases scopes with ⟨innermost, _ | ⟨frame, rest⟩⟩ <;> simp [pop?, depth]

@[simp] theorem length_frames (scopes : Scopes) : scopes.frames.length = scopes.depth := by
  simp [frames, depth]

@[simp] theorem length_rebindIn (index : Nat) (name : String) (value : Value)
    (frames : List Frame) : (rebindIn index name value frames).length = frames.length := by
  induction frames with
  | nil => rfl
  | cons frame outer ih =>
    unfold rebindIn
    split <;> simp [ih]

theorem set?_eq_none_iff (scopes : Scopes) (index : Nat) (name : String) (value : Value) :
    scopes.set? index name value = none ↔ scopes.depth ≤ index := by
  unfold set? depth
  split
  · simp; omega
  · split <;> simp <;> omega

theorem frames_set? {scopes updated : Scopes} {index : Nat} {name : String} {value : Value}
    (h : scopes.set? index name value = some updated) :
    updated.frames = rebindIn index name value scopes.frames := by
  unfold set? at h
  split at h
  · cases h
    simp_all [frames, rebindIn]
  · split at h
    · cases h
      simp_all [frames, rebindIn]
    · cases h

@[simp] theorem get?_insert_self (scopes : Scopes) (name : String) (value : Value) :
    (scopes.insert name value).get? name = some value := by
  simp [get?, insert, frames]

theorem get?_insert_of_ne (scopes : Scopes) {name other : String} (value : Value)
    (h : name ≠ other) : (scopes.insert name value).get? other = scopes.get? other := by
  simp [get?, insert, frames, List.findSome?_cons, Frame.get?_insert, h]

end Scopes

end Script

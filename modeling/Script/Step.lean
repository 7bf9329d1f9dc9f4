/-!
# Steps

A step works on a state.  It ends with a result or stops early for a reason, and there is a state
in both cases.  Reading programs, evaluating them and writing output are made of steps; the
statements below say what sequences of steps do to a state.
-/

namespace Script

/-- A step with a result of type `α` on states of type `σ`, which may stop for a reason of type
`ε`. -/
abbrev Step (ε σ α : Type) := EStateM ε σ α

namespace Step

variable {ε σ α β : Type}

@[simp] theorem pure_apply (a : α) (state : σ) : (pure a : Step ε σ α) state = .ok a state := rfl

@[simp] theorem bind_apply (first : Step ε σ α) (next : α → Step ε σ β) (state : σ) :
    (first >>= next) state =
      match first state with
      | .ok a after => next a after
      | .error reason after => .error reason after := by
  change EStateM.bind first next state = _
  unfold EStateM.bind
  cases first state <;> rfl

@[simp] theorem map_apply (f : α → β) (step : Step ε σ α) (state : σ) :
    (f <$> step) state =
      match step state with
      | .ok a after => .ok (f a) after
      | .error reason after => .error reason after := by
  change EStateM.map f step state = _
  unfold EStateM.map
  cases step state <;> rfl

@[simp] theorem throw_apply (reason : ε) (state : σ) :
    (throw reason : Step ε σ α) state = .error reason state := rfl

@[simp] theorem get_apply (state : σ) : (get : Step ε σ σ) state = .ok state state := rfl

@[simp] theorem set_apply (after state : σ) : (set after : Step ε σ PUnit) state = .ok ⟨⟩ after :=
  rfl

@[simp] theorem modify_apply (f : σ → σ) (state : σ) :
    (modify f : Step ε σ PUnit) state = .ok ⟨⟩ (f state) := rfl

theorem bind_eq_ok_iff (first : Step ε σ α) {next : α → Step ε σ β} {state after : σ} {b : β} :
    (first >>= next) state = .ok b after ↔
      ∃ a middle, first state = .ok a middle ∧ next a middle = .ok b after := by
  rw [bind_apply]
  cases first state with
  | ok a middle => simp [and_assoc]
  | error reason middle => simp

theorem bind_eq_error_iff (first : Step ε σ α) {next : α → Step ε σ β} {state after : σ}
    {reason : ε} :
    (first >>= next) state = .error reason after ↔
      first state = .error reason after ∨
        ∃ a middle, first state = .ok a middle ∧ next a middle = .error reason after := by
  rw [bind_apply]
  cases first state with
  | ok a middle => simp [and_assoc]
  | error reason middle => simp

theorem pure_eq_ok_iff {a b : α} {state after : σ} :
    (pure a : Step ε σ α) state = .ok b after ↔ a = b ∧ state = after := by
  rw [pure_apply, EStateM.Result.ok.injEq]

theorem get_bind (next : σ → Step ε σ β) (state : σ) :
    ((get : Step ε σ σ) >>= next) state = next state state := rfl

end Step

end Script

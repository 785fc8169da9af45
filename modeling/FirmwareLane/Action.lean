/-!
# Actions

An action changes a state and may fail; what it did before the failure stays done.  `perform` says
what an action makes of a state, and its lemmas let a proof go through an action step by step.
-/

set_option autoImplicit false
namespace FirmwareLane

/-- A change of a state that may fail; what was done before the failure stays. -/
abbrev Action (σ ε α : Type) := ExceptT ε (StateM σ) α

namespace Action

variable {σ ε ε' α β : Type}

/-- The result of an action, and the state that it leaves. -/
def perform (action : Action σ ε α) (s : σ) : Except ε α × σ := (action.run).run s

/-! ## Actions step by step -/

@[simp] theorem perform_pure (a : α) (s : σ) :
    perform (pure a : Action σ ε α) s = (.ok a, s) := rfl

@[simp] theorem perform_throw (e : ε) (s : σ) :
    perform (throw e : Action σ ε α) s = (.error e, s) := rfl

@[simp] theorem perform_get (s : σ) : perform (get : Action σ ε σ) s = (.ok s, s) := rfl

@[simp] theorem perform_set (s t : σ) : perform (set t : Action σ ε PUnit) s = (.ok ⟨⟩, t) := rfl

@[simp] theorem perform_modify (f : σ → σ) (s : σ) :
    perform (modify f : Action σ ε PUnit) s = (.ok ⟨⟩, f s) := rfl

/-- **The second action begins where the first one ends, unless that fails.** -/
theorem perform_bind (first : Action σ ε α) (next : α → Action σ ε β) (s : σ) :
    perform (first >>= next) s =
      match perform first s with
      | (.ok a, t) => perform (next a) t
      | (.error e, t) => (.error e, t) := by
  simp only [perform, ExceptT.run_bind, StateT.run_bind]
  rcases StateT.run (ExceptT.run first) s with ⟨_ | a, t⟩ <;> rfl

theorem perform_bind_ok {first : Action σ ε α} {a : α} {s t : σ}
    (h : perform first s = (.ok a, t)) (next : α → Action σ ε β) :
    perform (first >>= next) s = perform (next a) t := by
  rw [perform_bind, h]

theorem perform_bind_error {first : Action σ ε α} {e : ε} {s t : σ}
    (h : perform first s = (.error e, t)) (next : α → Action σ ε β) :
    perform (first >>= next) s = (.error e, t) := by
  rw [perform_bind, h]

theorem perform_forM_cons (act : α → Action σ ε PUnit) (x : α) (xs : List α) (s : σ) :
    perform ((x :: xs).forM act) s = perform (act x >>= fun _ ↦ xs.forM act) s := rfl

theorem perform_map (f : α → β) (action : Action σ ε α) (s : σ) :
    perform (f <$> action) s = ((perform action s).1.map f, (perform action s).2) := by
  rw [← bind_pure_comp, perform_bind]
  rcases perform action s with ⟨_ | a, t⟩ <;> rfl

/-- An action with its failures described in another way does the same. -/
theorem perform_adapt (describe : ε → ε') (action : Action σ ε α) (s : σ) :
    perform (ExceptT.adapt describe action : Action σ ε' α) s =
      ((perform action s).1.mapError describe, (perform action s).2) := rfl

end Action
end FirmwareLane

import Mathlib.Data.List.Forall2

/-!
# Outcomes of computations that may fail

When a computation that is put together from others succeeds, its parts succeed: the lemmas by which
a proof takes an `Except` apart.  Two computations that are put together in the same way are compared
part by part.
-/

set_option autoImplicit false
namespace FirmwareLane
namespace Outcome

variable {ε ε' α β : Type}

/-- Outcomes of decidable results are compared by their results. -/
instance decidableEq [DecidableEq ε] [DecidableEq α] : DecidableEq (Except ε α)
  | .ok a, .ok b => decidable_of_iff (a = b) ⟨congrArg _, Except.ok.inj⟩
  | .error e, .error f => decidable_of_iff (e = f) ⟨congrArg _, Except.error.inj⟩
  | .ok _, .error _ => isFalse nofun
  | .error _, .ok _ => isFalse nofun

theorem ok_bind (a : α) (f : α → Except ε β) : (Except.ok a >>= f) = f a := rfl

theorem toOption_bind (x : Except ε α) (f : α → Except ε β) :
    (x >>= f).toOption = x.toOption.bind fun a ↦ (f a).toOption := by
  cases x <;> rfl

theorem mapError_bind (x : Except ε α) (f : α → Except ε β) (g : ε → ε') :
    (x >>= f).mapError g = x.mapError g >>= fun a ↦ (f a).mapError g := by
  cases x <;> rfl

theorem bind_eq_ok {x : Except ε α} {f : α → Except ε β} {b : β} :
    x >>= f = .ok b ↔ ∃ a, x = .ok a ∧ f a = .ok b := by
  cases x with
  | error e => exact ⟨(nomatch ·), fun ⟨_, h, _⟩ ↦ (nomatch h)⟩
  | ok a => exact ⟨fun h ↦ ⟨a, rfl, h⟩, fun ⟨_, h, hf⟩ ↦ Except.ok.inj h ▸ hf⟩

theorem bind_eq_error {x : Except ε α} {f : α → Except ε β} {e : ε} :
    x >>= f = .error e ↔ x = .error e ∨ ∃ a, x = .ok a ∧ f a = .error e := by
  cases x with
  | error e' =>
    exact ⟨fun h ↦ .inl (congrArg _ (Except.error.inj h)),
      fun h ↦ h.elim (fun h ↦ congrArg _ (Except.error.inj h)) fun ⟨_, h, _⟩ ↦ nomatch h⟩
  | ok a => exact ⟨fun h ↦ .inr ⟨a, rfl, h⟩, fun h ↦ h.elim (nomatch ·) fun ⟨_, h, hf⟩ ↦ by
      cases h; exact hf⟩

theorem pure_eq_ok {a b : α} : (pure a : Except ε α) = .ok b ↔ a = b :=
  ⟨Except.ok.inj, congrArg Except.ok⟩

theorem map_eq_ok {x : Except ε α} {f : α → β} {b : β} :
    x.map f = .ok b ↔ ∃ a, x = .ok a ∧ f a = b := by
  cases x with
  | error e => exact ⟨(nomatch ·), fun ⟨_, h, _⟩ ↦ (nomatch h)⟩
  | ok a => exact ⟨fun h ↦ ⟨a, rfl, Except.ok.inj h⟩, fun ⟨_, h, hf⟩ ↦ by cases h; exact hf ▸ rfl⟩

/-- Of two outcomes that a function does not tell apart, both fail in the same way or both succeed. -/
theorem map_eq_map {x y : Except ε α} {f : α → β} (h : x.map f = y.map f) :
    (∃ e, x = .error e ∧ y = .error e) ∨ ∃ a b, x = .ok a ∧ y = .ok b ∧ f a = f b := by
  cases x with
  | error e =>
    cases y with
    | error e' => exact .inl ⟨e, rfl, congrArg _ (Except.error.inj h).symm⟩
    | ok b => exact nomatch h
  | ok a =>
    cases y with
    | error e' => exact nomatch h
    | ok b => exact .inr ⟨a, b, rfl, rfl, Except.ok.inj h⟩

theorem exists_error_iff {x : Except ε α} : (∃ e, x = .error e) ↔ ¬ ∃ a, x = .ok a := by
  cases x with
  | error e => exact iff_of_true ⟨e, rfl⟩ nofun
  | ok a => exact iff_of_false nofun (not_not_intro ⟨a, rfl⟩)

theorem eq_ok_of_toOption {x : Except ε α} {a : α} (h : x.toOption = some a) : x = .ok a := by
  cases x with
  | error e => exact nomatch h
  | ok b => exact congrArg _ (Option.some.inj h)

theorem mapError_eq_ok {x : Except ε α} {f : ε → ε'} {a : α} :
    x.mapError f = .ok a ↔ x = .ok a := by
  cases x with
  | error e => exact ⟨(nomatch ·), (nomatch ·)⟩
  | ok b => exact ⟨fun h ↦ congrArg Except.ok (Except.ok.inj h),
      fun h ↦ congrArg Except.ok (Except.ok.inj h)⟩

/-- A list of computations succeeds when each of them does. -/
theorem mapM_eq_ok {xs : List α} {f : α → Except ε β} {ys : List β} :
    xs.mapM f = .ok ys ↔ List.Forall₂ (fun x y ↦ f x = .ok y) xs ys := by
  induction xs generalizing ys with
  | nil =>
    rw [List.mapM_nil, pure_eq_ok, List.forall₂_nil_left_iff]
    exact eq_comm
  | cons x rest ih =>
    simp only [List.mapM_cons, bind_eq_ok, pure_eq_ok, List.forall₂_cons_left_iff, ih]
    constructor
    · rintro ⟨y, hy, more, hmore, rfl⟩
      exact ⟨y, more, hy, hmore, rfl⟩
    · rintro ⟨y, more, hy, hmore, rfl⟩
      exact ⟨y, hy, more, hmore, rfl⟩

/-- Where something fails in a list of computations, one of them fails so. -/
theorem exists_of_mapM_eq_error {xs : List α} {f : α → Except ε β} {e : ε}
    (h : xs.mapM f = .error e) : ∃ x ∈ xs, f x = .error e := by
  induction xs with
  | nil => exact nomatch h
  | cons x rest ih =>
    rw [List.mapM_cons] at h
    cases hx : f x with
    | error fault =>
      rw [hx] at h
      exact ⟨x, List.mem_cons_self, hx.trans (congrArg _ (Except.error.inj h))⟩
    | ok y =>
      rw [hx] at h
      cases hrest : rest.mapM f with
      | error fault =>
        rw [hrest] at h
        obtain ⟨x', hx', hfault⟩ := ih (hrest.trans (congrArg _ (Except.error.inj h)))
        exact ⟨x', List.mem_cons_of_mem _ hx', hfault⟩
      | ok ys =>
        rw [hrest] at h
        exact nomatch h

/-- Computations over a list, and the same ones with other errors over a list made from it. -/
theorem mapM_map_eq {γ : Type} {r : α → γ} {f' : γ → Except ε' β} {f : α → Except ε β}
    {g : ε → ε'} (h : ∀ x, f' (r x) = (f x).mapError g) (xs : List α) :
    (xs.map r).mapM f' = (xs.mapM f).mapError g := by
  induction xs with
  | nil => rfl
  | cons x rest ih =>
    rw [List.map_cons, List.mapM_cons, List.mapM_cons, h, ih]
    cases f x with
    | error e => rfl
    | ok b => cases rest.mapM f <;> rfl

/-! ## Two computations side by side -/

/-- Two computations fail alike, or succeed with results that are related. -/
inductive Agree (R : α → β → Prop) : Except ε α → Except ε β → Prop
  | error (e : ε) : Agree R (.error e) (.error e)
  | ok {a : α} {b : β} (h : R a b) : Agree R (.ok a) (.ok b)

theorem Agree.self (x : Except ε α) : Agree Eq x x := by
  cases x with
  | error e => exact .error e
  | ok a => exact .ok rfl

theorem Agree.bind {γ δ : Type} {R : α → β → Prop} {S : γ → δ → Prop} {x : Except ε α}
    {y : Except ε β} {f : α → Except ε γ} {g : β → Except ε δ} (h : Agree R x y)
    (hfg : ∀ a b, R a b → Agree S (f a) (g b)) : Agree S (x >>= f) (y >>= g) := by
  cases h with
  | error e => exact .error e
  | ok hab => exact hfg _ _ hab

/-- Both go on alike from where one computation ends. -/
theorem Agree.bind_self {γ δ : Type} {S : γ → δ → Prop} (x : Except ε α) {f : α → Except ε γ}
    {g : α → Except ε δ} (hfg : ∀ a, Agree S (f a) (g a)) : Agree S (x >>= f) (x >>= g) :=
  (Agree.self x).bind fun a _ h ↦ h ▸ hfg a

/-- Computations over two lists of related elements that end alike on each of them. -/
theorem mapError_mapM_congr {R : α → α → Prop} {f' f : α → Except ε β} {g : ε → ε'}
    (hR : ∀ x' x, R x' x → (f' x').mapError g = (f x).mapError g) {xs' xs : List α}
    (h : List.Forall₂ R xs' xs) : (xs'.mapM f').mapError g = (xs.mapM f).mapError g := by
  induction h with
  | nil => rfl
  | cons hx _ ih =>
    rw [List.mapM_cons, List.mapM_cons]
    simp only [mapError_bind, hR _ _ hx, ih]

end Outcome
end FirmwareLane

/-
Scope guards: what is done when a program is left, in each case or by an exception only. What a guard
itself throws is swallowed.
-/
import Casual.Lib.Triple

namespace Casual.Lib

variable {ε σ α : Type}

/-- A guard that is never released. -/
def onExit (x : EStateM ε σ α) (guard : EStateM ε σ Unit) : EStateM ε σ α := fun s =>
  match x s with
  | .ok a t => .ok a (after (guard t))
  | .error e t => .error e (after (guard t))

/-- A guard that is released at the end. -/
def onError (x : EStateM ε σ α) (guard : EStateM ε σ Unit) : EStateM ε σ α := fun s =>
  match x s with
  | .ok a t => .ok a t
  | .error e t => .error e (after (guard t))

/-- What is left by a program with a guard is what the guard leaves. -/
theorem exists_after_onExit (x : EStateM ε σ α) (guard : EStateM ε σ Unit) (s : σ) :
    ∃ t, after (onExit x guard s) = after (guard t) := by
  unfold onExit
  cases x s with
  | ok a t => exact ⟨t, rfl⟩
  | error e t => exact ⟨t, rfl⟩

namespace Triple

variable {P : σ → Prop} {Q R : α → σ → Prop} {E F : ε → σ → Prop}

theorem onExit {x : EStateM ε σ α} {guard : EStateM ε σ Unit} (hx : Triple P x Q E)
    (hq : ∀ a t, Q a t → R a (Lib.after (guard t))) (he : ∀ e t, E e t → F e (Lib.after (guard t))) :
    Triple P (Lib.onExit x guard) R F := by
  intro s hs
  have h := hx s hs
  unfold Lib.onExit
  cases hxs : x s with
  | ok a t =>
    rw [hxs] at h
    exact hq a t h
  | error e t =>
    rw [hxs] at h
    exact he e t h

theorem onError {x : EStateM ε σ α} {guard : EStateM ε σ Unit} (hx : Triple P x Q E)
    (he : ∀ e t, E e t → F e (Lib.after (guard t))) : Triple P (Lib.onError x guard) Q F := by
  intro s hs
  have h := hx s hs
  unfold Lib.onError
  cases hxs : x s with
  | ok a t =>
    rw [hxs] at h
    exact h
  | error e t =>
    rw [hxs] at h
    exact he e t h

end Triple

namespace Moves

variable {R : σ → σ → Prop} [IsTrans σ R]

theorem onExit {x : EStateM ε σ α} {guard : EStateM ε σ Unit} (hx : Moves R x) (hguard : Moves R guard) :
    Moves R (Lib.onExit x guard) := by
  constructor
  intro s
  have h := hx.after s
  unfold Lib.onExit
  cases hxs : x s with
  | ok a t =>
    rw [hxs] at h
    exact IsTrans.trans _ _ _ h (hguard.after t)
  | error e t =>
    rw [hxs] at h
    exact IsTrans.trans _ _ _ h (hguard.after t)

theorem onError {x : EStateM ε σ α} {guard : EStateM ε σ Unit} (hx : Moves R x) (hguard : Moves R guard) :
    Moves R (Lib.onError x guard) := by
  constructor
  intro s
  have h := hx.after s
  unfold Lib.onError
  cases hxs : x s with
  | ok a t =>
    rw [hxs] at h
    exact h
  | error e t =>
    rw [hxs] at h
    exact IsTrans.trans _ _ _ h (hguard.after t)

omit [IsTrans σ R] in
/-- A program that moves along a relation keeps what goes along with it. -/
theorem triple {x : EStateM ε σ α} (hx : Moves R x) {P : σ → Prop} (hP : ∀ t, P t → ∀ u, R t u → P u) :
    Triple P x (fun _ => P) (fun _ => P) := by
  intro t ht
  have h := hx.after t
  cases hxt : x t with
  | ok a u =>
    rw [hxt] at h
    exact hP t ht u h
  | error e u =>
    rw [hxt] at h
    exact hP t ht u h

end Moves

namespace Projects

variable {τ : Type} {f : σ → τ}

/-- Seen through a part of the state, a guard is the guard that is seen. -/
theorem after_guard {guard : EStateM ε σ Unit} {guard' : EStateM ε τ Unit} (h : Projects f guard guard') (s : σ) :
    f (after (guard s)) = after (guard' (f s)) := by
  rw [← h.run s]
  cases guard s <;> rfl

theorem onExit {x : EStateM ε σ α} {y : EStateM ε τ α} {guard : EStateM ε σ Unit} {guard' : EStateM ε τ Unit}
    (hx : Projects f x y) (hguard : Projects f guard guard') :
    Projects f (Lib.onExit x guard) (Lib.onExit y guard') := by
  constructor
  intro s
  have hs := hx.run s
  unfold Lib.onExit
  rw [← hs]
  cases x s with
  | ok a t => simp only [project, hguard.after_guard]
  | error e t => simp only [project, hguard.after_guard]

theorem onError {x : EStateM ε σ α} {y : EStateM ε τ α} {guard : EStateM ε σ Unit} {guard' : EStateM ε τ Unit}
    (hx : Projects f x y) (hguard : Projects f guard guard') :
    Projects f (Lib.onError x guard) (Lib.onError y guard') := by
  constructor
  intro s
  have hs := hx.run s
  unfold Lib.onError
  rw [← hs]
  cases x s with
  | ok a t => rfl
  | error e t => simp only [project, hguard.after_guard]

end Projects

end Casual.Lib

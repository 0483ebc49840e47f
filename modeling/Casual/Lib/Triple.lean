/-
Pre- and postconditions for programs with a state and exceptions. What was done before an exception
stays done, so an exception has a postcondition of its own.
-/
import Mathlib.Tactic

namespace Casual.Lib

variable {ε σ α β : Type}

/-- The state a program leaves, whether it returns or throws. -/
def after : EStateM.Result ε σ α → σ
  | .ok _ s => s
  | .error _ s => s

@[simp] theorem after_ok (a : α) (s : σ) : after (.ok a s : EStateM.Result ε σ α) = s := rfl
@[simp] theorem after_error (e : ε) (s : σ) : after (.error e s : EStateM.Result ε σ α) = s := rfl

/-- Whether a program throws. -/
def throws : EStateM.Result ε σ α → Bool
  | .ok _ _ => false
  | .error _ _ => true

theorem exists_of_throws {r : EStateM.Result ε σ α} (h : throws r = true) : ∃ e s, r = .error e s := by
  cases r with
  | ok a s => cases h
  | error e s => exact ⟨e, s, rfl⟩

theorem exists_of_returns {r : EStateM.Result ε σ α} (h : throws r = false) : ∃ a s, r = .ok a s := by
  cases r with
  | ok a s => exact ⟨a, s, rfl⟩
  | error e s => cases h

/-! ## Running a program -/

theorem bind_ok {x : EStateM ε σ α} {f : α → EStateM ε σ β} {a : α} {s t : σ} (h : x s = .ok a t) :
    (x >>= f) s = f a t := by
  change EStateM.bind x f s = _
  unfold EStateM.bind; rw [h]

theorem bind_error {x : EStateM ε σ α} {f : α → EStateM ε σ β} {e : ε} {s t : σ} (h : x s = .error e t) :
    (x >>= f) s = .error e t := by
  change EStateM.bind x f s = _
  unfold EStateM.bind; rw [h]

/-- A program that returns has returned from its first part. -/
theorem of_bind_ok {x : EStateM ε σ α} {f : α → EStateM ε σ β} {b : β} {s u : σ} (h : (x >>= f) s = .ok b u) :
    ∃ a t, x s = .ok a t ∧ f a t = .ok b u := by
  cases hx : x s with
  | ok a t =>
    rw [bind_ok hx] at h
    exact ⟨a, t, rfl, h⟩
  | error e t =>
    rw [bind_error hx] at h
    cases h

/-- A program that throws has thrown in its first part, or after it. -/
theorem of_bind_error {x : EStateM ε σ α} {f : α → EStateM ε σ β} {e : ε} {s u : σ} (h : (x >>= f) s = .error e u) :
    x s = .error e u ∨ ∃ a t, x s = .ok a t ∧ f a t = .error e u := by
  cases hx : x s with
  | ok a t =>
    rw [bind_ok hx] at h
    exact .inr ⟨a, t, rfl, h⟩
  | error e' t =>
    rw [bind_error hx] at h
    cases h
    exact .inl rfl

theorem tryCatch_ok {x : EStateM ε σ α} {f : ε → EStateM ε σ α} {a : α} {s t : σ} (h : x s = .ok a t) :
    tryCatch x f s = .ok a t := by
  change EStateM.tryCatch x f s = _
  unfold EStateM.tryCatch; rw [h]

theorem tryCatch_error {x : EStateM ε σ α} {f : ε → EStateM ε σ α} {e : ε} {s t : σ} (h : x s = .error e t) :
    tryCatch x f s = f e t := by
  change EStateM.tryCatch x f s = _
  unfold EStateM.tryCatch; rw [h]; rfl

/-! ## Triples -/

/-- From a state with `P`, the program returns with `Q` or throws with `E`. -/
def Triple (P : σ → Prop) (x : EStateM ε σ α) (Q : α → σ → Prop) (E : ε → σ → Prop) : Prop :=
  ∀ s, P s → match x s with
    | .ok a t => Q a t
    | .error e t => E e t

namespace Triple

variable {P P' : σ → Prop} {Q Q' : α → σ → Prop} {E E' : ε → σ → Prop}

theorem pure {a : α} (h : ∀ s, P s → Q a s) : Triple P (pure a : EStateM ε σ α) Q E := h

theorem throw {e : ε} (h : ∀ s, P s → E e s) : Triple P (throw e : EStateM ε σ α) Q E := h

theorem bind {x : EStateM ε σ α} {f : α → EStateM ε σ β} {R : β → σ → Prop} (hx : Triple P x Q E)
    (hf : ∀ a, Triple (Q a) (f a) R E) : Triple P (x >>= f) R E := by
  intro s hs
  have h := hx s hs
  change match EStateM.bind x f s with
    | .ok b t => R b t
    | .error e t => E e t
  unfold EStateM.bind
  cases hxs : x s with
  | ok a t =>
    rw [hxs] at h
    exact hf a t h
  | error e t =>
    rw [hxs] at h
    exact h

theorem get {R : σ → σ → Prop} (h : ∀ s, P s → R s s) : Triple P (get : EStateM ε σ σ) R E := h

theorem modify {f : σ → σ} {R : PUnit → σ → Prop} (h : ∀ s, P s → R ⟨⟩ (f s)) :
    Triple P (modify f : EStateM ε σ PUnit) R E := h

theorem conseq {x : EStateM ε σ α} (h : Triple P x Q E) (hP : ∀ s, P' s → P s) (hQ : ∀ a s, Q a s → Q' a s)
    (hE : ∀ e s, E e s → E' e s) : Triple P' x Q' E' := by
  intro s hs
  have := h s (hP s hs)
  cases hx : x s with
  | ok a t => rw [hx] at this; exact hQ a t this
  | error e t => rw [hx] at this; exact hE e t this

theorem tryCatch {x : EStateM ε σ α} {f : ε → EStateM ε σ α} (hx : Triple P x Q E')
    (hf : ∀ e, Triple (E' e) (f e) Q E) : Triple P (tryCatch x f) Q E := by
  intro s hs
  have h := hx s hs
  change match EStateM.tryCatch x f s with
    | .ok a t => Q a t
    | .error e t => E e t
  unfold EStateM.tryCatch
  cases hxs : x s with
  | ok a t =>
    rw [hxs] at h
    simpa [hxs] using h
  | error e t =>
    rw [hxs] at h
    have := hf e t h
    simpa [hxs, EStateM.Backtrackable.restore, EStateM.nonBacktrackable, EStateM.dummyRestore] using this

theorem and {x : EStateM ε σ α} (h : Triple P x Q E) (h' : Triple P' x Q' E') :
    Triple (fun s => P s ∧ P' s) x (fun a s => Q a s ∧ Q' a s) fun e s => E e s ∧ E' e s := by
  intro s hs
  have hq := h s hs.1
  have hq' := h' s hs.2
  cases hx : x s with
  | ok a t =>
    rw [hx] at hq hq'
    exact ⟨hq, hq'⟩
  | error e t =>
    rw [hx] at hq hq'
    exact ⟨hq, hq'⟩

/-- A precondition that is a fact about the program's parameters. -/
theorem of_forall {x : EStateM ε σ α} (h : ∀ s, P s → Triple (fun t => t = s) x Q E) : Triple P x Q E :=
  fun s hs => h s hs s rfl

theorem ite {c : Prop} [Decidable c] {x y : EStateM ε σ α} (hx : c → Triple P x Q E) (hy : ¬ c → Triple P y Q E) :
    Triple P (if c then x else y) Q E := by
  split_ifs with h
  · exact hx h
  · exact hy h

/-- Whether it returns or throws, a program leaves a state with the common postcondition. -/
theorem after {x : EStateM ε σ α} {I : σ → Prop} (h : Triple P x (fun _ => I) (fun _ => I)) {s : σ} (hs : P s) :
    I (after (x s)) := by
  have := h s hs
  cases hx : x s with
  | ok a t => rw [hx] at this; exact this
  | error e t => rw [hx] at this; exact this

theorem of_after {x : EStateM ε σ α} {I : σ → Prop} (h : ∀ s, P s → I (Lib.after (x s))) :
    Triple P x (fun _ => I) (fun _ => I) := by
  intro s hs
  have := h s hs
  cases hx : x s with
  | ok a t => rw [hx] at this; exact this
  | error e t => rw [hx] at this; exact this

/-- A loop keeps what each round keeps. -/
theorem forM {ι : Type} {I : σ → Prop} {f : ι → EStateM ε σ PUnit} : ∀ {l : List ι},
    (∀ i ∈ l, Triple I (f i) (fun _ => I) E) → Triple I (l.forM f) (fun _ => I) E
  | [], _ => fun _ hs => hs
  | i :: l, h => by
    change Triple I (f i >>= fun _ => l.forM f) (fun _ => I) E
    exact bind (h i List.mem_cons_self) fun _ => forM fun j hj => h j (List.mem_cons_of_mem _ hj)

end Triple

/-! ## Programs that move along a relation -/

/-- Whatever state it starts from, the state a program leaves is related to it. -/
structure Moves (R : σ → σ → Prop) (x : EStateM ε σ α) : Prop where
  after : ∀ s, R s (after (x s))

namespace Moves

variable {R S : σ → σ → Prop}

theorem mono {x : EStateM ε σ α} (h : Moves R x) (hRS : ∀ s t, R s t → S s t) : Moves S x :=
  ⟨fun s => hRS _ _ (h.after s)⟩

section Refl

variable [Std.Refl R]

theorem pure (a : α) : Moves R (pure a : EStateM ε σ α) := ⟨fun s => Std.Refl.refl s⟩

theorem throw (e : ε) : Moves R (throw e : EStateM ε σ α) := ⟨fun s => Std.Refl.refl s⟩

theorem get : Moves R (get : EStateM ε σ σ) := ⟨fun s => Std.Refl.refl s⟩

end Refl

theorem get_bind {g : σ → EStateM ε σ β} (h : ∀ s, R s (Lib.after (g s s))) : Moves R (MonadState.get >>= g) := ⟨h⟩

theorem modify {f : σ → σ} (h : ∀ s, R s (f s)) : Moves R (modify f : EStateM ε σ PUnit) := ⟨h⟩

theorem ite {c : Prop} [Decidable c] {x y : EStateM ε σ α} (hx : Moves R x) (hy : Moves R y) :
    Moves R (if c then x else y) := by
  split_ifs
  · exact hx
  · exact hy

section Trans

variable [IsTrans σ R]

/-- The first program need only move along the relation from the state that is meant. -/
theorem after_bind {x : EStateM ε σ α} {f : α → EStateM ε σ β} {s : σ} (hx : R s (Lib.after (x s)))
    (hf : ∀ a, Moves R (f a)) : R s (Lib.after ((x >>= f) s)) := by
  cases hxs : x s with
  | ok a t =>
    rw [hxs] at hx
    rw [bind_ok hxs]
    exact IsTrans.trans _ _ _ hx ((hf a).after t)
  | error e t =>
    rw [hxs] at hx
    rw [bind_error hxs]
    exact hx

theorem bind {x : EStateM ε σ α} {f : α → EStateM ε σ β} (hx : Moves R x) (hf : ∀ a, Moves R (f a)) :
    Moves R (x >>= f) :=
  ⟨fun s => after_bind (hx.after s) hf⟩

theorem tryCatch {x : EStateM ε σ α} {f : ε → EStateM ε σ α} (hx : Moves R x) (hf : ∀ e, Moves R (f e)) :
    Moves R (tryCatch x f) := by
  constructor
  intro s
  have h := hx.after s
  cases hxs : x s with
  | ok a t =>
    rw [hxs] at h
    rw [tryCatch_ok hxs]
    exact h
  | error e t =>
    rw [hxs] at h
    rw [tryCatch_error hxs]
    exact IsTrans.trans _ _ _ h ((hf e).after t)

theorem forM [Std.Refl R] {ι : Type} {f : ι → EStateM ε σ PUnit} (h : ∀ i, Moves R (f i)) : ∀ l : List ι,
    Moves R (l.forM f)
  | [] => pure _
  | i :: l => bind (h i) fun _ => forM h l

end Trans

end Moves

/-- A part of the state is as it was. -/
def Keeps {γ : Type} (f : σ → γ) (s t : σ) : Prop := f t = f s

instance {γ : Type} (f : σ → γ) : Std.Refl (Keeps f) := ⟨fun _ => rfl⟩

instance {γ : Type} (f : σ → γ) : IsTrans σ (Keeps f) := ⟨fun _ _ _ h h' => Eq.trans h' h⟩

/-! ## Programs of which it is known when they return -/

/-- From a state a program returns with `Q` if there is `c`, and throws with `E` otherwise. -/
structure Decides (c : Prop) (x : EStateM ε σ α) (s : σ) (Q : α → σ → Prop) (E : ε → σ → Prop) : Prop where
  returns : c → ∃ a t, x s = .ok a t ∧ Q a t
  throws : ¬ c → ∃ e t, x s = .error e t ∧ E e t

namespace Decides

variable {c d : Prop} {s : σ} {Q Q' : α → σ → Prop} {E E' : ε → σ → Prop}

theorem pure {a : α} (h : Q a s) : Decides True (pure a) s Q E := ⟨fun _ => ⟨a, s, rfl, h⟩, fun h => absurd trivial h⟩

theorem throw {e : ε} (h : E e s) : Decides False (throw e : EStateM ε σ α) s Q E := ⟨nofun, fun _ => ⟨e, s, rfl, h⟩⟩

/-- The state is read first. -/
theorem get_bind {g : σ → EStateM ε σ β} {R : β → σ → Prop} (h : Decides c (g s) s R E) :
    Decides c (get >>= g) s R E := ⟨h.returns, h.throws⟩

/-- The state is changed first. -/
theorem modify_bind {f : σ → σ} {g : PUnit → EStateM ε σ β} {R : β → σ → Prop} (h : Decides c (g ⟨⟩) (f s) R E) :
    Decides c (modify f >>= g) s R E := ⟨h.returns, h.throws⟩

theorem modify {f : σ → σ} {R : PUnit → σ → Prop} (h : R ⟨⟩ (f s)) :
    Decides True (modify f : EStateM ε σ PUnit) s R E := ⟨fun _ => ⟨⟨⟩, f s, rfl, h⟩, fun h => absurd trivial h⟩

theorem congr {x : EStateM ε σ α} (h : Decides c x s Q E) (hc : d ↔ c) : Decides d x s Q E :=
  ⟨fun hd => h.returns (hc.1 hd), fun hd => h.throws fun h => hd (hc.2 h)⟩

theorem mono {x : EStateM ε σ α} (h : Decides c x s Q E) (hQ : ∀ a t, Q a t → Q' a t)
    (hE : ¬ c → ∀ e t, E e t → E' e t) : Decides c x s Q' E' := by
  constructor
  · intro hc
    obtain ⟨a, t, hx, ht⟩ := h.returns hc
    exact ⟨a, t, hx, hQ a t ht⟩
  · intro hc
    obtain ⟨e, t, hx, ht⟩ := h.throws hc
    exact ⟨e, t, hx, hE hc e t ht⟩

/-- What a program does after it is known when its first part returns. -/
theorem bind {x : EStateM ε σ α} {f : α → EStateM ε σ β} {R : β → σ → Prop} (hx : Decides c x s Q E)
    (hf : ∀ a t, Q a t → Decides d (f a) t R E) : Decides (c ∧ d) (x >>= f) s R E := by
  constructor
  · rintro ⟨hc, hd⟩
    obtain ⟨a, t, hxs, ht⟩ := hx.returns hc
    rw [bind_ok hxs]
    exact (hf a t ht).returns hd
  · intro h
    by_cases hc : c
    · obtain ⟨a, t, hxs, ht⟩ := hx.returns hc
      rw [bind_ok hxs]
      exact (hf a t ht).throws fun hd => h ⟨hc, hd⟩
    · obtain ⟨e, t, hxs, ht⟩ := hx.throws hc
      exact ⟨e, t, bind_error hxs, ht⟩

/-- What a program does when its first part has returned, which does not throw. -/
theorem andThen {x : EStateM ε σ α} {f : α → EStateM ε σ β} {R : β → σ → Prop} (hx : Decides c x s Q E)
    (hf : ∀ a t, Q a t → Decides True (f a) t R E) : Decides c (x >>= f) s R E :=
  (hx.bind hf).congr (by rw [and_true])

end Decides

/-! ## Programs seen through a part of the state -/

variable {τ : Type}

/-- What a program came to, with only a part of the state. -/
def project (f : σ → τ) : EStateM.Result ε σ α → EStateM.Result ε τ α
  | .ok a s => .ok a (f s)
  | .error e s => .error e (f s)

/-- Seen through a part of the state, a program is another program. -/
structure Projects (f : σ → τ) (x : EStateM ε σ α) (y : EStateM ε τ α) : Prop where
  run : ∀ s, project f (x s) = y (f s)

namespace Projects

variable {f : σ → τ}

theorem pure (a : α) : Projects f (pure a : EStateM ε σ α) (pure a) := ⟨fun _ => rfl⟩

theorem throw (e : ε) : Projects f (throw e : EStateM ε σ α) (throw e) := ⟨fun _ => rfl⟩

theorem bind {x : EStateM ε σ α} {y : EStateM ε τ α} {g : α → EStateM ε σ β} {h : α → EStateM ε τ β}
    (hxy : Projects f x y) (hgh : ∀ a, Projects f (g a) (h a)) : Projects f (x >>= g) (y >>= h) := by
  constructor
  intro s
  have hs := hxy.run s
  cases hx : x s with
  | ok a t =>
    rw [hx] at hs
    rw [bind_ok hx, bind_ok hs.symm]
    exact (hgh a).run t
  | error e t =>
    rw [hx] at hs
    rw [bind_error hx, bind_error hs.symm]
    rfl

theorem tryCatch {x : EStateM ε σ α} {y : EStateM ε τ α} {g : ε → EStateM ε σ α} {h : ε → EStateM ε τ α}
    (hxy : Projects f x y) (hgh : ∀ e, Projects f (g e) (h e)) : Projects f (tryCatch x g) (tryCatch y h) := by
  constructor
  intro s
  have hs := hxy.run s
  cases hx : x s with
  | ok a t =>
    rw [hx] at hs
    rw [tryCatch_ok hx, tryCatch_ok hs.symm]
    rfl
  | error e t =>
    rw [hx] at hs
    rw [tryCatch_error hx, tryCatch_error hs.symm]
    exact (hgh e).run t

theorem ite {c : Prop} [Decidable c] {x x' : EStateM ε σ α} {y y' : EStateM ε τ α} (h : Projects f x y)
    (h' : Projects f x' y') : Projects f (if c then x else x') (if c then y else y') := by
  split_ifs
  · exact h
  · exact h'

theorem get_bind {g : σ → EStateM ε σ β} {h : τ → EStateM ε τ β} (hgh : ∀ s, Projects f (g s) (h (f s))) :
    Projects f (get >>= g) (get >>= h) := ⟨fun s => (hgh s).run s⟩

/-- What follows changes the rest of the state only. -/
theorem before {x : EStateM ε σ α} {y : EStateM ε τ α} {k : α → EStateM ε σ α} (hx : Projects f x y)
    (hk : ∀ a, Projects f (k a) (Pure.pure a)) : Projects f (x >>= k) y := by
  have h := hx.bind hk
  rwa [bind_pure] at h

/-- What comes before changes the rest of the state only. -/
theorem behind {g : σ → σ} {x : EStateM ε σ α} {y : EStateM ε τ α} (h : ∀ s, f (g s) = f s) (hx : Projects f x y) :
    Projects f (modify g >>= fun _ => x) y := by
  constructor
  intro s
  have hs := hx.run (g s)
  rw [h] at hs
  exact hs

theorem modify {g : σ → σ} (h : ∀ s, f (g s) = f s) : Projects f (modify g : EStateM ε σ PUnit) (Pure.pure ⟨⟩) := by
  constructor
  intro s
  change EStateM.Result.ok _ (f (g s)) = _
  rw [h]
  rfl

end Projects

end Casual.Lib

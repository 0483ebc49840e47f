/-
Runs of an event machine: a total step function, the events a state admits, the states a run
passes through, and the two induction rules every invariant proof uses.
-/
import Mathlib

namespace Casual.Lib

variable {σ ε : Type}

/-- A machine: the states it starts in, the events a state admits, and what an event does. -/
structure Machine (σ ε : Type) where
  init : σ → Prop
  admits : σ → ε → Prop
  step : σ → ε → σ

namespace Machine

/-- The machine, with only those events that also meet a condition. -/
def restrict (M : Machine σ ε) (C : σ → ε → Prop) : Machine σ ε :=
  { M with admits := fun s e => M.admits s e ∧ C s e }

/-- `M.Run s es t`: from `s`, the admitted events `es` lead to `t`. -/
inductive Run (M : Machine σ ε) : σ → List ε → σ → Prop
  | nil (s : σ) : Run M s [] s
  | snoc {s t : σ} {es : List ε} {e : ε} :
      Run M s es t → M.admits t e → Run M s (es ++ [e]) (M.step t e)

/-- The states of the runs that start in an initial state. -/
def Reachable (M : Machine σ ε) (t : σ) : Prop := ∃ s es, M.init s ∧ M.Run s es t

theorem Reachable.of_init {M : Machine σ ε} {s : σ} (h : M.init s) : M.Reachable s :=
  ⟨s, [], h, .nil s⟩

theorem Reachable.step {M : Machine σ ε} {t : σ} {e : ε} (h : M.Reachable t) (he : M.admits t e) :
    M.Reachable (M.step t e) := by
  obtain ⟨s, es, hs, hr⟩ := h
  exact ⟨s, es ++ [e], hs, .snoc hr he⟩

theorem Run.append {M : Machine σ ε} {s t u : σ} {es es' : List ε} (h : M.Run s es t) (h' : M.Run t es' u) :
    M.Run s (es ++ es') u := by
  induction h' with
  | nil => exact (List.append_nil es).symm ▸ h
  | snoc _ he ih => exact List.append_assoc es _ _ ▸ ih.snoc he

/-! ## Runs that are computed -/

/-- Each of the events is admitted where it comes. -/
def AdmitsAll (M : Machine σ ε) : σ → List ε → Prop
  | _, [] => True
  | s, e :: es => M.admits s e ∧ M.AdmitsAll (M.step s e) es

instance decidableAdmitsAll (M : Machine σ ε) [∀ s e, Decidable (M.admits s e)] :
    ∀ s es, Decidable (M.AdmitsAll s es)
  | _, [] => .isTrue trivial
  | s, e :: es =>
    have := decidableAdmitsAll M (M.step s e) es
    inferInstanceAs (Decidable (M.admits s e ∧ M.AdmitsAll (M.step s e) es))

instance (M : Machine σ ε) (C : σ → ε → Prop) [∀ s e, Decidable (M.admits s e)] [∀ s e, Decidable (C s e)] :
    ∀ s e, Decidable ((M.restrict C).admits s e) :=
  fun _ _ => inferInstanceAs (Decidable (_ ∧ _))

theorem Run.foldl {M : Machine σ ε} : ∀ {es es' : List ε} {s t : σ}, M.Run s es t → M.AdmitsAll t es' →
    M.Run s (es ++ es') (es'.foldl M.step t)
  | es, [], _, _, h, _ => (List.append_nil es).symm ▸ h
  | es, e :: es', s, t, h, ⟨he, hes⟩ => by
    have h := Run.foldl (h.snoc he) hes
    rw [List.append_assoc, List.singleton_append] at h
    exact h

theorem Reachable.foldl {M : Machine σ ε} {es : List ε} {s : σ} (h : M.Reachable s) (hes : M.AdmitsAll s es) :
    M.Reachable (es.foldl M.step s) := by
  obtain ⟨t, es', ht, hr⟩ := h
  exact ⟨t, es' ++ es, ht, hr.foldl hes⟩

/-! ## Invariants -/

/-- What an event keeps, a run keeps. -/
theorem Run.invariant {M : Machine σ ε} {I : σ → Prop}
    (hstep : ∀ t e, I t → M.admits t e → I (M.step t e)) {s t : σ} {es : List ε}
    (h : M.Run s es t) (hs : I s) : I t := by
  induction h with
  | nil => exact hs
  | snoc _ he ih => exact hstep _ _ ih he

/-- What the events of a kind keep, a run of such events keeps. -/
theorem Run.invariant_of {M : Machine σ ε} {I : σ → Prop} {A : ε → Prop}
    (hstep : ∀ t e, I t → A e → M.admits t e → I (M.step t e)) {s t : σ} {es : List ε}
    (h : M.Run s es t) (hes : ∀ e ∈ es, A e) (hs : I s) : I t := by
  induction h with
  | nil => exact hs
  | snoc _ he ih =>
    exact hstep _ _ (ih fun e he => hes e (List.mem_append_left _ he)) (hes _ (List.mem_append_right _ (by simp))) he

/-- What holds initially and every event keeps holds in every reachable state. -/
theorem Reachable.invariant {M : Machine σ ε} {I : σ → Prop} (hinit : ∀ s, M.init s → I s)
    (hstep : ∀ t e, I t → M.admits t e → I (M.step t e)) {t : σ} (h : M.Reachable t) : I t := by
  obtain ⟨s, es, hs, hr⟩ := h
  exact hr.invariant hstep (hinit s hs)

/-! ## A machine that follows another -/

section

variable {τ δ : Type}

/-- From the states with `I` on, and seen through `f`, the machine does on the events that `g` sees what another one
does, and nothing on the others. -/
structure Follows (M : Machine σ ε) (N : Machine τ δ) (I : σ → Prop) (f : σ → τ) (g : ε → Option δ) : Prop where
  keeps : ∀ {s : σ} {e : ε}, I s → M.admits s e → I (M.step s e)
  seen : ∀ {s : σ} {e : ε} {d : δ}, I s → M.admits s e → g e = some d →
    N.admits (f s) d ∧ f (M.step s e) = N.step (f s) d
  unseen : ∀ {s : σ} {e : ε}, I s → M.admits s e → g e = none → f (M.step s e) = f s

/-- Its runs are runs of the other one. -/
theorem Follows.run {M : Machine σ ε} {N : Machine τ δ} {I : σ → Prop} {f : σ → τ} {g : ε → Option δ}
    (h : M.Follows N I f g) {s t : σ} {es : List ε} (hrun : M.Run s es t) (hs : I s) :
    I t ∧ N.Run (f s) (es.filterMap g) (f t) := by
  induction hrun with
  | nil => exact ⟨hs, .nil _⟩
  | @snoc t es e _ he ih =>
    obtain ⟨ht, hrun⟩ := ih
    refine ⟨h.keeps ht he, ?_⟩
    rw [List.filterMap_append]
    cases hg : g e with
    | none =>
      rw [List.filterMap_cons_none hg, List.filterMap_nil, List.append_nil, h.unseen ht he hg]
      exact hrun
    | some d =>
      obtain ⟨hd, hstep⟩ := h.seen ht he hg
      rw [List.filterMap_cons_some hg, List.filterMap_nil, hstep]
      exact hrun.snoc hd

end

end Machine

end Casual.Lib

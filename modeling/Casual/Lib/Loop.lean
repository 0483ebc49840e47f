/-
Loops that are left after finitely many turns, since each turn that is followed by another one makes a measure of
the state smaller.
-/
import Casual.Lib.Triple

namespace Casual.Lib

variable {ε σ : Type}

/-- At most so many turns. -/
def turns (body : EStateM ε σ Bool) : Nat → EStateM ε σ Unit
  | 0 => pure ()
  | n + 1 => do
    if ← body then turns body n else pure ()

/-- `while( body());`, where a turn that is followed by another one makes the measure smaller. -/
def whileM (measure : σ → Nat) (body : EStateM ε σ Bool) : EStateM ε σ Unit := fun s =>
  turns body (measure s + 1) s

/-- Another turn has been earned. -/
def Descends (measure : σ → Nat) (body : EStateM ε σ Bool) : Prop :=
  ∀ s t, body s = .ok true t → measure t < measure s

theorem turns_succ (body : EStateM ε σ Bool) (n : Nat) (s : σ) :
    turns body (n + 1) s = match body s with
      | .ok true t => turns body n t
      | .ok false t => .ok () t
      | .error e t => .error e t := by
  rw [turns]
  cases h : body s with
  | error e t => rw [bind_error h]
  | ok b t =>
    rw [bind_ok h]
    cases b <;> rfl

/-- More turns than the measure make no difference. -/
theorem turns_eq {measure : σ → Nat} {body : EStateM ε σ Bool} (hbody : Descends measure body) :
    ∀ (n m : Nat) (s : σ), measure s < n → measure s < m → turns body n s = turns body m s := by
  intro n
  induction n with
  | zero => exact fun _ _ h => absurd h (Nat.not_lt_zero _)
  | succ n ih =>
    intro m s hn hm
    obtain ⟨m, rfl⟩ : ∃ m', m = m' + 1 := Nat.exists_eq_add_one.2 (Nat.zero_lt_of_lt hm)
    rw [turns_succ, turns_succ]
    cases h : body s with
    | error e t => rfl
    | ok b t =>
      cases b with
      | false => rfl
      | true =>
        have hlt : measure t < measure s := hbody s t h
        exact ih m t (by omega) (by omega)

/-- A turn, and the rest of the loop. -/
theorem whileM_eq {measure : σ → Nat} {body : EStateM ε σ Bool} (hbody : Descends measure body) (s : σ) :
    whileM measure body s = match body s with
      | .ok true t => whileM measure body t
      | .ok false t => .ok () t
      | .error e t => .error e t := by
  unfold whileM
  rw [turns_succ]
  cases h : body s with
  | error e t => rfl
  | ok b t =>
    cases b with
    | false => rfl
    | true =>
      have hlt : measure t < measure s := hbody s t h
      exact turns_eq hbody _ _ t hlt (Nat.lt_succ_self _)

end Casual.Lib

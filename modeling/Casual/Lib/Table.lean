/-
Tables with row triggers: a statement that changes or deletes the rows it matches, one trigger for
each of them on some other state, and the sums such triggers keep up to date.
-/
import Mathlib.Tactic
import Mathlib.Algebra.BigOperators.Group.List.Basic

namespace Casual.Lib.Table

variable {α σ M : Type}

/-- Visit the rows in order: `affects` says which are affected, `set` what they become (`none` is
deleted), `trigger` what the change of a row does elsewhere. The statement fails as a whole when a
trigger fails. -/
def execute (affects : α → Bool) (set : α → Option α) (trigger : α → Option α → σ → Option σ) :
    List α → σ → Option (List α × σ)
  | [], s => some ([], s)
  | row :: rows, s =>
    if affects row then
      match trigger row (set row) s with
      | none => none
      | some s =>
        match execute affects set trigger rows s with
        | none => none
        | some r => some ((set row).toList ++ r.1, r.2)
    else
      match execute affects set trigger rows s with
      | none => none
      | some r => some (row :: r.1, r.2)

variable {affects : α → Bool} {set : α → Option α} {trigger : α → Option α → σ → Option σ}

/-- What a statement makes of the rows. -/
theorem execute_rows : ∀ {rows : List α} {s : σ} {r : List α × σ},
    execute affects set trigger rows s = some r →
      r.1 = rows.filterMap fun row => if affects row then set row else some row
  | [], s, r, h => by simp only [execute, Option.some.injEq] at h; subst h; rfl
  | row :: rows, s, r, h => by
    simp only [execute] at h
    split_ifs at h with ha
    · split at h
      · cases h
      · split at h
        · cases h
        · next r' hr' =>
          cases h
          rw [List.filterMap_cons, if_pos ha, execute_rows hr']
          cases set row <;> rfl
    · split at h
      · cases h
      · next r' hr' =>
        cases h
        rw [List.filterMap_cons, if_neg ha, execute_rows hr']

/-- A statement whose triggers do not fail does not fail. -/
theorem execute_isSome : ∀ {rows : List α} {s : σ},
    (∀ row ∈ rows, affects row = true → ∀ s, ∃ s', trigger row (set row) s = some s') →
      ∃ r, execute affects set trigger rows s = some r
  | [], s, _ => ⟨_, rfl⟩
  | row :: rows, s, h => by
    have hrest : ∀ s, ∃ r, execute affects set trigger rows s = some r :=
      fun s => execute_isSome fun row' hrow' => h row' (List.mem_cons_of_mem _ hrow')
    simp only [execute]
    split_ifs with ha
    · obtain ⟨s', hs'⟩ := h row List.mem_cons_self ha s
      obtain ⟨r, hr⟩ := hrest s'
      exact ⟨((set row).toList ++ r.1, r.2), by simp only [hs', hr]⟩
    · obtain ⟨r, hr⟩ := hrest s
      exact ⟨(row :: r.1, r.2), by simp only [hr]⟩

/-- The triggers of a statement that did not fail did not fail; each ran in a state that is as good as
the one the statement began in. -/
theorem execute_triggered (good : σ → Prop) : ∀ {rows : List α} {s : σ} {r : List α × σ},
    (∀ row ∈ rows, affects row = true → ∀ s s', good s → trigger row (set row) s = some s' → good s') →
      good s → execute affects set trigger rows s = some r →
        ∀ row ∈ rows, affects row = true → ∃ s s', good s ∧ trigger row (set row) s = some s'
  | [], _, _, _, _, _, row, hrow, _ => by cases hrow
  | first :: rows, s, r, hgood, hs, h, row, hrow, ha => by
    have htail : ∀ row ∈ rows, affects row = true → ∀ s s', good s → trigger row (set row) s = some s' → good s' :=
      fun row' hrow' => hgood row' (List.mem_cons_of_mem _ hrow')
    simp only [execute] at h
    split_ifs at h with hf
    · split at h
      · cases h
      · next s' hs' =>
        split at h
        · cases h
        · next r' hr' =>
          rcases List.mem_cons.1 hrow with rfl | hrow
          · exact ⟨s, s', hs, hs'⟩
          · exact execute_triggered good htail (hgood first List.mem_cons_self hf s s' hs hs') hr' row hrow ha
    · split at h
      · cases h
      · next r' hr' =>
        rcases List.mem_cons.1 hrow with rfl | hrow
        · exact absurd ha hf
        · exact execute_triggered good htail hs hr' row hrow ha

/-- What every trigger keeps of the other state, the statement keeps. -/
theorem execute_keeps (good : σ → Prop) : ∀ {rows : List α} {s : σ} {r : List α × σ},
    (∀ row ∈ rows, affects row = true → ∀ s s', good s → trigger row (set row) s = some s' → good s') →
      good s → execute affects set trigger rows s = some r → good r.2
  | [], _, _, _, hs, h => by cases h; exact hs
  | first :: rows, s, r, hgood, hs, h => by
    have htail : ∀ row ∈ rows, affects row = true → ∀ s s', good s → trigger row (set row) s = some s' → good s' :=
      fun row' hrow' => hgood row' (List.mem_cons_of_mem _ hrow')
    simp only [execute] at h
    split_ifs at h with hf
    · split at h
      · cases h
      · next s' hs' =>
        split at h
        · cases h
        · next r' hr' =>
          cases h
          change good r'.2
          exact execute_keeps good htail (hgood first List.mem_cons_self hf s s' hs hs') hr'
    · split at h
      · cases h
      · next r' hr' =>
        cases h
        change good r'.2
        exact execute_keeps good htail hs hr'

/-! ## Sums over the rows -/

section Sum

variable [AddCommGroup M] {shift : M → σ → σ → Prop} {w : α → M}

/-- The weight of a changed row: nothing for a deleted one. -/
def weight (w : α → M) (row : Option α) : M := row.elim 0 w

/-- Triggers that add the new weight of a row and take the old one away shift by the difference of
the sums over all rows. -/
theorem execute_shift (hzero : ∀ s, shift 0 s s)
    (hadd : ∀ {a b s s' s''}, shift a s s' → shift b s' s'' → shift (a + b) s s'') :
    ∀ {rows : List α} {s : σ} {r : List α × σ},
      (∀ row ∈ rows, affects row = true → ∀ s s', trigger row (set row) s = some s' →
        shift (weight w (set row) - w row) s s') →
      execute affects set trigger rows s = some r → shift ((r.1.map w).sum - (rows.map w).sum) s r.2
  | [], s, r, _, h => by
    simp only [execute, Option.some.injEq] at h
    subst h
    simpa using hzero s
  | row :: rows, s, r, ht, h => by
    have htail : ∀ row' ∈ rows, affects row' = true → ∀ s s', trigger row' (set row') s = some s' →
        shift (weight w (set row') - w row') s s' := fun row' hrow' => ht row' (List.mem_cons_of_mem _ hrow')
    simp only [execute] at h
    split_ifs at h with ha
    · split at h
      · cases h
      · next s' hs' =>
        split at h
        · cases h
        · next r' hr' =>
          cases h
          have hhead := ht row List.mem_cons_self ha s s' hs'
          have hrest := execute_shift hzero hadd htail hr'
          have hsum := hadd hhead hrest
          have heq : weight w (set row) - w row + ((r'.1.map w).sum - (rows.map w).sum) =
              (((set row).toList ++ r'.1).map w).sum - ((row :: rows).map w).sum := by
            cases set row <;> simp [weight] <;> abel
          rwa [heq] at hsum
    · split at h
      · cases h
      · next r' hr' =>
        cases h
        have hrest := execute_shift hzero hadd htail hr'
        have heq : (r'.1.map w).sum - (rows.map w).sum =
            ((row :: r'.1).map w).sum - ((row :: rows).map w).sum := by simp
        rwa [heq] at hrest

end Sum

end Casual.Lib.Table

/-
The children that are reaped, and the exits that callers and callbacks are told of: what each way of collecting
deaths does with them, whatever `waitpid` returns and whichever signals are pending.
-/
import Casual.Lib.Run
import Casual.Process.Lifetime

namespace Casual.Process

open Lib

variable (arrives : Nat → Cache)

/-! ## A look at the signals -/

/-- What a look at the signals throws, but for children. -/
def raised (s : Collector) : Option Exception :=
  ((s.signals.arrive (arrives s.checks)).consume excludeChildTerminate).2

/-- The process after it has looked at the signals. -/
def checked (s : Collector) : Collector :=
  { s with
    signals := ((s.signals.arrive (arrives s.checks)).consume excludeChildTerminate).1
    checks := s.checks + 1 }

theorem handle_run (s : Collector) : handle arrives excludeChildTerminate s = match raised arrives s with
    | some e => .error e (checked arrives s)
    | none => .ok () (checked arrives s) := by
  have hrun : handle arrives excludeChildTerminate s = (match raised arrives s with
      | some e => throw e
      | none => pure () : M Unit) (checked arrives s) := rfl
  rw [hrun]
  cases raised arrives s <;> rfl

/-! ## One wait -/

theorem waitpid_run (s : Collector) : waitpid s = match s.results with
    | [] => .ok .none s
    | r :: results => .ok r { s with results } := by
  obtain ⟨results, signals, checks, exit, result, reaped, reported⟩ := s
  cases results <;> rfl

/-- The result of `waitpid` has been taken. -/
def Collector.popped (s : Collector) (results : List WaitResult) : Collector := { s with results }

/-- A process that has changed. -/
def Collector.saw (s : Collector) (exit : Exit) : Collector := { s with exit, reaped := s.reaped ++ [exit] }

theorem waitLoop_run (s : Collector) : waitLoop arrives s = match s.results with
    | [] => .ok false s
    | .none :: results => .ok false (s.popped results)
    | .failed :: results => .error .other (s.popped results)
    | .changed pid status :: results => .ok false ((s.popped results).saw (exitOf pid status))
    | .interrupted :: results => match raised arrives s with
      | some e => .error e (checked arrives (s.popped results))
      | none => .ok true (checked arrives (s.popped results)) := by
  have hwaitpid := waitpid_run s
  unfold waitLoop
  cases hresults : s.results with
  | nil =>
    rw [hresults] at hwaitpid
    rw [bind_ok hwaitpid]
    rfl
  | cons r results =>
    rw [hresults] at hwaitpid
    rw [bind_ok hwaitpid]
    cases r with
    | none => rfl
    | failed => rfl
    | changed pid status => rfl
    | interrupted =>
      have hhandle := handle_run arrives (s.popped results)
      have hraised : raised arrives (s.popped results) = raised arrives s := rfl
      rw [hraised] at hhandle
      cases h : raised arrives s with
      | some e =>
        rw [h] at hhandle
        exact bind_error hhandle
      | none =>
        rw [h] at hhandle
        exact bind_ok hhandle

theorem descends_waitLoop : Descends (·.results.length) (waitLoop arrives) := by
  intro s t h
  rw [waitLoop_run] at h
  cases hresults : s.results with
  | nil => rw [hresults] at h; cases h
  | cons r results =>
    rw [hresults] at h
    cases r with
    | none => cases h
    | failed => cases h
    | changed pid status => cases h
    | interrupted =>
      dsimp only at h
      cases hraised : raised arrives s with
      | some e => rw [hraised] at h; cases h
      | none =>
        rw [hraised] at h
        cases h
        change results.length < s.results.length
        rw [hresults]
        exact Nat.lt_succ_self _

/-- The process when a wait turns to the children. -/
def started (s : Collector) : Collector := { checked arrives s with exit := .initial }

theorem wait_start (s : Collector) : wait arrives s = match raised arrives s with
    | some e => .error e (checked arrives s)
    | none => match whileM (·.results.length) (waitLoop arrives) (started arrives s) with
      | .error e t => .error e t
      | .ok _ t => .ok t.exit t := by
  have hhandle := handle_run arrives s
  unfold wait
  cases h : raised arrives s with
  | some e =>
    rw [h] at hhandle
    exact bind_error hhandle
  | none =>
    rw [h] at hhandle
    rw [bind_ok hhandle]
    change (whileM (·.results.length) (waitLoop arrives) >>= fun _ => do return (← get).exit : M Exit)
      (started arrives s) = _
    cases hloop : whileM (·.results.length) (waitLoop arrives) (started arrives s) with
    | error e t => rw [bind_error hloop]
    | ok _ t =>
      rw [bind_ok hloop]
      rfl

/-- A wait looks at the signals, and then at the children; where that is interrupted it is as if it started again. -/
theorem wait_run (s : Collector) : wait arrives s = match raised arrives s with
    | some e => .error e (checked arrives s)
    | none => match s.results with
      | [] => .ok .initial (started arrives s)
      | .none :: results => .ok .initial ((started arrives s).popped results)
      | .failed :: results => .error .other ((started arrives s).popped results)
      | .changed pid status :: results =>
        .ok (exitOf pid status) (((started arrives s).popped results).saw (exitOf pid status))
      | .interrupted :: results => wait arrives ((started arrives s).popped results) := by
  rw [wait_start]
  cases hraised : raised arrives s with
  | some e => rfl
  | none =>
    dsimp only
    rw [whileM_eq (descends_waitLoop arrives), waitLoop_run]
    have hsame : (started arrives s).results = s.results := rfl
    rw [hsame]
    cases s.results with
    | nil => rfl
    | cons r results =>
      cases r with
      | none => rfl
      | failed => rfl
      | changed pid status => rfl
      | interrupted =>
        dsimp only
        rw [wait_start]
        have hagain : raised arrives (started arrives s) = raised arrives ((started arrives s).popped results) := rfl
        rw [hagain]
        cases raised arrives ((started arrives s).popped results) <;> rfl

/-! ## A loop that collects -/

/-- What a loop that collects does: it looks at the signals and at the children until it has as many as it is told, or
there are none. -/
def Collects (enough : Nat → Bool) (wanted : Exit → Bool) (x : M Unit) : Prop :=
  ∀ s, x s =
    if enough s.result.length then .ok () s
    else match raised arrives s with
      | some e => .error e (checked arrives s)
      | none => match s.results with
        | [] => .ok () (started arrives s)
        | .none :: results => .ok () ((started arrives s).popped results)
        | .failed :: results => .error .other ((started arrives s).popped results)
        | .changed pid status :: results =>
          let exit := exitOf pid status
          let seen := ((started arrives s).popped results).saw exit
          x (if wanted exit then { seen with result := seen.result ++ [exit] } else seen)
        | .interrupted :: results => x ((started arrives s).popped results)

theorem exitOf_pid (pid : ℕ+) (status : Status) : (exitOf pid status).pid = pid := by
  cases status with
  | signaled signal core => cases core <;> rfl
  | _ => rfl

/-- Something that was seen has been taken. -/
theorem wait_descends {exit : Exit} (hexit : exit.pid ≠ 0) : ∀ (n : Nat) (s t : Collector), s.results.length = n →
    wait arrives s = .ok exit t → t.results.length < s.results.length := by
  intro n
  induction n with
  | zero =>
    intro s t hn h
    rw [wait_run, List.length_eq_zero_iff.1 hn] at h
    cases hraised : raised arrives s with
    | some e => rw [hraised] at h; cases h
    | none =>
      rw [hraised] at h
      cases h
      exact absurd rfl hexit
  | succ n ih =>
    intro s t hn h
    obtain ⟨r, results, hresults⟩ := List.exists_cons_of_length_eq_add_one hn
    rw [wait_run, hresults] at h
    cases hraised : raised arrives s with
    | some e => rw [hraised] at h; cases h
    | none =>
      rw [hraised] at h
      rw [hresults] at hn ⊢
      cases r with
      | none =>
        cases h
        exact absurd rfl hexit
      | failed => cases h
      | changed pid status =>
        cases h
        exact Nat.lt_succ_self _
      | interrupted =>
        have hlt := ih ((started arrives s).popped results) t (Nat.succ.inj hn) h
        exact hlt.trans (Nat.lt_succ_self _)

/-- A process that has changed is collected. -/
def Collector.collect (s : Collector) (exit : Exit) : Collector := { s with result := s.result ++ [exit] }

theorem endedLoop_run (s : Collector) : endedLoop arrives s = match wait arrives s with
    | .error e t => .error e t
    | .ok exit t => if exit.pid ≠ 0 then .ok true (t.collect exit) else .ok false t := by
  unfold endedLoop
  cases h : wait arrives s with
  | error e t => rw [bind_error h]
  | ok exit t =>
    rw [bind_ok h]
    dsimp only
    split_ifs <;> rfl

theorem descends_endedLoop : Descends (·.results.length) (endedLoop arrives) := by
  intro s t h
  rw [endedLoop_run] at h
  cases hwait : wait arrives s with
  | error e u => rw [hwait] at h; cases h
  | ok exit u =>
    rw [hwait] at h
    dsimp only at h
    split_ifs at h with hexit
    · cases h
      exact wait_descends arrives hexit _ s u rfl hwait
    · cases h

/-- The deaths of all children are collected, until there is none that has changed. -/
theorem collects_ended : Collects arrives (fun _ => false) (fun _ => true)
    (whileM (·.results.length) (endedLoop arrives)) := by
  intro s
  rw [whileM_eq (descends_endedLoop arrives), endedLoop_run, wait_run]
  cases raised arrives s with
  | some e => rfl
  | none =>
    cases s.results with
    | nil => rfl
    | cons r results =>
      cases r with
      | none => rfl
      | failed => rfl
      | changed pid status =>
        dsimp only
        rw [if_pos (by rw [exitOf_pid]; exact pid.ne_zero)]
        rfl
      | interrupted =>
        dsimp only
        rw [← endedLoop_run, ← whileM_eq (descends_endedLoop arrives)]
        rfl

/-- A process is one of those that are waited for. -/
def among (pids : List ℕ+) (exit : Exit) : Bool := pids.any fun pid => pid == exit.pid

theorem pid_ne_zero {pids : List ℕ+} {exit : Exit} (h : among pids exit = true) : exit.pid ≠ 0 := by
  obtain ⟨pid, -, hpid⟩ := List.any_eq_true.1 h
  rw [← beq_iff_eq.1 hpid]
  exact pid.ne_zero

theorem waitAllLoop_run (pids : List ℕ+) (s : Collector) : waitAllLoop arrives pids s =
    if s.result.length < pids.length then match wait arrives s with
      | .error e t => .error e t
      | .ok exit t => if among pids exit then .ok true (t.collect exit) else .ok (decide (exit.pid ≠ 0)) t
    else .ok false s := by
  have hget : waitAllLoop arrives pids s = (if s.result.length < pids.length then do
      let exit ← wait arrives
      if among pids exit then
        modify fun s => { s with result := s.result ++ [exit] }
        return true
      else return exit.pid ≠ 0
    else return false : M Bool) s := rfl
  rw [hget]
  split_ifs with hlt
  · cases h : wait arrives s with
    | error e t => rw [bind_error h]
    | ok exit t =>
      rw [bind_ok h]
      dsimp only
      split_ifs <;> rfl
  · rfl

theorem descends_waitAllLoop (pids : List ℕ+) : Descends (·.results.length) (waitAllLoop arrives pids) := by
  intro s t h
  rw [waitAllLoop_run] at h
  split_ifs at h
  · cases hwait : wait arrives s with
    | error e u => rw [hwait] at h; cases h
    | ok exit u =>
      rw [hwait] at h
      dsimp only at h
      split_ifs at h with hamong
      · cases h
        exact wait_descends arrives (pid_ne_zero hamong) _ s u rfl hwait
      · simp only [EStateM.Result.ok.injEq, decide_eq_true_eq] at h
        obtain ⟨hexit, rfl⟩ := h
        exact wait_descends arrives hexit _ s u rfl hwait
  · cases h

/-- Only the exits of those that are waited for are collected, until there are as many. -/
theorem collects_waitAll (pids : List ℕ+) : Collects arrives (fun n => decide (pids.length ≤ n)) (among pids)
    (waitAll arrives pids) := by
  intro s
  unfold waitAll
  rw [whileM_eq (descends_waitAllLoop arrives pids)]
  have hloop := waitAllLoop_run arrives pids s
  by_cases hlt : s.result.length < pids.length
  · rw [if_neg (by simpa using hlt)]
    rw [if_pos hlt, wait_run] at hloop
    rw [hloop]
    cases raised arrives s with
    | some e => rfl
    | none =>
      cases s.results with
      | nil =>
        dsimp only
        rw [if_neg fun h => pid_ne_zero h rfl]
        rfl
      | cons r results =>
        cases r with
        | none =>
          dsimp only
          rw [if_neg fun h => pid_ne_zero h rfl]
          rfl
        | failed => rfl
        | changed pid status =>
          have hpid : (exitOf pid status).pid ≠ 0 := by
            rw [exitOf_pid]
            exact pid.ne_zero
          dsimp only
          split_ifs
          · rfl
          · rw [decide_eq_true hpid]
        | interrupted =>
          have hagain := waitAllLoop_run arrives pids ((started arrives s).popped results)
          have hsame : ((started arrives s).popped results).result = s.result := rfl
          rw [hsame, if_pos hlt] at hagain
          dsimp only
          rw [← hagain, ← whileM_eq (descends_waitAllLoop arrives pids)]
  · rw [if_pos (by simpa using hlt)]
    rw [if_neg hlt] at hloop
    rw [hloop]

/-! ## What is told and what is lost -/

section Collected

variable (enough : Nat → Bool) (wanted : Exit → Bool) (caught : Exception → Bool)

/-- What `waitpid` is going to return, and the signals, are such that nothing is lost: once a child that has died is
held in the result, nothing is raised that leaves the function without it, and `waitpid` does not fail; and no
child that is not wanted has died. `held` is whether there is such a child, `n` how many are in the result. -/
def Safe : List WaitResult → Bool → Nat → Cache → Nat → Prop
  | [], held, n, signals, checks =>
    enough n = true ∨
      ∀ e, ((signals.arrive (arrives checks)).consume excludeChildTerminate).2 = some e → held = true → caught e = true
  | r :: results, held, n, signals, checks =>
    enough n = true ∨
      match (signals.arrive (arrives checks)).consume excludeChildTerminate with
      | (_, some e) => held = true → caught e = true
      | (signals, none) => match r with
        | .none => True
        | .failed => held = true → caught .other = true
        | .interrupted => Safe results held n signals (checks + 1)
        | .changed pid status =>
          let exit := exitOf pid status
          if wanted exit then Safe results (held || exit.deceased) (n + 1) signals (checks + 1)
          else exit.deceased = false ∧ Safe results held n signals (checks + 1)

/-- All that have died since are in the result. -/
def Told (base : List Exit) (s : Collector) : Prop :=
  ∀ e : Exit, e.deceased = true → s.reaped.count e = base.count e + s.result.count e

/-- None has died since. -/
def NoneDied (base : List Exit) (s : Collector) : Prop :=
  ∀ e : Exit, e.deceased = true → s.reaped.count e = base.count e

/-- What is collected has been seen. -/
structure Grows (s t : Collector) : Prop where
  reaped : ∀ e : Exit, s.reaped.count e ≤ t.reaped.count e
  result : ∀ e : Exit, t.result.count e + s.reaped.count e ≤ t.reaped.count e + s.result.count e
  reported : t.reported = s.reported

theorem Grows.trans {s t u : Collector} (h : Grows s t) (h' : Grows t u) : Grows s u := by
  refine ⟨fun e => (h.reaped e).trans (h'.reaped e), fun e => ?_, h'.reported.trans h.reported⟩
  have h₁ := h.result e
  have h₂ := h'.result e
  omega

theorem Grows.of_eq {s t : Collector} (hreaped : t.reaped = s.reaped) (hresult : t.result = s.result)
    (hreported : t.reported = s.reported) : Grows s t := by
  refine ⟨fun e => by rw [hreaped], fun e => ?_, hreported⟩
  rw [hreaped, hresult]
  omega

theorem grows_saw (s : Collector) (exit : Exit) :
    Grows s (if wanted exit then (s.saw exit).collect exit else s.saw exit) := by
  split_ifs
  · constructor
    · intro e
      simp [Collector.saw, Collector.collect]
    · intro e
      simp only [Collector.saw, Collector.collect, List.count_append]
      omega
    · rfl
  · constructor
    · intro e
      simp [Collector.saw]
    · intro e
      simp only [Collector.saw, List.count_append]
      omega
    · rfl

variable {enough wanted} {x : M Unit}

theorem Collects.grows (hx : Collects arrives enough wanted x) : ∀ (results : List WaitResult) (s : Collector),
    s.results = results → Grows s (after (x s)) := by
  intro results
  induction results with
  | nil =>
    intro s hs
    rw [hx s, hs]
    split_ifs
    · exact .of_eq rfl rfl rfl
    · cases raised arrives s <;> exact .of_eq rfl rfl rfl
  | cons r results ih =>
    intro s hs
    rw [hx s, hs]
    split_ifs
    · exact .of_eq rfl rfl rfl
    · cases raised arrives s with
      | some e => exact .of_eq rfl rfl rfl
      | none =>
        have hpopped : Grows s ((started arrives s).popped results) := .of_eq rfl rfl rfl
        cases r with
        | none => exact hpopped
        | failed => exact hpopped
        | interrupted => exact hpopped.trans (ih _ rfl)
        | changed pid status =>
          have hsaw := grows_saw wanted ((started arrives s).popped results) (exitOf pid status)
          refine (hpopped.trans hsaw).trans (ih _ ?_)
          split_ifs <;> rfl

/-- Where nothing has been left out so far, and what is held would be lost. -/
theorem noneDied_iff {base : List Exit} {s : Collector} (hbase : Told base s) :
    NoneDied base s ↔ s.result.any (·.deceased) = false := by
  rw [List.any_eq_false]
  constructor
  · intro h e he hdeceased
    have h₁ := hbase e hdeceased
    have h₂ := h e hdeceased
    have hpos := List.count_pos_iff.2 he
    omega
  · intro h e hdeceased
    rw [hbase e hdeceased, List.count_eq_zero_of_not_mem fun he => h e he hdeceased, Nat.add_zero]

/-- What is left when a loop has come to its end: all are told of when it returns, or what it throws is caught. -/
def Fine (base : List Exit) (r : EStateM.Result Exception Collector Unit) : Prop :=
  match r with
  | .ok _ t => Told base t
  | .error e t => if caught e = true then Told base t else NoneDied base t

variable {caught}

theorem fine_error {base : List Exit} {s t : Collector} (hbase : Told base s) (e : Exception)
    (hreaped : t.reaped = s.reaped) (hresult : t.result = s.result) :
    Fine caught base (.error e t) ↔ (s.result.any (·.deceased) = true → caught e = true) := by
  have htold : Told base t := fun e he => by rw [hreaped, hresult]; exact hbase e he
  have hnone := noneDied_iff htold
  rw [hresult] at hnone
  unfold Fine
  dsimp only
  split_ifs with hcaught
  · exact ⟨fun _ _ => hcaught, fun _ => htold⟩
  · rw [hnone]
    simp [hcaught]

/-- A child that died and was not wanted is never told of. -/
theorem not_fine {base : List Exit} {s t : Collector} {e : Exit} (hdeceased : e.deceased = true)
    (hlost : base.count e + s.result.count e < s.reaped.count e) {r : EStateM.Result Exception Collector Unit}
    (hr : after r = t) (hgrows : Grows s t) : ¬ Fine caught base r := by
  have h₁ := hgrows.reaped e
  have h₂ := hgrows.result e
  have htold : ¬ Told base t := fun h => by
    have := h e hdeceased
    omega
  have hnone : ¬ NoneDied base t := fun h => by
    have := h e hdeceased
    omega
  unfold Fine
  cases r with
  | ok _ u =>
    obtain rfl : u = t := hr
    exact htold
  | error x u =>
    obtain rfl : u = t := hr
    dsimp only
    split_ifs
    · exact htold
    · exact hnone

/-- A loop tells of all that died, exactly when the results and signals it meets are safe. -/
theorem Collects.fine_iff (hx : Collects arrives enough wanted x) {base : List Exit} :
    ∀ (results : List WaitResult) (s : Collector), s.results = results → Told base s →
      (Fine caught base (x s) ↔
        Safe arrives enough wanted caught results (s.result.any (·.deceased)) s.result.length s.signals s.checks) := by
  intro results
  induction results with
  | nil =>
    intro s hs hbase
    have hraised : raised arrives s = ((s.signals.arrive (arrives s.checks)).consume excludeChildTerminate).2 := rfl
    rw [hx s, hs]
    unfold Safe
    rw [← hraised]
    split_ifs with henough
    · exact ⟨fun _ => .inl henough, fun _ => hbase⟩
    · cases hr : raised arrives s with
      | some e =>
        dsimp only
        rw [fine_error hbase e (t := checked arrives s) rfl rfl]
        simp [henough]
      | none => exact ⟨fun _ => .inr nofun, fun _ => hbase⟩
  | cons r results ih =>
    intro s hs hbase
    have hpair : (s.signals.arrive (arrives s.checks)).consume excludeChildTerminate =
        ((checked arrives s).signals, raised arrives s) := rfl
    rw [hx s, hs]
    unfold Safe
    rw [hpair]
    split_ifs with henough
    · exact ⟨fun _ => .inl henough, fun _ => hbase⟩
    · simp only [henough, Bool.false_eq_true, false_or]
      cases hr : raised arrives s with
      | some e => exact fine_error hbase e rfl rfl
      | none =>
        cases r with
        | none => exact ⟨fun _ => trivial, fun _ => hbase⟩
        | failed => exact fine_error hbase .other rfl rfl
        | interrupted => exact ih ((started arrives s).popped results) rfl hbase
        | changed pid status =>
          dsimp only
          by_cases hwanted : wanted (exitOf pid status) = true
          · rw [if_pos hwanted, if_pos hwanted]
            have hnext := ih ((((started arrives s).popped results).saw (exitOf pid status)).collect (exitOf pid status)) rfl
              (by
                intro e he
                have := hbase e he
                change (s.reaped ++ [_]).count e = base.count e + (s.result ++ [_]).count e
                simp only [List.count_append]
                omega)
            have hheld : (s.result ++ [exitOf pid status]).any (·.deceased) =
                (s.result.any (·.deceased) || (exitOf pid status).deceased) := by simp
            have hlength : (s.result ++ [exitOf pid status]).length = s.result.length + 1 := by simp
            rw [← hheld, ← hlength]
            exact hnext
          · rw [if_neg hwanted, if_neg hwanted]
            cases hdeceased : (exitOf pid status).deceased with
            | false =>
              have hnext := ih (((started arrives s).popped results).saw (exitOf pid status)) rfl
                (by
                  intro e he
                  have hne : e ≠ exitOf pid status := fun h => by
                    rw [h, hdeceased] at he
                    cases he
                  have := hbase e he
                  change (s.reaped ++ [_]).count e = base.count e + s.result.count e
                  rw [List.count_append, List.count_singleton]
                  simp [Ne.symm hne, this])
              exact ⟨fun h => ⟨rfl, hnext.1 h⟩, fun h => hnext.2 h.2⟩
            | true =>
              refine ⟨fun h => absurd h (not_fine hdeceased ?_ rfl (hx.grows arrives results _ rfl)), fun h => nomatch h.1⟩
              have := hbase _ hdeceased
              change base.count _ + s.result.count _ < (s.reaped ++ [_]).count _
              rw [List.count_append, List.count_singleton_self]
              omega

end Collected

/-! ## The functions that collect -/

/-- What callers and callbacks have been told of is what has died, apart from `base`. -/
def Reported (s t : Collector) : Prop :=
  ∀ e : Exit, e.deceased = true → t.reported.count e + s.reaped.count e = t.reaped.count e + s.reported.count e

/-- A call, or `on::Terminate` that is called; with what `waitpid` returns meanwhile. -/
inductive Event
  | wait (results : List WaitResult)
  | ended (results : List WaitResult)
  | lifetimeWait (pids : List ℕ+) (results : List WaitResult)
  | lifetimeWaitTimeout (pids : List ℕ+) (results : List WaitResult)
  | lifetimeTerminate (sent : ℕ+ → Bool) (pids : List ℕ+) (results : List WaitResult)
  | lifetimeTerminateTimeout (sent : ℕ+ → Bool) (pids : List ℕ+) (results : List WaitResult)
  | onTerminate (thrown : Exception) (results : List WaitResult)

namespace Event

/-- What the system says of the processes while the event lasts. -/
def results : Event → List WaitResult
  | .wait results => results
  | .ended results => results
  | .lifetimeWait _ results => results
  | .lifetimeWaitTimeout _ results => results
  | .lifetimeTerminate _ _ results => results
  | .lifetimeTerminateTimeout _ _ results => results
  | .onTerminate _ results => results

/-- What is called, and the caller is told of what it returns. -/
def program : Event → M Unit
  | .wait _ => do
    let exit ← Process.wait arrives
    if exit.pid ≠ 0 then tell [exit]
  | .ended _ => Process.ended arrives >>= tell
  | .lifetimeWait pids _ => Process.lifetimeWait arrives pids >>= tell
  | .lifetimeWaitTimeout pids _ => Process.lifetimeWaitTimeout arrives pids >>= tell
  | .lifetimeTerminate sent pids _ => Process.lifetimeTerminate arrives sent pids >>= tell
  | .lifetimeTerminateTimeout sent pids _ => Process.lifetimeTerminateTimeout arrives sent pids >>= tell
  | .onTerminate thrown _ => Process.onTerminate arrives thrown

end Event

/-- An event. -/
def step (s : Collector) (e : Event) : Collector := after (e.program arrives { s with results := e.results })

/-- The condition for each way of collecting: one wait takes at most one exit; the set that is waited for is one of those
that could be sent to; and with a timeout an alarm is caught. -/
def Unlost (s : Collector) : Event → Prop
  | .wait _ => True
  | .ended results => Safe arrives (fun _ => false) (fun _ => true) (fun _ => false) results false 0 s.signals s.checks
  | .lifetimeWait pids results => Waited (fun _ => false) pids results
  | .lifetimeWaitTimeout pids results => pids = [] ∨ Waited (· == .timeout) pids results
  | .lifetimeTerminate sent pids results => Waited (fun _ => false) (terminate sent pids) results
  | .lifetimeTerminateTimeout sent pids results =>
    terminate sent pids = [] ∨ Waited (· == .timeout) (terminate sent pids) results
  | .onTerminate thrown results => thrown = .childTerminate →
    Safe arrives (fun _ => false) (fun _ => true) (fun _ => false) results false 0 s.signals s.checks
where
  /-- The condition for a set of processes. -/
  Waited (caught : Exception → Bool) (pids : List ℕ+) (results : List WaitResult) : Prop :=
    Safe arrives (fun n => decide (pids.length ≤ n)) (among pids) caught results false 0 s.signals s.checks

/-! ## What each of them tells -/

/-- A loop that collects into an empty result. -/
def collecting (x : M Unit) : M (List Exit) := do
  modify fun s => { s with result := [] }
  x
  return (← get).result

/-- A loop, some of whose exceptions are caught. -/
def Catches (caught : Exception → Bool) (x y : M Unit) : Prop :=
  ∀ s, y s = match x s with
    | .ok _ t => .ok () t
    | .error e t => if caught e = true then .ok () t else .error e t

/-- The process, as a call of one of the functions finds it. -/
def Collector.called (s : Collector) (results : List WaitResult) : Collector := { s with results, result := [] }

theorem collecting_run (y : M Unit) (s : Collector) (results : List WaitResult) :
    after ((collecting y >>= tell) { s with results }) = match y (s.called results) with
      | .ok _ t => { t with reported := t.reported ++ t.result }
      | .error _ t => t := by
  have hmodify : (modify fun s => { s with result := [] } : M PUnit) { s with results } = .ok ⟨⟩ (s.called results) := rfl
  unfold collecting
  rw [bind_assoc, bind_ok hmodify, bind_assoc]
  cases h : y (s.called results) with
  | error e t => rw [bind_error h]; rfl
  | ok _ t => rw [bind_ok h]; rfl

theorem reported_iff {enough : Nat → Bool} {wanted : Exit → Bool} {caught : Exception → Bool} {x y : M Unit}
    (hx : Collects arrives enough wanted x) (hy : Catches caught x y) (s : Collector) (results : List WaitResult) :
    Reported s (after ((collecting y >>= tell) { s with results })) ↔
      Safe arrives enough wanted caught results false 0 s.signals s.checks := by
  have hfine : Fine caught s.reaped (x (s.called results)) ↔
      Safe arrives enough wanted caught results false 0 s.signals s.checks :=
    hx.fine_iff arrives results (s.called results) rfl fun _ _ => rfl
  have hgrows := hx.grows arrives results (s.called results) rfl
  have htold : ∀ t : Collector, t.reported = s.reported →
      (Reported s { t with reported := t.reported ++ t.result } ↔ Told s.reaped t) := by
    intro t ht
    unfold Reported Told
    dsimp only
    apply forall_congr'
    intro e
    rw [ht, List.count_append]
    constructor
    · intro h hdeceased
      have := h hdeceased
      omega
    · intro h hdeceased
      have := h hdeceased
      omega
  have hnone : ∀ t : Collector, t.reported = s.reported → (Reported s t ↔ NoneDied s.reaped t) := by
    intro t ht
    unfold Reported NoneDied
    apply forall_congr'
    intro e
    rw [ht]
    constructor
    · intro h hdeceased
      have := h hdeceased
      omega
    · intro h hdeceased
      have := h hdeceased
      omega
  rw [collecting_run, hy, ← hfine]
  unfold Fine
  cases hr : x (s.called results) with
  | ok _ t =>
    rw [hr] at hgrows
    exact htold t hgrows.reported
  | error e t =>
    rw [hr] at hgrows
    dsimp only
    split_ifs
    · exact htold t hgrows.reported
    · exact hnone t hgrows.reported

theorem catches_none (x : M Unit) : Catches (fun _ => false) x x := by
  intro s
  cases x s <;> rfl

theorem catches_timeout (x : M Unit) : Catches (· == .timeout) x (tryCatch x fun
    | .timeout => pure ()
    | e => throw e) := by
  intro s
  cases h : x s with
  | ok _ t => exact tryCatch_ok h
  | error e t =>
    rw [tryCatch_error h]
    cases e <;> rfl

theorem forM_tell : ∀ (deaths : List Exit) (s : Collector),
    (deaths.forM fun death => tell [death]) s = .ok ⟨⟩ { s with reported := s.reported ++ deaths }
  | [], s => by
    rw [List.append_nil]
    rfl
  | death :: deaths, s => by
    have htell : tell [death] s = .ok () { s with reported := s.reported ++ [death] } := rfl
    change (tell [death] >>= fun _ => deaths.forM fun death => tell [death]) s = _
    rw [bind_ok htell, forM_tell deaths]
    simp

/-- One wait reaps at most the one it returns. -/
theorem wait_spec : ∀ (results : List WaitResult) (s : Collector), s.results = results →
    match wait arrives s with
    | .ok exit t => t.reported = s.reported ∧ t.reaped = s.reaped ++ (if exit.pid ≠ 0 then [exit] else [])
    | .error _ t => t.reported = s.reported ∧ t.reaped = s.reaped := by
  intro results
  induction results with
  | nil =>
    intro s hs
    rw [wait_run, hs]
    cases raised arrives s with
    | some e => exact ⟨rfl, rfl⟩
    | none => exact ⟨rfl, (List.append_nil _).symm⟩
  | cons r results ih =>
    intro s hs
    rw [wait_run, hs]
    cases raised arrives s with
    | some e => exact ⟨rfl, rfl⟩
    | none =>
      cases r with
      | none => exact ⟨rfl, (List.append_nil _).symm⟩
      | failed => exact ⟨rfl, rfl⟩
      | interrupted => exact ih ((started arrives s).popped results) rfl
      | changed pid status =>
        have hpid : (exitOf pid status).pid ≠ 0 := by
          rw [exitOf_pid]
          exact pid.ne_zero
        dsimp only
        rw [if_pos hpid]
        exact ⟨rfl, rfl⟩

theorem reported_wait (s : Collector) (results : List WaitResult) :
    Reported s (step arrives s (.wait results)) := by
  have hspec := wait_spec arrives results { s with results } rfl
  unfold step Event.program Event.results
  dsimp only
  intro e _
  cases h : wait arrives { s with results } with
  | error x t =>
    rw [h] at hspec
    rw [bind_error h, after_error, hspec.1, hspec.2, Nat.add_comm]
  | ok exit t =>
    rw [h] at hspec
    dsimp only at hspec
    rw [bind_ok h]
    by_cases hexit : exit.pid ≠ 0
    · rw [if_pos hexit] at hspec ⊢
      change (t.reported ++ [exit]).count e + _ = t.reaped.count e + _
      rw [hspec.1, hspec.2]
      simp only [List.count_append]
      omega
    · rw [if_neg hexit, List.append_nil] at hspec
      rw [if_neg hexit]
      change t.reported.count e + _ = t.reaped.count e + _
      rw [hspec.1, hspec.2, Nat.add_comm]

theorem reported_lifetimeWait (s : Collector) (pids : List ℕ+) (results : List WaitResult) :
    Reported s (after ((lifetimeWait arrives pids >>= tell) { s with results })) ↔
      Unlost.Waited arrives s (fun _ => false) pids results :=
  reported_iff arrives (collects_waitAll arrives pids) (catches_none _) s results

theorem reported_lifetimeWaitTimeout (s : Collector) (pids : List ℕ+) (results : List WaitResult) :
    Reported s (after ((lifetimeWaitTimeout arrives pids >>= tell) { s with results })) ↔
      (pids = [] ∨ Unlost.Waited arrives s (· == .timeout) pids results) := by
  cases pids with
  | nil =>
    refine ⟨fun _ => .inl rfl, fun _ => ?_⟩
    intro e _
    change (s.reported ++ []).count e + s.reaped.count e = s.reaped.count e + s.reported.count e
    rw [List.append_nil, Nat.add_comm]
  | cons pid pids =>
    have hiff := reported_iff arrives (collects_waitAll arrives (pid :: pids)) (catches_timeout _) s results
    exact ⟨fun h => .inr (hiff.1 h), fun h => hiff.2 (h.resolve_left nofun)⟩

theorem reported_ended (s : Collector) (results : List WaitResult) :
    Reported s (after ((ended arrives >>= tell) { s with results })) ↔
      Safe arrives (fun _ => false) (fun _ => true) (fun _ => false) results false 0 s.signals s.checks :=
  reported_iff arrives (collects_ended arrives) (catches_none _) s results

/-- The callback is called for each of the deaths, as if they were told at once. -/
theorem onTerminate_eq (thrown : Exception) :
    onTerminate arrives thrown = if thrown = .childTerminate then ended arrives >>= tell else throw thrown := by
  unfold onTerminate
  split_ifs
  · apply bind_congr
    intro deaths
    funext s
    exact forM_tell deaths s
  · rfl

/-- A call, or `on::Terminate`, tells of each child that it reaps exactly once, if and only if nothing is lost. -/
theorem reported_step (s : Collector) (e : Event) : Reported s (step arrives s e) ↔ Unlost arrives s e := by
  cases e with
  | wait results => exact ⟨fun _ => trivial, fun _ => reported_wait arrives s results⟩
  | ended results => exact reported_ended arrives s results
  | lifetimeWait pids results => exact reported_lifetimeWait arrives s pids results
  | lifetimeWaitTimeout pids results => exact reported_lifetimeWaitTimeout arrives s pids results
  | lifetimeTerminate sent pids results => exact reported_lifetimeWait arrives s (terminate sent pids) results
  | lifetimeTerminateTimeout sent pids results =>
    exact reported_lifetimeWaitTimeout arrives s (terminate sent pids) results
  | onTerminate thrown results =>
    unfold step Event.program Event.results Unlost
    dsimp only
    rw [onTerminate_eq]
    by_cases hthrown : thrown = .childTerminate
    · rw [if_pos hthrown]
      have hiff := reported_ended arrives s results
      exact ⟨fun h _ => hiff.1 h, fun h => hiff.2 (h hthrown)⟩
    · rw [if_neg hthrown]
      refine ⟨fun _ h => absurd h hthrown, fun _ e _ => ?_⟩
      exact Nat.add_comm _ _

/-! ## Whole runs -/

/-- A process that has reaped nothing yet. -/
def machine : Machine Collector Event where
  init s := s.reaped = [] ∧ s.reported = []
  admits _ _ := True
  step := step arrives

/-- Each child that has been reaped was told of once. -/
def NoneLost (s : Collector) : Prop := ∀ e : Exit, e.deceased = true → s.reported.count e = s.reaped.count e

theorem Reported.noneLost {s t : Collector} (hs : NoneLost s) (h : Reported s t) : NoneLost t := by
  intro e he
  have h₁ := hs e he
  have h₂ := h e he
  omega

/-- A call tells of each child that it reaps exactly when its condition holds; and in a run of such calls none is lost. -/
theorem noneLost_of_reachable :
    (∀ s e, Reported s (step arrives s e) ↔ Unlost arrives s e) ∧
      ∀ s, ((machine arrives).restrict (Unlost arrives)).Reachable s → NoneLost s := by
  refine ⟨reported_step arrives, fun s hs => hs.invariant ?_ ?_⟩
  · rintro t ⟨hreaped, hreported⟩
    intro e _
    rw [hreaped, hreported]
  · intro t e ht he
    exact Reported.noneLost ht ((reported_step arrives t e).2 he.2)

/-! ### A signal between two children -/

/-- No signal arrives but those that are pending. -/
def quiet : Nat → Cache := fun _ => ⟨0, 0, 0⟩

/-- Nothing has been reaped, and signals are pending. -/
def fresh (signals : Cache) : Collector := ⟨[], signals, 0, .initial, [], [], []⟩

/-- Two children have ended. -/
def two : List WaitResult := [.changed 5 (.exited 0), .changed 6 (.signaled 9 false)]

theorem reachable_step (signals : Cache) (e : Event) : (machine quiet).Reachable (step quiet (fresh signals) e) := by
  have hinit : (machine quiet).init (fresh signals) := ⟨rfl, rfl⟩
  exact (Machine.Reachable.of_init hinit).step (e := e) trivial

theorem reachable_unlost {signals : Cache} {e : Event} (h : Unlost quiet (fresh signals) e) :
    ((machine quiet).restrict (Unlost quiet)).Reachable (step quiet (fresh signals) e) := by
  have hinit : ((machine quiet).restrict (Unlost quiet)).init (fresh signals) := ⟨rfl, rfl⟩
  exact (Machine.Reachable.of_init hinit).step (e := e) ⟨trivial, h⟩

/-- The first of two children is reaped before an alarm is raised; and where the other one is waited for, it is reaped
before that. Neither is told of. -/
theorem alarmed_lost :
    (∃ s, (machine quiet).Reachable s ∧ s.reaped = [⟨5, 0, .exited⟩] ∧ s.reported = [] ∧ ¬ NoneLost s) ∧
      ∃ s, (machine quiet).Reachable s ∧ s.reaped = [⟨5, 0, .exited⟩, ⟨6, 9, .signaled⟩] ∧
        s.reported = [⟨6, 9, .signaled⟩] ∧ ¬ NoneLost s := by
  constructor
  · refine ⟨_, reachable_step ⟨1, 1, 0⟩ (.onTerminate .childTerminate two), by decide +kernel, by decide +kernel, fun h => ?_⟩
    have := h ⟨5, 0, .exited⟩ rfl
    revert this
    decide +kernel
  · refine ⟨_, reachable_step ⟨1, 0, 0⟩ (.lifetimeWait [6] two), by decide +kernel, by decide +kernel, fun h => ?_⟩
    have := h ⟨5, 0, .exited⟩ rfl
    revert this
    decide +kernel

/-- Where no alarm is raised, the callback is told of both. -/
theorem quiet_noneLost : Unlost quiet (fresh ⟨1, 0, 0⟩) (.onTerminate .childTerminate two) ∧
    NoneLost (step quiet (fresh ⟨1, 0, 0⟩) (.onTerminate .childTerminate two)) := by
  have hreported : (step quiet (fresh ⟨1, 0, 0⟩) (.onTerminate .childTerminate two)).reported =
      [⟨5, 0, .exited⟩, ⟨6, 9, .signaled⟩] := by decide +kernel
  have hreaped : (step quiet (fresh ⟨1, 0, 0⟩) (.onTerminate .childTerminate two)).reaped =
      [⟨5, 0, .exited⟩, ⟨6, 9, .signaled⟩] := by decide +kernel
  have hunlost := ((noneLost_of_reachable quiet).1 (fresh ⟨1, 0, 0⟩) (.onTerminate .childTerminate two)).1 (by
    intro e _
    rw [hreported, hreaped]
    simp [fresh])
  exact ⟨hunlost, (noneLost_of_reachable quiet).2 _ (reachable_unlost hunlost)⟩

end Casual.Process

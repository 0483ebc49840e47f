/-
`common/signal.cpp` and `common/process.cpp`: how the deaths of child processes are collected, while signals
arrive.
-/
import Casual.Lib.Loop

namespace Casual.Process

open Lib

/-! ## Signals -/

/-- `signal::Filter`. -/
structure Filter where
  excludeAlarm : Bool
  excludeChildTerminate : Bool
  excludeTerminate : Bool
  deriving DecidableEq

/-- `Filter::exclude_child_terminate`. -/
def excludeChildTerminate : Filter := ⟨false, true, false⟩

/-- What is thrown: `exception::signal::child::Terminate`, `Timeout` and `Terminate`, and what is thrown when
`waitpid` fails. -/
inductive Exception
  | childTerminate
  | timeout
  | terminate
  | other
  deriving DecidableEq, Repr

/-- `Cache`: the signals that are pending. `signal_count` is the sum of the others. -/
structure Cache where
  childTerminate : Nat
  alarm : Nat
  terminate : Nat
  deriving DecidableEq, Repr

namespace Cache

/-- The handlers have been called. -/
def arrive (c new : Cache) : Cache :=
  ⟨c.childTerminate + new.childTerminate, c.alarm + new.alarm, c.terminate + new.terminate⟩

/-- `consume`: one signal, which is thrown unless it is excluded. -/
def consume (c : Cache) (filter : Filter) : Cache × Option Exception :=
  if c.childTerminate > 0 then
    ({ c with childTerminate := c.childTerminate - 1 },
      if filter.excludeChildTerminate then none else some .childTerminate)
  else if c.alarm > 0 then
    ({ c with alarm := c.alarm - 1 }, if filter.excludeAlarm then none else some .timeout)
  else if c.terminate > 0 then
    ({ c with terminate := c.terminate - 1 }, if filter.excludeTerminate then none else some .terminate)
  else (c, none)

end Cache

/-! ## Exits -/

/-- `lifetime::Exit::Reason`. -/
inductive Reason
  | core
  | exited
  | stopped
  | continued
  | signaled
  | unknown
  deriving DecidableEq, Repr

/-- `lifetime::Exit`. -/
structure Exit where
  pid : Nat
  status : Nat
  reason : Reason
  deriving DecidableEq, Repr

/-- `Exit()`. -/
def Exit.initial : Exit := ⟨0, 0, .unknown⟩

/-- `deceased`: the process has been reaped. -/
def Exit.deceased (e : Exit) : Bool := e.reason == .core || e.reason == .exited || e.reason == .signaled

/-- What the status that `waitpid` gives says. -/
inductive Status
  | exited (code : Nat)
  | signaled (signal : Nat) (core : Bool)
  | stopped (signal : Nat)
  | continued
  deriving DecidableEq, Repr

/-- What `waitpid` returns: the process that has changed; zero, or that there are no children; and that it was
interrupted, or failed otherwise. -/
inductive WaitResult
  | changed (pid : ℕ+) (status : Status)
  | none
  | interrupted
  | failed
  deriving DecidableEq

/-- What is made of a status. -/
def exitOf (pid : ℕ+) : Status → Exit
  | .exited code => ⟨pid, code, .exited⟩
  | .signaled signal core => if core then ⟨pid, 0, .core⟩ else ⟨pid, signal, .signaled⟩
  | .stopped signal => ⟨pid, signal, .stopped⟩
  | .continued => ⟨pid, 0, .continued⟩

/-! ## Collecting -/

/-- A process with children: what `waitpid` will return, until there are no children, the signals that are pending and
how often they were looked at; `exit` and `result` are what the functions collect into. `reaped` are the exits that
`waitpid` has told of, `reported` those that callers and callbacks were told of. -/
structure Collector where
  results : List WaitResult
  signals : Cache
  checks : Nat
  exit : Exit
  result : List Exit
  reaped : List Exit
  reported : List Exit

/-- What is done with the processes that have ended. -/
abbrev M := EStateM Exception Collector

variable (arrives : Nat → Cache)

/-- `signal::handle`. Before each time, signals arrive. -/
def handle (filter : Filter) : M Unit := do
  let s ← get
  let (signals, thrown) := (s.signals.arrive (arrives s.checks)).consume filter
  set { s with signals, checks := s.checks + 1 }
  match thrown with
  | some e => throw e
  | .none => pure ()

/-- `waitpid`. -/
def waitpid : M WaitResult := do
  let s ← get
  match s.results with
  | [] => return .none
  | r :: results =>
    set { s with results }
    return r

/-- The lambda `loop` of `local::wait`. -/
def waitLoop : M Bool := do
  match ← waitpid with
  | .interrupted =>
    handle arrives excludeChildTerminate
    return true
  | .failed => throw .other
  | .none => return false
  | .changed pid status =>
    modify fun s => { s with exit := exitOf pid status, reaped := s.reaped ++ [exitOf pid status] }
    return false

/-- `local::wait` of a process, or of any. -/
def wait : M Exit := do
  handle arrives excludeChildTerminate
  modify fun s => { s with exit := .initial }
  whileM (·.results.length) (waitLoop arrives)
  return (← get).exit

/-- The loop of `ended`. -/
def endedLoop : M Bool := do
  let exit ← wait arrives
  if exit.pid ≠ 0 then
    modify fun s => { s with result := s.result ++ [exit] }
    return true
  else return false

/-- `lifetime::ended`. -/
def ended : M (List Exit) := do
  modify fun s => { s with result := [] }
  whileM (·.results.length) (endedLoop arrives)
  return (← get).result

/-- The loop of `local::wait` of a set of processes. -/
def waitAllLoop (pids : List ℕ+) : M Bool := do
  if (← get).result.length < pids.length then
    let exit ← wait arrives
    if pids.any fun pid => pid == exit.pid then
      modify fun s => { s with result := s.result ++ [exit] }
      return true
    else return exit.pid ≠ 0
  else return false

/-- `local::wait` of a set of processes. -/
def waitAll (pids : List ℕ+) : M Unit := whileM (·.results.length) (waitAllLoop arrives pids)

/-- `lifetime::wait`. -/
def lifetimeWait (pids : List ℕ+) : M (List Exit) := do
  modify fun s => { s with result := [] }
  waitAll arrives pids
  return (← get).result

/-- `lifetime::wait` with a timeout, which raises an alarm. -/
def lifetimeWaitTimeout (pids : List ℕ+) : M (List Exit) := do
  if pids.isEmpty then return []
  else
    modify fun s => { s with result := [] }
    tryCatch (waitAll arrives pids) fun
      | .timeout => pure ()
      | e => throw e
    return (← get).result

/-- `process::terminate`: those that the signal could be sent to. -/
def terminate (sent : ℕ+ → Bool) (pids : List ℕ+) : List ℕ+ := pids.filter sent

/-- `lifetime::terminate`. -/
def lifetimeTerminate (sent : ℕ+ → Bool) (pids : List ℕ+) : M (List Exit) := lifetimeWait arrives (terminate sent pids)

/-- `lifetime::terminate` with a timeout. -/
def lifetimeTerminateTimeout (sent : ℕ+ → Bool) (pids : List ℕ+) : M (List Exit) :=
  lifetimeWaitTimeout arrives (terminate sent pids)

/-! ## Reporting -/

/-- The caller is told of what a function returns. -/
def tell (deaths : List Exit) : M Unit := modify fun s => { s with reported := s.reported ++ deaths }

/-- `on::Terminate`, called when an exception has been thrown. The callback puts the death on the inbound device of the
process itself. -/
def onTerminate (thrown : Exception) : M Unit := do
  if thrown = .childTerminate then
    let terminated ← ended arrives
    terminated.forM fun death => tell [death]
  else throw thrown

end Casual.Process

/-
`common/transaction/context.cpp`: the stack of transactions of a process, and what its resources are told
when transactions begin, are suspended, resumed and completed.
-/
import Casual.Lib.Run
import Casual.Server.Transaction

namespace Casual.Tx

open Lib Common Communication Call Server

/-- The flags of `xa.h`. -/
inductive Flags
  | TMNOFLAGS
  | TMSUCCESS
  | TMSUSPEND
  | TMRESUME
  deriving DecidableEq, Repr

/-- `Context::Control`. -/
inductive Control
  | unchained
  | chained
  | stacked
  deriving DecidableEq, Repr

/-- A call of `Resource::start` or of `Resource::end`; what the resource answers is logged and no more. -/
structure ResourceCall where
  rm : Nat
  xid : Transaction.XID
  isStart : Bool
  flags : Flags
  deriving DecidableEq

/-- `Context`; `singleton` is that of `current`, and `log` has the calls of the resources. -/
structure Context where
  process : Process
  dynamic : List Nat
  fixed : List Nat
  control : Control
  logged : Bool
  singleton : Transaction
  transactions : List Transaction
  log : List ResourceCall

/-- What the functions of the context throw; `emptyStack` is a read of a stack with nothing on it. -/
inductive Exception
  | protocol
  | outside
  | noBegin
  | argument
  | error
  | other
  /-- The last of no transactions, which the source goes on with. -/
  | emptyStack
  deriving DecidableEq, Repr

/-- What the resource and the TM answer when a transaction is completed; without an answer the call throws. -/
structure Answers where
  resource : Int
  commit : Option CommitReply
  committed : Option Int
  rollback : Option Int
  deriving DecidableEq

/-- What a call does to the context. -/
abbrev M := EStateM Exception Context

namespace Context

/-- `m_resources.all`, partitioned. -/
def all (s : Context) : List Nat := s.dynamic ++ s.fixed

/-- `current`. -/
def current (s : Context) : Transaction := s.transactions.getLast?.getD s.singleton

/-- `resources_start`: only static resources. -/
def resourcesStart (t : Transaction) (flags : Flags) (s : Context) : Context :=
  match t.trid with
  | none => s
  | some id => { s with log := s.log ++ s.fixed.map fun rm => ⟨rm, id.xid, true, flags⟩ }

/-- `resources_end`: all resources. -/
def resourcesEnd (t : Transaction) (flags : Flags) (s : Context) : Context :=
  match t.trid with
  | none => s
  | some id => { s with log := s.log ++ s.all.map fun rm => ⟨rm, id.xid, false, flags⟩ }

/-- A transaction is put on the stack. -/
def push (t : Transaction) (s : Context) : Context := { s with transactions := s.transactions ++ [t] }

/-- The topmost transaction is gone. -/
def pop (s : Context) : Context := { s with transactions := s.transactions.dropLast }

/-- `current() = `, where there is one. -/
def setCurrent (t : Transaction) (s : Context) : Context :=
  match s.transactions.getLast? with
  | none => { s with singleton := t }
  | some _ => (s.pop).push t

/-- A service joins a transaction, which can be null. -/
def join (trid : Option Transaction.ID) (s : Context) : Context :=
  (s.resourcesStart (.make trid) .TMNOFLAGS).push (.make trid)

end Context

open Context

/-! ## The functions -/

/-- `startTransaction`, with the `XID` that is created. -/
def startTransaction (created : Transaction.XID) (s : Context) : Transaction := .make (some ⟨created, s.process⟩)

/-- A transaction that is new is current. -/
def started (created : Transaction.XID) (s : Context) : Context :=
  (s.resourcesStart (startTransaction created s) .TMNOFLAGS).push (startTransaction created s)

/-- `begin`. -/
def begin (created : Transaction.XID) : M Int := fun s =>
  let transaction := s.current
  if transaction.trid.isSome then
    if s.control ≠ .stacked then .error .protocol s
    else .ok TX_OK (started created (s.resourcesEnd transaction .TMSUSPEND))
  else if transaction.resources ≠ [] then .error .outside s
  else .ok TX_OK (started created s)

/-- What the resource or the TM says to a commit. -/
def commitAnswer (a : Answers) (t : Transaction) (s : Context) : Except Exception Int :=
  if t.isLocal ∧ t.resources.length + s.fixed.length ≤ 1 then
    match t.resources ++ s.fixed with
    | rm :: _ => if rm ∈ s.all then .ok (xaTotx a.resource) else .error .error
    | [] => .ok TX_OK
  else
    match a.commit with
    | none => .error .other
    | some ⟨_, .prepare, state⟩ =>
      if s.logged then .ok (xaTotx state)
      else
        match a.committed with
        | none => .error .other
        | some state => .ok (xaTotx state)
    | some ⟨_, .commit, state⟩ => .ok (xaTotx state)
    | some ⟨_, .error, state⟩ => .ok (xaTotx state)

/-- The result of a rollback, or what the manager's answer makes of it. -/
def rollbackAnswer (a : Answers) : Except Exception Int :=
  match a.rollback with
  | none => .error .other
  | some state => .ok (xaTotx state)

/-- What becomes of the context when the resources have been told. -/
def answered (answer : Except Exception Int) : M Int := fun s =>
  match answer with
  | .error e => .error e s
  | .ok result => .ok result s

/-- `commit( transaction)`. -/
def commitTransaction (a : Answers) (t : Transaction) : M Int := fun s =>
  match t.trid with
  | none => .error .noBegin s
  | some id =>
    if id.owner ≠ s.process then .error .protocol s
    else if t.state ≠ .active then .error .protocol s
    else if t.descriptors ≠ [] then .error .protocol s
    else answered (commitAnswer a t s) (s.resourcesEnd t .TMSUCCESS)

/-- `rollback( transaction)`. -/
def rollbackTransaction (a : Answers) (t : Transaction) : M Int := fun s =>
  match t.trid with
  | none => .error .protocol s
  | some id =>
    if id.owner ≠ s.process then .error .protocol s
    else answered (rollbackAnswer a) (s.resourcesEnd t .TMSUCCESS)

/-- `pop_transaction`, with the `XID` that is created when one is started. -/
def popTransaction (created : Transaction.XID) : M Int := fun s =>
  match s.transactions.getLast? with
  | none => .error .emptyStack s
  | some _ =>
    match s.control with
    | .unchained => .ok TX_OK (s.pop.push (.make none))
    | .chained => begin created (s.pop.push (.make none))
    | .stacked =>
      let s := s.pop
      match s.transactions.getLast? with
      | none => .error .emptyStack s
      -- the resources are told to end, with the flag to resume
      | some previous => .ok TX_OK (s.resourcesEnd previous .TMRESUME)

/-- `commit` and `rollback`. -/
def complete (transaction : Transaction → M Int) (created : Transaction.XID) : M Int := fun s =>
  match transaction s.current s with
  | .error e s => .error e s
  | .ok result s => if result = TX_OK then popTransaction created s else .ok result s

/-- `Context::commit`. -/
def commit (a : Answers) (created : Transaction.XID) : M Int := complete (commitTransaction a) created

/-- `Context::rollback`. -/
def rollback (a : Answers) (created : Transaction.XID) : M Int := complete (rollbackTransaction a) created

/-- `suspend`; `xid` is null or not. -/
def suspend (xid : Bool) : M Int := fun s =>
  if xid = false then .error .argument s
  else
    let ongoing := s.current
    if ongoing.trid = none then .error .protocol s
    else .ok TX_OK ((s.resourcesEnd ongoing .TMSUSPEND).push (.make none))

/-- `resume`; the pointer is null, or points to a null `XID` or another. -/
def resume (xid : Option (Option Transaction.XID)) : M Int := fun s =>
  match xid with
  | none => .error .argument s
  | some none => .error .argument s
  | some (some xid) =>
    let ongoing := s.current
    if ongoing.trid.isSome then .error .protocol s
    else if ongoing.resources ≠ [] then .error .outside s
    else
      let is := fun t : Transaction => t.trid.any fun id => id.xid == xid
      match s.transactions.find? is with
      | none => .error .argument s
      | some found =>
        let s := (s.resourcesStart found .TMRESUME).pop
        -- rotated to the end
        .ok TX_OK (push found { s with transactions := s.transactions.eraseP is })

/-- The flag of a resource that is resumed. -/
def TM_RESUME : Int := 1

/-- The resource has been registered. -/
def TM_OK : Int := 0

/-- The resource is none. -/
def TMER_INVAL : Int := -2

/-- The resource is registered in the wrong place. -/
def TMER_PROTO : Int := -3

/-- `resourceRegistration`. -/
def resourceRegistration (rmid : Nat) : M Int := fun s =>
  if rmid ∉ s.dynamic then .ok TMER_INVAL s
  else if rmid ∈ s.current.resources then .ok TM_RESUME s
  else .ok TM_OK (s.setCurrent { s.current with resources := s.current.resources ++ [rmid] })

/-- `resourceUnregistration`. -/
def resourceUnregistration (rmid : Nat) : M Int := fun s =>
  if s.current.trid = none ∧ rmid ∈ s.current.resources then
    .ok TM_OK (s.setCurrent { s.current with resources := s.current.resources.erase rmid })
  else .ok TMER_PROTO s

/-! ## Runs -/

/-- What a program does with its transactions; calls are associated, and their replies update. -/
inductive Event
  | begin (created : Transaction.XID)
  | commit (answers : Answers) (created : Transaction.XID)
  | rollback (answers : Answers) (created : Transaction.XID)
  | suspend (xid : Bool)
  | resume (xid : Option (Option Transaction.XID))
  | control (control : Control)
  | commitReturn (logged : Bool)
  | register (rmid : Nat)
  | unregister (rmid : Nat)
  | associate (descriptor : Nat)
  | update (outcome : Outcome) (descriptor : Nat)

/-- What the application calls. -/
def call : Event → M Int
  | .begin created => begin created
  | .commit a created => commit a created
  | .rollback a created => rollback a created
  | .suspend xid => suspend xid
  | .resume xid => resume xid
  | .control value => fun s => .ok TX_OK { s with control := value }
  | .commitReturn value => fun s => .ok TX_OK { s with logged := value }
  | .register rmid => resourceRegistration rmid
  | .unregister rmid => resourceUnregistration rmid
  | .associate descriptor => fun s =>
    if h : s.current.trid = none then .ok TX_OK s
    else .ok TX_OK (s.setCurrent (s.current.associate h descriptor))
  | .update outcome descriptor => fun s =>
    match Call.update outcome descriptor s.transactions with
    | none => .error .other s
    | some updated => .ok TX_OK { s with transactions := updated }

/-! ## Completions -/

/-- What `commit` checks of the current transaction. -/
def Context.committable (s : Context) : Option Transaction.ID :=
  s.current.trid.filter fun id => id.owner = s.process ∧ s.current.state = .active ∧ s.current.descriptors = []

/-- What `rollback` checks of it. -/
def Context.rollbackable (s : Context) : Option Transaction.ID := s.current.trid.filter fun id => id.owner = s.process

/-- The transaction whose resources are ended to complete it, and what is answered. -/
def completion (s : Context) : Event → Option (Transaction.ID × Except Exception Int)
  | .commit a _ => s.committable.map fun id => (id, commitAnswer a s.current s)
  | .rollback a _ => s.rollbackable.map fun id => (id, rollbackAnswer a)
  | _ => none

/-- A call returns `TX_OK`. -/
def succeeds : Except Exception Int → Bool
  | .ok result => result = TX_OK
  | .error _ => false

/-- What the completion of a transaction comes to. -/
def completed (answer : Except Exception Int) (created : Transaction.XID) : M Int := fun s =>
  match answer with
  | .error e => .error e s
  | .ok result => if result = TX_OK then popTransaction created s else .ok result s

theorem commit_none {a : Answers} {created : Transaction.XID} {s : Context} (h : s.committable = none) :
    ∃ e, commit a created s = .error e s ∧ e ≠ .emptyStack := by
  unfold commit complete commitTransaction
  unfold Context.committable at h
  cases htrid : s.current.trid with
  | none => exact ⟨.noBegin, rfl, Exception.noConfusion⟩
  | some id =>
    rw [htrid, Option.filter_some] at h
    simp only
    split_ifs with howner hstate hdescriptors
    · exact ⟨.protocol, rfl, Exception.noConfusion⟩
    · exact ⟨.protocol, rfl, Exception.noConfusion⟩
    · exact ⟨.protocol, rfl, Exception.noConfusion⟩
    · have hall : id.owner = s.process ∧ s.current.state = .active ∧ s.current.descriptors = [] :=
        ⟨not_not.1 howner, not_not.1 hstate, not_not.1 hdescriptors⟩
      rw [decide_eq_true hall] at h
      cases h

theorem commit_some {a : Answers} {created : Transaction.XID} {s : Context} {id : Transaction.ID} (h : s.committable = some id) :
    s.current.trid = some id ∧
      commit a created s = completed (commitAnswer a s.current s) created (s.resourcesEnd s.current .TMSUCCESS) := by
  obtain ⟨htrid, hall⟩ := Option.filter_eq_some_iff.1 h
  obtain ⟨howner, hstate, hdescriptors⟩ := of_decide_eq_true hall
  refine ⟨htrid, ?_⟩
  unfold commit complete commitTransaction
  simp only [htrid]
  rw [if_neg (not_not.2 howner), if_neg (not_not.2 hstate), if_neg (not_not.2 hdescriptors)]
  unfold answered completed
  cases commitAnswer a s.current s <;> rfl

theorem rollback_none {a : Answers} {created : Transaction.XID} {s : Context} (h : s.rollbackable = none) :
    ∃ e, rollback a created s = .error e s ∧ e ≠ .emptyStack := by
  unfold rollback complete rollbackTransaction
  unfold Context.rollbackable at h
  cases htrid : s.current.trid with
  | none => exact ⟨.protocol, rfl, Exception.noConfusion⟩
  | some id =>
    rw [htrid, Option.filter_some] at h
    simp only
    split_ifs with howner
    · exact ⟨.protocol, rfl, Exception.noConfusion⟩
    · rw [decide_eq_true (not_not.1 howner)] at h
      cases h

theorem rollback_some {a : Answers} {created : Transaction.XID} {s : Context} {id : Transaction.ID} (h : s.rollbackable = some id) :
    s.current.trid = some id ∧
      rollback a created s = completed (rollbackAnswer a) created (s.resourcesEnd s.current .TMSUCCESS) := by
  obtain ⟨htrid, howner⟩ := Option.filter_eq_some_iff.1 h
  refine ⟨htrid, ?_⟩
  unfold rollback complete rollbackTransaction
  simp only [htrid]
  rw [if_neg (not_not.2 (of_decide_eq_true howner))]
  unfold answered completed
  cases rollbackAnswer a <;> rfl

theorem commitAnswer_ne (a : Answers) (t : Transaction) (s : Context) : commitAnswer a t s ≠ .error .emptyStack := by
  unfold commitAnswer
  repeat' split
  all_goals simp

theorem rollbackAnswer_ne (a : Answers) : rollbackAnswer a ≠ .error .emptyStack := by
  unfold rollbackAnswer
  split <;> simp

/-- What `commit` and `rollback` come to: they are refused, or the resources are ended and it depends on the answer. -/
inductive Completes (s : Context) (e : Event) (created : Transaction.XID) : Prop
  | refused {exception : Exception} (hcall : call e s = .error exception s) (hne : exception ≠ .emptyStack)
      (hcompletion : completion s e = none)
  | ended {id : Transaction.ID} {answer : Except Exception Int} (htrid : s.current.trid = some id)
      (hanswer : answer ≠ .error .emptyStack)
      (hcall : call e s = completed answer created (s.resourcesEnd s.current .TMSUCCESS))
      (hcompletion : completion s e = some (id, answer))

theorem commit_completes (a : Answers) (created : Transaction.XID) (s : Context) : Completes s (.commit a created) created := by
  cases hid : s.committable with
  | none =>
    obtain ⟨exception, hcall, hne⟩ := @commit_none a created _ hid
    exact .refused hcall hne (congrArg (Option.map _) hid)
  | some id =>
    obtain ⟨htrid, hcall⟩ := @commit_some a created _ _ hid
    exact .ended htrid (commitAnswer_ne _ _ _) hcall (congrArg (Option.map _) hid)

theorem rollback_completes (a : Answers) (created : Transaction.XID) (s : Context) : Completes s (.rollback a created) created := by
  cases hid : s.rollbackable with
  | none =>
    obtain ⟨exception, hcall, hne⟩ := @rollback_none a created _ hid
    exact .refused hcall hne (congrArg (Option.map _) hid)
  | some id =>
    obtain ⟨htrid, hcall⟩ := @rollback_some a created _ _ hid
    exact .ended htrid (rollbackAnswer_ne _) hcall (congrArg (Option.map _) hid)

/-! ## Runs -/

/-- A process, whether its stack was read when it was empty, and the transactions whose resources were ended
by a completion that failed. -/
structure Watched where
  state : Context
  overrun : Bool
  failed : List Transaction.XID

/-- A call reads a stack with nothing on it. -/
def overruns : EStateM.Result Exception Context Int → Bool
  | .error .emptyStack _ => true
  | _ => false

/-- The context after a call. -/
def after : EStateM.Result Exception Context Int → Context
  | .ok _ s => s
  | .error _ s => s

namespace Watched

/-- A call, and what has gone wrong with it. -/
def watch (w : Watched) (e : Event) : Watched where
  state := after (call e w.state)
  overrun := overruns (call e w.state)
  failed := w.failed ++ (((completion w.state e).filter fun c => !succeeds c.2).map fun c => c.1.xid).toList

end Watched

/-- A process that starts, with the resources it is linked with. -/
def fresh (process : Process) (dynamic fixed : List Nat) : Context :=
  ⟨process, dynamic, fixed, .unchained, false, .make none, [], []⟩

/-- It starts on its own or with a service, which joins a transaction; resources have different ids. -/
def machine : Machine Watched Event where
  init w := ∃ process dynamic fixed, (dynamic ++ fixed).Nodup ∧
    (w = ⟨fresh process dynamic fixed, false, []⟩ ∨ ∃ trid, w = ⟨(fresh process dynamic fixed).join trid, false, []⟩)
  admits w _ := w.overrun = false
  step := Watched.watch

/-! ## What holds of a run -/

/-- The calls of a resource for a transaction: whether each is a start. -/
def calls (rm : Nat) (xid : Transaction.XID) (log : List ResourceCall) : List Bool :=
  (log.filter fun c => c.rm = rm ∧ c.xid = xid).map ResourceCall.isStart

/-- Whether the work is going on after a call; none when the call does not fit. -/
def track (working : Option Bool) (isStart : Bool) : Option Bool := working.bind fun w => if w = isStart then none else some isStart

/-- First a start, then an end, and so on. -/
def Alternates (calls : List Bool) : Prop := (calls.foldl track (some false)).isSome

/-- What is begun in stacked mode is pushed; when it is completed it is popped, and the resources of the one
that is current then are started in resume mode. -/
def Nests (s : Context) : Event → Prop
  | .begin created => s.control = .stacked → ∀ result t, begin created s = .ok result t →
      t.transactions = s.transactions ++ [startTransaction created s]
  | e => s.control = .stacked → ∀ c ∈ completion s e, succeeds c.2 → ∃ t top, call e s = .ok TX_OK t ∧
      s.transactions = t.transactions ++ [top] ∧ ∀ id ∈ t.current.trid,
        t.log = (s.resourcesEnd s.current .TMSUCCESS).log ++ s.fixed.map fun rm => ⟨rm, id.xid, true, .TMRESUME⟩

/-- The current transaction, where an event ends its resources. -/
def Context.ends (s : Context) : Event → Option Transaction.ID
  | .begin _ => if s.control = .stacked then s.current.trid else none
  | .suspend xid => if xid then s.current.trid else none
  | e => (completion s e).map Prod.fst

theorem Context.ends_of_completion {s : Context} {e : Event} {id : Transaction.ID} {answer : Except Exception Int}
    (h : completion s e = some (id, answer)) : s.ends e = some id := by
  cases e with
  | commit a created => exact congrArg (Option.map Prod.fst) h
  | rollback a created => exact congrArg (Option.map Prod.fst) h
  | _ => cases h

/-- Where resources are ended, the transaction is not one whose completion failed, and there are no dynamic resources,
which are not started; and in stacked mode none is completed that lies upon another. -/
structure Watched.Sound (w : Watched) (e : Event) : Prop where
  once : ∀ id ∈ w.state.ends e, id.xid ∉ w.failed
  static : ∀ id ∈ w.state.ends e, w.state.dynamic = []
  upon : ∀ c ∈ completion w.state e, succeeds c.2 → w.state.control = .stacked →
    ∃ below ∈ w.state.pop.transactions.getLast?, below.trid = none

/-! ### The calls of the resources -/

/-- No static resource works but for one transaction, if any. -/
def Tracks (s : Context) (working : Option Transaction.XID) : Prop :=
  ∀ rm ∈ s.fixed, ∀ xid, (calls rm xid s.log).foldl track (some false) = some (decide (working = some xid))

theorem calls_append (rm : Nat) (xid : Transaction.XID) (log more : List ResourceCall) :
    calls rm xid (log ++ more) = calls rm xid log ++ calls rm xid more := by
  unfold calls
  rw [List.filter_append, List.map_append]

/-- All resources are called once, so each of them is. -/
theorem calls_map {rm : Nat} {resources : List Nat} (hnodup : resources.Nodup) (hrm : rm ∈ resources) (xid id : Transaction.XID)
    (isStart : Bool) (flags : Flags) :
    calls rm xid (resources.map fun rm => ⟨rm, id, isStart, flags⟩) = if id = xid then [isStart] else [] := by
  unfold calls
  rw [List.filter_map, List.map_map]
  split_ifs with hid
  · have hfilter : resources.filter ((fun c : ResourceCall => decide (c.rm = rm ∧ c.xid = xid)) ∘ fun rm => ⟨rm, id, isStart, flags⟩) =
        resources.filter (· == rm) := by
      refine List.filter_congr fun other _ => ?_
      simp [hid, beq_eq_decide]
    rw [hfilter, List.filter_beq, List.count_eq_one_of_mem hnodup hrm]
    rfl
  · have hfilter : resources.filter ((fun c : ResourceCall => decide (c.rm = rm ∧ c.xid = xid)) ∘ fun rm => ⟨rm, id, isStart, flags⟩) = [] := by
      refine List.filter_eq_nil_iff.2 fun other _ => ?_
      simp [hid]
    rw [hfilter]
    rfl

namespace Tracks

variable {s : Context} {t : Transaction} {id : Transaction.ID}

theorem resourcesStart (h : Tracks s none) (hnodup : s.fixed.Nodup) (hid : t.trid = some id) (flags : Flags) :
    Tracks (s.resourcesStart t flags) (some id.xid) := by
  intro rm hrm xid
  unfold Context.resourcesStart at hrm ⊢
  rw [hid] at hrm ⊢
  show (calls rm xid (s.log ++ _)).foldl track (some false) = _
  rw [calls_append, calls_map hnodup hrm, List.foldl_append, h rm hrm xid]
  split_ifs with hxid
  · rw [hxid]
    simp [track]
  · simp [hxid]

theorem resourcesEnd (h : Tracks s (some id.xid)) (hnodup : s.all.Nodup) (hid : t.trid = some id) (flags : Flags) :
    Tracks (s.resourcesEnd t flags) none := by
  intro rm hrm xid
  unfold Context.resourcesEnd at hrm ⊢
  rw [hid] at hrm ⊢
  have hall : rm ∈ s.all := List.mem_append_right _ hrm
  show (calls rm xid (s.log ++ _)).foldl track (some false) = _
  rw [calls_append, calls_map hnodup hall, List.foldl_append, h rm hrm xid]
  split_ifs with hxid
  · rw [hxid]
    simp [track]
  · simp [hxid]

end Tracks

/-! ### What the functions leave as it was -/

section Frame

variable (t : Transaction) (flags : Flags) (s : Context)

@[simp] theorem resourcesStart_transactions : (s.resourcesStart t flags).transactions = s.transactions := by
  unfold Context.resourcesStart
  cases t.trid <;> rfl

@[simp] theorem resourcesStart_process : (s.resourcesStart t flags).process = s.process := by
  unfold Context.resourcesStart
  cases t.trid <;> rfl

@[simp] theorem resourcesStart_all : (s.resourcesStart t flags).all = s.all := by
  unfold Context.resourcesStart
  cases t.trid <;> rfl

@[simp] theorem resourcesStart_singleton : (s.resourcesStart t flags).singleton = s.singleton := by
  unfold Context.resourcesStart
  cases t.trid <;> rfl

@[simp] theorem resourcesEnd_transactions : (s.resourcesEnd t flags).transactions = s.transactions := by
  unfold Context.resourcesEnd
  cases t.trid <;> rfl

@[simp] theorem resourcesEnd_process : (s.resourcesEnd t flags).process = s.process := by
  unfold Context.resourcesEnd
  cases t.trid <;> rfl

@[simp] theorem resourcesEnd_control : (s.resourcesEnd t flags).control = s.control := by
  unfold Context.resourcesEnd
  cases t.trid <;> rfl

@[simp] theorem resourcesEnd_all : (s.resourcesEnd t flags).all = s.all := by
  unfold Context.resourcesEnd
  cases t.trid <;> rfl

@[simp] theorem resourcesEnd_singleton : (s.resourcesEnd t flags).singleton = s.singleton := by
  unfold Context.resourcesEnd
  cases t.trid <;> rfl

theorem resourcesEnd_none (h : t.trid = none) : s.resourcesEnd t flags = s := by
  unfold Context.resourcesEnd
  rw [h]

theorem startTransaction_end (created : Transaction.XID) : startTransaction created (s.resourcesEnd t flags) = startTransaction created s := by
  unfold startTransaction
  rw [resourcesEnd_process]

end Frame

theorem current_push (s : Context) (t : Transaction) : (s.push t).current = t := by
  unfold Context.current Context.push
  rw [List.getLast?_concat]
  rfl

theorem current_of_last {s : Context} {t : Transaction} (h : s.transactions.getLast? = some t) : s.current = t := by
  unfold Context.current
  rw [h]
  rfl

theorem current_end (s : Context) (t : Transaction) (flags : Flags) : (s.resourcesEnd t flags).current = s.current := by
  unfold Context.current
  rw [resourcesEnd_transactions, resourcesEnd_singleton]

/-- What is known of a process, with the transaction its static resources work for. -/
structure Holds (s : Context) (working : Option Transaction.XID) : Prop where
  nodup : s.all.Nodup
  single : s.singleton.trid = none
  tracks : Tracks s working

namespace Holds

variable {s : Context} {working : Option Transaction.XID}

theorem fixed (h : Holds s working) : s.fixed.Nodup := (List.nodup_append.1 h.nodup).2.1

/-- A transaction that is current is on the stack. -/
theorem nonempty (h : Holds s working) {id : Transaction.ID} (hid : s.current.trid = some id) : ∃ init top, s.transactions = init ++ [top] := by
  rcases List.eq_nil_or_concat' s.transactions with hnil | ⟨init, top, hconcat⟩
  · unfold Context.current at hid
    rw [hnil, List.getLast?_nil, Option.getD_none, h.single] at hid
    cases hid
  · exact ⟨init, top, hconcat⟩

theorem started (h : Holds s none) (created : Transaction.XID) : Holds (started created s) (some created) := by
  have htracks := h.tracks.resourcesStart h.fixed (t := startTransaction created s) rfl .TMNOFLAGS
  have hall := resourcesStart_all (startTransaction created s) .TMNOFLAGS s
  have hsingleton := resourcesStart_singleton (startTransaction created s) .TMNOFLAGS s
  refine ⟨?_, ?_, htracks⟩
  · show (s.resourcesStart (startTransaction created s) .TMNOFLAGS).all.Nodup
    rw [hall]
    exact h.nodup
  · show (s.resourcesStart (startTransaction created s) .TMNOFLAGS).singleton.trid = none
    rw [hsingleton]
    exact h.single

theorem ended {t : Transaction} {id : Transaction.ID} (h : Holds s (some id.xid)) (hid : t.trid = some id) (flags : Flags) :
    Holds (s.resourcesEnd t flags) none := by
  refine ⟨?_, ?_, h.tracks.resourcesEnd h.nodup hid flags⟩
  · rw [resourcesEnd_all]
    exact h.nodup
  · rw [resourcesEnd_singleton]
    exact h.single

/-- Neither the stack nor the singleton is of any concern to the resources. -/
theorem restack (h : Holds s working) (transactions : List Transaction) : Holds { s with transactions } working :=
  ⟨h.nodup, h.single, h.tracks⟩

/-- `pop_transaction`: what is current then is what the resources work for. -/
theorem popTransaction (h : Holds s none) (hne : ∃ init top, s.transactions = init ++ [top]) (created : Transaction.XID)
    (hbelow : s.control = .stacked → ∃ below ∈ s.pop.transactions.getLast?, below.trid = none) :
    ∃ t, Tx.popTransaction created s = .ok TX_OK t ∧ Holds t (t.current.trid.map Transaction.ID.xid) ∧ (s.control = .stacked → t = s.pop) := by
  obtain ⟨init, top, htop⟩ := hne
  have hlast : s.transactions.getLast? = some top := by rw [htop, List.getLast?_concat]
  unfold Tx.popTransaction
  simp only [hlast]
  cases hcontrol : s.control with
  | unchained =>
    refine ⟨_, rfl, ?_, Control.noConfusion⟩
    rw [current_push]
    exact h.restack _
  | chained =>
    have hnull : (s.pop.push (.make none)).current = .make none := current_push _ _
    refine ⟨Tx.started created (s.pop.push (.make none)), ?_, ?_, Control.noConfusion⟩
    · simp only [begin, hnull]
      rfl
    · have hstarted : Holds (Tx.started created (s.pop.push (.make none))) (some created) := (h.restack _).started created
      have hcurrent : (Tx.started created (s.pop.push (.make none))).current = startTransaction created (s.pop.push (.make none)) :=
        current_push _ _
      rw [hcurrent]
      exact hstarted
  | stacked =>
    obtain ⟨below, hmem, hnull⟩ := hbelow hcontrol
    have hprevious : s.pop.transactions.getLast? = some below := hmem
    refine ⟨s.pop, ?_, ?_, fun _ => rfl⟩
    · simp only [hprevious]
      rw [resourcesEnd_none _ _ _ hnull]
    · rw [current_of_last hprevious, hnull]
      exact h.restack _

end Holds

/-! ### What a step keeps -/

namespace Watched

/-- The transaction that the resources work for: the current one, unless it was ended to complete it. -/
def working (w : Watched) : Option Transaction.XID := (w.state.current.trid.map Transaction.ID.xid).filter fun xid => xid ∉ w.failed

/-- What every call keeps that is sound. -/
structure Kept (w : Watched) : Prop where
  holds : Holds w.state w.working
  calm : w.overrun = false
  failing : ∀ xid ∈ w.failed, w.state.current.trid.map Transaction.ID.xid = some xid

namespace Kept

variable {w : Watched}

theorem working_of_failed_nil {s : Context} {overrun : Bool} : working ⟨s, overrun, []⟩ = s.current.trid.map Transaction.ID.xid := by
  unfold working
  cases s.current.trid <;> rfl

/-- Nothing has failed where there is no transaction. -/
theorem failed_of_none (h : w.Kept) (hnone : w.state.current.trid = none) : w.failed = [] := by
  refine List.eq_nil_iff_forall_not_mem.2 fun xid hxid => ?_
  have hcurrent := h.failing xid hxid
  rw [hnone] at hcurrent
  cases hcurrent

theorem failed_of_notMem (h : w.Kept) {id : Transaction.ID} (hid : w.state.current.trid = some id) (hnot : id.xid ∉ w.failed) :
    w.failed = [] := by
  refine List.eq_nil_iff_forall_not_mem.2 fun xid hxid => ?_
  have hcurrent := h.failing xid hxid
  rw [hid] at hcurrent
  obtain rfl := Option.some.inj hcurrent
  exact hnot hxid

theorem idle (h : w.Kept) (hnone : w.state.current.trid = none) : Holds w.state none := by
  have hholds := h.holds
  unfold working at hholds
  rw [hnone] at hholds
  exact hholds

theorem atWork (h : w.Kept) {id : Transaction.ID} (hid : w.state.current.trid = some id) (hnot : id.xid ∉ w.failed) :
    Holds w.state (some id.xid) := by
  have hholds := h.holds
  unfold working at hholds
  rw [hid, Option.map_some, Option.filter_some, decide_eq_true hnot, if_pos rfl] at hholds
  exact hholds

/-- A step after which the resources work for the transaction that is current. -/
theorem fresh {e : Event} {result : Int} {s : Context} (hcall : call e w.state = .ok result s) (hfailed : w.failed = [])
    (hcompletion : (completion w.state e).filter (fun c => !succeeds c.2) = none)
    (hholds : Holds s (s.current.trid.map Transaction.ID.xid)) : (w.watch e).Kept := by
  have hwatch : w.watch e = ⟨s, false, []⟩ := by
    unfold watch
    rw [hcall, hfailed, hcompletion]
    rfl
  rw [hwatch]
  refine ⟨?_, rfl, List.forall_mem_nil _⟩
  rw [working_of_failed_nil]
  exact hholds

/-- A step that changes neither which transaction is current nor what the resources do. -/
theorem same (h : w.Kept) {e : Event} {result : Int} {s : Context} (hcall : call e w.state = .ok result s)
    (hcompletion : completion w.state e = none) (hcurrent : s.current.trid = w.state.current.trid)
    (hholds : ∀ working, Holds w.state working → Holds s working) : (w.watch e).Kept := by
  have hwatch : w.watch e = ⟨s, false, w.failed⟩ := by
    unfold watch
    rw [hcall, hcompletion]
    show Watched.mk s false (w.failed ++ []) = _
    rw [List.append_nil]
  rw [hwatch]
  have hworking : working ⟨s, false, w.failed⟩ = w.working := by
    unfold working
    rw [hcurrent]
  refine ⟨?_, rfl, fun xid hxid => ?_⟩
  · rw [hworking]
    exact hholds _ h.holds
  · show s.current.trid.map Transaction.ID.xid = some xid
    rw [hcurrent]
    exact h.failing xid hxid

/-- A step that is refused. -/
theorem refused (h : w.Kept) {e : Event} {exception : Exception} (hcall : call e w.state = .error exception w.state)
    (hne : exception ≠ .emptyStack) (hcompletion : completion w.state e = none) : (w.watch e).Kept := by
  have hwatch : w.watch e = w := by
    have hoverruns : overruns (.error exception w.state) = w.overrun := by
      rw [h.calm]
      cases exception with
      | emptyStack => exact absurd rfl hne
      | _ => rfl
    unfold watch
    rw [hcall, hcompletion, hoverruns]
    show Watched.mk w.state w.overrun (w.failed ++ []) = w
    rw [List.append_nil]
  rw [hwatch]
  exact h

theorem begin (h : w.Kept) {created : Transaction.XID} (hsound : w.Sound (.begin created)) : (w.watch (.begin created)).Kept := by
  have hstarted : ∀ {s : Context}, Holds s none → Holds (started created s) ((started created s).current.trid.map Transaction.ID.xid) := by
    intro s hs
    have hcurrent : (started created s).current = startTransaction created s := current_push _ _
    rw [hcurrent]
    exact hs.started created
  cases hid : w.state.current.trid with
  | none =>
    by_cases hresources : w.state.current.resources = []
    · have hcall : call (.begin created) w.state = .ok TX_OK (started created w.state) := by
        simp only [call, Tx.begin, hid, hresources, Option.isSome_none, Bool.false_eq_true, if_false, ne_eq, not_true_eq_false]
      exact fresh hcall (h.failed_of_none hid) rfl (hstarted (h.idle hid))
    · have hcall : call (.begin created) w.state = .error .outside w.state := by
        simp only [call, Tx.begin, hid, hresources, Option.isSome_none, Bool.false_eq_true, if_false, ne_eq, not_false_eq_true, if_true]
      exact h.refused hcall Exception.noConfusion rfl
  | some id =>
    by_cases hcontrol : w.state.control = .stacked
    · have hnot := hsound.once id ((if_pos hcontrol).trans hid)
      have hcall : call (.begin created) w.state = .ok TX_OK (started created (w.state.resourcesEnd w.state.current .TMSUSPEND)) := by
        simp only [call, Tx.begin, hid, hcontrol, Option.isSome_some, if_true, ne_eq, not_true_eq_false, if_false]
      exact fresh hcall (h.failed_of_notMem hid hnot) rfl (hstarted ((h.atWork hid hnot).ended hid .TMSUSPEND))
    · have hcall : call (.begin created) w.state = .error .protocol w.state := by
        simp only [call, Tx.begin, hid, hcontrol, Option.isSome_some, if_true, ne_eq, not_false_eq_true]
      exact h.refused hcall Exception.noConfusion rfl

theorem suspend (h : w.Kept) {xid : Bool} (hsound : w.Sound (.suspend xid)) : (w.watch (.suspend xid)).Kept := by
  cases xid with
  | false =>
    have hcall : call (.suspend false) w.state = .error .argument w.state := rfl
    exact h.refused hcall Exception.noConfusion rfl
  | true =>
    cases hid : w.state.current.trid with
    | none =>
      have hcall : call (.suspend true) w.state = .error .protocol w.state := by
        simp only [call, Tx.suspend, hid, Bool.true_eq_false, if_false, if_true]
      exact h.refused hcall Exception.noConfusion rfl
    | some id =>
      have hnot := hsound.once id hid
      have hcall : call (.suspend true) w.state = .ok TX_OK ((w.state.resourcesEnd w.state.current .TMSUSPEND).push (.make none)) := by
        simp only [call, Tx.suspend, hid, Bool.true_eq_false, if_false, reduceCtorEq]
      refine fresh hcall (h.failed_of_notMem hid hnot) rfl ?_
      rw [current_push]
      exact ((h.atWork hid hnot).ended hid .TMSUSPEND).restack _

theorem resume (h : w.Kept) (xid : Option (Option Transaction.XID)) : (w.watch (.resume xid)).Kept := by
  rcases xid with _ | _ | xid
  · have hcall : call (.resume none) w.state = .error .argument w.state := rfl
    exact h.refused hcall Exception.noConfusion rfl
  · have hcall : call (.resume (some none)) w.state = .error .argument w.state := rfl
    exact h.refused hcall Exception.noConfusion rfl
  · cases hid : w.state.current.trid with
    | some id =>
      have hcall : call (.resume (some (some xid))) w.state = .error .protocol w.state := by
        simp only [call, Tx.resume, hid, Option.isSome_some, if_true]
      exact h.refused hcall Exception.noConfusion rfl
    | none =>
      by_cases hresources : w.state.current.resources = []
      · cases hfound : w.state.transactions.find? fun t : Transaction => t.trid.any fun id => id.xid == xid with
        | none =>
          have hcall : call (.resume (some (some xid))) w.state = .error .argument w.state := by
            simp only [call, Tx.resume, hid, hresources, hfound, Option.isSome_none, Bool.false_eq_true, if_false, ne_eq,
              not_true_eq_false]
          exact h.refused hcall Exception.noConfusion rfl
        | some found =>
          have his := List.find?_some hfound
          rw [Option.any_eq_true] at his
          obtain ⟨id, hfid, -⟩ := his
          have hcall : ∃ transactions, call (.resume (some (some xid))) w.state =
              .ok TX_OK (push found { (w.state.resourcesStart found .TMRESUME) with transactions := transactions }) := by
            simp only [call, Tx.resume, hid, hresources, hfound, Option.isSome_none, Bool.false_eq_true, if_false, ne_eq,
              not_true_eq_false]
            exact ⟨_, rfl⟩
          obtain ⟨transactions, hcall⟩ := hcall
          refine fresh hcall (h.failed_of_none hid) rfl ?_
          have hidle := h.idle hid
          rw [current_push, hfid]
          refine Holds.restack (Holds.restack ⟨?_, ?_, hidle.tracks.resourcesStart hidle.fixed hfid .TMRESUME⟩ _) _
          · rw [resourcesStart_all]
            exact hidle.nodup
          · rw [resourcesStart_singleton]
            exact hidle.single
      · have hcall : call (.resume (some (some xid))) w.state = .error .outside w.state := by
          simp only [call, Tx.resume, hid, hresources, Option.isSome_none, Bool.false_eq_true, if_false, ne_eq, not_false_eq_true,
            if_true]
        exact h.refused hcall Exception.noConfusion rfl

/-- `commit` and `rollback`, when the resources are ended. -/
theorem completed (h : w.Kept) {e : Event} {id : Transaction.ID} {answer : Except Exception Int} {created : Transaction.XID}
    (hcompletion : completion w.state e = some (id, answer)) (hid : w.state.current.trid = some id)
    (hanswer : answer ≠ .error .emptyStack)
    (hcall : call e w.state = Tx.completed answer created (w.state.resourcesEnd w.state.current .TMSUCCESS))
    (hnot : id.xid ∉ w.failed)
    (hbelow : succeeds answer → w.state.control = .stacked → ∃ below ∈ w.state.pop.transactions.getLast?, below.trid = none) :
    (w.watch e).Kept := by
  have hended : Holds (w.state.resourcesEnd w.state.current .TMSUCCESS) none := (h.atWork hid hnot).ended hid .TMSUCCESS
  have hfailed := h.failed_of_notMem hid hnot
  by_cases hsucceeds : succeeds answer = true
  · have hok : answer = .ok TX_OK := by
      cases answer with
      | error e => cases hsucceeds
      | ok result => rw [of_decide_eq_true hsucceeds]
    have hne : ∃ init top, (w.state.resourcesEnd w.state.current .TMSUCCESS).transactions = init ++ [top] := by
      rw [resourcesEnd_transactions]
      exact (h.atWork hid hnot).nonempty hid
    have hcontrol : (w.state.resourcesEnd w.state.current .TMSUCCESS).control = .stacked →
        ∃ below ∈ (w.state.resourcesEnd w.state.current .TMSUCCESS).pop.transactions.getLast?, below.trid = none := by
      intro hstacked
      rw [resourcesEnd_control] at hstacked
      unfold Context.pop
      rw [resourcesEnd_transactions]
      exact hbelow hsucceeds hstacked
    obtain ⟨t, ht, hholds, -⟩ := hended.popTransaction hne created hcontrol
    have hstep : call e w.state = .ok TX_OK t := by
      rw [hcall, hok]
      exact ht
    refine fresh hstep hfailed ?_ hholds
    rw [hcompletion, Option.filter_some, hsucceeds]
    rfl
  · have hfails : succeeds answer = false := Bool.eq_false_iff.2 hsucceeds
    have hstep : after (call e w.state) = w.state.resourcesEnd w.state.current .TMSUCCESS ∧ overruns (call e w.state) = false := by
      rw [hcall]
      cases answer with
      | error exception =>
        refine ⟨rfl, ?_⟩
        cases exception with
        | emptyStack => exact absurd rfl hanswer
        | _ => rfl
      | ok result =>
        have hresult : result ≠ TX_OK := of_decide_eq_false hfails
        unfold Tx.completed
        simp only
        rw [if_neg hresult]
        exact ⟨rfl, rfl⟩
    have hwatch : w.watch e = ⟨w.state.resourcesEnd w.state.current .TMSUCCESS, false, [id.xid]⟩ := by
      unfold watch
      rw [hstep.1, hstep.2, hfailed, hcompletion, Option.filter_some, hfails]
      rfl
    have hcurrent : (w.state.resourcesEnd w.state.current .TMSUCCESS).current.trid = some id := by rw [current_end, hid]
    rw [hwatch]
    refine ⟨?_, rfl, fun xid hxid => ?_⟩
    · unfold working
      rw [hcurrent, Option.map_some, Option.filter_some, decide_eq_false (not_not.2 List.mem_cons_self)]
      exact hended
    · show (w.state.resourcesEnd w.state.current .TMSUCCESS).current.trid.map Transaction.ID.xid = some xid
      rw [hcurrent, List.mem_singleton.1 hxid]
      rfl

/-! #### The other events -/

theorem setCurrent (h : w.Kept) {e : Event} {result : Int} {t : Transaction} (hcall : call e w.state = .ok result (w.state.setCurrent t))
    (hcompletion : completion w.state e = none) (ht : t.trid = w.state.current.trid) : (w.watch e).Kept := by
  unfold Context.setCurrent at hcall
  cases hlast : w.state.transactions.getLast? with
  | none =>
    simp only [hlast] at hcall
    have hcurrent : w.state.current = w.state.singleton := by
      unfold Context.current
      rw [hlast]
      rfl
    refine h.same hcall hcompletion ?_ fun working hs => ⟨hs.nodup, ?_, hs.tracks⟩
    · unfold Context.current
      rw [hlast]
      rw [hcurrent] at ht
      exact ht
    · rw [hcurrent, hs.single] at ht
      exact ht
  | some top =>
    simp only [hlast] at hcall
    refine h.same hcall hcompletion ?_ fun working hs => hs.restack _
    rw [current_push, ht]

theorem update_trids {outcome : Outcome} {descriptor : Nat} {transactions updated : List Transaction}
    (hupdate : Call.update outcome descriptor transactions = some updated) :
    updated.map Call.Transaction.trid = transactions.map Call.Transaction.trid := by
  unfold Call.update at hupdate
  split at hupdate
  · cases hupdate
    rw [List.map_map]
    rfl
  · obtain ⟨i, -, rfl⟩ := Option.map_eq_some_iff.1 hupdate
    refine List.ext_getElem (by simp) fun n hn hn' => ?_
    simp only [List.getElem_map, List.getElem_modify]
    split_ifs <;> rfl

theorem current_trid (s : Context) : s.current.trid = ((s.transactions.map Call.Transaction.trid).getLast?).getD s.singleton.trid := by
  unfold Context.current
  rw [List.getLast?_map]
  cases s.transactions.getLast? <;> rfl

theorem completes (h : w.Kept) {e : Event} {created : Transaction.XID} (hcompletes : Completes w.state e created)
    (hsound : w.Sound e) : (w.watch e).Kept := by
  cases hcompletes with
  | refused hcall hne hcompletion => exact h.refused hcall hne hcompletion
  | ended htrid hanswer hcall hcompletion =>
    have hends := Context.ends_of_completion hcompletion
    exact h.completed hcompletion htrid hanswer hcall (hsound.once _ hends) (hsound.upon _ hcompletion)

theorem step (h : w.Kept) {e : Event} (hsound : w.Sound e) : (w.watch e).Kept := by
  cases e with
  | begin created => exact h.begin hsound
  | commit a created => exact h.completes (commit_completes a created _) hsound
  | rollback a created => exact h.completes (rollback_completes a created _) hsound
  | suspend xid => exact h.suspend hsound
  | resume xid => exact h.resume xid
  | control value => exact h.same rfl rfl rfl fun _ hs => ⟨hs.nodup, hs.single, hs.tracks⟩
  | commitReturn value => exact h.same rfl rfl rfl fun _ hs => ⟨hs.nodup, hs.single, hs.tracks⟩
  | register rmid =>
    by_cases hdynamic : rmid ∉ w.state.dynamic
    · have hcall : call (.register rmid) w.state = .ok TMER_INVAL w.state := if_pos hdynamic
      exact h.same hcall rfl rfl fun _ hs => hs
    · by_cases hknown : rmid ∈ w.state.current.resources
      · have hcall : call (.register rmid) w.state = .ok TM_RESUME w.state := (if_neg hdynamic).trans (if_pos hknown)
        exact h.same hcall rfl rfl fun _ hs => hs
      · exact h.setCurrent ((if_neg hdynamic).trans (if_neg hknown)) rfl rfl
  | unregister rmid =>
    by_cases hknown : w.state.current.trid = none ∧ rmid ∈ w.state.current.resources
    · exact h.setCurrent (if_pos hknown) rfl rfl
    · have hcall : call (.unregister rmid) w.state = .ok TMER_PROTO w.state := if_neg hknown
      exact h.same hcall rfl rfl fun _ hs => hs
  | associate descriptor =>
    by_cases hnone : w.state.current.trid = none
    · have hcall : call (.associate descriptor) w.state = .ok TX_OK w.state := dif_pos hnone
      exact h.same hcall rfl rfl fun _ hs => hs
    · exact h.setCurrent (dif_neg hnone) rfl rfl
  | update outcome descriptor =>
    cases hupdate : Call.update outcome descriptor w.state.transactions with
    | none =>
      have hcall : call (.update outcome descriptor) w.state = .error .other w.state := by simp only [call, hupdate]
      exact h.refused hcall Exception.noConfusion rfl
    | some updated =>
      have hcall : call (.update outcome descriptor) w.state = .ok TX_OK { w.state with transactions := updated } := by
        simp only [call, hupdate]
      refine h.same hcall rfl ?_ fun _ hs => hs.restack _
      rw [current_trid, current_trid]
      show ((updated.map Call.Transaction.trid).getLast?).getD w.state.singleton.trid = _
      rw [update_trids hupdate]

end Kept

/-! ### The stack -/

theorem kept_init {w : Watched} (h : machine.init w) : w.Kept := by
  obtain ⟨process, dynamic, fixed, hnodup, rfl | ⟨trid, rfl⟩⟩ := h
  · refine ⟨⟨hnodup, rfl, fun rm _ xid => rfl⟩, rfl, List.forall_mem_nil _⟩
  · have hidle : Holds (Tx.fresh process dynamic fixed) none := ⟨hnodup, rfl, fun rm _ xid => rfl⟩
    refine ⟨?_, rfl, List.forall_mem_nil _⟩
    rw [Kept.working_of_failed_nil]
    unfold Context.join
    rw [current_push]
    cases trid with
    | none => exact hidle.restack _
    | some id =>
      have htracks := hidle.tracks.resourcesStart (t := .make (some id)) hidle.fixed rfl .TMNOFLAGS
      exact ⟨hnodup, rfl, htracks⟩

/-- `commit` and `rollback` in stacked mode. -/
theorem Kept.nests_completed {w : Watched} (h : w.Kept) {e : Event} {created : Transaction.XID}
    (hcompletes : Completes w.state e created) (hsound : w.Sound e) (hstacked : w.state.control = .stacked)
    {c : Transaction.ID × Except Exception Int} (hc : c ∈ completion w.state e) (hsucceeds : succeeds c.2 = true) :
    ∃ t top, call e w.state = .ok TX_OK t ∧ w.state.transactions = t.transactions ++ [top] ∧ ∀ id ∈ t.current.trid,
      t.log = (w.state.resourcesEnd w.state.current .TMSUCCESS).log ++ w.state.fixed.map fun rm => ⟨rm, id.xid, true, .TMRESUME⟩ := by
  have hbelow := hsound.upon c hc hsucceeds hstacked
  cases hcompletes with
  | refused hcall hne hcompletion =>
    rw [hcompletion] at hc
    cases hc
  | @ended id answer hid hanswer hcall hcompletion =>
    have hnot := hsound.once id (Context.ends_of_completion hcompletion)
    rw [hcompletion] at hc
    obtain rfl := Option.some.inj hc
    have hok : answer = .ok TX_OK := by
      cases answer with
      | error e => cases hsucceeds
      | ok result => rw [of_decide_eq_true hsucceeds]
    obtain ⟨init, top, htop⟩ := (h.atWork hid hnot).nonempty hid
    have hended : Holds (w.state.resourcesEnd w.state.current .TMSUCCESS) none := (h.atWork hid hnot).ended hid .TMSUCCESS
    have hpop : (w.state.resourcesEnd w.state.current .TMSUCCESS).pop.transactions = w.state.pop.transactions := by
      unfold Context.pop
      rw [resourcesEnd_transactions]
    obtain ⟨t, ht, -, hsame⟩ := hended.popTransaction ⟨init, top, (resourcesEnd_transactions _ _ _).trans htop⟩ created
      fun _ => hpop ▸ hbelow
    obtain rfl := hsame ((resourcesEnd_control _ _ _).trans hstacked)
    refine ⟨(w.state.resourcesEnd w.state.current .TMSUCCESS).pop, top, ?_, ?_, fun id' hid' => ?_⟩
    · rw [hcall, hok]
      exact ht
    · rw [hpop]
      show w.state.transactions = w.state.transactions.dropLast ++ [top]
      rw [htop, List.dropLast_concat]
    · obtain ⟨below, hmem, hnull⟩ := hbelow
      rw [current_of_last ((congrArg List.getLast? hpop).trans hmem), hnull] at hid'
      cases hid'

theorem Kept.nests {w : Watched} (h : w.Kept) {e : Event} (hsound : w.Sound e) : Nests w.state e := by
  cases e with
  | begin created =>
    intro hstacked result t hcall
    have htransactions : ∀ s : Context, (started created s).transactions = s.transactions ++ [startTransaction created s] := by
      intro s
      unfold started Context.push
      rw [resourcesStart_transactions]
    unfold Tx.begin at hcall
    simp only at hcall
    split_ifs at hcall
    · cases hcall
      rw [htransactions, resourcesEnd_transactions, startTransaction_end]
    · cases hcall
      exact htransactions w.state
  | commit a created => exact fun hstacked _ => h.nests_completed (commit_completes a created _) hsound hstacked
  | rollback a created => exact fun hstacked _ => h.nests_completed (rollback_completes a created _) hsound hstacked
  | _ => exact fun _ _ hc => nomatch hc

/-! ### The dynamic resources -/

/-- Only static resources are told anything. -/
structure Static (s t : Context) : Prop where
  dynamic : t.dynamic = s.dynamic
  fixed : t.fixed = s.fixed
  log : ∃ more, t.log = s.log ++ more ∧ ∀ c ∈ more, c.rm ∈ s.fixed

namespace Static

variable {s t : Context}

/-- Nothing is told to any. -/
theorem of_same (hdynamic : t.dynamic = s.dynamic) (hfixed : t.fixed = s.fixed) (hlog : t.log = s.log) : Static s t :=
  ⟨hdynamic, hfixed, [], by rw [hlog, List.append_nil], List.forall_mem_nil _⟩

theorem refl (s : Context) : Static s s := of_same rfl rfl rfl

theorem trans {u : Context} (h : Static s t) (h' : Static t u) : Static s u := by
  obtain ⟨more, hlog, hmore⟩ := h.log
  obtain ⟨more', hlog', hmore'⟩ := h'.log
  refine ⟨h'.dynamic.trans h.dynamic, h'.fixed.trans h.fixed, more ++ more', ?_, ?_⟩
  · rw [hlog', hlog, List.append_assoc]
  · rintro c hc
    rcases List.mem_append.1 hc with hc | hc
    · exact hmore c hc
    · exact h.fixed ▸ hmore' c hc

theorem resourcesStart (transaction : Transaction) (flags : Flags) (s : Context) : Static s (s.resourcesStart transaction flags) := by
  unfold Context.resourcesStart
  cases transaction.trid with
  | none => exact refl s
  | some id =>
    refine ⟨rfl, rfl, _, rfl, fun c hc => ?_⟩
    obtain ⟨rm, hrm, rfl⟩ := List.mem_map.1 hc
    exact hrm

/-- All resources are ended, and all are static. -/
theorem resourcesEnd {transaction : Transaction} (flags : Flags) (h : transaction.trid.isSome → s.dynamic = []) :
    Static s (s.resourcesEnd transaction flags) := by
  unfold Context.resourcesEnd
  cases htrid : transaction.trid with
  | none => exact refl s
  | some id =>
    refine ⟨rfl, rfl, _, rfl, fun c hc => ?_⟩
    obtain ⟨rm, hrm, rfl⟩ := List.mem_map.1 hc
    rcases List.mem_append.1 hrm with hrm | hrm
    · rw [h (by rw [htrid]; rfl)] at hrm
      cases hrm
    · exact hrm

theorem push (transaction : Transaction) (s : Context) : Static s (s.push transaction) := of_same rfl rfl rfl

theorem pop (s : Context) : Static s s.pop := of_same rfl rfl rfl

theorem setCurrent (transaction : Transaction) (s : Context) : Static s (s.setCurrent transaction) := by
  unfold Context.setCurrent
  split
  · exact of_same rfl rfl rfl
  · exact of_same rfl rfl rfl

theorem started (created : Transaction.XID) (s : Context) : Static s (started created s) :=
  (resourcesStart _ _ _).trans (push _ _)

theorem begin (created : Transaction.XID) (h : s.control = .stacked → s.current.trid.isSome → s.dynamic = []) :
    Static s (after (Tx.begin created s)) := by
  unfold Tx.begin
  simp only
  split_ifs with hcurrent hcontrol
  · exact refl s
  · exact (resourcesEnd .TMSUSPEND (h (not_not.1 hcontrol))).trans (started _ _)
  · exact refl s
  · exact started _ _

theorem popTransaction (created : Transaction.XID)
    (hbelow : s.control = .stacked → ∃ below ∈ s.pop.transactions.getLast?, below.trid = none) :
    Static s (after (Tx.popTransaction created s)) := by
  unfold Tx.popTransaction
  split
  · exact refl s
  · split
    · exact of_same rfl rfl rfl
    · have hnull : (s.pop.push (.make none)).current.trid = none := by rw [current_push]; rfl
      refine (of_same rfl rfl rfl : Static s (s.pop.push (.make none))).trans (begin created fun _ hsome => ?_)
      rw [hnull] at hsome
      cases hsome
    · rename_i hstacked
      obtain ⟨below, hmem, hnull⟩ := hbelow hstacked
      have hlast : s.pop.transactions.getLast? = some below := hmem
      simp only [hlast]
      exact (pop s).trans (resourcesEnd .TMRESUME fun hsome => by rw [hnull] at hsome; cases hsome)

/-- `commit` and `rollback`, where the resources are ended. -/
theorem completed {answer : Except Exception Int} {created : Transaction.XID} (hdynamic : s.dynamic = [])
    (hbelow : succeeds answer → s.control = .stacked → ∃ below ∈ s.pop.transactions.getLast?, below.trid = none) :
    Static s (after (Tx.completed answer created (s.resourcesEnd s.current .TMSUCCESS))) := by
  have hended : Static s (s.resourcesEnd s.current .TMSUCCESS) := resourcesEnd .TMSUCCESS fun _ => hdynamic
  refine hended.trans ?_
  unfold Tx.completed
  split
  · exact refl _
  · split_ifs with hok
    · refine popTransaction created fun hstacked => ?_
      rw [resourcesEnd_control] at hstacked
      unfold Context.pop
      rw [resourcesEnd_transactions]
      exact hbelow (decide_eq_true hok) hstacked
    · exact refl _

theorem resume (xid : Option (Option Transaction.XID)) (s : Context) : Static s (after (Tx.resume xid s)) := by
  unfold Tx.resume
  rcases xid with _ | _ | xid
  · exact refl s
  · exact refl s
  · simp only
    split_ifs
    · exact refl s
    · exact refl s
    · split
      · exact refl s
      · exact (resourcesStart _ _ _).trans (of_same rfl rfl rfl)

end Static

theorem static_of_completes {w : Watched} {e : Event} {created : Transaction.XID} (hcompletes : Completes w.state e created)
    (h : w.Sound e) : Static w.state (after (call e w.state)) := by
  cases hcompletes with
  | refused hcall hne hcompletion =>
    rw [hcall]
    exact .refl _
  | ended htrid hanswer hcall hcompletion =>
    rw [hcall]
    exact .completed (h.static _ (Context.ends_of_completion hcompletion)) (h.upon _ hcompletion)

theorem static_of_sound {w : Watched} {e : Event} (h : w.Sound e) : Static w.state (after (call e w.state)) := by
  cases e with
  | begin created =>
    refine .begin created fun hstacked hsome => ?_
    obtain ⟨id, hid⟩ := Option.isSome_iff_exists.1 hsome
    exact h.static id ((if_pos hstacked).trans hid)
  | commit a created => exact static_of_completes (commit_completes a created _) h
  | rollback a created => exact static_of_completes (rollback_completes a created _) h
  | suspend xid =>
    show Static _ (after (Tx.suspend xid w.state))
    unfold Tx.suspend
    cases xid with
    | false => exact .refl _
    | true =>
      simp only [Bool.true_eq_false, if_false]
      split_ifs
      · exact .refl _
      · refine (Static.resourcesEnd .TMSUSPEND fun hsome => ?_).trans (.push _ _)
        obtain ⟨id, hid⟩ := Option.isSome_iff_exists.1 hsome
        exact h.static id hid
  | resume xid => exact .resume xid _
  | control value => exact .of_same rfl rfl rfl
  | commitReturn value => exact .of_same rfl rfl rfl
  | register rmid =>
    show Static _ (after (resourceRegistration rmid w.state))
    unfold resourceRegistration
    split_ifs
    · exact .refl _
    · exact .setCurrent _ _
    · exact .refl _
  | unregister rmid =>
    show Static _ (after (resourceUnregistration rmid w.state))
    unfold resourceUnregistration
    split_ifs
    · exact .setCurrent _ _
    · exact .refl _
  | associate descriptor =>
    by_cases hnone : w.state.current.trid = none
    · have hcall : call (.associate descriptor) w.state = .ok TX_OK w.state := dif_pos hnone
      rw [hcall]
      exact .refl _
    · have hcall : call (.associate descriptor) w.state = .ok TX_OK _ := dif_neg hnone
      rw [hcall]
      exact .setCurrent _ _
  | update outcome descriptor =>
    simp only [call]
    split
    · exact .refl _
    · exact .of_same rfl rfl rfl

/-- No dynamic resource has been told anything. -/
def Idle (s : Context) : Prop := ∀ rm ∈ s.dynamic, ∀ xid, calls rm xid s.log = []

theorem Idle.static {s t : Context} (h : Idle s) (hnodup : s.all.Nodup) (hst : Static s t) : Idle t := by
  obtain ⟨more, hlog, hmore⟩ := hst.log
  intro rm hrm xid
  rw [hst.dynamic] at hrm
  have hnone : calls rm xid more = [] := by
    unfold calls
    rw [List.filter_eq_nil_iff.2 fun c hc hmatch => ?_]
    · rfl
    · obtain ⟨rfl, -⟩ := of_decide_eq_true hmatch
      exact List.disjoint_of_nodup_append hnodup hrm (hmore c hc)
  rw [hlog, calls_append, h rm hrm xid, hnone]
  rfl

theorem idle_init {w : Watched} (h : machine.init w) : Idle w.state := by
  obtain ⟨process, dynamic, fixed, hnodup, rfl | ⟨trid, rfl⟩⟩ := h
  · exact fun _ _ _ => rfl
  · have hfresh : Idle (Tx.fresh process dynamic fixed) := fun _ _ _ => rfl
    exact hfresh.static hnodup ((Static.resourcesStart _ _ _).trans (.push _ _))

/-! ### Whole runs -/

theorem stack_of_reachable {w : Watched} (h : (machine.restrict Sound).Reachable w) :
    w.overrun = false ∧ (∀ rm ∈ w.state.all, ∀ xid, Alternates (calls rm xid w.state.log)) ∧
      ∀ e, w.Sound e → Nests w.state e := by
  have hkept : w.Kept ∧ Idle w.state := by
    refine Machine.Reachable.invariant (M := machine.restrict Sound) (I := fun w => w.Kept ∧ Idle w.state)
      (fun _ hinit => ⟨kept_init hinit, idle_init hinit⟩) ?_ h
    rintro w e ⟨hw, hidle⟩ ⟨-, he⟩
    exact ⟨hw.step he, hidle.static hw.holds.nodup (static_of_sound he)⟩
  obtain ⟨hkept, hidle⟩ := hkept
  refine ⟨hkept.calm, fun rm hrm xid => ?_, fun e he => hkept.nests he⟩
  unfold Alternates
  rcases List.mem_append.1 hrm with hrm | hrm
  · rw [hidle rm hrm xid]
    rfl
  · rw [hkept.holds.tracks rm hrm xid]
    rfl

instance (w : Watched) (e : Event) : Decidable (w.Sound e) :=
  decidable_of_iff ((∀ id ∈ w.state.ends e, id.xid ∉ w.failed) ∧ (∀ _ ∈ w.state.ends e, w.state.dynamic = []) ∧
    ∀ c ∈ completion w.state e, succeeds c.2 → w.state.control = .stacked →
      ∃ below ∈ w.state.pop.transactions.getLast?, below.trid = none)
    ⟨fun ⟨honce, hstatic, hupon⟩ => ⟨honce, hstatic, hupon⟩, fun h => ⟨h.once, h.static, h.upon⟩⟩

/-! ### Two runs -/

/-- A transaction of a number. -/
def xid (n : UInt8) : Transaction.XID := ⟨0, [n], [], Transaction.XID.single_length n⟩

/-- The resource and the TM do what they are asked to. -/
def yes : Answers := ⟨0, some ⟨0, .commit, 0⟩, none, some 0⟩

/-- A process with a static resource. -/
def linked : Watched := ⟨fresh ⟨1, 1⟩ [] [5], false, []⟩

/-- A transaction is suspended, another one is begun and committed, and the first is resumed and rolled back. -/
def interrupted : List Event :=
  [.begin (xid 1), .suspend true, .begin (xid 2), .commit yes (xid 0), .resume (some (some (xid 1))), .rollback yes (xid 0)]

theorem interrupted_stack : (interrupted.foldl machine.step linked).overrun = false ∧
    (∀ rm ∈ (interrupted.foldl machine.step linked).state.all, ∀ xid,
      Alternates (calls rm xid (interrupted.foldl machine.step linked).state.log)) ∧
    ∀ e, (interrupted.foldl machine.step linked).Sound e → Nests (interrupted.foldl machine.step linked).state e := by
  have hinit : (machine.restrict Sound).init linked := ⟨_, _, _, by decide, .inl rfl⟩
  have hall : (machine.restrict Sound).AdmitsAll linked interrupted := by
    refine ⟨⟨rfl, ?_⟩, ⟨rfl, ?_⟩, ⟨rfl, ?_⟩, ⟨rfl, ?_⟩, ⟨rfl, ?_⟩, ⟨rfl, ?_⟩, trivial⟩
    all_goals decide
  exact stack_of_reachable (Machine.Reachable.foldl (.of_init hinit) hall)

/-- In stacked mode, a transaction is begun and committed. -/
def lone : List Event := [.control .stacked, .begin (xid 1), .commit yes (xid 0)]

/-- In stacked mode, a transaction is begun and committed upon another one. -/
def nested : List Event := [.control .stacked, .begin (xid 1), .begin (xid 2), .commit yes (xid 0)]

/-- A process with a dynamic resource, which is only ended. -/
def registering : Watched := ⟨fresh ⟨1, 1⟩ [7] [], false, []⟩

/-- The only transaction is popped, and the last of none is read; a transaction is popped, and the resources of
the one below are ended a second time; a dynamic resource is ended. -/
theorem nested_overruns : (∃ w, machine.Reachable w ∧ w.overrun = true) ∧
    (∃ w, machine.Reachable w ∧ ∃ rm ∈ w.state.fixed, ∃ xid, ¬ Alternates (calls rm xid w.state.log)) ∧
    ∃ w, machine.Reachable w ∧ ∃ rm ∈ w.state.dynamic, ∃ xid, ¬ Alternates (calls rm xid w.state.log) := by
  have hlinked : machine.Reachable linked := .of_init ⟨_, _, _, by decide, .inl rfl⟩
  have hregistering : machine.Reachable registering := .of_init ⟨_, _, _, by decide, .inl rfl⟩
  have hlone : machine.Reachable (lone.foldl machine.step linked) := hlinked.foldl ⟨rfl, rfl, rfl, trivial⟩
  have hnested : machine.Reachable (nested.foldl machine.step linked) := hlinked.foldl ⟨rfl, rfl, rfl, rfl, trivial⟩
  have hdynamic : machine.Reachable (lone.foldl machine.step registering) := hregistering.foldl ⟨rfl, rfl, rfl, trivial⟩
  refine ⟨⟨_, hlone, rfl⟩, ⟨_, hnested, 5, ?_, xid 1, ?_⟩, ⟨_, hdynamic, 7, ?_, xid 1, ?_⟩⟩
  · decide
  · unfold Alternates
    decide
  · decide
  · unfold Alternates
    decide

end Watched

end Casual.Tx

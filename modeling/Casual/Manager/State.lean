/-
`transaction/manager/state.h` and `state.cpp`, and the log: what the transaction manager knows of
its resources, its transactions and what is on disk.
-/
import Casual.Common.Transaction
import Casual.Communication.Message

namespace Casual.Manager

open Casual.Common Casual.Communication
open Casual.Common.Transaction (ID XID)

/-! ## Results -/

/-- `Transaction::Resource::Result`, the most severe first. -/
inductive Result
  | XA_HEURHAZ | XA_HEURMIX | XA_HEURCOM | XA_HEURRB | XAER_RMFAIL | XAER_RMERR | XA_RBINTEGRITY | XA_RBCOMMFAIL
  | XA_RBROLLBACK | XA_RBOTHER | XA_RBDEADLOCK | XAER_PROTO | XA_RBPROTO | XA_RBTIMEOUT | XA_RBTRANSIENT | XAER_INVAL
  | XA_NOMIGRATE | XAER_OUTSIDE | XAER_ASYNC | XA_RETRY | XAER_DUPID | XAER_NOTA | XA_OK | XA_RDONLY
  deriving DecidableEq, Repr

namespace Result

/-- `convert( Result)`, with the values of `xa.h`. -/
def code : Result → Int
  | XA_HEURHAZ => 8
  | XA_HEURMIX => 5
  | XA_HEURCOM => 7
  | XA_HEURRB => 6
  | XAER_RMFAIL => -7
  | XAER_RMERR => -3
  | XA_RBINTEGRITY => 103
  | XA_RBCOMMFAIL => 101
  | XA_RBROLLBACK => 100
  | XA_RBOTHER => 104
  | XA_RBDEADLOCK => 102
  | XAER_PROTO => -6
  | XA_RBPROTO => 105
  | XA_RBTIMEOUT => 106
  | XA_RBTRANSIENT => 107
  | XAER_INVAL => -5
  | XA_NOMIGRATE => 9
  | XAER_OUTSIDE => -9
  | XAER_ASYNC => -2
  | XA_RETRY => 4
  | XAER_DUPID => -8
  | XAER_NOTA => -4
  | XA_OK => 0
  | XA_RDONLY => 3

/-- `convert( int)`. -/
def convert (value : Int) : Result :=
  match value with
  | 8 => XA_HEURHAZ
  | 5 => XA_HEURMIX
  | 7 => XA_HEURCOM
  | 6 => XA_HEURRB
  | -7 => XAER_RMFAIL
  | -3 => XAER_RMERR
  | 103 => XA_RBINTEGRITY
  | 101 => XA_RBCOMMFAIL
  | 100 => XA_RBROLLBACK
  | 104 => XA_RBOTHER
  | 102 => XA_RBDEADLOCK
  | -6 => XAER_PROTO
  | 105 => XA_RBPROTO
  | 106 => XA_RBTIMEOUT
  | 107 => XA_RBTRANSIENT
  | -5 => XAER_INVAL
  | 9 => XA_NOMIGRATE
  | -9 => XAER_OUTSIDE
  | -2 => XAER_ASYNC
  | 4 => XA_RETRY
  | -8 => XAER_DUPID
  | -4 => XAER_NOTA
  | 0 => XA_OK
  | 3 => XA_RDONLY
  | _ => XAER_RMFAIL

@[simp] theorem convert_code (r : Result) : convert r.code = r := by cases r <;> rfl

theorem ctorIdx_inj {r r' : Result} (h : r.ctorIdx = r'.ctorIdx) : r = r' := by
  cases r <;> cases r' <;> first | rfl | cases h

/-- The order of the enumeration. -/
instance : LinearOrder Result :=
  { LinearOrder.lift' Result.ctorIdx fun _ _ => ctorIdx_inj with toDecidableEq := inferInstance }

instance : OrderTop Result where
  top := XA_RDONLY
  le_top r := show r.ctorIdx ≤ 23 by cases r <;> decide

end Result

/-! ## Stages -/

/-- `Transaction::Resource::Stage`. -/
inductive Stage
  | involved | prepareRequested | prepareReplied | commitRequested | commitReplied | rollbackRequested | rollbackReplied
  | done | error | notInvolved
  deriving DecidableEq, Repr

namespace Stage

theorem ctorIdx_inj {s s' : Stage} (h : s.ctorIdx = s'.ctorIdx) : s = s' := by
  cases s <;> cases s' <;> first | rfl | cases h

instance : LinearOrder Stage :=
  { LinearOrder.lift' Stage.ctorIdx fun _ _ => ctorIdx_inj with toDecidableEq := inferInstance }

instance : OrderTop Stage where
  top := notInvolved
  le_top s := show s.ctorIdx ≤ 9 by cases s <;> decide

end Stage

example : Result.XA_HEURHAZ < Result.XA_OK ∧ Stage.involved < Stage.prepareReplied := by decide

/-! ## Transactions -/

/-- `Transaction::Resource`. -/
structure Resource where
  id : Nat
  stage : Stage
  result : Result
  deriving DecidableEq, Repr

/-- `Resource( id)`. -/
def Resource.new (id : Nat) : Resource := ⟨id, .involved, .XA_OK⟩

/-- `Transaction`. -/
structure Transaction where
  trid : ID
  resources : List Resource
  correlation : Uuid
  deriving DecidableEq

namespace Transaction

/-- `Transaction( trid)`. -/
def new (trid : ID) : Transaction := ⟨trid, [], 0⟩

/-- The loop of `stage`. -/
def stageOf : List Resource → Stage → Stage
  | [], result => result
  | resource :: rest, result => stageOf rest (if result > resource.stage then resource.stage else result)

/-- `stage`. -/
def stage (t : Transaction) : Stage := stageOf t.resources .notInvolved

/-- The loop of `results`. -/
def resultsOf : List Resource → Result → Result
  | [], result => result
  | resource :: rest, result => resultsOf rest (if resource.result < result then resource.result else result)

/-- `results`, the most severe result from the resources. -/
def results (t : Transaction) : Result := resultsOf t.resources .XA_RDONLY

theorem stageOf_eq : ∀ (rs : List Resource) (s : Stage), stageOf rs s = s ⊓ (Multiset.map Resource.stage ↑rs).inf
  | [], s => by simp [stageOf]
  | r :: rs, s => by
    unfold stageOf
    rw [stageOf_eq rs, ← Multiset.cons_coe, Multiset.map_cons, Multiset.inf_cons, ← inf_assoc]
    congr 1
    split_ifs with h
    · exact (inf_eq_right.2 h.le).symm
    · exact (inf_eq_left.2 (not_lt.1 h)).symm

theorem resultsOf_eq : ∀ (rs : List Resource) (s : Result), resultsOf rs s = s ⊓ (Multiset.map Resource.result ↑rs).inf
  | [], s => by simp [resultsOf]
  | r :: rs, s => by
    unfold resultsOf
    rw [resultsOf_eq rs, ← Multiset.cons_coe, Multiset.map_cons, Multiset.inf_cons, ← inf_assoc]
    congr 1
    split_ifs with h
    · exact (inf_eq_right.2 h.le).symm
    · exact (inf_eq_left.2 (not_lt.1 h)).symm

/-- The stage of a transaction is the least of its resources. -/
theorem stage_eq (t : Transaction) : t.stage = (Multiset.map Resource.stage ↑t.resources).inf := by
  unfold stage; rw [stageOf_eq]; exact top_inf_eq _

/-- The result of a transaction is the most severe of its resources. -/
theorem results_eq (t : Transaction) : t.results = (Multiset.map Resource.result ↑t.resources).inf := by
  unfold results; rw [resultsOf_eq]; exact top_inf_eq _

end Transaction

/-! ## Resource proxies -/

/-- `resource::Proxy::Instance::State`. -/
inductive InstanceState
  | absent | started | idle | busy | startupError | shutdown
  deriving DecidableEq, Repr

/-- `resource::Proxy::Instance`. -/
structure Instance where
  id : Nat
  process : Process
  state : InstanceState
  deriving DecidableEq, Repr

/-- `state( State)`: an instance that is shut down stays so. -/
def Instance.setState (i : Instance) (state : InstanceState) : Instance :=
  if i.state ≠ .shutdown then { i with state := state } else i

/-- `resource::Proxy`. -/
structure Proxy where
  id : Nat
  instances : List Instance
  deriving DecidableEq, Repr

/-! ## The log -/

/-- A row of `trans`. -/
structure Row where
  xid : XID
  pid : Nat
  deriving DecidableEq

/-- `PRIMARY KEY (gtrid, bqual)`. -/
def key (xid : XID) : List UInt8 × List UInt8 := (xid.gtrid, xid.bqual)

/-- `Log`: the rows as the open transaction of the database sees them, and those on disk. -/
structure Log where
  rows : List Row
  durable : List Row

namespace Log

/-- `prepare`. A branch qualifier that is empty binds `NULL`, which the table refuses, as it does a
key it has. -/
def prepare (trid : ID) (log : Log) : Option Log :=
  if trid.xid.bqual.isEmpty || log.rows.any fun row => key row.xid == key trid.xid then none
  else some { log with rows := log.rows ++ [⟨trid.xid, trid.owner.pid⟩] }

/-- `remove`. -/
def remove (trid : ID) (log : Log) : Log :=
  { log with rows := log.rows.filter fun row => trid.xid.bqual.isEmpty || key row.xid != key trid.xid }

/-- `writeCommit`. -/
def writeCommit (log : Log) : Log := { log with durable := log.rows }

end Log

/-! ## Messages -/

/-- What a resource is asked. -/
inductive Phase
  | prepare | commit | rollback
  deriving DecidableEq, Repr

/-- No flag. -/
def TMNOFLAGS : Nat := 0

/-- The resource is to commit without having been prepared. -/
def TMONEPHASE : Nat := 0x40000000

/-- `resource::prepare::Request`, `commit::Request` and `rollback::Request`. -/
structure ResourceRequest where
  phase : Phase
  trid : ID
  flags : Nat
  deriving DecidableEq

/-- `commit::Reply::Stage`. -/
inductive CommitStage
  | prepare | commit | error
  deriving DecidableEq, Repr

/-- `rollback::Reply::Stage`. -/
inductive RollbackStage
  | rollback | error
  deriving DecidableEq, Repr

/-- `commit::Reply` and `rollback::Reply`, to the owner of a transaction. -/
inductive Reply
  | commit (trid : ID) (correlation : Uuid) (stage : CommitStage) (state : Int)
  | rollback (trid : ID) (correlation : Uuid) (stage : RollbackStage) (state : Int)
  deriving DecidableEq

/-- The transaction of a reply. -/
def Reply.trid : Reply → ID
  | commit trid .. => trid
  | rollback trid .. => trid

/-- `commit::Request` and `rollback::Request`, from the owner of a transaction. -/
structure OwnerRequest where
  correlation : Uuid
  process : Process
  trid : ID
  resources : List Nat
  deriving DecidableEq

/-- `resource::Involved`. -/
structure Involved where
  trid : ID
  resources : List Nat
  deriving DecidableEq

/-- `resource::prepare::Reply`, `commit::Reply` and `rollback::Reply`. -/
structure ResourceReply where
  process : Process
  trid : ID
  resource : Nat
  state : Int
  deriving DecidableEq

/-- `resource::connect::Reply`. -/
structure ConnectReply where
  process : Process
  resource : Nat
  state : Int
  deriving DecidableEq

/-! ## State -/

/-- `pending::Request`. -/
structure PendingRequest where
  message : ResourceRequest
  resources : List Nat
  deriving DecidableEq

/-- `State`, with `m_connected` of the connect handler. -/
structure State where
  resources : List Proxy
  transactions : List Transaction
  persistentReplies : List (Nat × Reply)
  pendingRequests : List PendingRequest
  persistentRequests : List PendingRequest
  log : Log
  connected : Bool

end Casual.Manager

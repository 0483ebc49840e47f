/-
`common/transaction/context.cpp`: the transactions of a call, from where it joins or starts one to where they
are completed.
-/
import Casual.Server.State

namespace Casual.Server

open Lib Common Communication Call

variable {Sender : Type} [DecidableEq Sender] (env : Surroundings Sender)

/-- The transaction has ended as it was asked to. -/
def TX_OK : Int := 0

/-- The caller does work outside of a transaction. -/
def TX_OUTSIDE : Int := -1

/-- The transaction is partly committed and partly rolled back. -/
def TX_MIXED : Int := -3

/-- The transaction may be partly committed and partly rolled back. -/
def TX_HAZARD : Int := -4

/-- The function is called in the wrong place. -/
def TX_PROTOCOL_ERROR : Int := -5

/-- Nothing more can be done. -/
def TX_FAIL : Int := -7

/-- The next transaction could not be started. -/
def TX_NO_BEGIN : Int := -100

/-- `xaTotx`. -/
def xaTotx (code : Int) : Int :=
  if code ∈ [100, 101, 102, 103, 104, 105, 106, 107, 9, 8] then TX_HAZARD
  else if code ∈ [7, 6, 5] then TX_MIXED
  else if code ∈ [4, 3, 0] then TX_OK
  else if code ∈ [-2, -3, -4] then TX_NO_BEGIN
  else if code ∈ [-5, -6] then TX_PROTOCOL_ERROR
  else if code ∈ [-7, -8, -9] then TX_OUTSIDE
  else TX_FAIL

/-! ## Joining and starting -/

/-- `join`. -/
def join (trid : Option Transaction.ID) (transactions : List Transaction) : List Transaction :=
  transactions ++ [Transaction.make trid]

/-- `start`. -/
def start (transactions : List Transaction) : List Transaction :=
  transactions ++ [Transaction.make (some env.created)]

/-- `policy::Default::transaction`, before the service: with `none` a null one is joined. -/
def joined (mode : Mode) (trid : Option Transaction.ID) (transactions : List Transaction) : List Transaction :=
  match mode with
  | .automatic => if trid.isSome then join trid transactions else start env transactions
  | .join => join trid transactions
  | .atomic => start env transactions
  | .none => join none transactions

/-- `pending`. -/
def pending (transactions : List Transaction) : Bool :=
  transactions.any fun t => t.trid.any fun id => id.owner ≠ env.process

/-! ## Completing -/

/-- `involved`. -/
def involved (trid : Transaction.ID) (resources : List Nat) : M Sender Unit :=
  if resources = [] then pure () else send env .involved (.involved env.process trid resources)

/-- `resource_commit`. -/
def resourceCommit (i : Nat) (rm : Nat) : M Sender Int :=
  if rm ∈ env.all then return xaTotx (env.resource i) else throw .transaction

/-- `commit`. A local transaction with at most one resource is committed by the resource, any other by the
TM. -/
def commit (i : Nat) (t : Transaction) : M Sender Int :=
  match t.trid with
  | none => throw .transaction
  | some id =>
    if id.owner ≠ env.process then throw .transaction
    else if t.state ≠ .active then throw .transaction
    else if t.descriptors ≠ [] then throw .transaction
    else if t.isLocal ∧ t.resources.length + env.fixed.length ≤ 1 then
      match t.resources ++ env.fixed with
      | rm :: _ => resourceCommit env i rm
      | [] => return TX_OK
    else
      match env.commit i ⟨id, env.process, env.fixed ++ t.resources⟩ with
      | none => throw .other
      | some ⟨correlation, .prepare, state⟩ =>
        if env.logged then do
          onContext (discardCorrelation correlation)
          return xaTotx state
        else
          match env.committed i with
          | none => throw .other
          | some state => return xaTotx state
      | some ⟨_, .commit, state⟩ => return xaTotx state
      | some ⟨_, .error, state⟩ => return xaTotx state

/-- `rollback`. -/
def rollback (i : Nat) (t : Transaction) : M Sender Int :=
  match t.trid with
  | none => throw .transaction
  | some id =>
    if id.owner ≠ env.process then throw .transaction
    else
      match env.rollback i ⟨id, env.process, env.fixed ++ t.resources⟩ with
      | none => throw .other
      | some state => return xaTotx state

/-- The reply is to tell of an error. -/
def noted (error : Int) (s : State Sender) : State Sender := { s with reply := { s.reply with error } }

/-- `trans_commit_rollback`. -/
def complete (value : Int) (t : Transaction) (i : Nat) : M Sender Unit := do
  let result ← if value = TPSUCCESS ∧ t.state = .active then commit env i t else rollback env i t
  modify fun s => { s with results := s.results ++ [result] }
  modify fun s => if result ≠ TX_OK then noted TPESVCERR s else s

/-- `pending_check`: what it does with the reply and the calls. -/
def pendingCheck (t : Transaction) : M Sender Unit :=
  if t.descriptors = [] then pure ()
  else do
    modify fun s => if t.trid.isSome then noted TPESVCERR s else s
    t.descriptors.forM fun descriptor => onContext (cancel descriptor)

/-- `pending_check`: what it does with the transaction. -/
def checked (t : Transaction) : Transaction :=
  if t.descriptors ≠ [] ∧ t.trid.isSome then { t with state := .rollback } else t

/-- The completion of those owned by this process. -/
def completeOwned (value : Int) : List Transaction → Nat → M Sender Unit
  | [], _ => pure ()
  | t :: rest, i => do
    complete env value t i
    completeOwned value rest (i + 1)

/-- What is said about the transaction of the caller, and about the resources that are involved in it. -/
def outcome (value : Int) (found : Transaction) : M Sender Unit := do
  let state := if value = TPSUCCESS then found.state else .rollback
  modify fun s => { s with reply := { s.reply with transaction := { s.reply.transaction with state } } }
  match found.trid with
  | none => pure ()
  | some trid => involved env trid (env.fixed ++ found.resources)

/-- The transaction of the caller, when it is among those that are not owned. -/
def answerCaller (value : Int) (notOwned : List Transaction) : M Sender Unit := do
  let caller := (← get).caller
  match notOwned.find? fun t => caller.any t.is with
  | none => pure ()
  | some found => outcome env value found

/-- Whether this process owns a transaction. -/
def owns (t : Transaction) : Bool := t.trid.all fun id => id.owner = env.process

/-- `finalize`. -/
def finalize (value : Int) : M Sender Unit := do
  let transactions := (← get).context.transactions
  modify fun s => { s with context := { s.context with transactions := [] } }
  modify fun s => if value = TPESVCERR ∨ value = TPSUCCESS then s else noted TPESVCFAIL s
  transactions.forM pendingCheck
  let actual := (transactions.map checked).filter (·.trid.isSome)
  completeOwned env value (actual.filter (owns env)) 0
  answerCaller env value (actual.filter (! owns env ·))
  modify fun s =>
    { s with
      reply := { s.reply with transaction := { s.reply.transaction with trid := s.caller } }
      caller := none
      completed := true }

end Casual.Server

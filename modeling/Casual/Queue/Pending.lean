/-
`queue/group/group.cpp`, `State::Pending`: the blocking dequeue requests that wait in a queue group,
and how many messages each transaction has enqueued that they may wait for.
-/
import Casual.Queue.Message

namespace Casual.Queue

open Casual.Common Casual.Communication

/-- `State::Pending`. The maps are functions: a key that is not there reads as zero, and no key is
ever stored with zero. The null transaction id is a key too. -/
structure Pending where
  requests : List Message.DequeueRequest
  transactions : Option Transaction.XID → Nat → Nat

namespace Pending

/-- `State::Pending::result_t`. -/
structure Result where
  requests : List Message.DequeueRequest
  enqueued : Nat → Nat

/-- Nothing waits and nothing has been enqueued. -/
def empty : Pending := ⟨[], fun _ _ => 0⟩

/-- `dequeue`. -/
def dequeue (p : Pending) (request : Message.DequeueRequest) : Pending :=
  if request.block then { p with requests := p.requests ++ [request] } else p

/-- `enqueue`: counted only when someone waits for messages in the queue. -/
def enqueue (p : Pending) (trid : Option Transaction.XID) (id : Nat) : Pending :=
  if p.requests.any fun r => r.queue == id then
    { p with
      transactions := Function.update p.transactions trid
        (Function.update (p.transactions trid) id (p.transactions trid id + 1)) }
  else p

/-- The request `forget` finds. -/
def forgets (request : Message.ForgetRequest) (r : Message.DequeueRequest) : Bool :=
  r.queue == request.queue && decide (r.process = request.process)

/-- `forget`: whether the request was found, and what is left. -/
def forget (p : Pending) (request : Message.ForgetRequest) : Bool × Pending :=
  if p.requests.any (forgets request) then
    let requests := p.requests.eraseP (forgets request)
    (true, { p with
      requests := requests
      transactions := if requests.isEmpty then fun _ _ => 0 else p.transactions })
  else (false, p)

/-- `commit`: the requests that wait for a queue the transaction has enqueued to leave the store. -/
def commit (p : Pending) (trid : Option Transaction.XID) : Result × Pending :=
  let enqueued := p.transactions trid
  (⟨p.requests.filter fun r => enqueued r.queue != 0, enqueued⟩,
    { p with
      requests := p.requests.filter fun r => enqueued r.queue == 0
      transactions := Function.update p.transactions trid fun _ => 0 })

/-- `rollback`. -/
def rollback (p : Pending) (trid : Option Transaction.XID) : Pending :=
  { p with transactions := Function.update p.transactions trid fun _ => 0 }

/-- `erase`. -/
def erase (p : Pending) (pid : Nat) : Pending :=
  { p with requests := p.requests.filter fun r => r.process.pid != pid }

@[simp] theorem enqueue_requests (p : Pending) (trid : Option Transaction.XID) (id : Nat) :
    (p.enqueue trid id).requests = p.requests := by
  unfold enqueue; split_ifs <;> rfl

@[simp] theorem rollback_requests (p : Pending) (trid : Option Transaction.XID) :
    (p.rollback trid).requests = p.requests := rfl

/-- An enqueue is counted for whoever waits for its queue. -/
theorem enqueue_counts {p : Pending} {trid : Option Transaction.XID} {id : Nat} {r : Message.DequeueRequest}
    (hr : r ∈ (p.enqueue trid id).requests) (hq : id = r.queue) : (p.enqueue trid id).transactions trid r.queue ≠ 0 := by
  have hany : (p.requests.any fun r => r.queue == id) = true := List.any_eq_true.2 ⟨r, by simpa using hr, by simp [hq]⟩
  unfold enqueue
  rw [if_pos hany, ← hq]
  simp

theorem dequeue_requests (p : Pending) (request : Message.DequeueRequest) :
    (p.dequeue request).requests = p.requests ++ if request.block then [request] else [] := by
  unfold dequeue; split_ifs <;> simp

/-- A commit splits the waiting requests. -/
theorem commit_perm (p : Pending) (trid : Option Transaction.XID) :
    ((p.commit trid).1.requests ++ (p.commit trid).2.requests).Perm p.requests := by
  have h := List.filter_append_perm (fun r : Message.DequeueRequest => p.transactions trid r.queue != 0) p.requests
  have hnot : (fun r : Message.DequeueRequest => !(p.transactions trid r.queue != 0)) =
      fun r => p.transactions trid r.queue == 0 := by
    funext r
    simp [bne]
  rw [hnot] at h
  exact h

theorem mem_commit_fst {p : Pending} {trid : Option Transaction.XID} {r : Message.DequeueRequest} :
    r ∈ (p.commit trid).1.requests ↔ r ∈ p.requests ∧ p.transactions trid r.queue ≠ 0 := by
  simp [commit]

theorem mem_commit_snd {p : Pending} {trid : Option Transaction.XID} {r : Message.DequeueRequest} :
    r ∈ (p.commit trid).2.requests ↔ r ∈ p.requests ∧ p.transactions trid r.queue = 0 := by
  simp [commit]

end Pending

end Casual.Queue

/-
`common/transaction/transaction.h`: a transaction as the process that works in it sees it, and what
`common/transaction/context.cpp` does to all of them when a reply comes.
-/
import Casual.Common.Transaction

namespace Casual.Call

open Common.Transaction

/-- `Transaction::State`, in the order of the values of `tx.h`. -/
inductive Transaction.State
  | active
  | timeout
  | rollback
  deriving DecidableEq, Repr

namespace Transaction.State

/-- The number of a state. -/
def value : Transaction.State → Nat
  | active => 0
  | timeout => 1
  | rollback => 2

end Transaction.State

/-- `Transaction`. A descriptor is associated only with one that has an id. -/
structure Transaction where
  trid : Option ID
  resources : List Nat
  state : Transaction.State
  descriptors : List Nat
  isLocal : Bool
  unassociated : trid = none → descriptors = []
  deriving DecidableEq

namespace Transaction

/-- `Transaction( trid)`. -/
def make (trid : Option ID) : Transaction := ⟨trid, [], .active, [], true, fun _ => rfl⟩

/-- `associate`, of a transaction that has an id. -/
def associate (t : Transaction) (h : t.trid ≠ none) (descriptor : Nat) : Transaction :=
  { t with
    descriptors := t.descriptors ++ [descriptor]
    isLocal := false
    unassociated := fun hnone => absurd hnone h }

/-- `discard`. -/
def discard (t : Transaction) (descriptor : Nat) : Transaction :=
  { t with
    descriptors := t.descriptors.filter (· != descriptor)
    unassociated := fun hnone => by rw [t.unassociated hnone]; rfl }

/-- `associated`. -/
def associated (t : Transaction) (descriptor : Nat) : Bool := t.descriptors.contains descriptor

/-- Ids are compared by their `XID`. -/
def is (t : Transaction) (id : ID) : Bool := t.trid.any fun i => i.xid == id.xid

end Transaction

/-- `Context::associated`. -/
def associated (transactions : List Transaction) (descriptor : Nat) : Bool :=
  transactions.any fun t => t.state == .active && t.associated descriptor

/-- `message::service::Transaction`: what a reply says about its transaction. -/
structure Outcome where
  trid : Option ID
  state : Transaction.State
  deriving DecidableEq

/-- `Context::update`: `none` when there is no such transaction. -/
def update (outcome : Outcome) (descriptor : Nat) (transactions : List Transaction) : Option (List Transaction) :=
  match outcome.trid with
  | none => some (transactions.map (·.discard descriptor))
  | some id =>
    (transactions.findIdx? (·.is id)).map fun found =>
      transactions.modify found fun t =>
        let t := if t.state.value < outcome.state.value then { t with state := outcome.state } else t
        t.discard descriptor

end Casual.Call

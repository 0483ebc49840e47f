/-
`common/buffer/pool.h` and `pool.cpp`, with the allocators of the buffer types: buffers that are known by the
addresses of their memory.
-/
import Casual.Lib.Triple

namespace Casual.Pool

open Casual.Lib

/-! ## Memory -/

/-- What the allocation of some memory gives: where it is, and how much there is besides what was asked for. -/
structure Allocation where
  address : Nat
  extra : Nat

/-- The allocations of an operation; there are two at most. -/
structure Environment where
  first : Allocation
  second : Allocation

/-- The vector of a buffer. -/
structure Memory where
  address : Nat
  size : Nat
  capacity : Nat
  deriving DecidableEq

/-- A handle; `none` is `nullptr`. -/
abbrev Handle := Option Nat

namespace Memory

/-- `data`: there is no address of memory that is not allocated. -/
def data (m : Memory) : Handle := if m.capacity = 0 then none else some m.address

/-- The memory of a vector with nothing in it. -/
def empty : Memory := ⟨0, 0, 0⟩

/-- A vector of a size. -/
def ofSize (env : Environment) (size : Nat) : Memory := ⟨env.first.address, size, size⟩

/-- `std::vector::resize`. -/
def resize (env : Environment) (size : Nat) (m : Memory) : Memory :=
  if size ≤ m.capacity then { m with size := size } else ⟨env.first.address, size, size + env.first.extra⟩

/-- `reserve`, which comes after another allocation. -/
def reserve (env : Environment) (size : Nat) (m : Memory) : Memory :=
  if size ≤ m.capacity then m else ⟨env.second.address, m.size, size + env.second.extra⟩

/-- `std::vector::shrink_to_fit`. -/
def shrinkToFit (env : Environment) (m : Memory) : Memory :=
  ⟨if m.capacity = m.size then m.address else env.first.address, m.size, m.size⟩

end Memory

/-! ## Pools -/

/-- `Type`. -/
structure BufferType where
  name : String
  subname : String
  deriving DecidableEq

/-- `Payload`. -/
structure Payload where
  type : BufferType
  memory : Memory

/-- `Payload::null`. -/
def Payload.null (payload : Payload) : Bool := payload.type.name == "NULL"

/-- A payload that was received: its memory is a vector of the length. -/
def Payload.received (env : Environment) (type : BufferType) (length : Nat) : Payload := ⟨type, .ofSize env length⟩

/-- A buffer, and which one it is. -/
structure Buffer where
  id : Nat
  payload : Payload

/-- The address that a user has of a buffer. -/
def Buffer.handle (b : Buffer) : Handle := b.payload.memory.data

/-- Which allocator a pool has: that of `basic_pool`, that of order and field buffers, or that of strings. -/
inductive Allocator
  | basic | reserving | string
  deriving DecidableEq, Repr

namespace Allocator

/-- `allocate`. -/
def allocate (env : Environment) (size : Nat) : Allocator → Memory
  | basic => .ofSize env size
  | reserving => Memory.empty.reserve env (if size = 0 then 1 else size)
  | string => .ofSize env (if size > 0 then size else 1)

/-- `reallocate`. -/
def reallocate (env : Environment) (size : Nat) (m : Memory) : Allocator → Memory
  | basic => m.resize env size
  | reserving =>
    let m := if size < m.capacity then m.shrinkToFit env else m
    m.reserve env (if size = 0 then 1 else size)
  | string => m.resize env (if size > 0 then size else 1)

/-- The largest size for which `transport` does not throw. -/
def limit (m : Memory) : Allocator → Nat
  | reserving => m.capacity
  | _ => m.size

end Allocator

/-- The first element of a kind is replaced by others. -/
def replaceFirst {α : Type} (p : α → Bool) (f : α → List α) : List α → List α
  | [] => []
  | a :: l => if p a then f a ++ l else a :: replaceFirst p f l

/-- `basic_pool`. -/
structure BasicPool where
  types : List BufferType
  allocator : Allocator
  buffers : List Buffer

namespace BasicPool

/-- `find`. -/
def find (handle : Handle) (pool : BasicPool) : Option Buffer := pool.buffers.find? fun b => b.handle == handle

/-- `manage` of a handle. -/
def manage (handle : Handle) (pool : BasicPool) : Bool := (pool.find handle).isSome

/-- `manage` of a type. -/
def manageType (type : BufferType) (pool : BasicPool) : Bool := pool.types.contains type

/-- `emplace_back`. -/
def add (b : Buffer) (pool : BasicPool) : BasicPool := { pool with buffers := pool.buffers ++ [b] }

/-- What becomes of the buffer with a handle. -/
def replace (handle : Handle) (f : Buffer → List Buffer) (pool : BasicPool) : BasicPool :=
  { pool with buffers := replaceFirst (fun b => b.handle == handle) f pool.buffers }

end BasicPool

/-! ## The holder -/

/-- `Holder`. -/
structure Holder where
  pools : List BasicPool
  inbound : Handle

/-- What the holder throws. -/
inductive Exception
  | type | argument
  deriving DecidableEq, Repr

/-- What is done to the holder. -/
abbrev M (α : Type) := EStateM Exception Holder α

namespace Holder

/-- `find`. -/
def find (p : BasicPool → Bool) (e : Exception) : M BasicPool := fun s =>
  match s.pools.find? p with
  | some pool => .ok pool s
  | none => .error e s

/-- The pool that manages a type. -/
def findType (type : BufferType) : M BasicPool := find (BasicPool.manageType type) .type

/-- The pool that manages a handle. -/
def findHandle (handle : Handle) : M BasicPool := find (BasicPool.manage handle) .argument

/-- The pool that was found is changed. -/
def change (p : BasicPool → Bool) (f : BasicPool → BasicPool) (s : Holder) : Holder :=
  { s with pools := replaceFirst p (fun pool => [f pool]) s.pools }

/-- A buffer is put in the pool that manages its type. -/
def addBuffer (type : BufferType) (b : Buffer) : Holder → Holder := change (BasicPool.manageType type) (BasicPool.add b)

/-- The buffer of a handle is replaced in its pool. -/
def replaceBuffer (handle : Handle) (f : Buffer → List Buffer) : Holder → Holder :=
  change (BasicPool.manage handle) (BasicPool.replace handle f)

/-- The inbound buffer is the one with the other handle, when it was the one with this. -/
def moveInbound (handle handle' : Handle) (s : Holder) : Holder :=
  if handle = s.inbound then { s with inbound := handle' } else s

/-- `allocate`. -/
def allocate (env : Environment) (id : Nat) (type : BufferType) (size : Nat) : M Handle := do
  let pool ← findType type
  let b : Buffer := ⟨id, type, pool.allocator.allocate env size⟩
  modify (addBuffer type b)
  return b.handle

/-- `reallocate`. -/
def reallocate (env : Environment) (handle : Handle) (size : Nat) : M Handle := do
  let pool ← findHandle handle
  match pool.find handle with
  | none => return none
  | some b =>
    let b : Buffer := { b with payload := { b.payload with memory := pool.allocator.reallocate env size b.payload.memory } }
    modify (replaceBuffer handle fun _ => [b])
    modify (moveInbound handle b.handle)
    return b.handle

/-- `deallocate`. -/
def deallocate (handle : Handle) : M Unit := do
  if handle ≠ (← get).inbound ∧ handle ≠ none then
    let _ ← findHandle handle
    modify (replaceBuffer handle fun _ => [])

/-- `insert`. -/
def insert (id : Nat) (payload : Payload) : M Handle := do
  if payload.null then return none
  let _ ← findType payload.type
  let b : Buffer := ⟨id, payload⟩
  modify (addBuffer payload.type b)
  return b.handle

/-- `adopt`. -/
def adopt (id : Nat) (payload : Payload) : M Handle := do
  let handle ← insert id payload
  modify fun s => { s with inbound := handle }
  return handle

/-- `release`, with the size of the user for the one that has it. The buffer is out of its pool when the size is
found to be too large. -/
def release (handle : Handle) (userSize : Option Nat) : M (Option Buffer) := do
  if handle = none then return none
  let pool ← findHandle handle
  let b := pool.find handle
  modify (replaceBuffer handle fun _ => [])
  if userSize.any fun size => b.any fun b => size > pool.allocator.limit b.payload.memory then throw .argument
  modify (moveInbound handle none)
  return b

/-- `clear`. -/
def clear : M Unit := do
  let inbound := (← get).inbound
  if inbound ≠ none then
    tryCatch (do
      let _ ← findHandle inbound
      modify (replaceBuffer inbound fun _ => [])
      modify fun s => { s with inbound := none }) fun _ => pure ()

/-- What a user does with an order or a field buffer, in the memory it has. -/
def use (handle : Handle) (size : Nat) : M Unit := do
  let pool ← findHandle handle
  match pool.find handle with
  | some b =>
    if pool.allocator = .reserving ∧ size ≤ b.payload.memory.capacity then
      modify (replaceBuffer handle fun b => [{ b with payload := { b.payload with memory := { b.payload.memory with size := size } } }])
  | none => pure ()

/-- The buffer that a handle leads to. -/
def lookup (handle : Handle) (s : Holder) : Option Buffer := (s.pools.find? (BasicPool.manage handle)).bind (BasicPool.find handle)

end Holder

end Casual.Pool

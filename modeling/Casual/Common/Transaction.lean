/-
`common/process.h` and `common/transaction/id.h`: process handles and transaction ids.
-/
import Mathlib.Tactic

namespace Casual.Common

/-- `process::Handle`. -/
structure Process where
  pid : Nat
  queue : Nat
  deriving DecidableEq, Repr

namespace Transaction

/-- `XID`, one that is not null: the global part is one to sixty-four bytes. -/
structure XID where
  formatID : Int
  gtrid : List UInt8
  bqual : List UInt8
  gtridLength : 1 ≤ gtrid.length ∧ gtrid.length ≤ 64
  deriving DecidableEq

theorem XID.single_length (byte : UInt8) : 1 ≤ [byte].length ∧ [byte].length ≤ 64 := ⟨le_rfl, by norm_num⟩

/-- `transaction::ID`: ids are compared by their `XID`, whoever the owner is. The null id is `none`
of an `Option ID`. -/
structure ID where
  xid : XID
  owner : Process
  deriving DecidableEq

/-- `global`: the range of the global part. -/
def global : Option ID → List UInt8
  | none => []
  | some id => id.xid.gtrid

/-- `parameter_bind` of a range: the data of an empty one is a null pointer, which binds `NULL`. -/
def bind (range : List UInt8) : Option (List UInt8) := if range.isEmpty then none else some range

@[simp] theorem bind_global_some (id : ID) : bind (global (some id)) = some id.xid.gtrid := by
  have : ¬ id.xid.gtrid.isEmpty = true := by
    rw [List.isEmpty_iff_length_eq_zero]
    have := id.xid.gtridLength
    omega
  simp [bind, global, this]

@[simp] theorem bind_global_none : bind (global none) = none := rfl

end Transaction

end Casual.Common

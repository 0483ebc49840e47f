/-
`buffer/source/field.cpp`: a field buffer, its operations on bytes, and the functions of the
interface that change it or read from it.
-/
import Casual.Lib.Bytes

namespace Casual.Field

open Casual.Lib

/-! ## Network byte order -/

/-- `common::network::byteorder::encode` of a value of `n` bytes. -/
def encode (n : Nat) (value : Nat) : List UInt8 := (Bytes.ofNat n value).reverse

/-- `decode<long>` of what is at an address of the buffer; `none` when some of it is not in the buffer. -/
def decode (memory : List UInt8) (offset : Int) : Option (BitVec 64) :=
  if 0 ≤ offset then (Bytes.slice memory offset.toNat 8).map fun part => BitVec.ofNat 64 (Bytes.toNat part.reverse)
  else none

/-- A `long`. -/
def encodeLong (value : BitVec 64) : List UInt8 := encode 8 value.toNat

/-- `data_offset`. -/
def dataOffset : Nat := 16

/-- `size_offset`. -/
def sizeOffset : Nat := 8

/-- A sum of sizes in a `size_type`, for sums below `2 ^ 64`: what is negative wraps. -/
def sizeType (sum : Int) : Int := if sum < 0 then sum + 2 ^ 64 else sum

theorem sizeType_eq {sum : Int} (h : 0 ≤ sum) : sizeType sum = sum := if_neg (by omega)

/-! ## Values -/

/-- The codes of the interface; `outside` is an access to memory that is not the buffer's. -/
inductive Code
  | noSpace | noOccurrence | invalidId | outside
  deriving DecidableEq, Repr

/-- A value that is added or that replaces another; the floating point ones are what `encode` makes of
them, a string is what its pointer points to. -/
inductive Value
  | short (value : BitVec 16)
  | long (value : BitVec 64)
  | char (value : BitVec 8)
  | float (value : BitVec 32)
  | double (value : BitVec 64)
  | string (value : List UInt8)
  | binary (value : List UInt8)

namespace Value

/-- `CASUAL_FIELD_SHORT` and so on. -/
def type : Value → Int
  | short _ => 1
  | long _ => 2
  | char _ => 3
  | float _ => 4
  | double _ => 5
  | string _ => 6
  | binary _ => 7

/-- What is written for a value: for a string as much as `strlen` counts, and the null character. -/
def bytes : Value → List UInt8
  | short value => encode 2 value.toNat
  | long value => encode 8 value.toNat
  | char value => encode 1 value.toNat
  | float value => encode 4 value.toNat
  | double value => encode 8 value.toNat
  | string value => value.takeWhile (· ≠ 0) ++ [0]
  | binary value => value

/-- Whether a value is written over the one that is there, whatever size that has. -/
def plain : Value → Bool
  | string _ => false
  | binary _ => false
  | _ => true

/-- What `CasualFieldAddEmpty` adds for the type of an id. -/
def empty (type : Int) : Option Value :=
  match type with
  | 1 => some (short 0)
  | 2 => some (long 0)
  | 3 => some (char 0)
  | 4 => some (float 0)
  | 5 => some (double 0)
  | 6 => some (string [])
  | 7 => some (binary [])
  | _ => none

end Value

/-- `id / CASUAL_FIELD_TYPE_BASE`. -/
def typeOf (id : BitVec 64) : Int := id.toInt.tdiv 0x2000000

/-! ## The buffer -/

/-- `Buffer`: the bytes that are used, the capacity of the memory, and where each field begins. -/
structure Buffer where
  memory : List UInt8
  capacity : Nat
  index : List (BitVec 64 × Int)
  limit : capacity < 2 ^ 63

/-- `index( id, occurrence)`: the position in the index of the occurrence of an id. -/
def findIndex (id : BitVec 64) : Int → List (BitVec 64 × Int) → Option Nat
  | _, [] => none
  | occurrence, (id', _) :: rest =>
    if id' = id then
      if occurrence = 0 then some 0 else (findIndex id (occurrence - 1) rest).map (· + 1)
    else (findIndex id occurrence rest).map (· + 1)

/-- `update_second` of each entry. -/
def updateSecond (value : Int) (index : List (BitVec 64 × Int)) : List (BitVec 64 × Int) :=
  index.map fun e => (e.1, e.2 + value)

/-- What is written over the bytes at an offset. -/
def overwrite (memory : List UInt8) (offset : Nat) (bytes : List UInt8) : List UInt8 :=
  memory.take offset ++ bytes ++ memory.drop (offset + bytes.length)

namespace Buffer

/-- A buffer as it is allocated. -/
def allocate (capacity : Nat) (limit : capacity < 2 ^ 63) : Buffer := ⟨[], capacity, [], limit⟩

/-- `utilized`. -/
def utilized (b : Buffer) : Nat := b.memory.length

/-- `find`: the offset of the field. -/
def find (id : BitVec 64) (occurrence : Int) (b : Buffer) : Option Int :=
  (findIndex id occurrence b.index).bind fun i => (b.index[i]?).map Prod.snd

/-- `append`: false when the field does not fit. -/
def append (id : BitVec 64) (value : List UInt8) (b : Buffer) : Option Buffer :=
  if b.utilized + dataOffset + value.length > b.capacity then none
  else some { b with
    memory := b.memory ++ encodeLong id ++ encodeLong (BitVec.ofNat 64 value.length) ++ value
    index := b.index ++ [(id, (b.utilized : Int))] }

/-- `select` with a size: the bytes of the value. -/
def select (id : BitVec 64) (occurrence : Int) (b : Buffer) : Except Code (List UInt8) :=
  match b.find id occurrence with
  | none => .error .noOccurrence
  | some offset =>
    match decode b.memory (offset + sizeOffset) with
    | none => .error .outside
    | some count =>
      match Bytes.slice b.memory (offset + dataOffset).toNat count.toInt.toNat with
      | none => .error .outside
      | some value => .ok value

/-- `select` of a value of `n` bytes. -/
def selectPlain (n : Nat) (id : BitVec 64) (occurrence : Int) (b : Buffer) : Except Code (List UInt8) :=
  match b.find id occurrence with
  | none => .error .noOccurrence
  | some offset =>
    match Bytes.slice b.memory (offset + dataOffset).toNat n with
    | none => .error .outside
    | some value => .ok value

/-- `select` of a string: what the pointer it returns points to. -/
def selectString (id : BitVec 64) (occurrence : Int) (b : Buffer) : Except Code (List UInt8) :=
  match b.find id occurrence with
  | none => .error .noOccurrence
  | some offset =>
    if 0 ∈ b.memory.drop (offset + dataOffset).toNat then
      .ok ((b.memory.drop (offset + dataOffset).toNat).takeWhile (· ≠ 0) ++ [0])
    else .error .outside

/-- `update` of a string or a binary: the tail is moved; false when it is not there or does not fit. -/
def updateSized (id : BitVec 64) (occurrence : Int) (data : List UInt8) (b : Buffer) :
    Except Code (Option Buffer) :=
  match findIndex id occurrence b.index with
  | none => .ok none
  | some i =>
    match (b.index[i]?).map Prod.snd with
    | none => .error .outside
    | some offset =>
      match decode b.memory (offset + sizeOffset) with
      | none => .error .outside
      | some count =>
        if sizeType ((b.utilized : Int) - count.toInt + data.length) > b.capacity then .ok none
        else if count.toInt < 0 ∨ offset + dataOffset + count.toInt > b.utilized then .error .outside
        else
          let memory := overwrite b.memory (offset + sizeOffset).toNat (encodeLong (BitVec.ofNat 64 data.length))
          let first := (offset + dataOffset).toNat
          .ok (some { b with
            memory := memory.take first ++ data ++ memory.drop (first + count.toInt.toNat)
            index := b.index.take (i + 1) ++ updateSecond (data.length - count.toInt) (b.index.drop (i + 1)) })

/-- `update` of a plain value, which is written over the value that is there. -/
def updatePlain (id : BitVec 64) (occurrence : Int) (data : List UInt8) (b : Buffer) : Except Code (Option Buffer) :=
  match b.find id occurrence with
  | none => .ok none
  | some offset =>
    if offset + dataOffset < 0 ∨ offset + dataOffset + data.length > b.utilized then .error .outside
    else .ok (some { b with memory := overwrite b.memory (offset + dataOffset).toNat data })

/-- `remove`: false when it is not there. -/
def remove (id : BitVec 64) (occurrence : Int) (b : Buffer) : Except Code (Option Buffer) :=
  match findIndex id occurrence b.index with
  | none => .ok none
  | some i =>
    match (b.index[i]?).map Prod.snd with
    | none => .error .outside
    | some offset =>
      match decode b.memory (offset + sizeOffset) with
      | none => .error .outside
      | some count =>
        if offset < 0 ∨ dataOffset + count.toInt < 0 ∨ offset + (dataOffset + count.toInt) > b.utilized then .error .outside
        else
          .ok (some { b with
            memory := b.memory.take offset.toNat ++ b.memory.drop (offset.toNat + (dataOffset + count.toInt).toNat)
            index := b.index.take i ++ updateSecond (0 - dataOffset - count.toInt) (b.index.drop (i + 1)) })

/-- `reset`. -/
def reset (b : Buffer) : Buffer := { b with memory := [], index := [] }

/-- `count( id)`. -/
def count (id : BitVec 64) (b : Buffer) : Nat := b.index.countP fun e => e.1 == id

/-- `copy` of another buffer: false when that does not fit. -/
def copy (other b : Buffer) : Option Buffer :=
  if b.capacity < other.utilized then none else some { b with memory := other.memory, index := other.index }

end Buffer

/-! ## The index of some bytes -/

/-- The loop of `update_index`: `none` while it has not ended, `outside` when it reads what is not in the
buffer. -/
def updateIndex (memory : List UInt8) : Nat → Int → List (BitVec 64 × Int) → Option (Except Code (List (BitVec 64 × Int)))
  | 0, _, _ => none
  | fuel + 1, cursor, index =>
    if cursor < memory.length then
      match decode memory cursor, decode memory (cursor + sizeOffset) with
      | some id, some size =>
        updateIndex memory fuel (cursor + (dataOffset + size.toInt)) (index ++ [(id, cursor)])
      | _, _ => some (.error .outside)
    else some (.ok index)

/-- `Buffer( payload)`, of what was received; `none` while `update_index` has not ended. -/
def construct (memory : List UInt8) (capacity : Nat) (limit : capacity < 2 ^ 63) (fuel : Nat) : Option (Except Code Buffer) :=
  (updateIndex memory fuel 0 []).map fun result => result.map fun index => ⟨memory, capacity, index, limit⟩

/-- `CasualFieldCopyMemory`. -/
def copyMemory (memory : List UInt8) (b : Buffer) (fuel : Nat) : Option (Except Code Buffer) :=
  if b.capacity < memory.length then some (.error .noSpace)
  else (updateIndex memory fuel 0 []).map fun result => result.map fun index => { b with memory := memory, index := index }

/-! ## The interface -/

/-- `add`: `CasualFieldAddShort` and so on, and `CasualFieldAddValue` of a value of the id's type. -/
def add (id : BitVec 64) (value : Value) (b : Buffer) : Except Code Buffer :=
  if value.type ≠ typeOf id then .error .invalidId
  else
    match b.append id value.bytes with
    | some b' => .ok b'
    | none => .error .noSpace

/-- `update`: `CasualFieldUpdateShort` and so on, and `CasualFieldUpdateValue` of a value of the id's
type. -/
def update (id : BitVec 64) (occurrence : Int) (value : Value) (b : Buffer) : Except Code Buffer :=
  if value.type ≠ typeOf id then .error .invalidId
  else
    match if value.plain then b.updatePlain id occurrence value.bytes else b.updateSized id occurrence value.bytes with
    | .error e => .error e
    | .ok (some b') => .ok b'
    | .ok none => if (b.find id occurrence).isSome then .error .noSpace else .error .noOccurrence

/-- `remove`, `CasualFieldRemoveOccurrence`. -/
def remove (id : BitVec 64) (occurrence : Int) (b : Buffer) : Except Code Buffer :=
  if ¬ 0 < id.toInt then .error .invalidId
  else
    match b.remove id occurrence with
    | .error e => .error e
    | .ok (some b') => .ok b'
    | .ok none => .error .noOccurrence

/-- The loop of `CasualFieldRemoveId`, which does not look at what `remove` returns. -/
def removeOccurrences (id : BitVec 64) : Nat → Buffer → Except Code Buffer
  | 0, b => .ok b
  | occurrences + 1, b =>
    match remove id occurrences b with
    | .ok b' => removeOccurrences id occurrences b'
    | .error .outside => .error .outside
    | .error _ => removeOccurrences id occurrences b

/-- `CasualFieldRemoveId`. -/
def removeId (id : BitVec 64) (b : Buffer) : Except Code Buffer :=
  if b.count id = 0 then .error .noOccurrence else removeOccurrences id (b.count id) b

/-- `CasualFieldAddEmpty`. -/
def addEmpty (id : BitVec 64) (b : Buffer) : Except Code Buffer :=
  match Value.empty (typeOf id) with
  | some value => add id value b
  | none => .error .invalidId

/-- An empty field takes room, so there is room for finitely many. -/
theorem addEmpty_lt {id : BitVec 64} {b b' : Buffer} (h : addEmpty id b = .ok b') :
    b'.capacity - b'.memory.length < b.capacity - b.memory.length := by
  have hadd : ∀ {value : Value}, add id value b = .ok b' →
      b'.capacity - b'.memory.length < b.capacity - b.memory.length := by
    intro value h
    unfold add Buffer.append at h
    split_ifs at h with htype hspace
    obtain rfl := Except.ok.inj h
    simp only [List.length_append, Buffer.utilized, dataOffset] at hspace ⊢
    have : (encodeLong id).length = 8 := by simp [encodeLong, encode]
    omega
  unfold addEmpty at h
  cases hvalue : Value.empty (typeOf id) with
  | none => rw [hvalue] at h; cases h
  | some value => rw [hvalue] at h; exact hadd h

/-- `CasualFieldChangeValue`: when the occurrence is not there, empty fields are added until it is. -/
def change (id : BitVec 64) (occurrence : Int) (value : Value) (b : Buffer) : Except Code Buffer :=
  if occurrence < 0 then add id value b
  else
    match update id occurrence value b with
    | .error .noOccurrence =>
      match _hempty : addEmpty id b with
      | .ok b' => change id occurrence value b'
      | .error e => .error e
    | result => result
termination_by b.capacity - b.memory.length
decreasing_by exact addEmpty_lt _hempty

/-- `get`: `CasualFieldGetShort` and so on; for a string what its pointer points to. -/
def get (type : Int) (id : BitVec 64) (occurrence : Int) (b : Buffer) : Except Code (List UInt8) :=
  if type ≠ typeOf id then .error .invalidId
  else
    match type with
    | 1 => b.selectPlain 2 id occurrence
    | 2 => b.selectPlain 8 id occurrence
    | 3 => b.selectPlain 1 id occurrence
    | 4 => b.selectPlain 4 id occurrence
    | 5 => b.selectPlain 8 id occurrence
    | 6 => b.selectString id occurrence
    | 7 => b.select id occurrence
    | _ => .error .invalidId

/-- `copy`, `CasualFieldCopyBuffer`. -/
def copy (source b : Buffer) : Except Code Buffer :=
  match Buffer.copy source b with
  | some b' => .ok b'
  | none => .error .noSpace

end Casual.Field

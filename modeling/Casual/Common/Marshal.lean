/-
`common/marshal/binary.h`, with `common/memory.h` and the marshalling of `transaction::ID`,
`process::Handle` and `Uuid`: how values are written to a buffer of bytes and read from it.
-/
import Casual.Lib.Bytes

namespace Casual.Common.Marshal

open Casual.Lib

/-! ## Values -/

/-- What is marshalled: each kind has an overload of its own. The members of a structure are marshalled
one after the other. -/
inductive Kind
  | integer (bytes : Nat)
  | boolean
  | array (size : Nat)
  | string
  | binary
  | vector (element : Kind)
  | members (first second : Kind)
  | id

namespace Kind

/-- `process::Handle`: a `pid_t` and an `int`. -/
def process : Kind := members (integer 4) (integer 4)

/-- `Uuid`: a `uuid_t`. -/
def uuid : Kind := array 16

end Kind

/-- A container whose `size_type` holds its size. -/
abbrev Sized (α : Type) := { l : List α // l.length < 256 ^ 8 }

/-- `process::Handle`: a pid and a queue. -/
abbrev Handle := BitVec 32 × BitVec 32

/-- `XID` of `xa.h`: the lengths of the two parts are within the data, unless it is null. -/
structure XID where
  formatID : BitVec 64
  gtridLength : BitVec 64
  bqualLength : BitVec 64
  data : List UInt8
  size : data.length = 128
  fits : formatID = -1 ∨ gtridLength.toNat + bqualLength.toNat ≤ 128

namespace XID

/-- `null`. -/
def null (x : XID) : Bool := x.formatID == -1

/-- The size of the two parts. -/
def length (x : XID) : Nat := x.gtridLength.toNat + x.bqualLength.toNat

/-- `operator ==`: what comes before the data and as much of the data as the lengths say are compared. -/
def eq (lhs rhs : XID) : Bool :=
  lhs.formatID == rhs.formatID && (lhs.null ||
    lhs.gtridLength == rhs.gtridLength && lhs.bqualLength == rhs.bqualLength &&
      lhs.data.take lhs.length == rhs.data.take lhs.length)

end XID

/-- `transaction::ID`. -/
structure ID where
  xid : XID
  owner : Handle

namespace ID

/-- `ID()`. -/
def empty : ID := ⟨⟨-1, 0, 0, List.replicate 128 0, by simp, .inl rfl⟩, 0, 0⟩

/-- `range`. -/
def range (i : ID) : List UInt8 := i.xid.data.take i.xid.length

/-- Ids that are equal and, unless they are null, have the same owner. -/
def Same (lhs rhs : ID) : Prop := lhs.xid.eq rhs.xid = true ∧ (lhs.xid.null = false → lhs.owner = rhs.owner)

end ID

namespace Kind

/-- The values of a kind. -/
@[reducible] def Value : Kind → Type
  | integer bytes => BitVec (8 * bytes)
  | boolean => Bool
  | array size => { l : List UInt8 // l.length = size }
  | string => Sized UInt8
  | binary => Sized UInt8
  | vector element => Sized element.Value
  | members first second => first.Value × second.Value
  | id => ID

/-- A value that `resize` adds. -/
def initial : (k : Kind) → k.Value
  | integer _ => (0 : BitVec _)
  | boolean => false
  | array size => ⟨List.replicate size 0, List.length_replicate⟩
  | string => ⟨[], by simp⟩
  | binary => ⟨[], by simp⟩
  | vector _ => ⟨[], by simp⟩
  | members first second => (first.initial, second.initial)
  | id => ID.empty

/-- Values that are equal. -/
def Equal : (k : Kind) → k.Value → k.Value → Prop
  | integer _, v, w => v = w
  | boolean, v, w => v = w
  | array _, v, w => v = w
  | string, v, w => v = w
  | binary, v, w => v = w
  | vector element, v, w => List.Forall₂ element.Equal v.val w.val
  | members first second, v, w => first.Equal v.1 w.1 ∧ second.Equal v.2 w.2
  | id, v, w => ID.Same v w

end Kind

/-! ## Writing -/

/-- `memory::append` of a value that is an integer for the processor. -/
def writePod (bytes value : Nat) (buffer : List UInt8) : List UInt8 := buffer ++ Bytes.ofNat bytes value

/-- `casual_marshal_value` of a `transaction::ID`. -/
def writeID (value : ID) (buffer : List UInt8) : List UInt8 :=
  let buffer := writePod 8 value.xid.formatID.toNat buffer
  if value.xid.null then buffer
  else
    let buffer := writePod 4 value.owner.1.toNat buffer
    let buffer := writePod 4 value.owner.2.toNat buffer
    let buffer := writePod 8 value.xid.gtridLength.toNat buffer
    let buffer := writePod 8 value.xid.bqualLength.toNat buffer
    buffer ++ value.range

/-- `write`. -/
def write : (k : Kind) → k.Value → List UInt8 → List UInt8
  | .integer bytes, value, buffer => writePod bytes (value : BitVec _).toNat buffer
  | .boolean, value, buffer => writePod 1 (value : Bool).toNat buffer
  | .array _, value, buffer => buffer ++ value.val
  | .string, value, buffer => writePod 8 value.val.length buffer ++ value.val
  | .binary, value, buffer => writePod 8 value.val.length buffer ++ value.val
  | .vector element, value, buffer =>
    value.val.foldl (fun buffer current => write element current buffer) (writePod 8 value.val.length buffer)
  | .members first second, value, buffer => write second value.2 (write first value.1 buffer)
  | .id, value, buffer => writeID value buffer

/-! ## Reading -/

/-- `memory::copy` of an integer, and the new offset; it asserts that the buffer has it. -/
def readPod (bytes : Nat) (buffer : List UInt8) (offset : Nat) : Option (Nat × Nat) :=
  (Bytes.slice buffer offset bytes).map fun part => (Bytes.toNat part, offset + bytes)

/-- `consume`, which asserts that the buffer has what it consumes. -/
def consume (buffer : List UInt8) (offset size : Nat) : Option (List UInt8 × Nat) :=
  (Bytes.slice buffer offset size).map fun part => (part, offset + size)

/-- `casual_unmarshal_value` of a `transaction::ID`. Lengths that the data does not hold make it write
behind the data. -/
def readID (buffer : List UInt8) (offset : Nat) (value : ID) : Option (ID × Nat) := do
  let (formatID, offset) ← readPod 8 buffer offset
  if BitVec.ofNat 64 formatID = -1 then
    some ({ value with xid := { value.xid with formatID := -1, fits := .inl rfl } }, offset)
  else
    let (pid, offset) ← readPod 4 buffer offset
    let (queue, offset) ← readPod 4 buffer offset
    let (gtridLength, offset) ← readPod 8 buffer offset
    let (bqualLength, offset) ← readPod 8 buffer offset
    if hfits : (BitVec.ofNat 64 gtridLength).toNat + (BitVec.ofNat 64 bqualLength).toNat ≤ 128 then
      let size := (BitVec.ofNat 64 gtridLength).toNat + (BitVec.ofNat 64 bqualLength).toNat
      let (part, offset) ← consume buffer offset size
      let data := part ++ value.xid.data.drop size
      if hsize : data.length = 128 then
        some (⟨⟨BitVec.ofNat 64 formatID, BitVec.ofNat 64 gtridLength, BitVec.ofNat 64 bqualLength, data, hsize,
          .inr hfits⟩, BitVec.ofNat 32 pid, BitVec.ofNat 32 queue⟩, offset)
      else none
    else none

/-- The loop over the elements of a vector: each is read over what was there. -/
def readEach {α : Type} (read : Nat → α → Option (α × Nat)) : List α → Nat → Option (List α × Nat)
  | [], offset => some ([], offset)
  | current :: rest, offset => do
    let (current, offset) ← read offset current
    let (rest, offset) ← readEach read rest offset
    some (current :: rest, offset)

/-- `resize`. -/
def resize {α : Type} (initial : α) (size : Nat) (l : List α) : List α :=
  l.take size ++ List.replicate (size - l.length) initial

/-- A list that was read with its size before it. -/
def sized {α : Type} (l : List α) (offset : Nat) : Option (Sized α × Nat) :=
  if h : l.length < 256 ^ 8 then some (⟨l, h⟩, offset) else none

/-- `read`: from the offset on, over a value that is there. -/
def read (buffer : List UInt8) : (k : Kind) → Nat → k.Value → Option (k.Value × Nat)
  | .integer bytes, offset, _ => (readPod bytes buffer offset).map fun r => (BitVec.ofNat (8 * bytes) r.1, r.2)
  | .boolean, offset, _ => (readPod 1 buffer offset).map fun r => (r.1 != 0, r.2)
  | .array size, offset, _ => do
    let (part, offset) ← consume buffer offset size
    if h : part.length = size then some (⟨part, h⟩, offset) else none
  | .string, offset, _ => do
    let (size, offset) ← readPod 8 buffer offset
    let (part, offset) ← consume buffer offset size
    sized part offset
  | .binary, offset, _ => do
    let (size, offset) ← readPod 8 buffer offset
    let (part, offset) ← consume buffer offset size
    sized part offset
  | .vector element, offset, value => do
    let (size, offset) ← readPod 8 buffer offset
    let (l, offset) ← readEach (read buffer element) (resize element.initial size value.val) offset
    sized l offset
  | .members first second, offset, value => do
    let (v, offset) ← read buffer first offset value.1
    let (w, offset) ← read buffer second offset value.2
    some ((v, w), offset)
  | .id, offset, value => readID buffer offset value

/-! ## What is written is read -/

theorem writePod_eq (bytes value : Nat) (buffer : List UInt8) :
    writePod bytes value buffer = buffer ++ writePod bytes value [] := rfl

theorem writeID_eq (value : ID) (buffer : List UInt8) : writeID value buffer = buffer ++ writeID value [] := by
  unfold writeID writePod
  split_ifs <;> simp

theorem writeEach_eq {α : Type} {write : α → List UInt8 → List UInt8}
    (h : ∀ value buffer, write value buffer = buffer ++ write value []) : ∀ (l : List α) (buffer : List UInt8),
    l.foldl (fun buffer current => write current buffer) buffer = buffer ++ l.flatMap fun current => write current []
  | [], buffer => by simp
  | current :: l, buffer => by
    rw [List.foldl_cons, writeEach_eq h l, h current buffer, List.flatMap_cons, List.append_assoc]

/-- Writing adds bytes behind those that are there. -/
theorem write_eq : ∀ (k : Kind) (value : k.Value) (buffer : List UInt8),
    write k value buffer = buffer ++ write k value []
  | .integer _, _, _ => rfl
  | .boolean, _, _ => rfl
  | .array _, _, _ => rfl
  | .string, _, _ => by simp [write, writePod]
  | .binary, _, _ => by simp [write, writePod]
  | .vector element, value, buffer => by
    unfold write
    rw [writeEach_eq (write_eq element), writeEach_eq (write_eq element), writePod_eq, List.append_assoc]
  | .members first second, value, buffer => by
    unfold write
    rw [write_eq second, write_eq first _ buffer, write_eq second _ (write first value.1 []), List.append_assoc]
  | .id, value, buffer => writeID_eq value buffer

theorem write_vector (element : Kind) (value : (Kind.vector element).Value) :
    write (.vector element) value [] =
      Bytes.ofNat 8 value.val.length ++ value.val.flatMap fun current => write element current [] := by
  show value.val.foldl (fun buffer current => write element current buffer) (writePod 8 value.val.length []) = _
  rw [writeEach_eq (write_eq element)]
  rfl

theorem readPod_at {bytes value offset : Nat} {buffer : List UInt8} (h : Bytes.At buffer offset (Bytes.ofNat bytes value))
    (hvalue : value < 256 ^ bytes) : readPod bytes buffer offset = some (value, offset + bytes) := by
  have hslice := h.slice
  rw [Bytes.length_ofNat] at hslice
  unfold readPod
  rw [hslice, Option.map_some, Bytes.toNat_ofNat_of_lt hvalue]

theorem consume_at {offset : Nat} {buffer part : List UInt8} (h : Bytes.At buffer offset part) :
    consume buffer offset part.length = some (part, offset + part.length) := by
  unfold consume
  rw [h.slice, Option.map_some]

/-- `k` is read back: where a value was written, an equal value is read and as much as was written. -/
def ReadsBack (k : Kind) : Prop :=
  ∀ (value target : k.Value) (buffer : List UInt8) (offset : Nat), Bytes.At buffer offset (write k value []) →
    ∃ result, read buffer k offset target = some (result, offset + (write k value []).length) ∧ k.Equal result value

theorem integer_readsBack (bytes : Nat) : ReadsBack (.integer bytes) := by
  intro value target buffer offset h
  have hlt : BitVec.toNat value < 256 ^ bytes := by
    rw [show 256 = 2 ^ 8 from rfl, ← pow_mul]
    exact BitVec.isLt value
  have hlen : (write (.integer bytes) value []).length = bytes := Bytes.length_ofNat _ _
  refine ⟨value, ?_, rfl⟩
  unfold read
  rw [readPod_at h hlt, Option.map_some, BitVec.ofNat_toNat, BitVec.setWidth_eq, hlen]

theorem boolean_readsBack : ReadsBack .boolean := by
  intro value target buffer offset h
  refine ⟨value, ?_, rfl⟩
  unfold read
  rw [readPod_at h (by cases value <;> decide), Option.map_some]
  cases value <;> rfl

theorem array_readsBack (size : Nat) : ReadsBack (.array size) := by
  intro value target buffer offset h
  obtain ⟨l, rfl⟩ := value
  have hdata : Bytes.At buffer offset l := h
  refine ⟨⟨l, rfl⟩, ?_, rfl⟩
  unfold read
  rw [consume_at hdata]
  exact dif_pos rfl

/-- A size and as many bytes are read back. -/
theorem bytes_readsBack (value : Sized UInt8) {buffer : List UInt8} {offset : Nat}
    (h : Bytes.At buffer offset (Bytes.ofNat 8 value.val.length ++ value.val)) :
    (do
      let (size, offset) ← readPod 8 buffer offset
      let (part, offset) ← consume buffer offset size
      sized part offset) = some (value, offset + (Bytes.ofNat 8 value.val.length ++ value.val).length) := by
  have hdata := h.right
  rw [Bytes.length_ofNat] at hdata
  rw [readPod_at h.left value.property]
  simp only [Option.bind_eq_bind, Option.bind_some, consume_at hdata]
  unfold sized
  rw [dif_pos value.property, List.length_append, Bytes.length_ofNat, Nat.add_assoc]

theorem string_readsBack : ReadsBack .string := fun value _ _ _ h => ⟨value, bytes_readsBack value h, rfl⟩

theorem binary_readsBack : ReadsBack .binary := fun value _ _ _ h => ⟨value, bytes_readsBack value h, rfl⟩

/-- Elements are read back over as many. -/
theorem readEach_spec {element : Kind} (hk : ReadsBack element) {buffer : List UInt8} :
    ∀ (values targets : List element.Value) (offset : Nat), targets.length = values.length →
      Bytes.At buffer offset (values.flatMap fun current => write element current []) →
      ∃ results, readEach (read buffer element) targets offset =
          some (results, offset + (values.flatMap fun current => write element current []).length) ∧
        List.Forall₂ element.Equal results values
  | [], [], offset, _, _ => ⟨[], rfl, .nil⟩
  | [], _ :: _, _, hlen, _ => nomatch hlen
  | _ :: _, [], _, hlen, _ => nomatch hlen
  | value :: values, target :: targets, offset, hlen, h => by
    rw [List.flatMap_cons] at h
    obtain ⟨result, hread, heq⟩ := hk value target buffer offset h.left
    obtain ⟨results, hrest, hall⟩ := readEach_spec hk values targets _ (by simpa using hlen) h.right
    refine ⟨result :: results, ?_, .cons heq hall⟩
    unfold readEach
    rw [hread]
    simp only [Option.bind_eq_bind, Option.bind_some, hrest]
    rw [List.flatMap_cons, List.length_append, Nat.add_assoc]

@[simp] theorem length_resize {α : Type} (initial : α) (size : Nat) (l : List α) : (resize initial size l).length = size := by
  unfold resize
  rw [List.length_append, List.length_take, List.length_replicate]
  omega

theorem vector_readsBack {element : Kind} (hk : ReadsBack element) : ReadsBack (.vector element) := by
  intro value target buffer offset h
  rw [write_vector] at h ⊢
  have helements := h.right
  rw [Bytes.length_ofNat] at helements
  obtain ⟨results, hread, hall⟩ := readEach_spec hk value.val (resize element.initial value.val.length target.val) _
    (length_resize _ _ _) helements
  have hlen : results.length < 256 ^ 8 := hall.length_eq ▸ value.property
  refine ⟨⟨results, hlen⟩, ?_, hall⟩
  unfold read
  rw [readPod_at h.left value.property]
  simp only [Option.bind_eq_bind, Option.bind_some, hread]
  unfold sized
  rw [dif_pos hlen, List.length_append, Bytes.length_ofNat, Nat.add_assoc]

theorem members_readsBack {first second : Kind} (hfirst : ReadsBack first) (hsecond : ReadsBack second) :
    ReadsBack (.members first second) := by
  intro value target buffer offset h
  have hwrite : write (.members first second) value [] = write first value.1 [] ++ write second value.2 [] :=
    write_eq second value.2 (write first value.1 [])
  rw [hwrite] at h ⊢
  obtain ⟨v, hv, hveq⟩ := hfirst value.1 target.1 buffer offset h.left
  obtain ⟨w, hw, hweq⟩ := hsecond value.2 target.2 buffer _ h.right
  refine ⟨(v, w), ?_, hveq, hweq⟩
  unfold read
  rw [hv]
  simp only [Option.bind_eq_bind, Option.bind_some, hw]
  rw [List.length_append, Nat.add_assoc]

/-! ## Transaction ids -/

theorem length_range (i : ID) (h : i.xid.null = false) : i.range.length = i.xid.length := by
  have hfits : i.xid.length ≤ 128 := by
    refine i.xid.fits.resolve_left fun hnull => ?_
    rw [XID.null, hnull] at h
    simp at h
  unfold ID.range
  rw [List.length_take, i.xid.size, min_eq_left hfits]

/-- A null id is its format only. -/
theorem readID_null {value target : ID} {buffer : List UInt8} {offset : Nat} (hnull : value.xid.null = true)
    (h : Bytes.At buffer offset (writeID value [])) :
    ∃ result, readID buffer offset target = some (result, offset + (writeID value []).length) ∧ ID.Same result value := by
  have hformat : value.xid.formatID = -1 := by simpa [XID.null] using hnull
  have hwrite : writeID value [] = Bytes.ofNat 8 value.xid.formatID.toNat := by
    unfold writeID
    rw [if_pos hnull]
    rfl
  rw [hwrite] at h ⊢
  refine ⟨{ target with xid := { target.xid with formatID := -1, fits := .inl rfl } }, ?_, ?_, ?_⟩
  · unfold readID
    rw [readPod_at h value.xid.formatID.isLt]
    simp only [Option.bind_eq_bind, Option.bind_some, BitVec.ofNat_toNat, BitVec.setWidth_eq]
    rw [if_pos hformat, Bytes.length_ofNat]
  · simp [XID.eq, XID.null, hformat]
  · simp [XID.null]

/-- An id that is not null is read with its owner and both parts. -/
theorem readID_of_not_null {value target : ID} {buffer : List UInt8} {offset : Nat} (hnull : value.xid.null = false)
    (h : Bytes.At buffer offset (writeID value [])) :
    ∃ result, readID buffer offset target = some (result, offset + (writeID value []).length) ∧ ID.Same result value := by
  have hformat : value.xid.formatID ≠ -1 := by simpa [XID.null] using hnull
  have hfits : value.xid.gtridLength.toNat + value.xid.bqualLength.toNat ≤ 128 := value.xid.fits.resolve_left hformat
  have hwrite : writeID value [] = Bytes.ofNat 8 value.xid.formatID.toNat ++ Bytes.ofNat 4 value.owner.1.toNat ++
      Bytes.ofNat 4 value.owner.2.toNat ++ Bytes.ofNat 8 value.xid.gtridLength.toNat ++
      Bytes.ofNat 8 value.xid.bqualLength.toNat ++ value.range := by
    unfold writeID
    rw [if_neg (by rw [hnull]; exact Bool.false_ne_true)]
    rfl
  have hrange : value.range.length = value.xid.gtridLength.toNat + value.xid.bqualLength.toNat :=
    length_range value hnull
  rw [hwrite] at h ⊢
  have hdata := h.right
  have hbqual := h.left.right
  have hgtrid := h.left.left.right
  have hqueue := h.left.left.left.right
  have hpid := h.left.left.left.left.right
  simp only [List.length_append, Bytes.length_ofNat, ← Nat.add_assoc] at hdata hbqual hgtrid hqueue hpid
  have hconsume := consume_at hdata
  rw [hrange] at hconsume
  set data := value.range ++ target.xid.data.drop (value.xid.gtridLength.toNat + value.xid.bqualLength.toNat) with hdef
  have hsize : data.length = 128 := by
    rw [hdef, List.length_append, List.length_drop, target.xid.size, hrange]
    omega
  refine ⟨⟨⟨value.xid.formatID, value.xid.gtridLength, value.xid.bqualLength, data, hsize, .inr hfits⟩, value.owner⟩,
    ?_, ?_, fun _ => rfl⟩
  · unfold readID
    rw [readPod_at h.left.left.left.left.left value.xid.formatID.isLt]
    simp only [Option.bind_eq_bind, Option.bind_some, BitVec.ofNat_toNat, BitVec.setWidth_eq, if_neg hformat]
    rw [readPod_at hpid value.owner.1.isLt]
    simp only [Option.bind_some]
    rw [readPod_at hqueue value.owner.2.isLt]
    simp only [Option.bind_some]
    rw [readPod_at hgtrid value.xid.gtridLength.isLt]
    simp only [Option.bind_some]
    rw [readPod_at hbqual value.xid.bqualLength.isLt]
    simp only [Option.bind_some, BitVec.ofNat_toNat, BitVec.setWidth_eq]
    rw [dif_pos hfits, hconsume]
    simp only [Option.bind_some]
    rw [dif_pos hsize]
    simp only [List.length_append, Bytes.length_ofNat, hrange, ← Nat.add_assoc]
    rfl
  · have htake : data.take value.xid.length = value.xid.data.take value.xid.length := by
      have hlen : value.xid.length = value.range.length := hrange.symm
      rw [hdef, hlen, List.take_left, ← hlen]
      rfl
    simp only [XID.eq, beq_self_eq_true, Bool.true_and, XID.length, Bool.or_eq_true, beq_iff_eq]
    exact .inr htake

theorem id_readsBack : ReadsBack .id := by
  intro value target buffer offset h
  cases hnull : value.xid.null with
  | true => exact readID_null hnull h
  | false => exact readID_of_not_null hnull h

/-- Every kind is read back, by the structure of its values. -/
theorem readsBack : ∀ k : Kind, ReadsBack k
  | .integer bytes => integer_readsBack bytes
  | .boolean => boolean_readsBack
  | .array size => array_readsBack size
  | .string => string_readsBack
  | .binary => binary_readsBack
  | .vector element => vector_readsBack (readsBack element)
  | .members first second => members_readsBack (readsBack first) (readsBack second)
  | .id => id_readsBack

/-- Whatever comes before and behind it in the buffer, and whatever was in the variable it is read into,
a value that was written is read back, and just the bytes that were written are consumed. -/
theorem read_write (k : Kind) (value target : k.Value) (before after : List UInt8) :
    ∃ result, read (write k value before ++ after) k before.length target =
        some (result, (write k value before).length) ∧ k.Equal result value := by
  obtain ⟨result, hread, heq⟩ := readsBack k value target _ _ (Bytes.at_append before (write k value []) after)
  refine ⟨result, ?_, heq⟩
  rw [write_eq, List.length_append]
  exact hread

end Casual.Common.Marshal

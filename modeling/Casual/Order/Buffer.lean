/-
`buffer/source/order.cpp`: an order buffer. What is added to it is got from it in the same order, from the
buffer itself or from one that received what it sends.
-/
import Casual.Field.Index

namespace Casual.Order

open Casual.Lib Casual.Field

/-! ## Values -/

/-- The values of a floating point type, by the integer that has their bits. -/
structure Representation (α : Type) (n : Nat) where
  bits : α → BitVec n
  value : BitVec n → α
  value_bits : ∀ a, value (bits a) = a

/-- The floating point types, and how `encode` represents them. -/
structure Floating where
  Float : Type
  Double : Type
  float : Representation Float 32
  double : Representation Double 64

/-- The types of values that a buffer takes. -/
inductive Kind
  | bool | char | short | long | float | double | string | binary
  deriving DecidableEq, Repr

/-- What is added or got; a string is what comes before its null character. -/
inductive Value (p : Floating)
  | bool (value : Bool)
  | char (value : BitVec 8)
  | short (value : BitVec 16)
  | long (value : BitVec 64)
  | float (value : p.Float)
  | double (value : p.Double)
  | string (value : List UInt8)
  | binary (value : List UInt8)

variable {p : Floating}

namespace Value

/-- The type of a value. -/
def kind : Value p → Kind
  | bool _ => .bool
  | char _ => .char
  | short _ => .short
  | long _ => .long
  | float _ => .float
  | double _ => .double
  | string _ => .string
  | binary _ => .binary

/-- A string ends where its null character is, and the size of a binary is a `long`. -/
def Valid : Value p → Prop
  | string value => 0 ∉ value
  | binary value => value.length < 2 ^ 63
  | _ => True

end Value

/-- A value that a user can add. -/
abbrev Given (p : Floating) := { v : Value p // v.Valid }

/-- The codes of the interface. -/
inductive Code
  | success | noSpace | invalidArgument
  deriving DecidableEq, Repr

/-! ## The buffer -/

/-- `Buffer`: its vector, which is in memory as a whole, and the offset just past what was got. -/
@[ext] structure Buffer where
  memory : List UInt8
  capacity : Nat
  selector : Nat
  addressable : capacity < 2 ^ 63
  fits : memory.length ≤ capacity
  within : selector ≤ memory.length

namespace Buffer

/-- `reserved`. -/
def reserved (b : Buffer) : Nat := b.capacity

/-- `utilized`. -/
def utilized (b : Buffer) : Nat := b.memory.length

/-- `consumed`. -/
def consumed (b : Buffer) : Nat := b.selector

/-- `clear`. -/
def clear (b : Buffer) : Buffer := ⟨[], b.capacity, 0, b.addressable, Nat.zero_le _, le_rfl⟩

/-- `reset`. -/
def reset (b : Buffer) : Buffer := { b with selector := 0, within := Nat.zero_le _ }

/-- `memory.insert` at the end, where there is space. -/
def insert (bytes : List UInt8) (b : Buffer) (h : b.memory.length + bytes.length ≤ b.capacity) : Buffer :=
  { b with
    memory := b.memory ++ bytes
    fits := by rwa [List.length_append]
    within := by
      rw [List.length_append]
      exact b.within.trans (Nat.le_add_right _ _) }

theorem space {b : Buffer} {n : Nat} (h : ¬ b.reserved - b.utilized < n) : b.memory.length + n ≤ b.capacity := by
  have hfits := b.fits
  unfold reserved utilized at h
  omega

/-! ### `append` -/

/-- `append` of a value that is encoded with some bytes. -/
def appendPod (bytes value : Nat) (b : Buffer) : Bool × Buffer :=
  if h : b.reserved - b.utilized < bytes then (false, b)
  else (true, b.insert (encode bytes value) (by rw [length_encode]; exact space h))

/-- `append` of a string. -/
def appendString (value : List UInt8) (b : Buffer) : Bool × Buffer :=
  let count := value.length + 1
  if h : b.reserved - b.utilized < count then (false, b)
  else (true, b.insert (value ++ [0]) (by rw [List.length_append]; exact space h))

theorem appendPod_le (bytes value : Nat) (b : Buffer) :
    (b.appendPod bytes value).2.memory.length ≤ b.memory.length + bytes ∧ (b.appendPod bytes value).2.capacity = b.capacity := by
  unfold appendPod
  split_ifs
  · exact ⟨Nat.le_add_right _ _, rfl⟩
  · refine ⟨?_, rfl⟩
    show (b.memory ++ encode bytes value).length ≤ _
    rw [List.length_append, length_encode]

/-- `append` of a binary. The size is a `long` that is not negative, so the total is what it should be. -/
def appendBinary (data : List UInt8) (size : Nat) (hsize : size < 2 ^ 63) (b : Buffer) : Bool × Buffer :=
  let total := (8 + size) % 2 ^ 64
  if h : b.reserved - b.utilized < total then (false, b)
  else
    (true, (b.appendPod 8 size).2.insert (data.take size) (by
      obtain ⟨hlength, hcapacity⟩ := appendPod_le 8 size b
      have hspace := space h
      have htotal : total = 8 + size := Nat.mod_eq_of_lt (by omega)
      rw [hcapacity, List.length_take]
      omega))

/-! ### `select` -/

section

variable (beyond : List UInt8)

/-- What is where the selector is; what is beyond the vector is not known. -/
def whereTo (b : Buffer) : List UInt8 := (b.memory ++ beyond).drop b.selector

/-- The selector is moved over what is got. -/
def consume (count : Nat) (b : Buffer) (h : b.selector + count ≤ b.memory.length) : Buffer :=
  { b with selector := b.selector + count, within := h }

theorem consume_le {b : Buffer} {count : Nat} (h : ¬ b.utilized - b.consumed < count) : b.selector + count ≤ b.memory.length := by
  have hwithin := b.within
  unfold utilized consumed at h
  omega

/-- `select` of a value that is encoded with some bytes, which are read before it is known whether they are there. -/
def selectPod (bytes : Nat) (b : Buffer) : Option Nat × Buffer :=
  let encoded := (b.whereTo beyond).take bytes
  if h : b.utilized - b.consumed < bytes then (none, b)
  else (some (Bytes.toNat encoded.reverse), b.consume bytes (consume_le h))

/-- `std::strlen`. -/
def strlen (value : List UInt8) : Nat := (value.takeWhile (· ≠ 0)).length

/-- `select` of a string. -/
def selectString (b : Buffer) : Option (List UInt8) × Buffer :=
  let count := strlen (b.whereTo beyond) + 1
  if h : b.utilized - b.consumed < count then (none, b)
  else (some ((b.whereTo beyond).take (count - 1)), b.consume count (consume_le h))

/-- `select` of a binary: sums are those of unsigned integers. -/
def selectBinary (b : Buffer) : Option (List UInt8) × Buffer :=
  match b.selectPod beyond 8 with
  | (some size, b) =>
    if h : (b.consumed + size) % 2 ^ 64 > b.utilized then
      (none, { b with selector := b.selector - 8, within := (Nat.sub_le _ _).trans b.within })
    else (some ((b.whereTo beyond).take size), { b with selector := (b.consumed + size) % 2 ^ 64, within := not_lt.1 h })
  | (none, b) => (none, b)

end

/-! ### Copies -/

/-- `copy`. -/
def copy (target source : Buffer) : Bool × Buffer :=
  if h : target.reserved < source.utilized then (false, target)
  else (true, ⟨source.memory, target.capacity, 0, target.addressable, not_lt.1 h, Nat.zero_le _⟩)

/-- `transport`, or that the size a user gives is larger than what is allocated. -/
def transport (userSize : Nat) (b : Buffer) : Option Nat := if userSize > b.reserved then none else some b.utilized

/-- What is sent of a buffer. -/
def send (userSize : Nat) (b : Buffer) : Option (List UInt8) := (b.transport userSize).map b.memory.take

/-- `insert` of what was received, in a vector that may have more capacity than it needs. -/
def receive (memory : List UInt8) (capacity : Nat) (haddressable : capacity < 2 ^ 63) (h : memory.length ≤ capacity) : Buffer :=
  ⟨memory, capacity, 0, haddressable, h, Nat.zero_le _⟩

end Buffer

/-- `Allocator::allocate`. -/
def allocate (size : Nat) (h : size < 2 ^ 63) : Buffer :=
  ⟨[], if size = 0 then 1 else size, 0, by split_ifs <;> omega, Nat.zero_le _, le_rfl⟩

/-! ## The interface -/

/-- The code of `add`. -/
def code (r : Bool × Buffer) : Code × Buffer := (if r.1 then .success else .noSpace, r.2)

/-- `CasualOrderAddBinary`. -/
def addBinary (data : List UInt8) (size : BitVec 64) (b : Buffer) : Code × Buffer :=
  if h : size.toInt < 0 then (.invalidArgument, b)
  else
    code (b.appendBinary data size.toNat (by
      rw [BitVec.toInt_eq_toNat_cond] at h
      split_ifs at h with hsize <;> omega))

/-- `CasualOrderAddBool` and so on. -/
def add (b : Buffer) : Value p → Code × Buffer
  | .bool value => code (b.appendPod 1 value.toNat)
  | .char value => code (b.appendPod 1 value.toNat)
  | .short value => code (b.appendPod 2 value.toNat)
  | .long value => code (b.appendPod 8 value.toNat)
  | .float value => code (b.appendPod 4 (p.float.bits value).toNat)
  | .double value => code (b.appendPod 8 (p.double.bits value).toNat)
  | .string value => code (b.appendString value)
  | .binary value => addBinary value (BitVec.ofNat 64 value.length) b

/-- `CasualOrderGetBool` and so on: the value, or that there is none. -/
def get (beyond : List UInt8) (b : Buffer) : Kind → Option (Value p) × Buffer
  | .bool => (b.selectPod beyond 1).map (Option.map fun n => .bool (n != 0)) id
  | .char => (b.selectPod beyond 1).map (Option.map fun n => .char (BitVec.ofNat 8 n)) id
  | .short => (b.selectPod beyond 2).map (Option.map fun n => .short (BitVec.ofNat 16 n)) id
  | .long => (b.selectPod beyond 8).map (Option.map fun n => .long (BitVec.ofNat 64 n)) id
  | .float => (b.selectPod beyond 4).map (Option.map fun n => .float (p.float.value (BitVec.ofNat 32 n))) id
  | .double => (b.selectPod beyond 8).map (Option.map fun n => .double (p.double.value (BitVec.ofNat 64 n))) id
  | .string => (b.selectString beyond).map (Option.map .string) id
  | .binary => (b.selectBinary beyond).map (Option.map .binary) id

/-- Values that are added one after the other: those that were, and the buffer. -/
def addAll (b : Buffer) : List (Given p) → List (Value p) × Buffer
  | [] => ([], b)
  | value :: values =>
    let r := add b value.1
    let rest := addAll r.2 values
    (if r.1 = .success then value.1 :: rest.1 else rest.1, rest.2)

/-- Values that are got one after the other. -/
def getAll (beyond : List UInt8) (b : Buffer) : List Kind → List (Option (Value p)) × Buffer
  | [] => ([], b)
  | kind :: kinds =>
    let r := get beyond b kind
    let rest := getAll beyond r.2 kinds
    (r.1 :: rest.1, rest.2)

/-- The values are got by operations of their kinds, and nothing after them. -/
def Yields (b : Buffer) (values : List (Value p)) : Prop :=
  ∀ beyond, (getAll beyond b (values.map Value.kind)).1 = values.map some ∧
    ∀ kind, (get beyond (@getAll p beyond b (values.map Value.kind)).2 kind : Option (Value p) × Buffer).1 = none

/-! ## What is added -/

namespace Value

/-- What is added for a value. -/
def bytes : Value p → List UInt8
  | bool value => encode 1 value.toNat
  | char value => encode 1 value.toNat
  | short value => encode 2 value.toNat
  | long value => encode 8 value.toNat
  | float value => encode 4 (p.float.bits value).toNat
  | double value => encode 8 (p.double.bits value).toNat
  | string value => value ++ [0]
  | binary value => encode 8 value.length ++ value

end Value

theorem appendPod_cases (n value : Nat) (b : Buffer) :
    (∃ h, b.appendPod n value = (true, b.insert (encode n value) h)) ∨ b.appendPod n value = (false, b) := by
  unfold Buffer.appendPod
  split_ifs with hspace
  · exact .inr rfl
  · exact .inl ⟨by rw [length_encode]; exact Buffer.space hspace, rfl⟩

/-- A value is added as a whole, or the buffer is left as it was. -/
theorem add_cases (b : Buffer) (value : Value p) (hvalid : value.Valid) :
    (∃ h, add b value = (.success, b.insert value.bytes h)) ∨ (add b value).1 ≠ .success ∧ (add b value).2 = b := by
  have hpod : ∀ n v, (∃ h, code (b.appendPod n v) = (.success, b.insert (encode n v) h)) ∨
      (code (b.appendPod n v)).1 ≠ .success ∧ (code (b.appendPod n v)).2 = b := by
    intro n v
    rcases appendPod_cases n v b with ⟨h, hr⟩ | hr
    · exact .inl ⟨h, by rw [hr]; rfl⟩
    · rw [hr]
      exact .inr ⟨nofun, rfl⟩
  cases value with
  | bool value => exact hpod _ _
  | char value => exact hpod _ _
  | short value => exact hpod _ _
  | long value => exact hpod _ _
  | float value => exact hpod _ _
  | double value => exact hpod _ _
  | string value =>
    show (∃ h, code (b.appendString value) = (.success, b.insert (value ++ [0]) h)) ∨
      (code (b.appendString value)).1 ≠ .success ∧ (code (b.appendString value)).2 = b
    unfold Buffer.appendString
    dsimp only
    split_ifs with hspace
    · exact .inr ⟨nofun, rfl⟩
    · exact .inl ⟨by rw [List.length_append]; exact Buffer.space hspace, rfl⟩
  | binary value =>
    have hlength : value.length < 2 ^ 63 := hvalid
    have hsize : (BitVec.ofNat 64 value.length).toNat = value.length := by
      rw [BitVec.toNat_ofNat]
      omega
    have hnonneg : ¬ (BitVec.ofNat 64 value.length).toInt < 0 := by
      rw [BitVec.toInt_eq_toNat_cond, hsize]
      split_ifs <;> omega
    have htotal : (8 + value.length) % 2 ^ 64 = 8 + value.length := Nat.mod_eq_of_lt (by omega)
    show (∃ h, addBinary value _ b = (.success, b.insert (encode 8 value.length ++ value) h)) ∨
      (addBinary value _ b).1 ≠ .success ∧ (addBinary value _ b).2 = b
    unfold addBinary
    rw [dif_neg hnonneg]
    simp only [hsize]
    unfold Buffer.appendBinary
    dsimp only
    split_ifs with hspace
    · exact .inr ⟨nofun, rfl⟩
    · -- there is space for the size, as there is for all of it
      rw [htotal] at hspace
      have hpod : ¬ b.reserved - b.utilized < 8 := by omega
      have htotal' : b.memory.length + (encode 8 value.length ++ value).length ≤ b.capacity := by
        rw [List.length_append, length_encode]
        exact Buffer.space hspace
      refine .inl ⟨htotal', Prod.ext rfl ?_⟩
      have hr : (b.appendPod 8 value.length).2.memory = b.memory ++ encode 8 value.length ∧
          (b.appendPod 8 value.length).2.selector = b.selector := by
        unfold Buffer.appendPod
        rw [dif_neg hpod]
        exact ⟨rfl, rfl⟩
      ext1
      · show (b.appendPod 8 value.length).2.memory ++ value.take value.length = b.memory ++ (encode 8 value.length ++ value)
        rw [hr.1, List.take_length, List.append_assoc]
      · exact (Buffer.appendPod_le 8 value.length b).2
      · exact hr.2

/-- The values that were added are in the buffer, one after the other. -/
theorem addAll_memory (b : Buffer) : ∀ values : List (Given p),
    (addAll b values).2.memory = b.memory ++ ((addAll b values).1.map Value.bytes).flatten ∧
      (addAll b values).2.selector = b.selector ∧ ∀ value ∈ (addAll b values).1, value.Valid
  | [] => ⟨(List.append_nil _).symm, rfl, fun _ hmem => absurd hmem List.not_mem_nil⟩
  | value :: values => by
    have ih := addAll_memory (add b value.1).2 values
    unfold addAll
    dsimp only
    rcases add_cases b value.1 value.2 with ⟨hspace, hadd⟩ | ⟨hcode, hsame⟩
    · rw [hadd] at ih ⊢
      obtain ⟨hmemory, hselector, hvalid⟩ := ih
      rw [if_pos rfl]
      refine ⟨?_, hselector, ?_⟩
      · show (addAll (b.insert value.1.bytes hspace) values).2.memory = _
        rw [hmemory, List.map_cons, List.flatten_cons, ← List.append_assoc]
        rfl
      · rintro v hv
        rcases List.mem_cons.1 hv with rfl | hv
        · exact value.2
        · exact hvalid v hv
    · rw [if_neg hcode]
      rw [hsame] at ih ⊢
      exact ih

/-! ## What is got -/

/-- What is not got yet. -/
def unread (b : Buffer) : List UInt8 := b.memory.drop b.selector

section

variable {beyond : List UInt8} {b : Buffer}

theorem length_unread : (unread b).length = b.utilized - b.consumed := List.length_drop ..

theorem whereTo_eq : b.whereTo beyond = unread b ++ beyond := List.drop_append_of_le_length b.within

theorem unread_consume {bytes rest : List UInt8} (h : unread b = bytes ++ rest) (hle : b.selector + bytes.length ≤ b.memory.length) :
    unread (b.consume bytes.length hle) = rest := by
  show b.memory.drop (b.selector + bytes.length) = rest
  rw [← List.drop_drop]
  show (unread b).drop bytes.length = rest
  rw [h, List.drop_left]

theorem selectPod_of_unread {n value : Nat} {rest : List UInt8} (h : unread b = encode n value ++ rest) (hvalue : value < 256 ^ n) :
    ∃ b', b.selectPod beyond n = (some value, b') ∧ b'.memory = b.memory ∧ unread b' = rest := by
  have hlength : ¬ b.utilized - b.consumed < n := by
    rw [← length_unread, h, List.length_append, length_encode]
    omega
  have htake : (b.whereTo beyond).take n = encode n value := by
    have := @List.take_left _ (encode n value) (rest ++ beyond)
    rw [length_encode] at this
    rw [whereTo_eq, h, List.append_assoc, this]
  have hvalue : Bytes.toNat (encode n value).reverse = value := by
    unfold encode
    rw [List.reverse_reverse, Bytes.toNat_ofNat_of_lt hvalue]
  refine ⟨b.consume n (Buffer.consume_le hlength), ?_, rfl, ?_⟩
  · unfold Buffer.selectPod
    dsimp only
    rw [dif_neg hlength, htake, hvalue]
  · have hle := Buffer.consume_le hlength
    have hconsume := @unread_consume b (encode n value) rest h
    rw [length_encode] at hconsume
    exact hconsume hle

theorem selectPod_nothing {n : Nat} (h : unread b = []) : b.selectPod beyond (n + 1) = (none, b) := by
  have hlength : b.utilized - b.consumed < n + 1 := by
    rw [← length_unread, h]
    exact Nat.succ_pos n
  unfold Buffer.selectPod
  dsimp only
  rw [dif_pos hlength]

theorem takeWhile_terminated {value : List UInt8} (h : 0 ∉ value) (rest : List UInt8) :
    (value ++ 0 :: rest).takeWhile (· ≠ 0) = value := by
  rw [List.takeWhile_append_of_pos]
  · rw [List.takeWhile_cons_of_neg (by decide), List.append_nil]
  · intro c hc
    exact decide_eq_true fun heq => h (heq ▸ hc)

theorem selectString_of_unread {value rest : List UInt8} (h : unread b = value ++ [0] ++ rest) (hvalue : 0 ∉ value) :
    ∃ b', b.selectString beyond = (some value, b') ∧ b'.memory = b.memory ∧ unread b' = rest := by
  have hwhere : b.whereTo beyond = value ++ 0 :: (rest ++ beyond) := by rw [whereTo_eq, h]; simp
  have hstrlen : Buffer.strlen (b.whereTo beyond) = value.length := by
    unfold Buffer.strlen
    rw [hwhere, takeWhile_terminated hvalue]
  have hlength : ¬ b.utilized - b.consumed < value.length + 1 := by
    rw [← length_unread, h]
    simp
  refine ⟨b.consume (value.length + 1) (Buffer.consume_le hlength), ?_, rfl, ?_⟩
  · have hvalue : (b.whereTo beyond).take value.length = value := by rw [hwhere, List.take_left]
    unfold Buffer.selectString
    simp only [hstrlen, Nat.add_sub_cancel, hvalue]
    rw [dif_neg hlength]
  · have hconsume := @unread_consume b (value ++ [0]) rest h
    rw [List.length_append] at hconsume
    exact hconsume (Buffer.consume_le hlength)

theorem selectString_nothing (h : unread b = []) : b.selectString beyond = (none, b) := by
  have hlength : b.utilized - b.consumed < Buffer.strlen (b.whereTo beyond) + 1 := by
    rw [← length_unread, h]
    exact Nat.succ_pos _
  unfold Buffer.selectString
  dsimp only
  rw [dif_pos hlength]

theorem selectBinary_of_unread {value rest : List UInt8} (h : unread b = encode 8 value.length ++ value ++ rest)
    (hvalue : value.length < 2 ^ 63) : ∃ b', b.selectBinary beyond = (some value, b') ∧ b'.memory = b.memory ∧ unread b' = rest := by
  rw [List.append_assoc] at h
  obtain ⟨b', hpod, hmemory, hunread⟩ := @selectPod_of_unread beyond b 8 value.length _ h (by omega)
  have hle : b'.selector + value.length ≤ b'.memory.length := by
    have hlength : (unread b').length = value.length + rest.length := by rw [hunread, List.length_append]
    have hwithin := b'.within
    rw [length_unread] at hlength
    unfold Buffer.utilized Buffer.consumed at hlength
    omega
  have hmod : (b'.consumed + value.length) % 2 ^ 64 = b'.selector + value.length := by
    have haddressable := b'.addressable
    have hfits := b'.fits
    exact Nat.mod_eq_of_lt (by unfold Buffer.consumed; omega)
  refine ⟨b'.consume value.length hle, ?_, hmemory, unread_consume hunread hle⟩
  have hdata : (b'.whereTo beyond).take value.length = value := by
    rw [whereTo_eq, hunread, List.append_assoc, List.take_left]
  have hfound : ¬ b'.selector + value.length > b'.utilized := not_lt.2 hle
  unfold Buffer.selectBinary
  rw [hpod]
  simp only [hmod, hdata]
  rw [dif_neg hfound]
  rfl

theorem selectBinary_nothing (h : unread b = []) : b.selectBinary beyond = (none, b) := by
  unfold Buffer.selectBinary
  rw [selectPod_nothing h]

/-- A value that is next is got. -/
theorem get_of_unread {value : Value p} {rest : List UInt8} (hvalid : value.Valid) (h : unread b = value.bytes ++ rest) :
    ∃ b', get beyond b value.kind = (some value, b') ∧ unread b' = rest := by
  have hpod : ∀ {n v : Nat} {f : Nat → Value p}, unread b = encode n v ++ rest → v < 256 ^ n → f v = value →
      ∃ b', (b.selectPod beyond n).map (Option.map f) id = (some value, b') ∧ unread b' = rest := by
    rintro n v f hunread hv rfl
    obtain ⟨b', hr, -, hrest⟩ := @selectPod_of_unread beyond b n v rest hunread hv
    exact ⟨b', by rw [hr]; rfl, hrest⟩
  have hbits : ∀ {n : Nat} (v : BitVec n), BitVec.ofNat n v.toNat = v := fun v => by rw [BitVec.ofNat_toNat, BitVec.setWidth_eq]
  cases value with
  | bool value =>
    refine hpod h ?_ ?_
    · cases value <;> decide
    · cases value <;> rfl
  | char value => exact hpod h value.isLt (congrArg Value.char (hbits value))
  | short value => exact hpod h value.isLt (congrArg Value.short (hbits value))
  | long value => exact hpod h value.isLt (congrArg Value.long (hbits value))
  | float value =>
    refine hpod h (p.float.bits value).isLt ?_
    rw [hbits, p.float.value_bits]
  | double value =>
    refine hpod h (p.double.bits value).isLt ?_
    rw [hbits, p.double.value_bits]
  | string value =>
    obtain ⟨b', hr, -, hrest⟩ := @selectString_of_unread beyond b value rest h hvalid
    refine ⟨b', ?_, hrest⟩
    show (b.selectString beyond).map (Option.map Value.string) id = _
    rw [hr]
    rfl
  | binary value =>
    obtain ⟨b', hr, -, hrest⟩ := @selectBinary_of_unread beyond b value rest h hvalid
    refine ⟨b', ?_, hrest⟩
    show (b.selectBinary beyond).map (Option.map Value.binary) id = _
    rw [hr]
    rfl

theorem get_nothing (h : unread b = []) : ∀ kind, (get beyond b kind : Option (Value p) × Buffer).1 = none := by
  have hpod : ∀ {n : Nat} {f : Nat → Value p}, ((b.selectPod beyond (n + 1)).map (Option.map f) id).1 = none := by
    intro n f
    rw [selectPod_nothing h]
    rfl
  intro kind
  cases kind with
  | bool => exact hpod
  | char => exact hpod
  | short => exact hpod
  | long => exact hpod
  | float => exact hpod
  | double => exact hpod
  | string =>
    show ((b.selectString beyond).map (Option.map Value.string) id).1 = none
    rw [selectString_nothing h]
    rfl
  | binary =>
    show ((b.selectBinary beyond).map (Option.map Value.binary) id).1 = none
    rw [selectBinary_nothing h]
    rfl

theorem getAll_of_unread : ∀ {values : List (Value p)} {b : Buffer}, (∀ value ∈ values, value.Valid) →
    unread b = (values.map Value.bytes).flatten →
    (getAll beyond b (values.map Value.kind)).1 = values.map some ∧
      unread (@getAll p beyond b (values.map Value.kind)).2 = []
  | [], _, _, h => ⟨rfl, h⟩
  | value :: values, b, hvalid, h => by
    rw [List.map_cons, List.flatten_cons] at h
    obtain ⟨b', hget, hrest⟩ := @get_of_unread p beyond b value _ (hvalid value List.mem_cons_self) h
    obtain ⟨hvalues, hnothing⟩ := @getAll_of_unread values b' (fun v hv => hvalid v (List.mem_cons_of_mem _ hv)) hrest
    simp only [List.map_cons, getAll, hget]
    exact ⟨by rw [hvalues], hnothing⟩

end

theorem yields_of_unread {b : Buffer} {values : List (Value p)} (hvalid : ∀ value ∈ values, value.Valid)
    (h : unread b = (values.map Value.bytes).flatten) : Yields b values := by
  intro beyond
  obtain ⟨hvalues, hnothing⟩ := @getAll_of_unread p beyond values b hvalid h
  exact ⟨hvalues, get_nothing hnothing⟩

/-- What was added is got, in order and nothing more: from the buffer when all that it had before was got; and, when
it had nothing, from the buffer that is reset, from what is received of it and from a copy. What is not added leaves
the buffer as it was. -/
theorem yields_added (b : Buffer) (values : List (Given p)) :
    (b.consumed = b.utilized → Yields (addAll b values).2 (addAll b values).1) ∧
    (b.memory = [] → Yields (addAll b values).2.reset (addAll b values).1 ∧
      (∀ userSize sent capacity haddressable h, (addAll b values).2.send userSize = some sent →
        Yields (.receive sent capacity haddressable h) (addAll b values).1) ∧
      ∀ target : Buffer, (target.copy (addAll b values).2).1 → Yields (target.copy (addAll b values).2).2 (addAll b values).1) ∧
    ∀ value : Given p, (add b value.1).1 ≠ .success → (add b value.1).2 = b := by
  obtain ⟨hmemory, hselector, hvalid⟩ := addAll_memory b values
  refine ⟨fun h => yields_of_unread hvalid ?_, fun h => ⟨?_, ?_, ?_⟩, fun value hcode => ?_⟩
  · unfold unread
    rw [hselector, hmemory]
    have hnothing : b.memory.drop b.selector = [] := List.drop_of_length_le (Nat.le_of_eq h.symm)
    rw [List.drop_append_of_le_length b.within, hnothing, List.nil_append]
  · refine yields_of_unread hvalid ?_
    show (addAll b values).2.memory = _
    rw [hmemory, h, List.nil_append]
  · intro userSize sent capacity haddressable hfits hsent
    refine yields_of_unread hvalid ?_
    unfold Buffer.send Buffer.transport at hsent
    split_ifs at hsent with hsize
    · cases hsent
    · obtain rfl := Option.some.inj hsent
      show (addAll b values).2.memory.take (addAll b values).2.memory.length = _
      rw [List.take_length, hmemory, h, List.nil_append]
  · intro target hcopy
    refine yields_of_unread hvalid ?_
    unfold Buffer.copy at hcopy ⊢
    split_ifs at hcopy ⊢ with hspace
    · show (addAll b values).2.memory = _
      rw [hmemory, h, List.nil_append]
  · rcases add_cases b value.1 value.2 with ⟨hspace, hadd⟩ | ⟨-, hsame⟩
    · rw [hadd] at hcode
      exact absurd rfl hcode
    · exact hsame

/-! ### Values of several types -/

/-- Floating point types that are given by their bits. -/
def bits : Floating := ⟨BitVec 32, BitVec 64, ⟨id, id, fun _ => rfl⟩, ⟨id, id, fun _ => rfl⟩⟩

/-- Values of which the third is larger than what is left. -/
def mixed : List (Given bits) :=
  [⟨.short 7, trivial⟩, ⟨.string [65, 66], show _ ∉ _ by decide⟩, ⟨.binary (List.replicate 20 1), show _ < _ by decide⟩,
    ⟨.double (5 : BitVec 64), trivial⟩, ⟨.binary [1, 2], show _ < _ by decide⟩]

/-- Those for which there is room. -/
def fitting : List (Value bits) := [.short 7, .string [65, 66], .double (5 : BitVec 64), .binary [1, 2]]

/-- A buffer to which they are added. -/
def mixture : Buffer := (addAll (allocate 32 (by decide)) mixed).2

/-- They are got from the buffer, after a reset, where it is received, and from a copy; and what is larger than what is
left changes nothing. -/
theorem mixture_yields : Yields mixture fitting ∧ Yields mixture.reset fitting ∧
    Yields (.receive mixture.memory 23 (by decide) (by decide +kernel)) fitting ∧
    Yields ((allocate 23 (by decide)).copy mixture).2 fitting ∧
    (add (allocate 2 (by decide)) (.double (5 : BitVec 64) : Value bits)).2 = allocate 2 (by decide) := by
  have hfitting : (addAll (allocate 32 (by decide)) mixed).1 = fitting := rfl
  obtain ⟨hsame, hother, -⟩ := yields_added (allocate 32 (by decide)) mixed
  rw [hfitting] at hsame hother
  obtain ⟨hreset, hreceived, hcopy⟩ := hother rfl
  refine ⟨hsame rfl, hreset, hreceived 0 _ 23 (by decide) (by decide +kernel) rfl,
    hcopy (allocate 23 (by decide)) (by decide +kernel), ?_⟩
  exact (yields_added (allocate 2 (by decide)) []).2.2 (⟨.double (5 : BitVec 64), trivial⟩ : Given bits) (by decide)

end Casual.Order

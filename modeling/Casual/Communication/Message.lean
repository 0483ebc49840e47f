/-
`common/communication/message.h`: the transports a logical message is cut in and the complete
message they are put together to again; from `device.h` the cutting (`outbound::Device::put`).
-/
import Casual.Common.Algorithm

namespace Casual.Communication

open Casual.Common

/-! ## Transports -/

/-- `uuid_t`, sixteen bytes. -/
abbrev Uuid := BitVec 128

/-- Uuids are compared by their value. -/
instance : LawfulBEq Uuid := inferInstance

/-- `sizeof( header_t)`: a correlation and three 64-bit words. -/
def headerSize : Nat := 16 + 3 * 8

/-- `basic_transport< message_size>`: the size of a physical message, with the `static_assert`
that the payload is larger than the header. -/
structure TransportSize where
  messageMaxSize : Nat
  payloadNotSmall : messageMaxSize - (messageMaxSize - headerSize) < messageMaxSize - headerSize

/-- `payload_max_size`. -/
def TransportSize.payloadMaxSize (size : TransportSize) : Nat := size.messageMaxSize - headerSize

theorem TransportSize.payloadMaxSize_pos (size : TransportSize) : 0 < size.payloadMaxSize := by
  have := size.payloadNotSmall
  unfold payloadMaxSize; omega

/-- `ipc::message::Transport`, `platform::message_size` bytes. -/
def ipcSize : TransportSize := ⟨1024 * 8, by decide⟩

/-- A transport: its header (`header.count` is the number of payload bytes in use) and payload. -/
structure Transport where
  type : Int
  correlation : Uuid
  offset : Nat
  completeSize : Nat
  payload : List UInt8
  deriving DecidableEq, Repr

namespace Transport

/-- `header.count`. -/
def count (t : Transport) : Nat := t.payload.length

/-- `last`: no byte of the logical message lies behind this transport. -/
def last (t : Transport) : Bool := t.offset + t.count == t.completeSize

/-- The part of the logical message a transport carries. -/
def range (t : Transport) : Range := ⟨t.offset, t.count⟩

@[simp] theorem mem_range {t : Transport} {i : Nat} :
    i ∈ t.range.toSet ↔ t.offset ≤ i ∧ i < t.offset + t.count := Iff.rfl

end Transport

/-! ## Complete messages -/

/-- `Complete`: a logical message and the ranges of its payload that have not arrived yet. -/
structure Complete where
  type : Int
  correlation : Uuid
  payload : List UInt8
  unhandled : List Range
  deriving DecidableEq, Repr

/-- `range::copy( source, destination)` into a payload. -/
def overwrite (payload : List UInt8) (offset : Nat) (source : List UInt8) : List UInt8 :=
  payload.take offset ++ source ++ payload.drop (offset + source.length)

/-- The loop of `add` over the unhandled ranges: each is replaced by its first remaining part,
and `splitted` is assigned the second one, whatever it held before. -/
def subtractAll (destination : Range) : List Range → Range → List Range × Range
  | [], splitted => ([], splitted)
  | range :: rest, _ =>
    let result := range.subtract destination
    let r := subtractAll destination rest result.2
    (result.1 :: r.1, r.2)

/-- What `add` makes of the unhandled ranges. -/
def handle (unhandled : List Range) (destination : Range) : List Range :=
  let r := subtractAll destination unhandled .null
  let ranges := if r.2.empty then r.1 else r.1 ++ [r.2]
  (partition (fun range => !range.empty) ranges).1

namespace Complete

/-- `complete`. -/
def complete (c : Complete) : Bool := c.unhandled.isEmpty

/-- `add`. -/
def add (c : Complete) (t : Transport) : Complete :=
  { c with
    payload := overwrite c.payload t.offset t.payload
    unhandled := handle c.unhandled t.range }

/-- `Complete( transport)`. -/
def ofTransport (t : Transport) : Complete :=
  add { type := t.type, correlation := t.correlation, payload := List.replicate t.completeSize 0,
        unhandled := [⟨0, t.completeSize⟩] } t

/-- `Complete( type, correlation)` with a payload marshalled into it. -/
def make (type : Int) (correlation : Uuid) (payload : List UInt8) : Complete :=
  ⟨type, correlation, payload, []⟩

/-- A message fed with a first transport and then with the others, in this order. -/
def feed (t : Transport) (ts : List Transport) : Complete := ts.foldl add (ofTransport t)

@[simp] theorem add_type (c : Complete) (t : Transport) : (c.add t).type = c.type := rfl
@[simp] theorem add_correlation (c : Complete) (t : Transport) : (c.add t).correlation = c.correlation := rfl
@[simp] theorem add_payload (c : Complete) (t : Transport) :
    (c.add t).payload = overwrite c.payload t.offset t.payload := rfl
@[simp] theorem add_unhandled (c : Complete) (t : Transport) :
    (c.add t).unhandled = handle c.unhandled t.range := rfl
@[simp] theorem ofTransport_type (t : Transport) : (ofTransport t).type = t.type := rfl
@[simp] theorem ofTransport_correlation (t : Transport) : (ofTransport t).correlation = t.correlation := rfl

@[simp] theorem feed_nil (t : Transport) : feed t [] = ofTransport t := rfl

theorem feed_append (t u : Transport) (ts : List Transport) : feed t (ts ++ [u]) = (feed t ts).add u := by
  simp [feed]

theorem complete_iff {c : Complete} : c.complete = true ↔ c.unhandled = [] := List.isEmpty_iff

end Complete

/-! ## Cutting a message -/

/-- `part_end` of the loop in `put`. -/
def partEnd (size : TransportSize) (complete : Complete) (partBegin : Nat) : Nat :=
  if complete.payload.length - partBegin > size.payloadMaxSize then partBegin + size.payloadMaxSize
  else complete.payload.length

/-- The transport `put` hands to its policy for the bytes from `partBegin` to `partEnd`. -/
def part (complete : Complete) (partBegin partEnd : Nat) : Transport :=
  { type := complete.type
    correlation := complete.correlation
    offset := partBegin
    completeSize := complete.payload.length
    payload := (complete.payload.drop partBegin).take (partEnd - partBegin) }

/-- The `do … while` loop of `put`: the transports from `partBegin` on. -/
def putFrom (size : TransportSize) (complete : Complete) : Nat → Nat → List Transport
  | 0, _ => []
  | fuel + 1, partBegin =>
    let e := partEnd size complete partBegin
    part complete partBegin e :: if e = complete.payload.length then [] else putFrom size complete fuel e

/-- `outbound::Device::put`, the transports in the order they are handed to the policy. -/
def put (size : TransportSize) (complete : Complete) : List Transport :=
  putFrom size complete (complete.payload.length + 1) 0

/-! ### The transports of a message -/

/-- The transport number `k`. -/
def nth (size : TransportSize) (complete : Complete) (k : Nat) : Transport :=
  part complete (k * size.payloadMaxSize) (partEnd size complete (k * size.payloadMaxSize))

theorem partEnd_eq_min (size : TransportSize) {c : Complete} {b : Nat} (h : b ≤ c.payload.length) :
    partEnd size c b = min (b + size.payloadMaxSize) c.payload.length := by
  unfold partEnd; split_ifs <;> omega

theorem partEnd_le (size : TransportSize) {c : Complete} {b : Nat} (h : b ≤ c.payload.length) :
    partEnd size c b ≤ c.payload.length := by rw [partEnd_eq_min size h]; omega

theorem le_partEnd (size : TransportSize) {c : Complete} {b : Nat} (h : b ≤ c.payload.length) :
    b ≤ partEnd size c b := by rw [partEnd_eq_min size h]; omega

@[simp] theorem part_type (c : Complete) (b e : Nat) : (part c b e).type = c.type := rfl
@[simp] theorem part_correlation (c : Complete) (b e : Nat) : (part c b e).correlation = c.correlation := rfl
@[simp] theorem part_offset (c : Complete) (b e : Nat) : (part c b e).offset = b := rfl
@[simp] theorem part_completeSize (c : Complete) (b e : Nat) : (part c b e).completeSize = c.payload.length := rfl

theorem part_count {c : Complete} {b e : Nat} (h : e ≤ c.payload.length) : (part c b e).count = e - b := by
  simp only [part, Transport.count, List.length_take, List.length_drop]; omega

theorem part_range {c : Complete} {b e : Nat} (h : e ≤ c.payload.length) : (part c b e).range = ⟨b, e - b⟩ := by
  unfold Transport.range; rw [part_count h]; rfl

theorem part_last {c : Complete} {b e : Nat} (hb : b ≤ e) (h : e ≤ c.payload.length) :
    (part c b e).last = true ↔ e = c.payload.length := by
  unfold Transport.last
  rw [part_count h, part_offset, part_completeSize, beq_iff_eq]; omega

/-- From the start of part `k` on, the transports are the parts from `k` to the end. -/
theorem mem_putFrom {size : TransportSize} {c : Complete} {t : Transport} : ∀ {fuel k : Nat},
    k * size.payloadMaxSize ≤ c.payload.length → c.payload.length - k * size.payloadMaxSize < fuel →
    (t ∈ putFrom size c fuel (k * size.payloadMaxSize) ↔
      ∃ j, k ≤ j ∧ (j = k ∨ j * size.payloadMaxSize < c.payload.length) ∧ t = nth size c j)
  | 0, _, _, hf => by omega
  | fuel + 1, k, hk, hf => by
    have hM := size.payloadMaxSize_pos
    have hsucc : (k + 1) * size.payloadMaxSize = k * size.payloadMaxSize + size.payloadMaxSize := by ring
    simp only [putFrom, List.mem_cons]
    split_ifs with he
    · -- the last part
      have hend : c.payload.length ≤ (k + 1) * size.payloadMaxSize := by
        rw [partEnd_eq_min size hk] at he; omega
      constructor
      · rintro (rfl | h)
        · exact ⟨k, le_refl k, .inl rfl, rfl⟩
        · cases h
      · rintro ⟨j, hj, rfl | hjl, rfl⟩
        · exact .inl rfl
        · have : j < k + 1 := lt_of_mul_lt_mul_right (lt_of_lt_of_le hjl hend) (Nat.zero_le _)
          have : j = k := by omega
          subst this; exact .inl rfl
    · have hend : partEnd size c (k * size.payloadMaxSize) = (k + 1) * size.payloadMaxSize := by
        rw [partEnd_eq_min size hk] at he ⊢; omega
      have hlt : (k + 1) * size.payloadMaxSize < c.payload.length := by
        rw [hend] at he
        have := partEnd_le size hk
        omega
      have ih := @mem_putFrom size c t fuel (k + 1) (by omega) (by omega)
      rw [hend, ih]
      constructor
      · rintro (rfl | ⟨j, hj, hjl, rfl⟩)
        · exact ⟨k, le_refl k, .inl rfl, by unfold nth; rw [hend]⟩
        · exact ⟨j, by omega, .inr (hjl.elim (fun h => by rw [h]; exact hlt) id), rfl⟩
      · rintro ⟨j, hj, hjl, rfl⟩
        rcases Nat.eq_or_lt_of_le hj with rfl | hlt'
        · left; unfold nth; rw [hend]
        · exact .inr ⟨j, hlt', hjl.elim (fun h => by omega) .inr, rfl⟩

/-- The transports of a message: part zero, and every part that starts within the payload. -/
theorem mem_put {size : TransportSize} {c : Complete} {t : Transport} :
    t ∈ put size c ↔
      ∃ k, (k = 0 ∨ k * size.payloadMaxSize < c.payload.length) ∧ t = nth size c k := by
  have h := @mem_putFrom size c t (c.payload.length + 1) 0 (by omega) (by omega)
  rw [Nat.zero_mul] at h
  unfold put
  rw [h]
  simp

end Casual.Communication

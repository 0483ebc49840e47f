/-
Numbers as bytes, the least significant first, and the parts of a buffer of bytes.
-/
import Mathlib.Tactic

namespace Casual.Lib.Bytes

/-! ## Numbers -/

/-- The last `n` digits of a number to the base of 256, the least significant first. -/
def ofNat : Nat → Nat → List UInt8
  | 0, _ => []
  | n + 1, v => UInt8.ofNat v :: ofNat n (v / 256)

/-- The number with these digits. -/
def toNat : List UInt8 → Nat
  | [] => 0
  | b :: bs => b.toNat + 256 * toNat bs

@[simp] theorem length_ofNat : ∀ n v, (ofNat n v).length = n
  | 0, _ => rfl
  | n + 1, v => by rw [ofNat, List.length_cons, length_ofNat n]

/-- As many digits as were written are read. -/
theorem toNat_ofNat : ∀ n v, toNat (ofNat n v) = v % 256 ^ n
  | 0, v => by rw [pow_zero, Nat.mod_one]; rfl
  | n + 1, v => by
    have hb : (UInt8.ofNat v).toNat = v % 256 := rfl
    rw [ofNat, toNat, hb, toNat_ofNat n, pow_succ', Nat.mod_mul]

theorem toNat_ofNat_of_lt {n v : Nat} (h : v < 256 ^ n) : toNat (ofNat n v) = v := by
  rw [toNat_ofNat, Nat.mod_eq_of_lt h]

theorem toNat_lt : ∀ bs : List UInt8, toNat bs < 256 ^ bs.length
  | [] => by simp [toNat]
  | b :: bs => by
    have hb : b.toNat < 256 := b.toNat_lt
    have ih := toNat_lt bs
    rw [toNat, List.length_cons, pow_succ']
    omega

theorem ofNat_toNat : ∀ bs : List UInt8, ofNat bs.length (toNat bs) = bs
  | [] => rfl
  | b :: bs => by
    have hb : b.toNat < 256 := b.toNat_lt
    have hlow : (b.toNat + 256 * toNat bs) % 256 = b.toNat := by omega
    have hhigh : (b.toNat + 256 * toNat bs) / 256 = toNat bs := by omega
    rw [toNat, List.length_cons, ofNat, hhigh, ofNat_toNat bs]
    congr 1
    apply UInt8.toNat_inj.1
    show (b.toNat + 256 * toNat bs) % 256 = b.toNat
    exact hlow

/-! ## The most significant byte first -/

/-- The bytes of a number, the most significant first. -/
def ofNatBE (n v : Nat) : List UInt8 := (ofNat n v).reverse

/-- The number of some bytes, the most significant first. -/
def toNatBE (bs : List UInt8) : Nat := toNat bs.reverse

@[simp] theorem length_ofNatBE (n v : Nat) : (ofNatBE n v).length = n := by
  rw [ofNatBE, List.length_reverse, length_ofNat]

theorem toNatBE_ofNatBE_of_lt {n v : Nat} (h : v < 256 ^ n) : toNatBE (ofNatBE n v) = v := by
  rw [toNatBE, ofNatBE, List.reverse_reverse, toNat_ofNat_of_lt h]

/-! ## Parts of a buffer -/

/-- The bytes at an offset, when all of them are in the buffer. -/
def slice (bytes : List UInt8) (offset size : Nat) : Option (List UInt8) :=
  if offset + size ≤ bytes.length then some ((bytes.drop offset).take size) else none

theorem slice_length {bytes part : List UInt8} {offset size : Nat} (h : slice bytes offset size = some part) :
    part.length = size := by
  unfold slice at h
  split_ifs at h with hsize
  obtain rfl := Option.some.inj h
  rw [List.length_take, List.length_drop]
  omega

/-- `At bytes offset part`: the part is in the buffer at the offset. -/
def At (bytes : List UInt8) (offset : Nat) (part : List UInt8) : Prop :=
  ∃ before after, bytes = before ++ part ++ after ∧ before.length = offset

theorem at_append (before part after : List UInt8) : At (before ++ part ++ after) before.length part :=
  ⟨before, after, rfl, rfl⟩

/-- Two parts that lie next to each other. -/
theorem At.left {bytes part part' : List UInt8} {offset : Nat} (h : At bytes offset (part ++ part')) :
    At bytes offset part := by
  obtain ⟨before, after, rfl, rfl⟩ := h
  exact ⟨before, part' ++ after, by simp, rfl⟩

theorem At.right {bytes part part' : List UInt8} {offset : Nat} (h : At bytes offset (part ++ part')) :
    At bytes (offset + part.length) part' := by
  obtain ⟨before, after, rfl, rfl⟩ := h
  exact ⟨before ++ part, after, by simp, by simp⟩

theorem At.drop {bytes part : List UInt8} {offset : Nat} (h : At bytes offset part) :
    bytes.drop offset = part ++ bytes.drop (offset + part.length) := by
  obtain ⟨before, after, rfl, rfl⟩ := h
  rw [List.append_assoc, List.drop_left, ← List.append_assoc, ← List.length_append, List.drop_left]

/-- Bytes behind what was written before. -/
theorem at_of_take {bytes before part : List UInt8} {n : Nat} (h : bytes.take n = before ++ part) : At bytes before.length part := by
  rw [← List.take_append_drop n bytes, h]
  exact at_append before part _

/-- What is in the buffer is read. -/
theorem At.slice {bytes part : List UInt8} {offset : Nat} (h : At bytes offset part) :
    slice bytes offset part.length = some part := by
  obtain ⟨before, after, rfl, rfl⟩ := h
  unfold Bytes.slice
  rw [if_pos (by simp)]
  simp

theorem at_of_slice {bytes part : List UInt8} {offset size : Nat} (h : slice bytes offset size = some part) :
    At bytes offset part := by
  unfold Bytes.slice at h
  split_ifs at h with hsize
  obtain rfl := Option.some.inj h
  refine ⟨bytes.take offset, (bytes.drop offset).drop size, ?_, ?_⟩
  · rw [List.append_assoc, List.take_append_drop, List.take_append_drop]
  · rw [List.length_take]
    omega

end Casual.Lib.Bytes

/-
What an index is of: the bytes of fields one after the other. The index of any other bytes is never
finished, or reads or refers to what is not in the buffer.
-/
import Casual.Field.Buffer

namespace Casual.Field

open Casual.Lib

/-! ## Numbers in the buffer -/

@[simp] theorem length_encode (n value : Nat) : (encode n value).length = n := by simp [encode]

@[simp] theorem length_encodeLong (value : BitVec 64) : (encodeLong value).length = 8 := length_encode 8 _

theorem decode_of_at {memory : List UInt8} {offset : Nat} {value : BitVec 64}
    (h : Bytes.At memory offset (encodeLong value)) : decode memory offset = some value := by
  have hslice := h.slice
  rw [length_encodeLong] at hslice
  unfold decode
  rw [if_pos (Int.natCast_nonneg offset), Int.toNat_natCast, hslice, Option.map_some, encodeLong, encode,
    List.reverse_reverse, Bytes.toNat_ofNat_of_lt value.isLt, BitVec.ofNat_toNat, BitVec.setWidth_eq]

theorem at_of_decode {memory : List UInt8} {offset : Int} {value : BitVec 64} (h : decode memory offset = some value) :
    ∃ n : Nat, offset = n ∧ Bytes.At memory n (encodeLong value) := by
  unfold decode at h
  split_ifs at h with hoffset
  obtain ⟨part, hpart, rfl⟩ := Option.map_eq_some_iff.1 h
  have hlen : part.reverse.length = 8 := by rw [List.length_reverse, Bytes.slice_length hpart]
  have hlt : Bytes.toNat part.reverse < 2 ^ 64 := by
    have := Bytes.toNat_lt part.reverse
    rwa [hlen] at this
  have hencode : encodeLong (BitVec.ofNat 64 (Bytes.toNat part.reverse)) = part := by
    unfold encodeLong encode
    rw [BitVec.toNat_ofNat, Nat.mod_eq_of_lt hlt, ← hlen, Bytes.ofNat_toNat, List.reverse_reverse]
  refine ⟨offset.toNat, (Int.toNat_of_nonneg hoffset).symm, ?_⟩
  rw [hencode]
  exact Bytes.at_of_slice hpart

/-! ## Items -/

/-- A field: an id and the bytes of its value. -/
structure Item where
  id : BitVec 64
  value : List UInt8
  deriving DecidableEq

namespace Item

/-- What is in the buffer for a field. -/
def bytes (i : Item) : List UInt8 := encodeLong i.id ++ encodeLong (BitVec.ofNat 64 i.value.length) ++ i.value

@[simp] theorem length_bytes (i : Item) : i.bytes.length = dataOffset + i.value.length := by
  simp only [bytes, List.length_append, length_encodeLong, dataOffset]

/-- The size of the value is a `long`. -/
def Fits (i : Item) : Prop := i.value.length < 2 ^ 63

theorem Fits.toInt {i : Item} (h : i.Fits) : (BitVec.ofNat 64 i.value.length).toInt = i.value.length := by
  unfold Fits at h
  have hnat : (BitVec.ofNat 64 i.value.length).toNat = i.value.length := by
    rw [BitVec.toNat_ofNat]
    exact Nat.mod_eq_of_lt (by omega)
  rw [BitVec.toInt_eq_toNat_of_lt (by omega), hnat]

end Item

/-- The bytes of fields. -/
def bytesOf (items : List Item) : List UInt8 := items.flatMap Item.bytes

@[simp] theorem bytesOf_nil : bytesOf [] = [] := rfl
@[simp] theorem bytesOf_cons (i : Item) (items : List Item) : bytesOf (i :: items) = i.bytes ++ bytesOf items := rfl
@[simp] theorem bytesOf_append (items items' : List Item) : bytesOf (items ++ items') = bytesOf items ++ bytesOf items' := by
  simp [bytesOf]

/-- The index of fields that begin at an offset. -/
def indexFrom : Int → List Item → List (BitVec 64 × Int)
  | _, [] => []
  | offset, i :: items => (i.id, offset) :: indexFrom (offset + (dataOffset + i.value.length)) items

theorem indexFrom_append : ∀ (offset : Int) (items items' : List Item),
    indexFrom offset (items ++ items') = indexFrom offset items ++ indexFrom (offset + (bytesOf items).length) items'
  | offset, [], items' => by simp [indexFrom]
  | offset, i :: items, items' => by
    rw [List.cons_append, indexFrom, indexFrom, indexFrom_append, List.cons_append, bytesOf_cons, List.length_append,
      Item.length_bytes]
    push_cast
    rw [Int.add_assoc offset]

@[simp] theorem length_indexFrom : ∀ (offset : Int) (items : List Item), (indexFrom offset items).length = items.length
  | _, [] => rfl
  | offset, i :: items => by rw [indexFrom, List.length_cons, length_indexFrom, List.length_cons]

theorem updateSecond_indexFrom (value : Int) : ∀ (offset : Int) (items : List Item),
    updateSecond value (indexFrom offset items) = indexFrom (offset + value) items
  | _, [] => rfl
  | offset, i :: items => by
    have ih := updateSecond_indexFrom value (offset + (dataOffset + i.value.length)) items
    unfold updateSecond at ih ⊢
    rw [indexFrom, indexFrom, List.map_cons, ih, Int.add_right_comm offset]

/-! ## What is read at a field -/

/-- The header of a field that is in the buffer. -/
theorem decode_item {memory : List UInt8} {offset : Nat} {i : Item} (h : Bytes.At memory offset i.bytes) :
    decode memory offset = some i.id ∧ decode memory (offset + sizeOffset) = some (BitVec.ofNat 64 i.value.length) := by
  have hsize := h.left.right
  rw [length_encodeLong] at hsize
  exact ⟨decode_of_at h.left.left, by exact_mod_cast decode_of_at hsize⟩

/-- The index of fields is found, wherever they begin. -/
theorem updateIndex_items {memory : List UInt8} : ∀ (items : List Item) (before : List UInt8) (fuel : Nat)
    (index : List (BitVec 64 × Int)), (∀ i ∈ items, i.Fits) → memory = before ++ bytesOf items → items.length < fuel →
      updateIndex memory fuel before.length index = some (.ok (index ++ indexFrom before.length items))
  | [], before, fuel + 1, index, _, hmemory, _ => by
    rw [updateIndex, if_neg (by rw [hmemory]; simp), indexFrom, List.append_nil]
  | i :: items, before, fuel + 1, index, hfits, hmemory, hfuel => by
    have hat : Bytes.At memory before.length i.bytes := by
      rw [hmemory, bytesOf_cons, ← List.append_assoc]
      exact Bytes.at_append _ _ _
    obtain ⟨hid, hsize⟩ := decode_item hat
    have hlt : (before.length : Int) < memory.length := by
      rw [hmemory, bytesOf_cons, List.length_append, List.length_append, Item.length_bytes]
      simp only [dataOffset]
      omega
    have hnext : (before.length : Int) + (dataOffset + (BitVec.ofNat 64 i.value.length).toInt) =
        ((before ++ i.bytes).length : Nat) := by
      rw [(hfits i List.mem_cons_self).toInt, List.length_append, Item.length_bytes]
      push_cast
      ring
    rw [updateIndex, if_pos hlt, hid, hsize]
    simp only []
    rw [hnext, updateIndex_items items (before ++ i.bytes) fuel _ (fun j hj => hfits j (List.mem_cons_of_mem _ hj))
      (by rw [hmemory, bytesOf_cons, List.append_assoc]) (by simpa using hfuel), indexFrom, List.append_assoc]
    congr 4
    rw [List.length_append, Item.length_bytes]
    push_cast
    rfl

/-! ## Robustness -/

/-- The field at an offset lies in the buffer, its header and its value. -/
def Inside (memory : List UInt8) (e : BitVec 64 × Int) : Prop :=
  ∃ size, decode memory e.2 = some e.1 ∧ decode memory (e.2 + sizeOffset) = some size ∧ 0 ≤ size.toInt ∧
    e.2 + dataOffset + size.toInt ≤ memory.length

/-- Building the index ends, reads only what is in the buffer, and gives fields that lie in it. -/
def Robust (result : Nat → Option (Except Code Buffer)) : Prop :=
  ∃ fuel r, result fuel = some r ∧ r ≠ .error .outside ∧ ∀ b, r = .ok b → ∀ e ∈ b.index, Inside b.memory e

/-- The bytes are those of fields one after the other, each with all of its header, a size that is not
negative and a value of this size. -/
def WellFormed (memory : List UInt8) : Prop := ∃ items : List Item, (∀ i ∈ items, i.Fits) ∧ memory = bytesOf items

theorem inside_of_at {memory : List UInt8} {offset : Nat} {i : Item} (hfits : i.Fits)
    (h : Bytes.At memory offset i.bytes) : Inside memory (i.id, offset) := by
  obtain ⟨hid, hsize⟩ := decode_item h
  refine ⟨_, hid, hsize, ?_, ?_⟩
  · rw [hfits.toInt]
    exact Int.natCast_nonneg _
  · obtain ⟨before, after, rfl, rfl⟩ := h
    rw [hfits.toInt, List.length_append, List.length_append, Item.length_bytes]
    push_cast
    omega

theorem inside_indexFrom {memory : List UInt8} : ∀ {items : List Item} (before : List UInt8), (∀ i ∈ items, i.Fits) →
    (∃ after, memory = before ++ bytesOf items ++ after) → ∀ e ∈ indexFrom before.length items, Inside memory e
  | [], _, _, _, e, he => nomatch he
  | i :: items, before, hfits, ⟨after, hmemory⟩, e, he => by
    rw [bytesOf_cons, ← List.append_assoc] at hmemory
    rw [indexFrom] at he
    rcases List.mem_cons.1 he with rfl | he
    · refine inside_of_at (hfits i List.mem_cons_self) ?_
      rw [hmemory, List.append_assoc]
      exact Bytes.at_append _ _ _
    · refine inside_indexFrom (before ++ i.bytes) (fun j hj => hfits j (List.mem_cons_of_mem _ hj))
        ⟨after, hmemory⟩ e ?_
      rw [List.length_append, Item.length_bytes]
      exact_mod_cast he

/-- What is in the index stays there. -/
theorem subset_updateIndex {memory : List UInt8} : ∀ {fuel : Nat} {cursor : Int} {index result : List (BitVec 64 × Int)},
    updateIndex memory fuel cursor index = some (.ok result) → index ⊆ result
  | 0, _, _, _, h => nomatch h
  | fuel + 1, cursor, index, result, h => by
    unfold updateIndex at h
    split_ifs at h with hcursor
    · cases hid : decode memory cursor with
      | none => rw [hid] at h; cases h
      | some id =>
        cases hsize : decode memory (cursor + sizeOffset) with
        | none => rw [hid, hsize] at h; cases h
        | some size =>
          rw [hid, hsize] at h
          exact fun e he => subset_updateIndex h (List.mem_append_left _ he)
    · cases h
      exact List.Subset.refl _

/-- Bytes with an index all of whose fields lie in the buffer are those of fields. -/
theorem wellFormed_of_updateIndex {memory : List UInt8} : ∀ {fuel cursor : Nat} {index result : List (BitVec 64 × Int)},
    updateIndex memory fuel cursor index = some (.ok result) → (∀ e ∈ result, Inside memory e) →
      cursor ≤ memory.length → WellFormed (memory.drop cursor)
  | 0, _, _, _, h, _, _ => nomatch h
  | fuel + 1, cursor, index, result, h, hinside, hle => by
    unfold updateIndex at h
    split_ifs at h with hcursor
    · cases hid : decode memory cursor with
      | none => rw [hid] at h; cases h
      | some id =>
        cases hsize : decode memory (cursor + sizeOffset) with
        | none => rw [hid, hsize] at h; cases h
        | some size =>
          rw [hid, hsize] at h
          simp only [] at h
          have hmem : (id, (cursor : Int)) ∈ result := subset_updateIndex h (by simp)
          obtain ⟨size', -, hsize', hpos, hend⟩ := hinside _ hmem
          obtain rfl : size = size' := Option.some.inj (hsize.symm.trans hsize')
          -- the next field begins where the value of this one ends
          have hnext : (cursor : Int) + (dataOffset + size.toInt) = (cursor + dataOffset + size.toInt.toNat : Nat) := by
            push_cast
            rw [Int.toNat_of_nonneg hpos]
            ring
          rw [hnext] at h
          have hrest : cursor + dataOffset + size.toInt.toNat ≤ memory.length := by
            simp only at hend
            omega
          obtain ⟨items, hfits, hitems⟩ := wellFormed_of_updateIndex h hinside hrest
          obtain ⟨n, hn, hatId⟩ := at_of_decode hid
          obtain rfl : cursor = n := by exact_mod_cast hn
          obtain ⟨n, hn, hatSize⟩ := at_of_decode hsize
          obtain rfl : n = cursor + sizeOffset := by exact_mod_cast hn.symm
          have hsplit := hatId.drop
          have hsplit' := hatSize.drop
          rw [length_encodeLong] at hsplit hsplit'
          set value := (memory.drop (cursor + dataOffset)).take size.toInt.toNat with hvalue
          have hlen : value.length = size.toInt.toNat := by
            rw [hvalue, List.length_take, List.length_drop]
            omega
          have hlt : value.length < 2 ^ 63 := by
            have := BitVec.toInt_lt (x := size)
            omega
          have hsizeEq : BitVec.ofNat 64 value.length = size := by
            apply BitVec.eq_of_toInt_eq
            rw [Item.Fits.toInt (i := ⟨id, value⟩) hlt, hlen, Int.toNat_of_nonneg hpos]
          refine ⟨⟨id, value⟩ :: items, ?_, ?_⟩
          · intro i hi
            rcases List.mem_cons.1 hi with rfl | hi
            · exact hlt
            · exact hfits i hi
          · rw [bytesOf_cons, ← hitems, Item.bytes, hsizeEq, hsplit, hvalue]
            show _ ++ memory.drop (cursor + sizeOffset) = _
            rw [hsplit', List.append_assoc, List.append_assoc]
            congr 2
            rw [← List.drop_drop (i := size.toInt.toNat) (j := cursor + dataOffset), List.take_append_drop]
            rfl
    · have hdrop : memory.drop cursor = [] := List.drop_eq_nil_of_le (by omega)
      exact ⟨[], by simp, by rw [hdrop]; rfl⟩

/-- The loop of `update_index` meets only fields of the buffer exactly when the bytes are those of fields. -/
theorem updateIndex_iff (memory : List UInt8) :
    (∃ fuel index, updateIndex memory fuel 0 [] = some (.ok index) ∧ ∀ e ∈ index, Inside memory e) ↔
      WellFormed memory := by
  constructor
  · rintro ⟨fuel, index, h, hinside⟩
    exact @wellFormed_of_updateIndex memory fuel 0 [] index h hinside (Nat.zero_le _)
  · rintro ⟨items, hfits, hmemory⟩
    refine ⟨items.length + 1, _, updateIndex_items items [] _ [] hfits (by simpa using hmemory) (Nat.lt_succ_self _), ?_⟩
    rw [List.nil_append]
    exact inside_indexFrom [] hfits ⟨[], by simpa using hmemory⟩

/-- What the loop leaves is an index, or it has read what is not in the buffer. -/
theorem updateIndex_error {memory : List UInt8} : ∀ {fuel : Nat} {cursor : Int} {index : List (BitVec 64 × Int)} {e : Code},
    updateIndex memory fuel cursor index = some (.error e) → e = .outside
  | 0, _, _, _, h => nomatch h
  | fuel + 1, cursor, index, e, h => by
    unfold updateIndex at h
    split_ifs at h
    · cases hid : decode memory cursor with
      | none => rw [hid] at h; cases h; rfl
      | some id =>
        cases hsize : decode memory (cursor + sizeOffset) with
        | none => rw [hid, hsize] at h; cases h; rfl
        | some size =>
          rw [hid, hsize] at h
          exact updateIndex_error h
    · cases h

/-- What an operation makes of an index. -/
theorem robust_map_iff (memory : List UInt8) (f : List (BitVec 64 × Int) → Buffer)
    (hf : ∀ index, (f index).memory = memory ∧ (f index).index = index) :
    Robust (fun fuel => (updateIndex memory fuel 0 []).map fun result => result.map f) ↔ WellFormed memory := by
  rw [← updateIndex_iff]
  constructor
  · rintro ⟨fuel, r, h, hne, hinside⟩
    obtain ⟨result, hresult, rfl⟩ := Option.map_eq_some_iff.1 h
    cases result with
    | error e =>
      rw [updateIndex_error hresult] at hne
      exact absurd rfl hne
    | ok index =>
      refine ⟨fuel, index, hresult, fun e he => ?_⟩
      have := hinside (f index) rfl
      rw [(hf index).1, (hf index).2] at this
      exact this e he
  · rintro ⟨fuel, index, h, hinside⟩
    refine ⟨fuel, .ok (f index), by simp only [h]; rfl, nofun, ?_⟩
    rintro b hb
    obtain rfl := Except.ok.inj hb
    rw [(hf index).1, (hf index).2]
    exact hinside

/-- The index of what was received, and of what is copied from memory, is built within the buffer exactly
when the bytes are those of fields, or there is no room for them. -/
theorem robust_iff_wellFormed (memory : List UInt8) (b : Buffer) :
    (Robust (construct memory b.capacity b.limit) ↔ WellFormed memory) ∧
      (Robust (copyMemory memory b) ↔ b.capacity < memory.length ∨ WellFormed memory) := by
  constructor
  · exact robust_map_iff memory (fun index => ⟨memory, b.capacity, index, b.limit⟩) fun _ => ⟨rfl, rfl⟩
  · by_cases hspace : b.capacity < memory.length
    · have hresult : ∀ fuel, copyMemory memory b fuel = some (.error .noSpace) := fun _ => if_pos hspace
      exact ⟨fun _ => .inl hspace, fun _ => ⟨0, _, hresult 0, nofun, nofun⟩⟩
    · have hresult : copyMemory memory b = fun fuel => (updateIndex memory fuel 0 []).map fun result =>
          result.map fun index => { b with memory := memory, index := index } := by
        funext fuel
        exact if_neg hspace
      rw [hresult, robust_map_iff memory (fun index => { b with memory := memory, index := index }) fun _ => ⟨rfl, rfl⟩]
      exact ⟨.inr, fun h => h.resolve_left hspace⟩

/-- Sixteen bytes with a size that takes the cursor back to where it was. -/
def stuck : List UInt8 := encodeLong 0x2000001 ++ encodeLong (-16)

theorem updateIndex_stuck : ∀ fuel index, updateIndex stuck fuel 0 index = none
  | 0, _ => rfl
  | fuel + 1, index => by
    have hid : decode stuck 0 = some 0x2000001 := by decide
    have hsize : decode stuck (0 + sizeOffset) = some (-16) := by decide
    rw [updateIndex, if_pos (by decide), hid, hsize]
    exact updateIndex_stuck fuel _

/-- The index of these bytes is never finished. -/
theorem stuck_not_robust : ¬ Robust (construct stuck 16 (by decide)) := by
  rintro ⟨fuel, r, h, -⟩
  have hnone : construct stuck 16 (by decide) fuel = none := by
    unfold construct
    rw [updateIndex_stuck]
    rfl
  rw [hnone] at h
  cases h

end Casual.Field

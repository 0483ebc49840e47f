/-
A field buffer as the list of its fields: every operation that succeeds does to the list what it is
for, the index stays that of the bytes, and nothing grows over the memory that was allocated.
-/
import Casual.Field.Index

namespace Casual.Field

open Casual.Lib

/-! ## Lists of fields -/

/-- The values with an id, in their order. -/
def valuesOf (id : BitVec 64) (items : List Item) : List (List UInt8) :=
  (items.filter fun i => i.id == id).map Item.value

/-- The value of an occurrence of an id. -/
def occurrenceOf (id : BitVec 64) (occurrence : Int) (items : List Item) : Option (List UInt8) :=
  if occurrence < 0 then none else (valuesOf id items)[occurrence.toNat]?

/-- An occurrence with another value. -/
def setOccurrence (id : BitVec 64) (value : List UInt8) : Int → List Item → List Item
  | _, [] => []
  | occurrence, i :: items =>
    if i.id = id then
      if occurrence = 0 then ⟨id, value⟩ :: items else i :: setOccurrence id value (occurrence - 1) items
    else i :: setOccurrence id value occurrence items

/-- All but an occurrence. -/
def eraseOccurrence (id : BitVec 64) : Int → List Item → List Item
  | _, [] => []
  | occurrence, i :: items =>
    if i.id = id then
      if occurrence = 0 then items else i :: eraseOccurrence id (occurrence - 1) items
    else i :: eraseOccurrence id occurrence items

/-- The bytes of an empty value of an id. -/
def emptyBytes (id : BitVec 64) : List UInt8 := ((Value.empty (typeOf id)).map Value.bytes).getD []

/-- As many empty fields as are missing before there is an occurrence. -/
def padded (id : BitVec 64) (occurrence : Int) (items : List Item) : List Item :=
  items ++ List.replicate (occurrence + 1 - (valuesOf id items).length).toNat ⟨id, emptyBytes id⟩

/-- An operation on a field buffer: `copy` is from another one, `copyMemory` of the bytes of another one. -/
inductive Op
  | add (id : BitVec 64) (value : Value)
  | update (id : BitVec 64) (occurrence : Int) (value : Value)
  | remove (id : BitVec 64) (occurrence : Int)
  | removeId (id : BitVec 64)
  | change (id : BitVec 64) (occurrence : Int) (value : Value)
  | copy (source : Nat)
  | copyMemory (source : Nat)
  | reset

/-- What an operation is for: the fields it leaves. -/
def Op.apply (all : Nat → List Item) (op : Op) (items : List Item) : List Item :=
  match op with
  | add id value => items ++ [⟨id, value.bytes⟩]
  | update id occurrence value => setOccurrence id value.bytes occurrence items
  | remove id occurrence => eraseOccurrence id occurrence items
  | removeId id => items.filter fun i => i.id != id
  | change id occurrence value =>
    if occurrence < 0 then items ++ [⟨id, value.bytes⟩]
    else setOccurrence id value.bytes occurrence (padded id occurrence items)
  | copy source => all source
  | copyMemory source => all source
  | reset => []

/-- What an operation does. -/
def Op.run (all : Nat → Buffer) (op : Op) (b : Buffer) : Except Code Buffer :=
  match op with
  | add id value => Field.add id value b
  | update id occurrence value => Field.update id occurrence value b
  | remove id occurrence => Field.remove id occurrence b
  | removeId id => Field.removeId id b
  | change id occurrence value => Field.change id occurrence value b
  | copy source => Field.copy (all source) b
  | copyMemory source =>
    (Field.copyMemory (all source).memory b ((all source).memory.length + 1)).getD (.error .outside)
  | reset => .ok b.reset

/-- Operations on any number of buffers, each of which succeeds. -/
def runAll : List (Nat × Op) → (Nat → Buffer) → Except Code (Nat → Buffer)
  | [], all => .ok all
  | (handle, op) :: ops, all =>
    match op.run all (all handle) with
    | .ok b => runAll ops (Function.update all handle b)
    | .error e => .error e

/-- Operations on lists, one after the other. -/
def applyAll : List (Nat × Op) → (Nat → List Item) → Nat → List Item
  | [], all => all
  | (handle, op) :: ops, all => applyAll ops (Function.update all handle (op.apply all (all handle)))

/-! ## Occurrences -/

/-- The position of an occurrence. -/
def position (id : BitVec 64) : Int → List Item → Option Nat
  | _, [] => none
  | occurrence, i :: items =>
    if i.id = id then
      if occurrence = 0 then some 0 else (position id (occurrence - 1) items).map (· + 1)
    else (position id occurrence items).map (· + 1)

theorem findIndex_indexFrom (id : BitVec 64) : ∀ (occurrence offset : Int) (items : List Item),
    findIndex id occurrence (indexFrom offset items) = position id occurrence items
  | _, _, [] => rfl
  | occurrence, offset, i :: items => by
    unfold indexFrom findIndex position
    rw [findIndex_indexFrom, findIndex_indexFrom]

theorem valuesOf_cons_self (i : Item) (items : List Item) : valuesOf i.id (i :: items) = i.value :: valuesOf i.id items := by
  simp [valuesOf]

theorem valuesOf_cons_of_ne {id : BitVec 64} {i : Item} (h : i.id ≠ id) (items : List Item) :
    valuesOf id (i :: items) = valuesOf id items := by
  simp [valuesOf, h]

theorem valuesOf_append (id : BitVec 64) (items items' : List Item) :
    valuesOf id (items ++ items') = valuesOf id items ++ valuesOf id items' := by
  simp [valuesOf]

theorem occurrenceOf_cons_self {i : Item} {items : List Item} {occurrence : Int} :
    occurrenceOf i.id occurrence (i :: items) =
      if occurrence = 0 then some i.value else occurrenceOf i.id (occurrence - 1) items := by
  unfold occurrenceOf
  rw [valuesOf_cons_self]
  rcases lt_trichotomy occurrence 0 with h | rfl | h
  · rw [if_pos h, if_neg (by omega), if_pos (by omega)]
  · rfl
  · rw [if_neg (by omega), if_neg (by omega), if_neg (by omega)]
    have : occurrence.toNat = (occurrence - 1).toNat + 1 := by omega
    rw [this, List.getElem?_cons_succ]

theorem occurrenceOf_cons_of_ne {id : BitVec 64} {i : Item} (h : i.id ≠ id) (items : List Item) (occurrence : Int) :
    occurrenceOf id occurrence (i :: items) = occurrenceOf id occurrence items := by
  unfold occurrenceOf
  rw [valuesOf_cons_of_ne h]

/-- An occurrence that is there parts the fields in those before it and those behind it. -/
structure Occurs (id : BitVec 64) (occurrence : Int) (items before after : List Item) (i : Item) : Prop where
  split : items = before ++ i :: after
  hasId : i.id = id
  value : occurrenceOf id occurrence items = some i.value
  set : ∀ value, setOccurrence id value occurrence items = before ++ ⟨id, value⟩ :: after
  erase : eraseOccurrence id occurrence items = before ++ after

theorem position_some {id : BitVec 64} : ∀ {occurrence : Int} {items : List Item} {n : Nat},
    position id occurrence items = some n → ∃ before after i, Occurs id occurrence items before after i ∧ before.length = n
  | _, [], _, h => nomatch h
  | occurrence, i :: items, n, h => by
    unfold position at h
    split_ifs at h with hid hzero
    · subst hid hzero
      obtain rfl := Option.some.inj h
      exact ⟨[], items, i, ⟨rfl, rfl, by rw [occurrenceOf_cons_self, if_pos rfl], fun _ => by simp [setOccurrence],
        by simp [eraseOccurrence]⟩, rfl⟩
    · subst hid
      obtain ⟨m, hm, rfl⟩ := Option.map_eq_some_iff.1 h
      obtain ⟨before, after, j, hj, rfl⟩ := position_some hm
      exact ⟨i :: before, after, j, ⟨by rw [hj.split]; rfl, hj.hasId,
        by rw [occurrenceOf_cons_self, if_neg hzero, hj.value], fun _ => by simp [setOccurrence, hzero, hj.set],
        by simp [eraseOccurrence, hzero, hj.erase]⟩, rfl⟩
    · obtain ⟨m, hm, rfl⟩ := Option.map_eq_some_iff.1 h
      obtain ⟨before, after, j, hj, rfl⟩ := position_some hm
      exact ⟨i :: before, after, j, ⟨by rw [hj.split]; rfl, hj.hasId, by rw [occurrenceOf_cons_of_ne hid, hj.value],
        fun _ => by simp [setOccurrence, hid, hj.set], by simp [eraseOccurrence, hid, hj.erase]⟩, rfl⟩

theorem position_none {id : BitVec 64} : ∀ {occurrence : Int} {items : List Item},
    position id occurrence items = none → occurrenceOf id occurrence items = none
  | occurrence, [], _ => by unfold occurrenceOf; split_ifs <;> rfl
  | occurrence, i :: items, h => by
    unfold position at h
    split_ifs at h with hid hzero
    · subst hid
      rw [occurrenceOf_cons_self, if_neg hzero]
      exact position_none (Option.map_eq_none_iff.1 h)
    · rw [occurrenceOf_cons_of_ne hid]
      exact position_none (Option.map_eq_none_iff.1 h)

theorem occurrenceOf_some {id : BitVec 64} {items : List Item} {n : Nat} (h : n < (valuesOf id items).length) :
    ∃ value, occurrenceOf id n items = some value := by
  unfold occurrenceOf
  rw [if_neg (by omega), Int.toNat_natCast]
  exact ⟨_, List.getElem?_eq_getElem h⟩

theorem length_valuesOf_le {id : BitVec 64} {occurrence : Int} {items : List Item} (hpos : 0 ≤ occurrence)
    (h : occurrenceOf id occurrence items = none) : (valuesOf id items).length ≤ occurrence := by
  unfold occurrenceOf at h
  rw [if_neg (by omega), List.getElem?_eq_none_iff] at h
  omega

/-- Nothing is missing when the occurrence is there. -/
theorem padded_of_some {id : BitVec 64} {occurrence : Int} {items : List Item} {value : List UInt8}
    (h : occurrenceOf id occurrence items = some value) : padded id occurrence items = items := by
  unfold occurrenceOf at h
  split_ifs at h with hneg
  obtain ⟨hlt, -⟩ := List.getElem?_eq_some_iff.1 h
  have hzero : (occurrence + 1 - (valuesOf id items).length).toNat = 0 := by omega
  rw [padded, hzero, List.replicate_zero, List.append_nil]

/-- One of those that are missing is added. -/
theorem padded_append {id : BitVec 64} {occurrence : Int} {items : List Item}
    (h : (valuesOf id items).length ≤ occurrence) :
    padded id occurrence (items ++ [⟨id, emptyBytes id⟩]) = padded id occurrence items := by
  have hlen : (valuesOf id (items ++ [⟨id, emptyBytes id⟩])).length = (valuesOf id items).length + 1 := by
    rw [valuesOf_append, List.length_append]
    simp [valuesOf]
  have hsucc : (occurrence + 1 - (valuesOf id items).length).toNat =
      (occurrence + 1 - ((valuesOf id items).length + 1 : Nat)).toNat + 1 := by omega
  rw [padded, padded, hlen, hsucc, List.replicate_succ, List.append_assoc, List.singleton_append]

/-- Without one of its occurrences there is one less of an id. -/
theorem Occurs.erased {id : BitVec 64} {occurrence : Int} {items before after : List Item} {i : Item}
    (h : Occurs id occurrence items before after i) :
    (valuesOf id (eraseOccurrence id occurrence items)).length + 1 = (valuesOf id items).length ∧
      (eraseOccurrence id occurrence items).filter (fun i => i.id != id) = items.filter (fun i => i.id != id) := by
  rw [h.erase, h.split, ← h.hasId, valuesOf_append, valuesOf_append, valuesOf_cons_self]
  constructor
  · simp only [List.length_append, List.length_cons]
    omega
  · simp

/-! ## Buffers that represent fields -/

/-- The value of a field is one of the type of its id. -/
def Item.Valid (i : Item) : Prop := ∃ value : Value, value.type = typeOf i.id ∧ i.value = value.bytes

/-- Plain values of one type have one length. -/
theorem Value.length_bytes_of_plain {value value' : Value} (hplain : value.plain = true) (h : value.type = value'.type) :
    value.bytes.length = value'.bytes.length := by
  cases value <;> cases value' <;> simp_all [Value.type, Value.plain, Value.bytes]

/-- What makes an update succeed. -/
theorem update_ok {id : BitVec 64} {occurrence : Int} {value : Value} {b b' : Buffer}
    (h : update id occurrence value b = .ok b') :
    value.type = typeOf id ∧ (if value.plain then b.updatePlain id occurrence value.bytes
      else b.updateSized id occurrence value.bytes) = .ok (some b') := by
  unfold update at h
  by_cases htype : value.type = typeOf id
  · rw [if_neg (not_not_intro htype)] at h
    refine ⟨htype, ?_⟩
    generalize (if value.plain then b.updatePlain id occurrence value.bytes
      else b.updateSized id occurrence value.bytes) = r at h ⊢
    cases r with
    | error e => cases h
    | ok r =>
      cases r with
      | none => simp only [] at h; split at h <;> cases h
      | some b'' => rw [Except.ok.inj h]
  · rw [if_pos htype] at h
    cases h

/-- An update of an occurrence that is there does not fail for want of it. -/
theorem update_error {id : BitVec 64} {occurrence : Int} {value : Value} {b : Buffer}
    (hfind : (b.find id occurrence).isSome) : update id occurrence value b ≠ .error .noOccurrence := by
  have herror : ∀ {e : Code}, (if value.plain then b.updatePlain id occurrence value.bytes
      else b.updateSized id occurrence value.bytes) = .error e → e = .outside := by
    intro e h
    unfold Buffer.updatePlain Buffer.updateSized at h
    repeat' split at h
    all_goals cases h
    all_goals rfl
  intro h
  unfold update at h
  rw [if_pos hfind] at h
  by_cases htype : value.type ≠ typeOf id
  · rw [if_pos htype] at h
    cases h
  rw [if_neg htype] at h
  generalize (if value.plain then b.updatePlain id occurrence value.bytes
    else b.updateSized id occurrence value.bytes) = r at h herror
  cases r with
  | error e =>
    obtain rfl := Except.error.inj h
    cases herror rfl
  | ok r => cases r <;> cases h

theorem remove_ok {id : BitVec 64} {occurrence : Int} {b b' : Buffer} (h : remove id occurrence b = .ok b') :
    b.remove id occurrence = .ok (some b') := by
  unfold remove at h
  split_ifs at h
  cases hr : b.remove id occurrence with
  | error e => rw [hr] at h; cases h
  | ok r =>
    rw [hr] at h
    cases r with
    | none => cases h
    | some b'' => rw [Except.ok.inj h]

/-- An occurrence that is there is removed, unless what is in the buffer is not that of fields. -/
theorem remove_error {id : BitVec 64} {occurrence : Int} {b : Buffer} {e : Code} (hid : 0 < id.toInt)
    (hfind : (b.find id occurrence).isSome) (h : remove id occurrence b = .error e) : e = .outside := by
  unfold remove at h
  rw [if_neg (not_not_intro hid)] at h
  cases hr : b.remove id occurrence with
  | error e' =>
    rw [hr] at h
    obtain rfl := Except.error.inj h
    unfold Buffer.remove at hr
    repeat' split at hr
    all_goals cases hr
    all_goals rfl
  | ok r =>
    rw [hr] at h
    cases r with
    | some b' => cases h
    | none =>
      unfold Buffer.remove at hr
      unfold Buffer.find at hfind
      cases hn : findIndex id occurrence b.index with
      | none => rw [hn] at hfind; cases hfind
      | some n =>
        rw [hn] at hr
        simp only [] at hr
        repeat' split at hr
        all_goals cases hr

/-- A field that is found, and whose value is one of the type of its id, is got. -/
theorem get_of_at {b : Buffer} {id : BitVec 64} {occurrence : Int} {offset : Nat} {i : Item}
    (hfind : b.find id occurrence = some (offset : Int)) (hat : Bytes.At b.memory offset i.bytes) (hid : i.id = id)
    (hvalid : i.Valid) (hfits : i.Fits) : get (typeOf id) id occurrence b = .ok i.value := by
  obtain ⟨v, htype, hv⟩ := hvalid
  have hvalue : Bytes.At b.memory (offset + dataOffset) i.value := by
    have := @Bytes.At.right b.memory (encodeLong i.id ++ encodeLong (BitVec.ofNat 64 i.value.length)) i.value offset hat
    rwa [List.length_append, length_encodeLong, length_encodeLong] at this
  have hplain : ∀ n, v.bytes.length = n → b.selectPlain n id occurrence = .ok i.value := by
    rintro n rfl
    have hslice : Bytes.slice b.memory ((offset : Int) + dataOffset).toNat v.bytes.length = some i.value := by
      rw [← hv]
      exact hvalue.slice
    unfold Buffer.selectPlain
    simp only [hfind, hslice]
  rw [hid] at htype
  unfold get
  rw [if_neg (not_not_intro rfl), ← htype]
  cases v with
  | short v => exact hplain 2 (length_encode 2 _)
  | long v => exact hplain 8 (length_encode 8 _)
  | char v => exact hplain 1 (length_encode 1 _)
  | float v => exact hplain 4 (length_encode 4 _)
  | double v => exact hplain 8 (length_encode 8 _)
  | string v =>
    -- the string ends at its own null character, whatever is behind it
    have hdrop : b.memory.drop ((offset : Int) + dataOffset).toNat =
        v.takeWhile (· ≠ 0) ++ 0 :: b.memory.drop (offset + dataOffset + i.value.length) := by
      have := hvalue.drop
      rw [hv, Value.bytes, List.append_assoc] at this
      rw [hv]
      exact this
    have hstring : (v.takeWhile (· ≠ 0) ++ 0 :: b.memory.drop (offset + dataOffset + i.value.length)).takeWhile
        (· ≠ 0) = v.takeWhile (· ≠ 0) := by
      rw [List.takeWhile_append_of_pos fun c hc => List.all_eq_true.1 List.all_takeWhile c hc, List.takeWhile_cons_of_neg (by decide),
        List.append_nil]
    show b.selectString id occurrence = .ok i.value
    unfold Buffer.selectString
    simp only [hfind, hdrop, hstring]
    rw [if_pos (by simp), hv, Value.bytes]
  | binary v =>
    have hslice : Bytes.slice b.memory ((offset : Int) + dataOffset).toNat
        (BitVec.ofNat 64 i.value.length).toInt.toNat = some i.value := by
      rw [hfits.toInt]
      exact hvalue.slice
    show b.select id occurrence = .ok i.value
    unfold Buffer.select
    simp only [hfind, (decode_item hat).2, hslice]

/-- The buffer holds the fields: their bytes and their index, within what was allocated. -/
structure Represents (b : Buffer) (items : List Item) : Prop where
  memory : b.memory = bytesOf items
  index : b.index = indexFrom 0 items
  space : b.memory.length ≤ b.capacity
  valid : ∀ i ∈ items, i.Valid

/-- A part is written over by one of its length. -/
theorem overwrite_part (before after : List UInt8) {part part' : List UInt8} (h : part'.length = part.length) :
    overwrite (before ++ (part ++ after)) before.length part' = before ++ (part' ++ after) := by
  unfold overwrite
  rw [h, List.take_left, List.append_assoc, ← List.drop_drop, List.drop_left, List.drop_left]

/-- A part is taken out and another one put in. -/
theorem replace_part (before part after data : List UInt8) :
    (before ++ (part ++ after)).take before.length ++
      (data ++ (before ++ (part ++ after)).drop (before.length + part.length)) = before ++ (data ++ after) := by
  rw [List.take_left, ← List.drop_drop, List.drop_left, List.drop_left]

/-- A field gets its new size, and the new value for the old one. -/
theorem resize (before after : List UInt8) (i : Item) (data : List UInt8) :
    let memory := overwrite (before ++ (i.bytes ++ after)) (before.length + sizeOffset)
      (encodeLong (BitVec.ofNat 64 data.length))
    memory.take (before.length + dataOffset) ++ data ++ memory.drop (before.length + dataOffset + i.value.length) =
      before ++ (Item.bytes ⟨i.id, data⟩ ++ after) := by
  intro memory
  have hmemory : memory = (before ++ encodeLong i.id ++ encodeLong (BitVec.ofNat 64 data.length)) ++ (i.value ++ after) := by
    have := @overwrite_part (before ++ encodeLong i.id) (i.value ++ after)
      (encodeLong (BitVec.ofNat 64 i.value.length)) (encodeLong (BitVec.ofNat 64 data.length)) (by simp)
    simp only [List.length_append, length_encodeLong, List.append_assoc] at this
    simp only [memory, Item.bytes, List.append_assoc, sizeOffset]
    exact this
  have hlength : (before ++ encodeLong i.id ++ encodeLong (BitVec.ofNat 64 data.length)).length =
      before.length + dataOffset := by
    simp [dataOffset]
  rw [hmemory, ← hlength, List.append_assoc, replace_part]
  simp only [Item.bytes, List.append_assoc]

/-- The value of a field is written over by one of its length. -/
theorem overwrite_value (before after : List UInt8) (i : Item) {data : List UInt8} (h : data.length = i.value.length) :
    overwrite (before ++ (i.bytes ++ after)) (before.length + dataOffset) data =
      before ++ (Item.bytes ⟨i.id, data⟩ ++ after) := by
  have := @overwrite_part (before ++ (encodeLong i.id ++ encodeLong (BitVec.ofNat 64 i.value.length))) after i.value data h
  simp only [List.length_append, length_encodeLong, List.append_assoc] at this
  simp only [Item.bytes, List.append_assoc, dataOffset, h]
  exact this

namespace Represents

variable {b b' : Buffer} {items : List Item} {id : BitVec 64} {occurrence : Int}

theorem allocate (capacity : Nat) (limit : capacity < 2 ^ 63) : Represents (.allocate capacity limit) [] :=
  ⟨rfl, rfl, Nat.zero_le _, nofun⟩

theorem fits (h : Represents b items) : ∀ i ∈ items, i.Fits := by
  intro i hi
  obtain ⟨before, after, rfl⟩ := List.append_of_mem hi
  have hspace := h.space
  have hlimit := b.limit
  rw [h.memory, bytesOf_append, bytesOf_cons, List.length_append, List.length_append, Item.length_bytes] at hspace
  unfold Item.Fits
  omega

theorem append {value : List UInt8} (h : Represents b items) (hvalid : Item.Valid ⟨id, value⟩)
    (hb : b.append id value = some b') :
    Represents b' (items ++ [⟨id, value⟩]) ∧ b'.capacity = b.capacity := by
  unfold Buffer.append at hb
  split_ifs at hb with hspace
  obtain rfl := Option.some.inj hb
  refine ⟨⟨?_, ?_, ?_, ?_⟩, rfl⟩
  · simp [h.memory, Item.bytes]
  · rw [indexFrom_append, ← h.index, ← h.memory, Int.zero_add]
    rfl
  · simp only [List.length_append, length_encodeLong, Buffer.utilized, dataOffset] at hspace ⊢
    omega
  · intro i hi
    rcases List.mem_append.1 hi with hi | hi
    · exact h.valid i hi
    · rw [List.mem_singleton.1 hi]
      exact hvalid

theorem add {value : Value} (h : Represents b items) (hb : Field.add id value b = .ok b') :
    Represents b' (items ++ [⟨id, value.bytes⟩]) ∧ b'.capacity = b.capacity := by
  unfold Field.add at hb
  split_ifs at hb with htype
  cases hr : b.append id value.bytes with
  | none => rw [hr] at hb; cases hb
  | some b'' =>
    rw [hr] at hb
    obtain rfl := Except.ok.inj hb
    exact h.append ⟨value, not_not.1 htype, rfl⟩ hr

/-- Where an occurrence is: its place in the index, and its bytes at the offset that is kept there. -/
theorem found (h : Represents b items) {n : Nat} (hn : findIndex id occurrence b.index = some n) :
    ∃ before after i, Occurs id occurrence items before after i ∧ before.length = n ∧
      (b.index[n]?).map Prod.snd = some ((bytesOf before).length : Int) ∧
      Bytes.At b.memory (bytesOf before).length i.bytes := by
  rw [h.index, findIndex_indexFrom] at hn
  obtain ⟨before, after, i, hi, rfl⟩ := position_some hn
  refine ⟨before, after, i, hi, rfl, ?_, ?_⟩
  · rw [h.index, hi.split, indexFrom_append, List.getElem?_append_right (by simp)]
    simp [indexFrom]
  · rw [h.memory, hi.split, bytesOf_append, bytesOf_cons, ← List.append_assoc]
    apply Bytes.at_append

/-- What is read of the size of an occurrence. -/
theorem decode_size (h : Represents b items) {before after : List Item} {i : Item}
    (hi : Occurs id occurrence items before after i) (hat : Bytes.At b.memory (bytesOf before).length i.bytes) :
    decode b.memory ((bytesOf before).length + sizeOffset) = some (BitVec.ofNat 64 i.value.length) ∧
      (BitVec.ofNat 64 i.value.length).toInt = i.value.length :=
  ⟨(decode_item hat).2, (h.fits i (by rw [hi.split]; simp)).toInt⟩

theorem find_eq (h : Represents b items) :
    (b.find id occurrence = none ∧ occurrenceOf id occurrence items = none) ∨
    ∃ before after i, Occurs id occurrence items before after i ∧
      b.find id occurrence = some ((bytesOf before).length : Int) ∧
      Bytes.At b.memory (bytesOf before).length i.bytes := by
  unfold Buffer.find
  cases hn : findIndex id occurrence b.index with
  | none =>
    refine .inl ⟨rfl, ?_⟩
    rw [h.index, findIndex_indexFrom] at hn
    exact position_none hn
  | some n =>
    obtain ⟨before, after, i, hi, -, hoffset, hat⟩ := h.found hn
    exact .inr ⟨before, after, i, hi, hoffset, hat⟩

/-- The fields before, at and behind an occurrence, as they are in the buffer. -/
theorem parts (h : Represents b items) {before after : List Item} {i : Item}
    (hi : Occurs id occurrence items before after i) :
    b.memory = bytesOf before ++ (i.bytes ++ bytesOf after) ∧
      b.index = indexFrom 0 before ++ (id, ((bytesOf before).length : Int)) ::
        indexFrom ((bytesOf before).length + (dataOffset + i.value.length)) after := by
  constructor
  · rw [h.memory, hi.split, bytesOf_append, bytesOf_cons]
  · rw [h.index, hi.split, indexFrom_append, Int.zero_add, indexFrom, hi.hasId]

/-- One field in the place of another. -/
theorem exchange (h : Represents b items) {before after : List Item} {i : Item} {value memory : List UInt8}
    {index : List (BitVec 64 × Int)} (hi : Occurs id occurrence items before after i)
    (hvalid : Item.Valid ⟨id, value⟩)
    (hmemory : memory = bytesOf before ++ (Item.bytes ⟨id, value⟩ ++ bytesOf after))
    (hindex : index = indexFrom 0 before ++ (id, ((bytesOf before).length : Int)) ::
      indexFrom ((bytesOf before).length + (dataOffset + value.length)) after)
    (hspace : b.memory.length + value.length ≤ b.capacity + i.value.length) :
    Represents { b with memory := memory, index := index } (setOccurrence id value occurrence items) := by
  constructor
  · show memory = _
    rw [hmemory, hi.set, bytesOf_append, bytesOf_cons]
  · show index = _
    rw [hindex, hi.set, indexFrom_append, Int.zero_add, indexFrom]
  · show memory.length ≤ b.capacity
    rw [(h.parts hi).1] at hspace
    rw [hmemory]
    simp only [List.length_append, Item.length_bytes] at hspace ⊢
    omega
  · intro j hj
    rw [hi.set] at hj
    have hvalid' := h.valid
    rw [hi.split] at hvalid'
    rcases List.mem_append.1 hj with hj | hj
    · exact hvalid' j (List.mem_append_left _ hj)
    · rcases List.mem_cons.1 hj with rfl | hj
      · exact hvalid
      · exact hvalid' j (List.mem_append_right _ (List.mem_cons_of_mem _ hj))

/-- A string or a binary is replaced, and what is behind it moves. -/
theorem updateSized {data : List UInt8} (h : Represents b items) (hvalid : Item.Valid ⟨id, data⟩)
    (hb : b.updateSized id occurrence data = .ok (some b')) :
    Represents b' (setOccurrence id data occurrence items) ∧ b'.capacity = b.capacity := by
  unfold Buffer.updateSized at hb
  cases hn : findIndex id occurrence b.index with
  | none => rw [hn] at hb; cases hb
  | some n =>
    obtain ⟨before, after, i, hi, rfl, hoffset, hat⟩ := h.found hn
    obtain ⟨hsize, hcount⟩ := h.decode_size hi hat
    obtain ⟨hmemory, hindex⟩ := h.parts hi
    simp only [hn, hoffset, hsize, hcount] at hb
    split_ifs at hb with hspace hinside
    · cases hb
    · obtain rfl := Option.some.inj (Except.ok.inj hb)
      refine ⟨h.exchange hi hvalid ?_ ?_ ?_, rfl⟩
      · have := resize (bytesOf before) (bytesOf after) i data
        rw [← hmemory, hi.hasId] at this
        exact this
      · -- the offsets behind the field move by the difference of the sizes
        have htake : b.index.take (before.length + 1) = indexFrom 0 before ++ [(id, ((bytesOf before).length : Int))] := by
          rw [hindex, List.take_append, List.take_of_length_le (by simp)]
          simp
        have hdrop : b.index.drop (before.length + 1) =
            indexFrom ((bytesOf before).length + (dataOffset + i.value.length)) after := by
          rw [hindex, List.drop_append, List.drop_of_length_le (by simp)]
          simp
        rw [htake, hdrop, updateSecond_indexFrom, List.append_assoc, List.singleton_append]
        congr 3
        ring
      · have hlength := congrArg List.length hmemory
        simp only [List.length_append, Item.length_bytes] at hlength
        unfold Buffer.utilized at hspace
        rw [sizeType_eq (by omega)] at hspace
        omega

/-- A plain value is written over one of its type. -/
theorem updatePlain {value : Value} (h : Represents b items) (htype : value.type = typeOf id) (hplain : value.plain = true)
    (hb : b.updatePlain id occurrence value.bytes = .ok (some b')) :
    Represents b' (setOccurrence id value.bytes occurrence items) ∧ b'.capacity = b.capacity := by
  unfold Buffer.updatePlain at hb
  rcases h.find_eq with ⟨hnone, -⟩ | ⟨before, after, i, hi, hsome, hat⟩
  · rw [hnone] at hb; cases hb
  · rw [hsome] at hb
    simp only [] at hb
    split_ifs at hb with hinside
    obtain rfl := Option.some.inj (Except.ok.inj hb)
    obtain ⟨hmemory, hindex⟩ := h.parts hi
    have hlen : value.bytes.length = i.value.length := by
      obtain ⟨value', htype', hvalue'⟩ := h.valid i (by rw [hi.split]; simp)
      rw [hi.hasId] at htype'
      rw [hvalue', Value.length_bytes_of_plain hplain (htype.trans htype'.symm)]
    refine ⟨h.exchange hi ⟨value, htype, rfl⟩ ?_ ?_ ?_, rfl⟩
    · have := overwrite_value (bytesOf before) (bytesOf after) i hlen
      rw [← hmemory, hi.hasId] at this
      exact this
    · rw [hindex, hlen]
    · have := h.space
      omega

/-- The code of an occurrence that is not there. -/
theorem update_none (h : Represents b items) {value : Value} (htype : value.type = typeOf id)
    (hnone : b.find id occurrence = none) : Field.update id occurrence value b = .error .noOccurrence := by
  have hindex : findIndex id occurrence b.index = none := by
    cases hn : findIndex id occurrence b.index with
    | none => rfl
    | some n =>
      obtain ⟨_, _, _, _, _, hoffset, _⟩ := h.found hn
      unfold Buffer.find at hnone
      rw [hn, Option.bind_some, hoffset] at hnone
      cases hnone
  have hplain : b.updatePlain id occurrence value.bytes = .ok none := by
    unfold Buffer.updatePlain
    rw [hnone]
  have hsized : b.updateSized id occurrence value.bytes = .ok none := by
    unfold Buffer.updateSized
    rw [hindex]
  unfold Field.update
  rw [if_neg (not_not_intro htype), hplain, hsized, ite_self]
  simp only [hnone]
  rfl

theorem update {value : Value} (h : Represents b items) (hb : Field.update id occurrence value b = .ok b') :
    Represents b' (setOccurrence id value.bytes occurrence items) ∧ b'.capacity = b.capacity := by
  obtain ⟨htype, hb⟩ := update_ok hb
  by_cases hplain : value.plain = true
  · rw [if_pos hplain] at hb
    exact h.updatePlain htype hplain hb
  · rw [if_neg hplain] at hb
    exact h.updateSized ⟨value, htype, rfl⟩ hb

/-- A field is taken out, and what is behind it moves. -/
theorem remove (h : Represents b items) (hb : b.remove id occurrence = .ok (some b')) :
    Represents b' (eraseOccurrence id occurrence items) ∧ b'.capacity = b.capacity := by
  unfold Buffer.remove at hb
  cases hn : findIndex id occurrence b.index with
  | none => rw [hn] at hb; cases hb
  | some n =>
    obtain ⟨before, after, i, hi, rfl, hoffset, hat⟩ := h.found hn
    obtain ⟨hsize, hcount⟩ := h.decode_size hi hat
    obtain ⟨hmemory, hindex⟩ := h.parts hi
    simp only [hn, hoffset, hsize, hcount] at hb
    split_ifs at hb with hinside
    obtain rfl := Option.some.inj (Except.ok.inj hb)
    have hlength : ((dataOffset : Int) + i.value.length).toNat = i.bytes.length := by
      rw [Item.length_bytes]
      omega
    have hnew : b.memory.take (bytesOf before).length ++
        b.memory.drop ((bytesOf before).length + ((dataOffset : Int) + i.value.length).toNat) =
          bytesOf before ++ bytesOf after := by
      have := replace_part (bytesOf before) i.bytes (bytesOf after) []
      rw [← hmemory] at this
      rw [hlength]
      exact this
    refine ⟨⟨?_, ?_, ?_, ?_⟩, rfl⟩
    · rw [hi.erase, bytesOf_append]
      exact hnew
    · -- the offsets behind the field move by its size
      have htake : b.index.take before.length = indexFrom 0 before := by
        rw [hindex, List.take_append, List.take_of_length_le (by simp)]
        simp
      have hdrop : b.index.drop (before.length + 1) =
          indexFrom ((bytesOf before).length + (dataOffset + i.value.length)) after := by
        rw [hindex, List.drop_append, List.drop_of_length_le (by simp)]
        simp
      show b.index.take before.length ++ _ = _
      rw [hi.erase, htake, hdrop, updateSecond_indexFrom, indexFrom_append]
      congr 2
      ring
    · have hspace := h.space
      have hlen := congrArg List.length hmemory
      show (b.memory.take (bytesOf before).length ++
        b.memory.drop ((bytesOf before).length + ((dataOffset : Int) + i.value.length).toNat)).length ≤ b.capacity
      rw [hnew]
      simp only [List.length_append] at hlen ⊢
      omega
    · intro j hj
      rw [hi.erase] at hj
      apply h.valid
      rw [hi.split]
      rcases List.mem_append.1 hj with hj | hj
      · exact List.mem_append_left _ hj
      · exact List.mem_append_right _ (List.mem_cons_of_mem _ hj)

theorem count_eq (h : Represents b items) : b.count id = (valuesOf id items).length := by
  have hcount : ∀ (offset : Int) (items : List Item),
      (indexFrom offset items).countP (fun e => e.1 == id) = (valuesOf id items).length := by
    intro offset items
    induction items generalizing offset with
    | nil => rfl
    | cons i items ih =>
      rw [indexFrom, List.countP_cons, ih]
      by_cases hid : i.id = id
      · rw [← hid, valuesOf_cons_self]
        simp
      · rw [valuesOf_cons_of_ne hid]
        simp [hid]
  unfold Buffer.count
  rw [h.index, hcount]

/-- The ids of the fields are those of a type. -/
theorem id_pos (h : Represents b items) {i : Item} (hi : i ∈ items) : 0 < i.id.toInt := by
  obtain ⟨value, htype, -⟩ := h.valid i hi
  have hpos : 0 < typeOf i.id := by
    rw [← htype]
    cases value <;> simp [Value.type]
  by_contra hneg
  have hquot : 0 ≤ (-i.id.toInt).tdiv 0x2000000 := Int.tdiv_nonneg (by omega) (by decide)
  rw [Int.neg_tdiv] at hquot
  unfold typeOf at hpos
  omega

/-- The occurrences of an id, taken out from the last one. -/
theorem removeOccurrences : ∀ {occurrences : Nat} {b : Buffer} {items : List Item}, Represents b items →
    (valuesOf id items).length = occurrences → Field.removeOccurrences id occurrences b = .ok b' →
      Represents b' (items.filter fun i => i.id != id) ∧ b'.capacity = b.capacity
  | 0, b, items, h, hlen, hb => by
    obtain rfl := Except.ok.inj hb
    have hnone : items.filter (fun i => i.id != id) = items := by
      rw [List.filter_eq_self]
      intro i hi
      rw [List.length_eq_zero_iff, valuesOf, List.map_eq_nil_iff, List.filter_eq_nil_iff] at hlen
      simpa using hlen i hi
    rw [hnone]
    exact ⟨h, rfl⟩
  | occurrences + 1, b, items, h, hlen, hb => by
    obtain ⟨value, hvalue⟩ := @occurrenceOf_some id items occurrences (by omega)
    rcases @find_eq b items id occurrences h with ⟨-, hnone⟩ | ⟨before, after, i, hi, hfind, -⟩
    · rw [hnone] at hvalue; cases hvalue
    · have hpos : 0 < id.toInt := by
        have := h.id_pos (i := i) (by rw [hi.split]; simp)
        rwa [hi.hasId] at this
      unfold Field.removeOccurrences at hb
      cases hr : Field.remove id occurrences b with
      | error e =>
        obtain rfl := remove_error hpos (by rw [hfind]; rfl) hr
        rw [hr] at hb
        cases hb
      | ok b'' =>
        rw [hr] at hb
        obtain ⟨h', hcapacity⟩ := h.remove (remove_ok hr)
        obtain ⟨hlen', hfilter⟩ := hi.erased
        obtain ⟨h'', hcapacity'⟩ := removeOccurrences h' (Nat.succ.inj (hlen'.trans hlen)) hb
        rw [hfilter] at h''
        exact ⟨h'', hcapacity'.trans hcapacity⟩

theorem removeId (h : Represents b items) (hb : Field.removeId id b = .ok b') :
    Represents b' (items.filter fun i => i.id != id) ∧ b'.capacity = b.capacity := by
  unfold Field.removeId at hb
  split_ifs at hb
  exact h.removeOccurrences h.count_eq.symm hb

theorem addEmpty (h : Represents b items) (hb : Field.addEmpty id b = .ok b') :
    Represents b' (items ++ [⟨id, emptyBytes id⟩]) ∧ b'.capacity = b.capacity := by
  unfold Field.addEmpty at hb
  cases hvalue : Value.empty (typeOf id) with
  | none => rw [hvalue] at hb; cases hb
  | some value =>
    rw [hvalue] at hb
    have hbytes : emptyBytes id = value.bytes := by
      unfold emptyBytes
      rw [hvalue]
      rfl
    rw [hbytes]
    exact h.add hb

/-- The induction is on the room that is left: each empty field takes some of it. -/
theorem change {value : Value} : ∀ {room : Nat} {b : Buffer} {items : List Item},
    b.capacity - b.memory.length = room → Represents b items → 0 ≤ occurrence →
      Field.change id occurrence value b = .ok b' →
        Represents b' (setOccurrence id value.bytes occurrence (padded id occurrence items)) ∧
          b'.capacity = b.capacity := by
  intro room
  induction room using Nat.strong_induction_on with
  | _ room ih =>
    rintro b items rfl h hpos hb
    rw [Field.change, if_neg (by omega)] at hb
    by_cases htype : value.type = typeOf id
    · rcases @find_eq b items id occurrence h with ⟨hfind, hnone⟩ | ⟨before, after, i, hi, hfind, -⟩
      · -- the occurrence is not there: an empty field is added
        simp only [h.update_none htype hfind] at hb
        split at hb
        · next b'' hempty =>
          obtain ⟨h', hcapacity⟩ := h.addEmpty hempty
          obtain ⟨h'', hcapacity'⟩ := ih _ (addEmpty_lt hempty) rfl h' hpos hb
          rw [padded_append (length_valuesOf_le hpos hnone)] at h''
          exact ⟨h'', hcapacity'.trans hcapacity⟩
        · cases hb
      · rw [padded_of_some hi.value]
        cases hr : Field.update id occurrence value b with
        | error e =>
          have hne : e ≠ .noOccurrence := by
            rintro rfl
            exact update_error (by rw [hfind]; rfl) hr
          rw [hr] at hb
          cases e <;> first | cases hb | exact absurd rfl hne
        | ok b'' =>
          rw [hr] at hb
          obtain rfl := Except.ok.inj hb
          exact h.update hr
    · have hr : Field.update id occurrence value b = .error .invalidId := if_pos htype
      rw [hr] at hb
      cases hb

theorem copy {source : Buffer} {items' : List Item} (h : Represents source items')
    (hb : Field.copy source b = .ok b') : Represents b' items' ∧ b'.capacity = b.capacity := by
  unfold Field.copy Buffer.copy at hb
  by_cases hspace : b.capacity < source.utilized
  · rw [if_pos hspace] at hb
    cases hb
  · rw [if_neg hspace] at hb
    obtain rfl := Except.ok.inj hb
    exact ⟨⟨h.memory, h.index, Nat.le_of_not_lt hspace, h.valid⟩, rfl⟩

theorem length_le (h : Represents b items) : items.length ≤ b.memory.length := by
  have hle : ∀ items : List Item, items.length ≤ (bytesOf items).length := by
    intro items
    induction items with
    | nil => exact Nat.zero_le _
    | cons i items ih =>
      rw [bytesOf_cons, List.length_cons, List.length_append, Item.length_bytes, dataOffset]
      omega
  rw [h.memory]
  exact hle items

/-- The index is that which is derived from the bytes. -/
theorem derived (h : Represents b items) :
    updateIndex b.memory (b.memory.length + 1) 0 [] = some (.ok b.index) := by
  rw [h.index]
  exact updateIndex_items items [] _ [] h.fits (by simpa using h.memory) (Nat.lt_succ_of_le h.length_le)

theorem copyMemory {source : Buffer} {items' : List Item} (h : Represents source items')
    (hb : Field.copyMemory source.memory b (source.memory.length + 1) = some (.ok b')) :
    Represents b' items' ∧ b'.capacity = b.capacity := by
  unfold Field.copyMemory at hb
  split_ifs at hb with hspace
  · cases hb
  · rw [h.derived] at hb
    obtain rfl := Except.ok.inj (Option.some.inj hb)
    exact ⟨⟨h.memory, h.index, Nat.le_of_not_lt hspace, h.valid⟩, rfl⟩

theorem reset (b : Buffer) : Represents b.reset [] :=
  ⟨rfl, rfl, Nat.zero_le _, nofun⟩

/-- Each operation that succeeds does to the fields what it is for. -/
theorem run {op : Op} {all : Nat → Buffer} {lists : Nat → List Item} (hall : ∀ handle, Represents (all handle) (lists handle))
    (h : Represents b items) (hb : op.run all b = .ok b') :
    Represents b' (op.apply lists items) ∧ b'.capacity = b.capacity := by
  cases op with
  | add id value => exact h.add hb
  | update id occurrence value => exact h.update hb
  | remove id occurrence => exact h.remove (remove_ok hb)
  | removeId id => exact h.removeId hb
  | change id occurrence value =>
    by_cases hneg : occurrence < 0
    · have happly : (Op.change id occurrence value).apply lists items = items ++ [⟨id, value.bytes⟩] := if_pos hneg
      rw [happly]
      rw [Op.run, Field.change, if_pos hneg] at hb
      exact h.add hb
    · have happly : (Op.change id occurrence value).apply lists items =
          setOccurrence id value.bytes occurrence (padded id occurrence items) := if_neg hneg
      rw [happly]
      exact change rfl h (by omega) hb
  | copy source => exact copy (hall source) hb
  | copyMemory source =>
    simp only [Op.run] at hb
    cases hr : Field.copyMemory (all source).memory b ((all source).memory.length + 1) with
    | none => rw [hr] at hb; cases hb
    | some r =>
      rw [hr, Option.getD_some] at hb
      rw [hb] at hr
      exact copyMemory (hall source) hr
  | reset =>
    obtain rfl := Except.ok.inj hb
    exact ⟨reset b, rfl⟩

theorem runAll : ∀ {ops : List (Nat × Op)} {all all' : Nat → Buffer} {lists : Nat → List Item},
    (∀ handle, Represents (all handle) (lists handle)) → Field.runAll ops all = .ok all' →
      ∀ handle, Represents (all' handle) (applyAll ops lists handle) ∧ (all' handle).capacity = (all handle).capacity
  | [], all, all', lists, hall, hrun, handle => by
    obtain rfl := Except.ok.inj hrun
    exact ⟨hall handle, rfl⟩
  | (target, op) :: ops, all, all', lists, hall, hrun, handle => by
    unfold Field.runAll at hrun
    cases hr : op.run all (all target) with
    | error e => rw [hr] at hrun; cases hrun
    | ok b =>
      rw [hr] at hrun
      obtain ⟨hb, hcapacity⟩ := (hall target).run hall hr
      have hstep : ∀ handle, Represents (Function.update all target b handle)
          (Function.update lists target (op.apply lists (lists target)) handle) := by
        intro handle
        by_cases heq : handle = target
        · subst heq
          rw [Function.update_self, Function.update_self]
          exact hb
        · rw [Function.update_of_ne heq, Function.update_of_ne heq]
          exact hall handle
      obtain ⟨hrest, hcapacity'⟩ := runAll hstep hrun handle
      refine ⟨hrest, hcapacity'.trans ?_⟩
      by_cases heq : handle = target
      · rw [heq, Function.update_self, hcapacity]
      · rw [Function.update_of_ne heq]

/-! ### What is read -/

end Represents

end Casual.Field

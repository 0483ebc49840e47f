/-
The operations on a field buffer statement by statement, with what they have written when they end. What refuses has
written nothing, so each leaves what the operation as a whole makes of the buffer.
-/
import Casual.Lib.Triple
import Casual.Field.Index

namespace Casual.Field

open Casual.Lib

/-- Every place that is found is one of the index. -/
theorem findIndex_lt (id : BitVec 64) : ∀ {occurrence : Int} {index : List (BitVec 64 × Int)} {n : Nat},
    findIndex id occurrence index = some n → n < index.length
  | _, [], _, h => nomatch h
  | occurrence, (id', offset) :: index, n, h => by
    rw [findIndex] at h
    split_ifs at h
    · obtain rfl := Option.some.inj h
      exact Nat.succ_pos _
    · obtain ⟨m, hm, rfl⟩ := Option.map_eq_some_iff.1 h
      exact Nat.succ_lt_succ (findIndex_lt id hm)
    · obtain ⟨m, hm, rfl⟩ := Option.map_eq_some_iff.1 h
      exact Nat.succ_lt_succ (findIndex_lt id hm)

namespace Statements

/-- Some statements: what they return, or the code they end with, and the buffer as it is then. -/
abbrev M (α : Type) := EStateM Code Buffer α

/-- The buffer as it is. -/
def self : M Buffer := fun b => .ok b b

/-! ## The memory -/

/-- `payload.memory.insert` at the end. -/
def pushBack (bytes : List UInt8) : M Unit := modify fun b => { b with memory := b.memory ++ bytes }

/-- `decode<long>` of what is at an offset. -/
def decodeAt (offset : Int) : M (BitVec 64) := fun b =>
  match decode b.memory offset with
  | some value => .ok value b
  | none => .error .outside b

/-- `std::copy` to an offset. -/
def copyTo (offset : Int) (bytes : List UInt8) : M Unit := fun b =>
  if offset < 0 ∨ offset + bytes.length > b.utilized then .error .outside b
  else .ok () { b with memory := overwrite b.memory offset.toNat bytes }

/-- `payload.memory.erase` of some bytes from an offset on. -/
def erase (offset count : Int) : M Unit := fun b =>
  if offset < 0 ∨ count < 0 ∨ offset + count > b.utilized then .error .outside b
  else .ok () { b with memory := b.memory.take offset.toNat ++ b.memory.drop (offset.toNat + count.toNat) }

/-- `payload.memory.insert` at an offset. -/
def insert (offset : Int) (bytes : List UInt8) : M Unit :=
  modify fun b => { b with memory := b.memory.take offset.toNat ++ bytes ++ b.memory.drop offset.toNat }

/-! ## The index -/

/-- `m_index.emplace_back`. -/
def emplaceBack (id : BitVec 64) (offset : Int) : M Unit := modify fun b => { b with index := b.index ++ [(id, offset)] }

/-- `offset->second`. -/
def offsetAt (i : Nat) : M Int := fun b =>
  match (b.index[i]?).map Prod.snd with
  | some offset => .ok offset b
  | none => .error .outside b

/-- `m_index.erase`. -/
def eraseIndex (i : Nat) : M Unit := modify fun b => { b with index := b.index.take i ++ b.index.drop (i + 1) }

/-- `update_second` of each entry from a place of the index on. -/
def updateFrom (i : Nat) (value : Int) : M Unit :=
  modify fun b => { b with index := b.index.take i ++ updateSecond value (b.index.drop i) }

/-! ## `Buffer` -/

/-- `append`. -/
def append (id : BitVec 64) (value : List UInt8) : M Bool := do
  let b ← self
  if b.utilized + dataOffset + value.length > b.capacity then
    return false
  else
    emplaceBack id b.utilized
    pushBack (encodeLong id)
    pushBack (encodeLong (BitVec.ofNat 64 value.length))
    pushBack value
    return true

/-- `update` of a string or a binary. -/
def updateSized (id : BitVec 64) (occurrence : Int) (data : List UInt8) : M Bool := do
  let b ← self
  match findIndex id occurrence b.index with
  | none => return false
  | some i =>
    let offset ← offsetAt i
    let count ← decodeAt (offset + sizeOffset)
    if sizeType ((b.utilized : Int) - count.toInt + data.length) > b.capacity then
      return false
    else
      copyTo (offset + sizeOffset) (encodeLong (BitVec.ofNat 64 data.length))
      erase (offset + dataOffset) count.toInt
      insert (offset + dataOffset) data
      updateFrom (i + 1) (data.length - count.toInt)
      return true

/-- `update` of a plain value. -/
def updatePlain (id : BitVec 64) (occurrence : Int) (data : List UInt8) : M Bool := do
  match (← self).find id occurrence with
  | none => return false
  | some offset =>
    copyTo (offset + dataOffset) data
    return true

/-- The `update` that is there for the type of a value. -/
def updateField (id : BitVec 64) (occurrence : Int) (value : Value) : M Bool :=
  if value.plain then updatePlain id occurrence value.bytes else updateSized id occurrence value.bytes

/-- `remove`. -/
def removeField (id : BitVec 64) (occurrence : Int) : M Bool := do
  match findIndex id occurrence (← self).index with
  | none => return false
  | some i =>
    let offset ← offsetAt i
    let count ← decodeAt (offset + sizeOffset)
    erase offset (dataOffset + count.toInt)
    eraseIndex i
    updateFrom i (0 - dataOffset - count.toInt)
    return true

/-- `copy` of another buffer. -/
def copyBuffer (other : Buffer) : M Bool := do
  if (← self).capacity < other.utilized then
    return false
  else
    modify fun b => { b with memory := other.memory }
    modify fun b => { b with index := other.index }
    return true

/-- `update_index`; one that does not end is taken for one that reads outside. -/
def updateIndex : M Unit := do
  modify fun b => { b with index := [] }
  let b ← self
  match (Field.updateIndex b.memory (b.memory.length + 1) 0 []).getD (.error .outside) with
  | .ok index => set { b with index := index }
  | .error e => throw e

/-- `copy` of memory. -/
def copyBytes (memory : List UInt8) : M Bool := do
  if (← self).capacity < memory.length then
    return false
  else
    modify fun b => { b with memory := memory }
    updateIndex
    return true

/-! ## The interface -/

/-- `add`. -/
def add (id : BitVec 64) (value : Value) : M Unit :=
  if value.type ≠ typeOf id then throw .invalidId
  else do
    if ← append id value.bytes then return ()
    else throw .noSpace

/-- `update`. -/
def update (id : BitVec 64) (occurrence : Int) (value : Value) : M Unit :=
  if value.type ≠ typeOf id then throw .invalidId
  else do
    if ← updateField id occurrence value then return ()
    else if ((← self).find id occurrence).isSome then throw .noSpace
    else throw .noOccurrence

/-- `remove`. -/
def remove (id : BitVec 64) (occurrence : Int) : M Unit :=
  if ¬ 0 < id.toInt then throw .invalidId
  else do
    if ← removeField id occurrence then return ()
    else throw .noOccurrence

/-- A call whose code is not looked at. -/
def ignore (x : M Unit) : M Unit :=
  tryCatch x fun e =>
    match e with
    | .outside => throw .outside
    | _ => pure ()

/-- The loop of `CasualFieldRemoveId`. -/
def removeOccurrences (id : BitVec 64) : Nat → M Unit
  | 0 => pure ()
  | occurrences + 1 => do
    ignore (remove id occurrences)
    removeOccurrences id occurrences

/-- `CasualFieldRemoveId`. -/
def removeId (id : BitVec 64) : M Unit := do
  let b ← self
  if b.count id = 0 then throw .noOccurrence
  else removeOccurrences id (b.count id)

/-- `CasualFieldAddEmpty`. -/
def addEmpty (id : BitVec 64) : M Unit :=
  match Value.empty (typeOf id) with
  | some value => add id value
  | none => throw .invalidId

/-- `CasualFieldCopyBuffer`. -/
def copy (source : Buffer) : M Unit := do
  if ← copyBuffer source then return ()
  else throw .noSpace

/-- `CasualFieldCopyMemory`. -/
def copyMemory (memory : List UInt8) : M Unit := do
  if ← copyBytes memory then return ()
  else throw .noSpace

/-! ## What they leave -/

/-- Statements of `Buffer` end as the operation does: what refuses leaves the buffer as it was. -/
def Ends (b : Buffer) : Except Code (Option Buffer) → EStateM.Result Code Buffer Bool → Prop
  | .ok (some b'), r => r = .ok true b'
  | .ok none, r => r = .ok false b
  | .error e, r => e = .outside ∧ ∃ b', r = .error .outside b'

/-- Statements of the interface end as the operation does; after a reading or writing outside nothing is said of the
buffer. -/
def Leaves (b : Buffer) : Except Code Buffer → EStateM.Result Code Buffer Unit → Prop
  | .ok b', r => r = .ok () b'
  | .error .outside, r => ∃ b', r = .error .outside b'
  | .error e, r => r = .error e b

section

variable {id : BitVec 64} {occurrence : Int} {b : Buffer}

theorem append_ends (value : List UInt8) : Ends b (.ok (b.append id value)) (append id value b) := by
  have hstep : append id value b = if b.utilized + dataOffset + value.length > b.capacity then .ok false b
      else .ok true { b with
        memory := b.memory ++ encodeLong id ++ encodeLong (BitVec.ofNat 64 value.length) ++ value
        index := b.index ++ [(id, (b.utilized : Int))] } := by
    unfold append
    rw [bind_ok (rfl : self b = .ok b b)]
    split_ifs <;> rfl
  unfold Buffer.append
  rw [hstep]
  by_cases hspace : b.utilized + dataOffset + value.length > b.capacity
  · simp only [if_pos hspace, Ends]
  · simp only [if_neg hspace, Ends]

/-- A number that is decoded is in the memory. -/
theorem decode_bounds {memory : List UInt8} {offset : Int} {value : BitVec 64} (h : decode memory offset = some value) :
    0 ≤ offset ∧ offset + 8 ≤ memory.length := by
  unfold decode Bytes.slice at h
  split_ifs at h with hpos hsize
  · omega
  · cases h

theorem length_overwrite {memory bytes : List UInt8} {offset : Nat} (h : offset + bytes.length ≤ memory.length) :
    (overwrite memory offset bytes).length = memory.length := by
  unfold overwrite
  simp only [List.length_append, List.length_take, List.length_drop]
  omega

/-- What is erased and what is inserted in its place. -/
theorem insert_erased {memory : List UInt8} {offset : Nat} (h : offset ≤ memory.length) (count : Nat) (data : List UInt8) :
    (memory.take offset ++ memory.drop (offset + count)).take offset ++ data ++
        (memory.take offset ++ memory.drop (offset + count)).drop offset =
      memory.take offset ++ data ++ memory.drop (offset + count) := by
  have hlength : (memory.take offset).length = offset := List.length_take_of_le h
  rw [List.take_append_of_le_length hlength.ge, List.take_of_length_le hlength.le, List.drop_append_of_le_length hlength.ge,
    List.drop_of_length_le hlength.le, List.nil_append]

theorem offsetAt_eq {i : Nat} {offset : Int} (h : (b.index[i]?).map Prod.snd = some offset) : offsetAt i b = .ok offset b := by
  unfold offsetAt
  rw [h]

theorem offsetAt_none {i : Nat} (h : (b.index[i]?).map Prod.snd = none) : offsetAt i b = .error .outside b := by
  unfold offsetAt
  rw [h]

theorem decodeAt_eq {offset : Int} {value : BitVec 64} (h : decode b.memory offset = some value) :
    decodeAt offset b = .ok value b := by
  unfold decodeAt
  rw [h]

theorem decodeAt_none {offset : Int} (h : decode b.memory offset = none) : decodeAt offset b = .error .outside b := by
  unfold decodeAt
  rw [h]

theorem updateSized_ends (data : List UInt8) :
    Ends b (b.updateSized id occurrence data) (updateSized id occurrence data b) := by
  unfold Buffer.updateSized updateSized
  rw [bind_ok (rfl : self b = .ok b b)]
  cases findIndex id occurrence b.index with
  | none => rfl
  | some i =>
    dsimp only
    cases hoffset : (b.index[i]?).map Prod.snd with
    | none =>
      rw [bind_error (offsetAt_none hoffset)]
      exact ⟨rfl, b, rfl⟩
    | some offset =>
      rw [bind_ok (offsetAt_eq hoffset)]
      dsimp only
      cases hcount : decode b.memory (offset + sizeOffset) with
      | none =>
        rw [bind_error (decodeAt_none hcount)]
        exact ⟨rfl, b, rfl⟩
      | some count =>
        rw [bind_ok (decodeAt_eq hcount)]
        dsimp only
        obtain ⟨hlow, hhigh⟩ := decode_bounds hcount
        by_cases hspace : sizeType ((b.utilized : Int) - count.toInt + data.length) > b.capacity
        · rw [if_pos hspace, if_pos hspace]
          rfl
        · rw [if_neg hspace, if_neg hspace]
          -- the new size is written before anything else is looked at
          set size := encodeLong (BitVec.ofNat 64 data.length) with hsize
          set b' : Buffer := { b with memory := overwrite b.memory (offset + sizeOffset).toNat size } with hb'
          have hlength : size.length = 8 := length_encodeLong _
          have hutilized : b'.utilized = b.utilized := by
            apply length_overwrite
            omega
          have hcopy : copyTo (offset + sizeOffset) size b = .ok () b' := by
            unfold copyTo Buffer.utilized
            rw [if_neg (by omega)]
          have hfirst : 0 ≤ offset + dataOffset := by
            unfold dataOffset
            unfold sizeOffset at hlow
            omega
          rw [bind_ok hcopy]
          by_cases hinside : count.toInt < 0 ∨ offset + dataOffset + count.toInt > b.utilized
          · rw [if_pos hinside]
            have herase : erase (offset + dataOffset) count.toInt b' = .error .outside b' := by
              unfold erase
              rw [if_pos (by rw [hutilized]; omega)]
            rw [bind_error herase]
            exact ⟨rfl, b', rfl⟩
          · rw [if_neg hinside]
            have herase : erase (offset + dataOffset) count.toInt b' = .ok () { b' with
                memory := b'.memory.take (offset + dataOffset).toNat ++
                  b'.memory.drop ((offset + dataOffset).toNat + count.toInt.toNat) } := by
              unfold erase
              rw [if_neg (by rw [hutilized]; omega)]
            rw [bind_ok herase]
            have hle : (offset + dataOffset).toNat ≤ b'.memory.length := by
              unfold Buffer.utilized at hinside hutilized
              omega
            have hinsert := insert_erased hle count.toInt.toNat data
            exact congrArg (fun memory => EStateM.Result.ok true { b with
              memory := memory
              index := b.index.take (i + 1) ++ updateSecond (data.length - count.toInt) (b.index.drop (i + 1)) }) hinsert

theorem updatePlain_ends (data : List UInt8) :
    Ends b (b.updatePlain id occurrence data) (updatePlain id occurrence data b) := by
  unfold Buffer.updatePlain updatePlain
  rw [bind_ok (rfl : self b = .ok b b)]
  cases b.find id occurrence with
  | none => rfl
  | some offset =>
    dsimp only
    by_cases hinside : offset + dataOffset < 0 ∨ offset + dataOffset + data.length > b.utilized
    · have hcopy : copyTo (offset + dataOffset) data b = .error .outside b := if_pos hinside
      rw [if_pos hinside, bind_error hcopy]
      exact ⟨rfl, b, rfl⟩
    · have hcopy : copyTo (offset + dataOffset) data b = .ok () _ := if_neg hinside
      rw [if_neg hinside, bind_ok hcopy]
      rfl

theorem removeField_ends : Ends b (b.remove id occurrence) (removeField id occurrence b) := by
  unfold Buffer.remove removeField
  rw [bind_ok (rfl : self b = .ok b b)]
  cases hi : findIndex id occurrence b.index with
  | none => rfl
  | some i =>
    dsimp only
    cases hoffset : (b.index[i]?).map Prod.snd with
    | none =>
      rw [bind_error (offsetAt_none hoffset)]
      exact ⟨rfl, b, rfl⟩
    | some offset =>
      rw [bind_ok (offsetAt_eq hoffset)]
      dsimp only
      cases hcount : decode b.memory (offset + sizeOffset) with
      | none =>
        rw [bind_error (decodeAt_none hcount)]
        exact ⟨rfl, b, rfl⟩
      | some count =>
        rw [bind_ok (decodeAt_eq hcount)]
        dsimp only
        by_cases hinside : offset < 0 ∨ dataOffset + count.toInt < 0 ∨ offset + (dataOffset + count.toInt) > b.utilized
        · have herase : erase offset (dataOffset + count.toInt) b = .error .outside b := if_pos hinside
          rw [if_pos hinside, bind_error herase]
          exact ⟨rfl, b, rfl⟩
        · have herase : erase offset (dataOffset + count.toInt) b = .ok () _ := if_neg hinside
          rw [if_neg hinside, bind_ok herase]
          -- the entry is taken out of the index before those behind it are changed
          have hindex : b.index.take i ++ updateSecond (0 - dataOffset - count.toInt) (b.index.drop (i + 1)) =
              (b.index.take i ++ b.index.drop (i + 1)).take i ++
                updateSecond (0 - dataOffset - count.toInt) ((b.index.take i ++ b.index.drop (i + 1)).drop i) := by
            have hlength : (b.index.take i).length = i := List.length_take_of_le (Nat.le_of_lt (findIndex_lt id hi))
            rw [List.take_left' hlength, List.drop_left' hlength]
          exact congrArg (fun index => EStateM.Result.ok true { b with
            memory := b.memory.take offset.toNat ++ b.memory.drop (offset.toNat + (dataOffset + count.toInt).toNat)
            index := index }) hindex.symm

theorem copyBuffer_ends (other : Buffer) : Ends b (.ok (Buffer.copy other b)) (copyBuffer other b) := by
  unfold Buffer.copy copyBuffer
  rw [bind_ok (rfl : self b = .ok b b)]
  by_cases hspace : b.capacity < other.utilized
  · rw [if_pos hspace, if_pos hspace]
    rfl
  · rw [if_neg hspace, if_neg hspace]
    rfl

/-! ### The interface -/

/-- What an operation ends with when a false is taken for a code. -/
def orElse (e : Code) : Except Code (Option Buffer) → Except Code Buffer
  | .ok (some b') => .ok b'
  | .ok none => .error e
  | .error e => .error e

/-- What is behind a statement of `Buffer` returns, or ends with a code and writes nothing. -/
theorem Ends.leaves {r : Except Code (Option Buffer)} {x : M Bool} {f : Bool → M Unit} {e : Code} (h : Ends b r (x b))
    (htrue : f true = pure ()) (hfalse : f false b = .error e b) (he : e ≠ .outside) :
    Leaves b (orElse e r) ((x >>= f) b) := by
  rcases r with e' | _ | b'
  · obtain ⟨rfl, b', hx⟩ := h
    exact ⟨b', bind_error hx⟩
  · have hx : (x >>= f) b = .error e b := (bind_ok h).trans hfalse
    cases e with
    | outside => exact absurd rfl he
    | noSpace | noOccurrence | invalidId => exact hx
  · show (x >>= f) b = .ok () b'
    rw [bind_ok h, htrue]
    rfl

theorem add_leaves (value : Value) : Leaves b (Field.add id value b) (add id value b) := by
  unfold Field.add add
  by_cases htype : value.type ≠ typeOf id
  · rw [if_pos htype, if_pos htype]
    rfl
  · rw [if_neg htype, if_neg htype]
    have h := (@append_ends id b value.bytes).leaves (e := .noSpace) (f := fun ok => if ok then return () else throw .noSpace)
      rfl rfl nofun
    cases happend : b.append id value.bytes <;> rw [happend] at h <;> exact h

theorem update_leaves (value : Value) : Leaves b (Field.update id occurrence value b) (update id occurrence value b) := by
  unfold Field.update update
  by_cases htype : value.type ≠ typeOf id
  · rw [if_pos htype, if_pos htype]
    rfl
  · rw [if_neg htype, if_neg htype]
    have hends : Ends b (if value.plain then b.updatePlain id occurrence value.bytes
        else b.updateSized id occurrence value.bytes) (updateField id occurrence value b) := by
      unfold updateField
      split_ifs
      · exact updatePlain_ends value.bytes
      · exact updateSized_ends value.bytes
    have h := hends.leaves (e := if (b.find id occurrence).isSome then .noSpace else .noOccurrence)
      (f := fun ok => if ok then return () else do
        if ((← self).find id occurrence).isSome then throw .noSpace else throw .noOccurrence)
      rfl (by
        show (if (b.find id occurrence).isSome then throw .noSpace else throw .noOccurrence : M Unit) b = _
        split_ifs <;> rfl) (by split_ifs <;> nofun)
    generalize (if value.plain then b.updatePlain id occurrence value.bytes
      else b.updateSized id occurrence value.bytes) = r at h ⊢
    rcases r with e | _ | b'
    · exact h
    · unfold orElse at h
      split_ifs at h ⊢ <;> exact h
    · exact h

theorem remove_leaves : Leaves b (Field.remove id occurrence b) (remove id occurrence b) := by
  unfold Field.remove remove
  by_cases hid : ¬ 0 < id.toInt
  · rw [if_pos hid, if_pos hid]
    rfl
  · rw [if_neg hid, if_neg hid]
    have h := (@removeField_ends id occurrence b).leaves (e := .noOccurrence)
      (f := fun ok => if ok then return () else throw .noOccurrence) rfl rfl nofun
    rcases hremove : b.remove id occurrence with e | _ | b' <;> rw [hremove] at h <;> exact h

/-- The induction is on the occurrences that are left; one that is refused is passed over. -/
theorem removeOccurrences_cases : ∀ {occurrences : Nat} {b : Buffer},
    (∃ b', Field.removeOccurrences id occurrences b = .ok b' ∧ removeOccurrences id occurrences b = .ok () b') ∨
      (Field.removeOccurrences id occurrences b = .error .outside ∧
        ∃ b', removeOccurrences id occurrences b = .error .outside b')
  | 0, b => .inl ⟨b, rfl, rfl⟩
  | occurrences + 1, b => by
    have h := @remove_leaves id occurrences b
    unfold Field.removeOccurrences removeOccurrences
    cases hremove : Field.remove id occurrences b with
    | ok b' =>
      rw [hremove] at h
      have hignored : ignore (remove id occurrences) b = .ok () b' := tryCatch_ok h
      rw [bind_ok hignored]
      exact removeOccurrences_cases
    | error e =>
      rw [hremove] at h
      cases e with
      | outside =>
        obtain ⟨b', hx⟩ := h
        have hignored : ignore (remove id occurrences) b = .error .outside b' := tryCatch_error hx
        exact .inr ⟨rfl, b', bind_error hignored⟩
      | noSpace | noOccurrence | invalidId =>
        have hignored : ignore (remove id occurrences) b = .ok () b := tryCatch_error h
        rw [bind_ok hignored]
        exact removeOccurrences_cases

theorem removeId_leaves : Leaves b (Field.removeId id b) (removeId id b) := by
  unfold Field.removeId removeId
  rw [bind_ok (rfl : self b = .ok b b)]
  by_cases hcount : b.count id = 0
  · rw [if_pos hcount, if_pos hcount]
    rfl
  · rw [if_neg hcount, if_neg hcount]
    rcases @removeOccurrences_cases id (b.count id) b with ⟨b', hleft, hright⟩ | ⟨hleft, hright⟩
    · rw [hleft]
      exact hright
    · rw [hleft]
      exact hright

theorem addEmpty_leaves : Leaves b (Field.addEmpty id b) (addEmpty id b) := by
  unfold Field.addEmpty addEmpty
  cases Value.empty (typeOf id) with
  | none => rfl
  | some value => exact add_leaves value

theorem copy_leaves (source : Buffer) : Leaves b (Field.copy source b) (copy source b) := by
  have h := (@copyBuffer_ends b source).leaves (e := .noSpace) (f := fun ok => if ok then return () else throw .noSpace)
    rfl rfl nofun
  unfold Field.copy
  cases hcopy : Buffer.copy source b <;> rw [hcopy] at h <;> exact h

theorem updateIndex_eq (b : Buffer) : updateIndex b =
    match (Field.updateIndex b.memory (b.memory.length + 1) 0 []).getD (.error .outside) with
    | .ok index => .ok () { b with index := index }
    | .error e => .error e { b with index := [] } := by
  show (match (Field.updateIndex b.memory (b.memory.length + 1) 0 []).getD (.error .outside) with
    | .ok index => set { b with index := index }
    | .error e => throw e : M Unit) { b with index := [] } = _
  cases (Field.updateIndex b.memory (b.memory.length + 1) 0 []).getD (.error .outside) <;> rfl

theorem copyMemory_leaves (memory : List UInt8) :
    Leaves b ((Field.copyMemory memory b (memory.length + 1)).getD (.error .outside)) (copyMemory memory b) := by
  unfold Field.copyMemory copyMemory
  by_cases hspace : b.capacity < memory.length
  · have hbytes : copyBytes memory b = .ok false b := by
      unfold copyBytes
      rw [bind_ok (rfl : self b = .ok b b), if_pos hspace]
      rfl
    rw [if_pos hspace, bind_ok hbytes]
    rfl
  · have hbytes : copyBytes memory b = (updateIndex >>= fun _ => pure true : M Bool) { b with memory := memory } := by
      unfold copyBytes
      rw [bind_ok (rfl : self b = .ok b b), if_neg hspace]
      rfl
    have hindex := updateIndex_eq { b with memory := memory }
    rw [if_neg hspace]
    dsimp only at hindex
    rcases hr : Field.updateIndex memory (memory.length + 1) 0 [] with _ | e | index
    · rw [hr] at hindex
      exact ⟨_, bind_error (hbytes.trans (bind_error hindex))⟩
    · obtain rfl := updateIndex_error hr
      rw [hr] at hindex
      exact ⟨_, bind_error (hbytes.trans (bind_error hindex))⟩
    · rw [hr] at hindex
      exact bind_ok (hbytes.trans (bind_ok hindex))

end

end Statements

end Casual.Field

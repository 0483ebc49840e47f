/-
What the operations on a field buffer leave when they fail. All of them look before they write; a change
that adds empty fields until its occurrence is there leaves those that it added.
-/
import Casual.Field.Iterate
import Casual.Field.Statements

namespace Casual.Field

open Casual.Lib

/-! ## Operations and what they leave -/

/-- What a function of the interface returns when it does not succeed. -/
inductive Failure
  | code (code : Code)
  | invalidArgument
  deriving DecidableEq

/-- What there is when some statements have ended. -/
def outcome : EStateM.Result Code Buffer Unit → Option Failure × Buffer
  | .ok () b => (none, b)
  | .error e b => (some (.code e), b)

/-- What a pointer and a count give the functions for values: the value of the type of the id, or of the function; a
negative count of a binary; or a null pointer, with a count. -/
inductive Argument
  | value (value : Value)
  | negative
  | null (count : Nat)

/-- `CasualFieldAddValue`, `CasualFieldAddShort` and so on. -/
def addValue (id : BitVec 64) (argument : Argument) (b : Buffer) : Option Failure × Buffer :=
  match argument with
  | .value value => outcome (Statements.add id value b)
  | .negative => (some .invalidArgument, b)
  | .null count =>
    match Value.empty (typeOf id) with
    | none => (some (.code .invalidId), b)
    | some (.binary _) =>
      -- from a null pointer nothing can be inserted but nothing
      if count = 0 then outcome (Statements.add id (.binary []) b) else (some (.code .outside), b)
    | some _ => (some (.code .outside), b)

/-- `CasualFieldUpdateValue`, `CasualFieldUpdateShort` and so on. -/
def updateValue (id : BitVec 64) (occurrence : Int) (argument : Argument) (b : Buffer) : Option Failure × Buffer :=
  match argument with
  | .value value => outcome (Statements.update id occurrence value b)
  | .negative | .null _ => (some .invalidArgument, b)

/-- What there is when an operation has looked before it wrote. -/
def left (b : Buffer) : Except Code Buffer → Option Failure × Buffer
  | .ok b' => (none, b')
  | .error e => (some (.code e), b)

/-- What statements leave is what the operation leaves, if it does not read or write outside. -/
def Leaves (b : Buffer) (result : Except Code Buffer) (r : Option Failure × Buffer) : Prop :=
  r = left b result ∨ result = .error .outside ∧ r.1 = some (.code .outside)

theorem leaves_outcome {b : Buffer} {result : Except Code Buffer} {r : EStateM.Result Code Buffer Unit}
    (h : Statements.Leaves b result r) : Leaves b result (outcome r) := by
  rcases result with e | b'
  · cases e with
    | outside =>
      obtain ⟨b', rfl⟩ := h
      exact .inr ⟨rfl, rfl⟩
    | noSpace | noOccurrence | invalidId =>
      obtain rfl := h
      exact .inl rfl
  · obtain rfl := h
    exact .inl rfl

theorem left_of_leaves {b : Buffer} {result : Except Code Buffer} {r : Option Failure × Buffer} (h : Leaves b result r)
    (hinside : result ≠ .error .outside) : r = left b result := h.resolve_right fun hout => hinside hout.1

/-- An update that does not find the occurrence has changed nothing. -/
theorem updateValue_missed {id : BitVec 64} {occurrence : Int} {argument : Argument} {b b' : Buffer}
    (h : updateValue id occurrence argument b = (some (.code .noOccurrence), b')) : b' = b := by
  cases argument with
  | negative => cases h
  | null count => cases h
  | value value =>
    have hleaves := leaves_outcome (Statements.update_leaves value : Statements.Leaves b _ (Statements.update id occurrence value b))
    rw [updateValue] at h
    rw [h] at hleaves
    rcases hleaves with hleft | ⟨-, hout⟩
    · cases hr : update id occurrence value b with
      | ok b'' =>
        rw [hr] at hleft
        cases hleft
      | error e =>
        rw [hr] at hleft
        exact congrArg Prod.snd hleft
    · cases hout

/-- An empty field that is added takes room. -/
theorem added_lt {id : BitVec 64} {b b' : Buffer} (h : outcome (Statements.addEmpty id b) = (none, b')) :
    b'.capacity - b'.memory.length < b.capacity - b.memory.length := by
  have hleaves := leaves_outcome (Statements.addEmpty_leaves : Statements.Leaves b _ (Statements.addEmpty id b))
  rw [h] at hleaves
  rcases hleaves with hleft | ⟨-, hout⟩
  · cases hr : addEmpty id b with
    | ok b'' =>
      rw [hr] at hleft
      obtain rfl := congrArg Prod.snd hleft
      exact addEmpty_lt hr
    | error e =>
      rw [hr] at hleft
      cases hleft
  · cases hout

/-- `CasualFieldChangeValue`. -/
def changeValue (id : BitVec 64) (occurrence : Int) (argument : Argument) (b : Buffer) : Option Failure × Buffer :=
  if occurrence < 0 then addValue id argument b
  else
    match _hupdate : updateValue id occurrence argument b with
    | (some (.code .noOccurrence), b') =>
      match _hempty : outcome (Statements.addEmpty id b') with
      | (none, b'') => changeValue id occurrence argument b''
      | (some failure, b'') => (some failure, b'')
    | result => result
termination_by b.capacity - b.memory.length
decreasing_by
  obtain rfl := updateValue_missed _hupdate
  exact added_lt _hempty

/-- What a user may ask of a buffer; what is copied is another buffer or memory. -/
inductive Request
  | add (id : BitVec 64) (argument : Argument)
  | update (id : BitVec 64) (occurrence : Int) (argument : Argument)
  | change (id : BitVec 64) (occurrence : Int) (argument : Argument)
  | remove (id : BitVec 64) (occurrence : Int)
  | removeId (id : BitVec 64)
  | copy (source : Buffer)
  | copyMemory (memory : List UInt8)

/-- The code that is returned, none for success, and the buffer. -/
def Request.run (b : Buffer) : Request → Option Failure × Buffer
  | add id argument => addValue id argument b
  | update id occurrence argument => updateValue id occurrence argument b
  | change id occurrence argument => changeValue id occurrence argument b
  | remove id occurrence => outcome (Statements.remove id occurrence b)
  | removeId id => outcome (Statements.removeId id b)
  | copy source => outcome (Statements.copy source b)
  | copyMemory memory => outcome (Statements.copyMemory memory b)

/-- The buffer is as it was when the operation ends with a code; `outside` is none that is returned. -/
def Request.Untouched (b : Buffer) (r : Request) : Prop :=
  ∀ failure, (r.run b).1 = some failure → failure ≠ .code .outside → (r.run b).2 = b

/-- A change that succeeds leaves as many occurrences as there were, or as many as it takes, and those it has added
before its own are empty. -/
def Request.Padded (b : Buffer) : Request → Prop
  | .change id occurrence argument => 0 ≤ occurrence → (changeValue id occurrence argument b).1 = none →
      ((changeValue id occurrence argument b).2.count id : Int) = max (b.count id : Int) (occurrence + 1) ∧
      ∀ j : Nat, b.count id ≤ j → (j : Int) < occurrence →
        get (typeOf id) id j (changeValue id occurrence argument b).2 = .ok (emptyBytes id)
  | _ => True

/-- The bytes of an empty field. -/
def emptySize (id : BitVec 64) : Nat := dataOffset + (emptyBytes id).length

/-- There is no room for any of the fields that a change has to add, or there is room for all of them and for the value. -/
def Request.Whole (b : Buffer) : Request → Prop
  | .change id occurrence (.value value) =>
    value.type = typeOf id → 0 ≤ occurrence → (b.count id : Int) ≤ occurrence →
      b.capacity < b.memory.length + emptySize id ∨
      (b.memory.length + (occurrence + 1 - b.count id).toNat * emptySize id ≤ b.capacity ∧
        b.memory.length + (occurrence - b.count id).toNat * emptySize id + dataOffset + value.bytes.length ≤ b.capacity)
  | _ => True

/-! ## Empty fields -/

/-- The empty fields that a change adds. -/
def empties (id : BitVec 64) (n : Nat) : List Item := List.replicate n ⟨id, emptyBytes id⟩

/-- The buffer with fields behind those that it has. -/
def extend (items : List Item) (b : Buffer) : Buffer :=
  { b with memory := b.memory ++ bytesOf items, index := b.index ++ indexFrom b.memory.length items }

theorem extend_nil (b : Buffer) : extend [] b = b := by
  unfold extend
  simp [indexFrom]

theorem extend_append (items items' : List Item) (b : Buffer) :
    extend (items ++ items') b = extend items' (extend items b) := by
  unfold extend
  dsimp only
  rw [bytesOf_append, indexFrom_append, List.append_assoc, List.append_assoc, List.length_append]
  push_cast
  rfl

theorem length_bytesOf_empties (id : BitVec 64) (n : Nat) : (bytesOf (empties id n)).length = n * emptySize id := by
  unfold empties
  induction n with
  | zero => simp
  | succ n ih =>
    rw [List.replicate_succ, bytesOf_cons, List.length_append, ih, Item.length_bytes, Nat.succ_mul, Nat.add_comm]
    rfl

theorem extend_length (items : List Item) (b : Buffer) :
    (extend items b).memory.length = b.memory.length + (bytesOf items).length := List.length_append ..

theorem count_eq_count (id : BitVec 64) (b : Buffer) : b.count id = (b.index.map Prod.fst).count id :=
  countP_eq id b.index

theorem count_extend (id : BitVec 64) (items : List Item) (b : Buffer) :
    (extend items b).count id = b.count id + (items.map Item.id).count id := by
  rw [count_eq_count, count_eq_count]
  unfold extend
  rw [List.map_append, map_fst_indexFrom, List.count_append]

theorem count_empties (id : BitVec 64) (n : Nat) : ((empties id n).map Item.id).count id = n := by
  unfold empties
  rw [List.map_replicate, List.count_replicate_self]

/-- There is an empty value for the type of a value. -/
theorem emptyBytes_of_type {id : BitVec 64} {value : Value} (htype : value.type = typeOf id) :
    ∃ empty : Value, Value.empty (typeOf id) = some empty ∧ empty.type = typeOf id ∧ emptyBytes id = empty.bytes := by
  unfold emptyBytes
  rw [← htype]
  cases value <;> exact ⟨_, rfl, rfl, rfl⟩

/-- An empty field is added when there is room. -/
theorem addEmpty_eq {id : BitVec 64} {value : Value} (htype : value.type = typeOf id) (b : Buffer) :
    addEmpty id b = if b.capacity < b.memory.length + emptySize id then .error .noSpace
      else .ok (extend (empties id 1) b) := by
  obtain ⟨empty, hempty, htype', hbytes⟩ := emptyBytes_of_type htype
  have hsize : b.utilized + dataOffset + empty.bytes.length = b.memory.length + emptySize id := by
    unfold emptySize Buffer.utilized
    rw [hbytes, Nat.add_assoc]
  unfold addEmpty
  rw [hempty]
  dsimp only
  unfold add Buffer.append
  rw [if_neg (not_not_intro htype'), hsize]
  by_cases hspace : b.capacity < b.memory.length + emptySize id
  · rw [if_pos hspace, if_pos hspace]
  · rw [if_neg hspace, if_neg hspace]
    unfold extend empties Buffer.utilized
    simp [indexFrom, Item.bytes, hbytes]

/-! ## Updates -/

/-- An occurrence is not there exactly when there are not as many of its id. -/
theorem findIndex_eq_none_iff (id : BitVec 64) : ∀ {occurrence : Int} {index : List (BitVec 64 × Int)}, 0 ≤ occurrence →
    (findIndex id occurrence index = none ↔ ((index.countP fun e => e.1 == id : Nat) : Int) ≤ occurrence)
  | occurrence, [], hpos => by simp [findIndex, hpos]
  | occurrence, (id', offset) :: index, hpos => by
    rw [findIndex, List.countP_cons]
    by_cases hid : id' = id
    · have hself : ((id', offset).1 == id) = true := beq_iff_eq.2 hid
      rw [if_pos hid, if_pos hself]
      by_cases hzero : occurrence = 0
      · rw [if_pos hzero]
        constructor
        · intro h
          cases h
        · intro h
          push_cast at h
          omega
      · rw [if_neg hzero, Option.map_eq_none_iff, findIndex_eq_none_iff id (by omega)]
        push_cast
        omega
    · have hother : ¬ ((id', offset).1 == id) = true := fun h => hid (beq_iff_eq.1 h)
      rw [if_neg hid, if_neg hother, Option.map_eq_none_iff, findIndex_eq_none_iff id hpos]
      push_cast
      omega

theorem find_eq_none_iff {id : BitVec 64} {occurrence : Int} {b : Buffer} (hpos : 0 ≤ occurrence) :
    b.find id occurrence = none ↔ (b.count id : Int) ≤ occurrence := by
  unfold Buffer.count
  rw [← findIndex_eq_none_iff id hpos]
  unfold Buffer.find
  cases hfind : findIndex id occurrence b.index with
  | none => simp
  | some n => simp [findIndex_lt id hfind]

/-- An update of what is not there. -/
theorem update_missing {id : BitVec 64} {occurrence : Int} {value : Value} {b : Buffer} (htype : value.type = typeOf id)
    (hpos : 0 ≤ occurrence) (hmissing : (b.count id : Int) ≤ occurrence) :
    update id occurrence value b = .error .noOccurrence := by
  have hfind := (find_eq_none_iff hpos).2 hmissing
  have hindex := (findIndex_eq_none_iff id hpos).2 hmissing
  have hplain : b.updatePlain id occurrence value.bytes = .ok none := by
    unfold Buffer.updatePlain
    rw [hfind]
  have hsized : b.updateSized id occurrence value.bytes = .ok none := by
    unfold Buffer.updateSized
    rw [hindex]
  unfold update
  rw [if_neg (not_not_intro htype), hplain, hsized, ite_self]
  simp [hfind]

/-- No update changes the ids. -/
theorem ids_update {id : BitVec 64} {occurrence : Int} {value : Value} {b b' : Buffer}
    (h : update id occurrence value b = .ok b') : b'.index.map Prod.fst = b.index.map Prod.fst := by
  obtain ⟨-, h⟩ := update_ok h
  split at h
  · unfold Buffer.updatePlain at h
    repeat' split at h
    all_goals cases h
    rfl
  · unfold Buffer.updateSized at h
    cases hn : findIndex id occurrence b.index with
    | none =>
      rw [hn] at h
      cases h
    | some n =>
      rw [hn] at h
      dsimp only at h
      repeat' split at h
      all_goals cases h
      have hmap : ∀ (value : Int) (index : List (BitVec 64 × Int)), (updateSecond value index).map Prod.fst = index.map Prod.fst := by
        intro value index
        unfold updateSecond
        rw [List.map_map]
        rfl
      dsimp only
      rw [List.map_append, hmap, ← List.map_append, List.take_append_drop]

/-- The last of the empty fields is given its value, when that fits. -/
theorem update_extend {id : BitVec 64} {occurrence : Int} {value : Value} {b : Buffer} (htype : value.type = typeOf id)
    (hcount : (b.count id : Int) = occurrence) (hroom : b.memory.length + emptySize id ≤ b.capacity) :
    update id occurrence value (extend (empties id 1) b) =
      if b.memory.length + dataOffset + value.bytes.length ≤ b.capacity then .ok (extend [⟨id, value.bytes⟩] b)
      else .error .noSpace := by
  have hindex : (extend (empties id 1) b).index = b.index ++ [(id, (b.memory.length : Int))] := rfl
  have hmemory : (extend (empties id 1) b).memory = b.memory ++ (Item.bytes ⟨id, emptyBytes id⟩ ++ []) := by
    unfold extend empties
    simp
  have hfound : findIndex id occurrence (extend (empties id 1) b).index = some b.index.length := by
    rw [hindex, ← hcount, count_eq_count]
    exact findIndex_count id _ [] b.index
  have hoffset : ((extend (empties id 1) b).index[b.index.length]?).map Prod.snd = some (b.memory.length : Int) := by
    rw [hindex]
    simp
  have hfind : (extend (empties id 1) b).find id occurrence = some (b.memory.length : Int) := by
    unfold Buffer.find
    rw [hfound, Option.bind_some, hoffset]
  have hat : Bytes.At (extend (empties id 1) b).memory b.memory.length (Item.bytes ⟨id, emptyBytes id⟩) := by
    rw [hmemory, ← List.append_assoc]
    exact Bytes.at_append _ _ _
  have hlimit := b.limit
  have hfits : Item.Fits ⟨id, emptyBytes id⟩ := by
    unfold Item.Fits
    unfold emptySize at hroom
    dsimp only
    omega
  have hsize := (decode_item hat).2
  have hcount' := hfits.toInt
  have hutilized : (extend (empties id 1) b).utilized = b.memory.length + (dataOffset + (emptyBytes id).length) := by
    show (extend (empties id 1) b).memory.length = _
    rw [hmemory, List.append_nil, List.length_append, Item.length_bytes]
  have hcapacity : (extend (empties id 1) b).capacity = b.capacity := rfl
  have hresult : ∀ {c : Buffer}, c.memory = b.memory ++ (Item.bytes ⟨id, value.bytes⟩ ++ []) →
      c.index = b.index ++ [(id, (b.memory.length : Int))] → c.capacity = b.capacity →
      c = extend [⟨id, value.bytes⟩] b := by
    rintro ⟨memory, capacity, index, limit⟩ rfl rfl rfl
    unfold extend
    simp [indexFrom]
  unfold update
  rw [if_neg (not_not_intro htype)]
  by_cases hplain : value.plain = true
  · -- it is as long as the empty one
    obtain ⟨empty, -, htype', hbytes⟩ := emptyBytes_of_type htype
    have hlength : value.bytes.length = (emptyBytes id).length := by
      rw [hbytes]
      exact Value.length_bytes_of_plain hplain (htype.trans htype'.symm)
    have hspace : b.memory.length + dataOffset + value.bytes.length ≤ b.capacity := by
      unfold emptySize at hroom
      omega
    rw [if_pos hplain, if_pos hspace]
    unfold Buffer.updatePlain
    rw [hfind]
    dsimp only
    rw [if_neg (by rw [hutilized]; push_cast; omega)]
    dsimp only
    refine congrArg Except.ok (hresult ?_ hindex rfl)
    dsimp only
    rw [hmemory]
    have hoverwrite := @overwrite_value b.memory [] ⟨id, emptyBytes id⟩ value.bytes hlength
    exact hoverwrite
  · rw [if_neg hplain]
    unfold Buffer.updateSized
    rw [hfound]
    dsimp only
    rw [hoffset]
    dsimp only
    rw [hsize]
    dsimp only
    have hsum : sizeType ((((b.memory.length + (dataOffset + (emptyBytes id).length) : Nat) : Int)) -
        (emptyBytes id).length + value.bytes.length) = b.memory.length + dataOffset + value.bytes.length := by
      rw [sizeType_eq (by push_cast; omega)]
      push_cast
      omega
    rw [hcount', hutilized, hsum]
    by_cases hspace : b.memory.length + dataOffset + value.bytes.length ≤ b.capacity
    · rw [if_pos hspace, if_neg (by rw [hcapacity]; omega), if_neg (by push_cast; omega)]
      dsimp only
      refine congrArg Except.ok (hresult ?_ ?_ rfl)
      · dsimp only
        rw [hmemory]
        exact resize b.memory [] ⟨id, emptyBytes id⟩ value.bytes
      · dsimp only
        rw [hindex, List.take_of_length_le (by simp), List.drop_of_length_le (by simp)]
        exact List.append_nil _
    · rw [if_neg hspace, if_pos (by rw [hcapacity]; omega)]
      dsimp only
      rw [hfind]
      rfl

/-! ## Changes -/

theorem left_untouched {b : Buffer} {r : Except Code Buffer} {failure : Failure} (h : (left b r).1 = some failure) :
    (left b r).2 = b := by
  cases r with
  | ok b' => cases h
  | error e => rfl

section

variable {id : BitVec 64} {occurrence : Int} {value : Value}

theorem updateValue_leaves (b : Buffer) :
    Leaves b (update id occurrence value b) (updateValue id occurrence (.value value) b) :=
  leaves_outcome (Statements.update_leaves value)

theorem addValue_leaves (b : Buffer) : Leaves b (add id value b) (addValue id (.value value) b) :=
  leaves_outcome (Statements.add_leaves value)

/-- A change ends as its update does, if that finds the occurrence. -/
theorem changeValue_updated {argument : Argument} {b : Buffer} (hpos : 0 ≤ occurrence)
    (hfound : (updateValue id occurrence argument b).1 ≠ some (.code .noOccurrence)) :
    changeValue id occurrence argument b = updateValue id occurrence argument b := by
  rw [changeValue, if_neg (by omega)]
  split
  · rename_i b' hupdate
    rw [hupdate] at hfound
    exact absurd rfl hfound
  · rfl

/-- A change of what is there is an update. -/
theorem changeValue_found {b : Buffer} (hpos : 0 ≤ occurrence) (hfound : occurrence < b.count id) :
    Leaves b (update id occurrence value b) (changeValue id occurrence (.value value) b) := by
  have hfind : (b.find id occurrence).isSome := by
    rw [Option.isSome_iff_ne_none, ne_eq, find_eq_none_iff hpos]
    omega
  have hne := @update_error id occurrence value b hfind
  have hleaves := @updateValue_leaves id occurrence value b
  rw [changeValue_updated hpos]
  · exact hleaves
  · intro hmissed
    rcases hleaves with hleft | ⟨-, hout⟩
    · rw [hleft] at hmissed
      cases hr : update id occurrence value b with
      | ok b' =>
        rw [hr] at hmissed
        cases hmissed
      | error e =>
        rw [hr] at hmissed
        cases hmissed
        exact hne hr
    · rw [hout] at hmissed
      cases hmissed

theorem changeValue_negative {argument : Argument} (hneg : occurrence < 0) (b : Buffer) :
    changeValue id occurrence argument b = addValue id argument b := by
  rw [changeValue, if_pos hneg]

/-- Nothing is changed to no value. -/
theorem changeValue_refused {argument : Argument} (hpos : 0 ≤ occurrence) (hnone : ∀ v, argument ≠ .value v) (b : Buffer) :
    changeValue id occurrence argument b = (some .invalidArgument, b) := by
  have hupdate : updateValue id occurrence argument b = (some .invalidArgument, b) := by
    cases argument with
    | value v => exact absurd rfl (hnone v)
    | negative => rfl
    | null count => rfl
  rw [changeValue_updated hpos (by rw [hupdate]; nofun), hupdate]

theorem updateValue_invalid (htype : value.type ≠ typeOf id) (b : Buffer) :
    updateValue id occurrence (.value value) b = left b (.error .invalidId) := by
  have hupdate : update id occurrence value b = .error .invalidId := if_pos htype
  have hleaves := @updateValue_leaves id occurrence value b
  rw [hupdate] at hleaves
  exact left_of_leaves hleaves nofun

theorem changeValue_invalid (hpos : 0 ≤ occurrence) (htype : value.type ≠ typeOf id) (b : Buffer) :
    changeValue id occurrence (.value value) b = left b (.error .invalidId) := by
  have hupdate := @updateValue_invalid id occurrence value htype b
  rw [changeValue_updated hpos (by rw [hupdate]; nofun), hupdate]

/-- A change of what is not there adds an empty field first, when there is room. -/
theorem changeValue_missing (htype : value.type = typeOf id) {b : Buffer} (hpos : 0 ≤ occurrence)
    (hmissing : (b.count id : Int) ≤ occurrence) : changeValue id occurrence (.value value) b =
      if b.capacity < b.memory.length + emptySize id then (some (.code .noSpace), b)
      else changeValue id occurrence (.value value) (extend (empties id 1) b) := by
  have hupdate : updateValue id occurrence (.value value) b = (some (.code .noOccurrence), b) := by
    have hleaves := @updateValue_leaves id occurrence value b
    rw [update_missing htype hpos hmissing] at hleaves
    exact left_of_leaves hleaves nofun
  have hempty : outcome (Statements.addEmpty id b) = left b (addEmpty id b) := by
    apply left_of_leaves (leaves_outcome Statements.addEmpty_leaves)
    rw [addEmpty_eq htype]
    split_ifs <;> nofun
  rw [addEmpty_eq htype] at hempty
  rw [changeValue, if_neg (by omega)]
  split
  · rename_i b' heq
    obtain rfl := congrArg Prod.snd (hupdate.symm.trans heq)
    by_cases hspace : b.capacity < b.memory.length + emptySize id
    · rw [if_pos hspace] at hempty ⊢
      split
      · rename_i b'' heq'
        cases hempty.symm.trans heq'
      · rename_i failure b'' heq'
        exact (heq'.symm.trans hempty : _)
    · rw [if_neg hspace] at hempty ⊢
      split
      · rename_i b'' heq'
        obtain rfl := congrArg Prod.snd (hempty.symm.trans heq')
        rfl
      · rename_i failure b'' heq'
        cases hempty.symm.trans heq'
  · rename_i hne
    exact absurd hupdate (hne _)

theorem empties_succ (n : Nat) : empties id (n + 1) = empties id 1 ++ empties id n := by
  unfold empties
  rw [← List.replicate_add, Nat.add_comm]

/-- One more empty field is there, and takes its room. -/
theorem extend_empty (b : Buffer) :
    (extend (empties id 1) b).memory.length = b.memory.length + emptySize id ∧
      (extend (empties id 1) b).capacity = b.capacity ∧ (extend (empties id 1) b).count id = b.count id + 1 := by
  refine ⟨?_, rfl, ?_⟩
  · rw [extend_length, length_bytesOf_empties, Nat.one_mul]
  · rw [count_extend, count_empties]

/-- The fields that are missing are added, until there is no room or all of them are there and the last one is updated.
The induction is on how many are missing before the last one. -/
theorem changeValue_cases (htype : value.type = typeOf id) : ∀ {n : Nat} {b : Buffer}, occurrence = b.count id + n →
    (∃ m ≤ n, b.capacity < b.memory.length + (m + 1) * emptySize id ∧
      changeValue id occurrence (.value value) b = (some (.code .noSpace), extend (empties id m) b)) ∨
    (b.memory.length + (n + 1) * emptySize id ≤ b.capacity ∧ Leaves (extend (empties id (n + 1)) b)
      (update id occurrence value (extend (empties id (n + 1)) b)) (changeValue id occurrence (.value value) b)) := by
  intro n
  induction n with
  | zero =>
    intro b hoccurrence
    have hchange := @changeValue_missing id occurrence value htype b (by omega) (by omega)
    by_cases hspace : b.capacity < b.memory.length + emptySize id
    · rw [if_pos hspace] at hchange
      exact .inl ⟨0, le_rfl, by omega, by rw [hchange]; exact congrArg _ (extend_nil b).symm⟩
    · rw [if_neg hspace] at hchange
      refine .inr ⟨by omega, ?_⟩
      obtain ⟨-, -, hcount⟩ := @extend_empty id b
      rw [hchange]
      refine changeValue_found (by omega) ?_
      show occurrence < ((extend (empties id 1) b).count id : Int)
      omega
  | succ n ih =>
    intro b hoccurrence
    have hchange := @changeValue_missing id occurrence value htype b (by omega) (by omega)
    by_cases hspace : b.capacity < b.memory.length + emptySize id
    · rw [if_pos hspace] at hchange
      exact .inl ⟨0, Nat.zero_le _, by omega, by rw [hchange]; exact congrArg _ (extend_nil b).symm⟩
    · rw [if_neg hspace] at hchange
      obtain ⟨hlength, hcapacity, hcount⟩ := @extend_empty id b
      have hextend : ∀ m, extend (empties id m) (extend (empties id 1) b) = extend (empties id (m + 1)) b := by
        intro m
        rw [@empties_succ id m, extend_append]
      rw [hchange]
      rcases @ih (extend (empties id 1) b) (by rw [hcount]; push_cast; omega) with ⟨m, hm, hfull, heq⟩ | ⟨hroom, heq⟩
      · refine .inl ⟨m + 1, Nat.succ_le_succ hm, ?_, ?_⟩
        · rw [hlength, hcapacity] at hfull
          rw [Nat.succ_mul]
          omega
        · rw [heq, hextend]
      · refine .inr ⟨?_, ?_⟩
        · rw [hlength, hcapacity] at hroom
          rw [Nat.succ_mul (n + 1)]
          omega
        · rw [← hextend]
          exact heq

/-- What a change leaves that has to add fields. -/
theorem changeValue_spec (htype : value.type = typeOf id) {n : Nat} {b : Buffer} (hoccurrence : occurrence = b.count id + n) :
    (b.memory.length + (n + 1) * emptySize id ≤ b.capacity ∧
      b.memory.length + n * emptySize id + dataOffset + value.bytes.length ≤ b.capacity ∧
      changeValue id occurrence (.value value) b = (none, extend (empties id n ++ [⟨id, value.bytes⟩]) b)) ∨
    (¬ (b.memory.length + (n + 1) * emptySize id ≤ b.capacity ∧
        b.memory.length + n * emptySize id + dataOffset + value.bytes.length ≤ b.capacity) ∧
      ∃ m, (m = 0 → b.capacity < b.memory.length + emptySize id) ∧
        changeValue id occurrence (.value value) b = (some (.code .noSpace), extend (empties id m) b)) := by
  rcases changeValue_cases htype hoccurrence with ⟨m, hm, hfull, heq⟩ | ⟨hroom, heq⟩
  · refine .inr ⟨?_, m, ?_, heq⟩
    · rintro ⟨hroom, -⟩
      have hle : (m + 1) * emptySize id ≤ (n + 1) * emptySize id := Nat.mul_le_mul_right _ (Nat.succ_le_succ hm)
      omega
    · rintro rfl
      omega
  · have hlast : extend (empties id (n + 1)) b = extend (empties id 1) (extend (empties id n) b) := by
      have hsplit : empties id (n + 1) = empties id n ++ empties id 1 := by
        unfold empties
        rw [← List.replicate_add]
      rw [hsplit, extend_append]
    have hlength : (extend (empties id n) b).memory.length = b.memory.length + n * emptySize id := by
      rw [extend_length, length_bytesOf_empties]
    have hcount : ((extend (empties id n) b).count id : Int) = occurrence := by
      rw [count_extend, count_empties, hoccurrence]
      push_cast
      rfl
    rw [Nat.succ_mul] at hroom
    have hupdate := @update_extend id occurrence value (extend (empties id n) b) htype hcount
      (by rw [hlength]; show _ ≤ b.capacity; omega)
    have hcapacity : (extend (empties id n) b).capacity = b.capacity := rfl
    rw [hlength, hcapacity, ← hlast] at hupdate
    by_cases hspace : b.memory.length + n * emptySize id + dataOffset + value.bytes.length ≤ b.capacity
    · rw [if_pos hspace] at hupdate
      rw [hupdate] at heq
      refine .inl ⟨by rw [Nat.succ_mul]; exact hroom, hspace, ?_⟩
      rw [left_of_leaves heq nofun, extend_append]
      rfl
    · rw [if_neg hspace] at hupdate
      rw [hupdate] at heq
      exact .inr ⟨fun h => hspace h.2, n + 1, nofun, left_of_leaves heq nofun⟩

/-- One of the empty fields is got. -/
theorem get_empty (htype : value.type = typeOf id) {b : Buffer} {n : Nat} {k : Nat} (hk : k < n)
    (hspace : b.memory.length + n * emptySize id ≤ b.capacity) (last : Item) :
    get (typeOf id) id (b.count id + k : Nat) (extend (empties id n ++ [last]) b) = .ok (emptyBytes id) := by
  have hsplit : empties id n ++ [last] = empties id k ++ ⟨id, emptyBytes id⟩ :: (empties id (n - k - 1) ++ [last]) := by
    have hn : n = k + (1 + (n - k - 1)) := by omega
    unfold empties
    conv_lhs => rw [hn, List.replicate_add, List.replicate_add]
    simp
  obtain ⟨empty, -, htype', hbytes⟩ := emptyBytes_of_type htype
  have hindex : (extend (empties id n ++ [last]) b).index = (extend (empties id k) b).index ++
      (id, ((extend (empties id k) b).memory.length : Int)) ::
        indexFrom ((extend (empties id k) b).memory.length + (dataOffset + (emptyBytes id).length))
          (empties id (n - k - 1) ++ [last]) := by
    rw [hsplit, extend_append]
    rfl
  have hfind : (extend (empties id n ++ [last]) b).find id (b.count id + k : Nat) =
      some ((extend (empties id k) b).memory.length : Int) := by
    have hcount : b.count id + k = ((extend (empties id k) b).index.map Prod.fst).count id := by
      rw [← count_eq_count, count_extend, count_empties]
    unfold Buffer.find
    rw [hindex, hcount, findIndex_count]
    simp
  have hat : Bytes.At (extend (empties id n ++ [last]) b).memory (extend (empties id k) b).memory.length
      (Item.bytes ⟨id, emptyBytes id⟩) := by
    rw [hsplit, extend_append]
    show Bytes.At ((extend (empties id k) b).memory ++ bytesOf (⟨id, emptyBytes id⟩ :: _)) _ _
    rw [bytesOf_cons, ← List.append_assoc]
    exact Bytes.at_append _ _ _
  have hfits : Item.Fits ⟨id, emptyBytes id⟩ := by
    have hlimit := b.limit
    have hle : 1 * emptySize id ≤ n * emptySize id := Nat.mul_le_mul_right _ (by omega)
    unfold emptySize at hle hspace
    unfold Item.Fits
    dsimp only
    omega
  exact get_of_at hfind hat rfl ⟨empty, htype', hbytes⟩ hfits

/-- A buffer with empty fields behind is another one. -/
theorem extend_ne {b : Buffer} {m : Nat} (h : extend (empties id m) b = b) : m = 0 := by
  have hlength : (extend (empties id m) b).memory.length = b.memory.length := by rw [h]
  rw [extend_length, length_bytesOf_empties] at hlength
  have hzero : m * emptySize id = 0 := by omega
  rcases Nat.mul_eq_zero.1 hzero with hm | hsize
  · exact hm
  · unfold emptySize dataOffset at hsize
    omega

/-- A change that starts to add fields and has not room for all of them leaves those it has added. -/
theorem whole_of_untouched (htype : value.type = typeOf id) {b : Buffer} {n : Nat} (hoccurrence : occurrence = b.count id + n)
    (h : (Request.change id occurrence (.value value)).Untouched b) :
    b.capacity < b.memory.length + emptySize id ∨
      (b.memory.length + (n + 1) * emptySize id ≤ b.capacity ∧
        b.memory.length + n * emptySize id + dataOffset + value.bytes.length ≤ b.capacity) := by
  rcases changeValue_spec htype hoccurrence with ⟨hroom, hspace, -⟩ | ⟨-, m, hzero, heq⟩
  · exact .inr ⟨hroom, hspace⟩
  · have hsame := h (.code .noSpace) (congrArg Prod.fst heq) nofun
    rw [Request.run, heq] at hsame
    exact .inl (hzero (extend_ne hsame))

end

/-! ## When nothing is touched -/

theorem untouched_of_leaves {b : Buffer} {r : Request} {result : Except Code Buffer} (h : Leaves b result (r.run b)) :
    r.Untouched b := by
  intro failure hfailure hinside
  rcases h with hleft | ⟨-, hout⟩
  · rw [hleft] at hfailure ⊢
    exact left_untouched hfailure
  · rw [hout] at hfailure
    exact absurd (Option.some.inj hfailure).symm hinside

theorem Request.Untouched.of_run {b : Buffer} {r r' : Request} (h' : r'.Untouched b) (h : r.run b = r'.run b) :
    r.Untouched b := by
  unfold Untouched
  rw [h]
  exact h'

/-- What is given no value reads from a null pointer, is refused, or adds nothing but an empty binary. -/
theorem untouched_add (id : BitVec 64) (argument : Argument) (b : Buffer) : (Request.add id argument).Untouched b := by
  cases argument with
  | value value => exact untouched_of_leaves (addValue_leaves b)
  | negative => exact fun _ _ _ => rfl
  | null count =>
    intro failure hfailure hinside
    unfold Request.run addValue at hfailure ⊢
    dsimp only at hfailure ⊢
    split at hfailure
    · rfl
    · split_ifs at hfailure ⊢ with hcount
      · exact @untouched_of_leaves b (.add id (.value (.binary []))) _ (addValue_leaves b) failure hfailure hinside
      · rfl
    · rfl

theorem untouched_update (id : BitVec 64) (occurrence : Int) (argument : Argument) (b : Buffer) :
    (Request.update id occurrence argument).Untouched b := by
  cases argument with
  | value value => exact untouched_of_leaves (updateValue_leaves b)
  | negative | null count => exact fun _ _ _ => rfl

/-- What does not add fields touches nothing. -/
theorem untouched_change {id : BitVec 64} {occurrence : Int} {argument : Argument} {b : Buffer}
    (h : ∀ v, argument = .value v → v.type = typeOf id → 0 ≤ occurrence → occurrence < b.count id) :
    (Request.change id occurrence argument).Untouched b := by
  by_cases hneg : occurrence < 0
  · exact (untouched_add id argument b).of_run (changeValue_negative hneg b)
  · cases argument with
    | value v =>
      by_cases htype : v.type = typeOf id
      · exact untouched_of_leaves (changeValue_found (by omega) (h v rfl htype (by omega)))
      · exact untouched_of_leaves (.inl (changeValue_invalid (by omega) htype b))
    | negative | null count =>
      intro failure _ _
      rw [Request.run, changeValue_refused (by omega) (fun _ => Argument.noConfusion)]

/-- A change that succeeds pads with empty fields up to its own. -/
theorem padded_change (b : Buffer) (id : BitVec 64) (occurrence : Int) (argument : Argument) :
    (Request.change id occurrence argument).Padded b := by
  intro hpos hsuccess
  cases argument with
  | negative | null count =>
    rw [changeValue_refused hpos (fun _ => Argument.noConfusion)] at hsuccess
    cases hsuccess
  | value v =>
    by_cases hfound : occurrence < b.count id
    · rcases changeValue_found hpos hfound with hleft | ⟨-, hout⟩
      swap
      · rw [hout] at hsuccess
        cases hsuccess
      rw [hleft] at hsuccess ⊢
      cases hupdate : update id occurrence v b with
      | error e =>
        rw [hupdate] at hsuccess
        cases hsuccess
      | ok b' =>
        have hcount : b'.count id = b.count id := by
          rw [count_eq_count, count_eq_count, ids_update hupdate]
        refine ⟨?_, ?_⟩
        · show (b'.count id : Int) = _
          rw [hcount]
          omega
        · intro j hle hlt
          omega
    · by_cases htype : v.type = typeOf id
      · obtain ⟨n, hn⟩ : ∃ n : Nat, occurrence = b.count id + n := ⟨(occurrence - b.count id).toNat, by omega⟩
        rcases changeValue_spec htype hn with ⟨hroom, hspace, heq⟩ | ⟨-, m, -, heq⟩
        · rw [heq]
          dsimp only
          refine ⟨?_, ?_⟩
          · have hone : List.count id [id] = 1 := by simp
            rw [count_extend, List.map_append, List.count_append, count_empties, List.map_singleton, hone]
            push_cast
            omega
          · intro j hle hlt
            obtain ⟨k, rfl⟩ := Nat.exists_eq_add_of_le hle
            have hle' : n * emptySize id ≤ (n + 1) * emptySize id := Nat.mul_le_mul_right _ (Nat.le_succ n)
            exact get_empty htype (by omega) (by omega) _
        · rw [heq] at hsuccess
          cases hsuccess
      · rw [changeValue_invalid hpos htype] at hsuccess
        cases hsuccess

/-- An operation that fails leaves the buffer as it was, and a change that succeeds pads with empty fields, exactly when
it is not a change that has room for some of what it adds and not for all. -/
theorem untouched_iff_whole (b : Buffer) (r : Request) : r.Untouched b ∧ r.Padded b ↔ r.Whole b := by
  constructor
  · rintro ⟨huntouched, -⟩
    cases r with
    | change id occurrence argument =>
      cases argument with
      | negative | null count => trivial
      | value value =>
        intro htype hpos hmissing
        obtain ⟨n, hn⟩ : ∃ n : Nat, occurrence = b.count id + n := ⟨(occurrence - b.count id).toNat, by omega⟩
        have hsucc : (occurrence + 1 - b.count id).toNat = n + 1 := by omega
        have hsame : (occurrence - b.count id).toNat = n := by omega
        rw [hsucc, hsame]
        exact whole_of_untouched htype hn huntouched
    | _ => trivial
  · intro h
    cases r with
    | add id argument => exact ⟨untouched_add id argument b, trivial⟩
    | update id occurrence argument => exact ⟨untouched_update id occurrence argument b, trivial⟩
    | remove id occurrence => exact ⟨untouched_of_leaves (leaves_outcome Statements.remove_leaves), trivial⟩
    | removeId id => exact ⟨untouched_of_leaves (leaves_outcome Statements.removeId_leaves), trivial⟩
    | copy source => exact ⟨untouched_of_leaves (leaves_outcome (Statements.copy_leaves source)), trivial⟩
    | copyMemory memory => exact ⟨untouched_of_leaves (leaves_outcome (Statements.copyMemory_leaves memory)), trivial⟩
    | change id occurrence argument =>
      refine ⟨?_, padded_change b id occurrence argument⟩
      by_cases hsimple : ∀ v, argument = .value v → v.type = typeOf id → 0 ≤ occurrence → occurrence < b.count id
      · exact untouched_change hsimple
      · push Not at hsimple
        obtain ⟨value, rfl, htype, hpos, hmissing⟩ := hsimple
        obtain ⟨n, hn⟩ : ∃ n : Nat, occurrence = b.count id + n := ⟨(occurrence - b.count id).toNat, by omega⟩
        have hsucc : (occurrence + 1 - b.count id).toNat = n + 1 := by omega
        have hsame : (occurrence - b.count id).toNat = n := by omega
        have hwhole := h htype hpos hmissing
        rw [hsucc, hsame] at hwhole
        intro failure hfailure _
        rcases changeValue_spec htype hn with ⟨-, -, heq⟩ | ⟨hnot, m, -, heq⟩
        · rw [Request.run, heq] at hfailure
          cases hfailure
        · -- there is not room for all, so there is none for the first
          have hfull := hwhole.resolve_right hnot
          have hchange := @changeValue_missing id occurrence value htype b hpos hmissing
          rw [if_pos hfull] at hchange
          rw [Request.run, hchange]

/-- Room for one empty `short`, and a change of the second one: the first one stays. -/
theorem padding_stays : ¬ (Request.change 0x2000001 1 (.value (.short 5))).Untouched (.allocate 24 (by decide)) := by
  intro h
  have hwhole := @whole_of_untouched 0x2000001 1 (.short 5) (by decide) (.allocate 24 (by decide)) 1 (by decide) h
  exact absurd hwhole (by decide)

end Casual.Field

/-
`common/transcode.cpp`, with `uuid.cpp` and the texts of transaction ids: bytes are written as
hexadecimal digits, and read back.
-/
import Casual.Common.Xid
import Casual.Lib.Decimal

namespace Casual.Common.Transcode

open Casual.Lib Casual.Common.Marshal

/-- A `std::string`: its `char`s have a sign. -/
abbrev Text := List Int8

namespace Hex

/-! ## Encoding -/

/-- The `hex` of `encode`, of an `int` that is passed as a `char`. -/
def encodeDigit (value : Int8) : Int32 := if value.toInt32 < 10 then value.toInt32 + 48 else value.toInt32 + 87

/-- The digit of the high half of a byte. -/
def encodeHigh (c : Int8) : Int8 := (encodeDigit ((0xf0 &&& c.toInt32) >>> 4).toInt8).toInt8

/-- The digit of the low half of a byte. -/
def encodeLow (c : Int8) : Int8 := (encodeDigit (0x0f &&& c.toInt32).toInt8).toInt8

/-- `encode`. -/
def encode : List Int8 → Text
  | [] => []
  | c :: rest => encodeHigh c :: encodeLow c :: encode rest

/-! ## Decoding -/

/-- The `hex` of `decode`. -/
def decodeDigit (value : Int8) : Int32 := if value.toInt32 ≥ 87 then value.toInt32 - 87 else value.toInt32 - 48

section

variable {β : Type} (ofInt : Int32 → β) (toInt : β → Int32)

/-- An element of the output: an `int` is assigned to it, and one is added. -/
def octet (high low : Int8) : β := ofInt (toInt (ofInt ((0x0F &&& decodeDigit high) <<< 4)) + (0x0F &&& decodeDigit low))

/-- `local::decode`, which asserts that the number of digits is even. -/
def decodeTo : Text → Option (List β)
  | [] => some []
  | [_] => none
  | high :: low :: rest => do
    let rest ← decodeTo rest
    return octet ofInt toInt high low :: rest

end

/-- `decode` to a `platform::binary_type`, whose elements are `char`s. -/
def decode (value : Text) : Option (List Int8) := decodeTo Int32.toInt8 Int8.toInt32 value

/-- `detail::decode`, to elements without a sign. -/
def decodeUnsigned (value : Text) : Option (List UInt8) :=
  decodeTo (fun i => i.toInt8.toUInt8) (fun b => b.toUInt32.toInt32) value

/-! ## Back and forth -/

/-- What holds of every `char`, of each of which there is a byte. -/
theorem forall_char {P : Int8 → Prop} (h : ∀ n : Fin 256, P (Int8.ofBitVec (BitVec.ofFin n))) (c : Int8) : P c :=
  h c.toBitVec.toFin

theorem octet_encode : ∀ c : Int8, octet Int32.toInt8 Int8.toInt32 (encodeHigh c) (encodeLow c) = c :=
  forall_char (by decide +kernel)

theorem octet_encode_unsigned :
    ∀ c : Int8, octet (fun i => i.toInt8.toUInt8) (fun b : UInt8 => b.toUInt32.toInt32) (encodeHigh c) (encodeLow c) = c.toUInt8 :=
  forall_char (by decide +kernel)

/-- When the digits of each byte are read, those of every sequence are. -/
theorem decodeTo_encode {β : Type} {ofInt : Int32 → β} {toInt : β → Int32} {f : Int8 → β}
    (h : ∀ c, octet ofInt toInt (encodeHigh c) (encodeLow c) = f c) :
    ∀ bytes, decodeTo ofInt toInt (encode bytes) = some (bytes.map f)
  | [] => rfl
  | c :: rest => by
    rw [encode, decodeTo, decodeTo_encode h rest, h c]
    rfl

theorem decode_encode (bytes : List Int8) : decode (encode bytes) = some bytes := by
  unfold decode
  rw [decodeTo_encode octet_encode, List.map_id']

theorem decodeUnsigned_encode (bytes : List Int8) : decodeUnsigned (encode bytes) = some (bytes.map Int8.toUInt8) :=
  decodeTo_encode octet_encode_unsigned bytes

/-- The hexadecimal digits in lower case. -/
def digits : Text := "0123456789abcdef".toList.map fun c => c.toUInt8.toInt8

theorem encode_octet : ∀ high ∈ digits, ∀ low ∈ digits,
    encodeHigh (octet Int32.toInt8 Int8.toInt32 high low) = high ∧ encodeLow (octet Int32.toInt8 Int8.toInt32 high low) = low := by
  decide +kernel

/-- Digits, two for each byte, are written again. -/
theorem encode_decode : ∀ {text : Text}, text.length % 2 = 0 → (∀ c ∈ text, c ∈ digits) →
    ∃ bytes, decode text = some bytes ∧ encode bytes = text
  | [], _, _ => ⟨[], rfl, rfl⟩
  | [_], h, _ => nomatch h
  | high :: low :: rest, h, hdigits => by
    have heven : rest.length % 2 = 0 := by
      simp only [List.length_cons] at h
      omega
    obtain ⟨bytes, hdecode, hencode⟩ := encode_decode heven fun c hc =>
      hdigits c (List.mem_cons_of_mem _ (List.mem_cons_of_mem _ hc))
    obtain ⟨hhigh, hlow⟩ := encode_octet high (hdigits high (by simp)) low (hdigits low (by simp))
    refine ⟨octet Int32.toInt8 Int8.toInt32 high low :: bytes, ?_, ?_⟩
    · unfold decode at hdecode ⊢
      rw [decodeTo, hdecode]
      rfl
    · rw [encode, hhigh, hlow, hencode]

theorem length_encode : ∀ bytes, (encode bytes).length = 2 * bytes.length
  | [] => rfl
  | c :: rest => by
    rw [encode, List.length_cons, List.length_cons, length_encode rest, List.length_cons]
    omega

theorem encodeDigits_mem : ∀ c : Int8, encodeHigh c ∈ digits ∧ encodeLow c ∈ digits :=
  forall_char (by decide +kernel)

theorem mem_digits_of_encode : ∀ {bytes : List Int8} {c : Int8}, c ∈ encode bytes → c ∈ digits
  | b :: rest, c, h => by
    rw [encode, List.mem_cons, List.mem_cons] at h
    rcases h with rfl | rfl | h
    · exact (encodeDigits_mem b).1
    · exact (encodeDigits_mem b).2
    · exact mem_digits_of_encode h

end Hex

/-! ## Uuids -/

/-- `Uuid`: a `uuid_t`. -/
abbrev Uuid := { l : List UInt8 // l.length = 16 }

/-- The bytes of an object, as `detail::encode` takes them. -/
def chars (bytes : List UInt8) : List Int8 := bytes.map UInt8.toInt8

/-- The bytes of a `char` array. -/
def unsigned (bytes : List Int8) : List UInt8 := bytes.map Int8.toUInt8

theorem unsigned_chars (bytes : List UInt8) : unsigned (chars bytes) = bytes := by
  unfold unsigned chars
  rw [List.map_map]
  exact List.map_id'' (fun b => UInt8.toUInt8_toInt8 b) bytes

/-- `uuid::string`. -/
def Uuid.string (uuid : Uuid) : Text := Hex.encode (chars uuid.val)

/-- `Uuid( const std::string&)`, which asserts how long the text is. -/
def Uuid.ofString (uuid : Text) : Option Uuid :=
  if uuid.length = 32 then
    match Hex.decodeUnsigned uuid with
    | some bytes => if h : bytes.length = 16 then some ⟨bytes, h⟩ else none
    | none => none
  else none

theorem Uuid.ofString_string (uuid : Uuid) : Uuid.ofString uuid.string = some uuid := by
  have hlen : uuid.string.length = 32 := by
    rw [Uuid.string, Hex.length_encode, chars, List.length_map, uuid.property]
  have hdecode : Hex.decodeUnsigned uuid.string = some uuid.val := by
    rw [Uuid.string, Hex.decodeUnsigned_encode, ← unsigned, unsigned_chars]
  unfold Uuid.ofString
  rw [if_pos hlen, hdecode]
  exact dif_pos uuid.property

/-! ## Transaction ids -/

/-- The sign `:`. -/
def colon : Int8 := ':'.toUInt8.toInt8

/-- An integer in a stream. -/
def number (i : Int) : Text := chars (Decimal.ofInt i)

/-- `operator <<` of an `XID`. -/
def xidText (xid : XID) : Text :=
  if xid.null then []
  else Hex.encode (chars xid.global) ++ colon :: (Hex.encode (chars xid.branch) ++ colon :: number xid.formatID.toInt)

/-- `operator <<` of a `transaction::ID`. -/
def idText (id : ID) : Text :=
  if id.xid.null then []
  else xidText id.xid ++ colon :: (number id.owner.1.toInt ++ colon :: number id.owner.2.toInt)

/-- `string::split`. -/
def split {α : Type} [DecidableEq α] (delimiter : α) : List α → List (List α)
  | [] => []
  | c :: line =>
    if c = delimiter then [] :: split delimiter line
    else
      match split delimiter line with
      | [] => [[c]]
      | part :: parts => (c :: part) :: parts

/-- An `XID` with these parts, as `casual_xid` makes one. -/
def xidOf (formatID : BitVec 64) (gtrid bqual : List UInt8) (h : gtrid.length + bqual.length ≤ 128) : XID where
  formatID := formatID
  gtridLength := BitVec.ofNat 64 gtrid.length
  bqualLength := BitVec.ofNat 64 bqual.length
  data := gtrid ++ bqual ++ List.replicate (128 - (gtrid.length + bqual.length)) 0
  size := by
    simp only [List.length_append, List.length_replicate]
    omega
  fits := .inr (by
    rw [BitVec.toNat_ofNat, BitVec.toNat_ofNat]
    omega)

/-- A number that `std::stol` reads. -/
def readNumber (part : Text) : Option Int := Decimal.scan (unsigned part)

/-- The id of which this is the text: its parts are read as each was written. -/
def idOf (text : Text) : Option ID :=
  match split colon text with
  | [] => some ID.empty
  | [gtrid, bqual, formatID, pid, queue] => do
    let gtrid ← Hex.decodeUnsigned gtrid
    let bqual ← Hex.decodeUnsigned bqual
    let formatID ← readNumber formatID
    let pid ← readNumber pid
    let queue ← readNumber queue
    if h : gtrid.length + bqual.length ≤ 128 then
      some ⟨xidOf (BitVec.ofInt 64 formatID) gtrid bqual h, BitVec.ofInt 32 pid, BitVec.ofInt 32 queue⟩
    else none
  | _ => none

/-! ### The parts of a text -/

theorem split_append {α : Type} [DecidableEq α] {delimiter : α} (rest : List α) :
    ∀ {part : List α}, delimiter ∉ part → split delimiter (part ++ delimiter :: rest) = part :: split delimiter rest
  | [], _ => by rw [List.nil_append, split, if_pos rfl]
  | c :: part, h => by
    rw [List.mem_cons, not_or] at h
    rw [List.cons_append, split, if_neg (Ne.symm h.1), split_append rest h.2]

theorem split_self {α : Type} [DecidableEq α] {delimiter : α} :
    ∀ {part : List α}, part ≠ [] → delimiter ∉ part → split delimiter part = [part]
  | [c], _, h => by
    rw [List.mem_singleton] at h
    rw [split, if_neg (Ne.symm h)]
    rfl
  | c :: d :: part, _, h => by
    rw [List.mem_cons, not_or] at h
    rw [split, if_neg (Ne.symm h.1), split_self (List.cons_ne_nil d part) h.2]

theorem colon_notMem_encode (bytes : List Int8) : colon ∉ Hex.encode bytes := fun h =>
  absurd (Hex.mem_digits_of_encode h) (by decide)

theorem colon_notMem_number (i : Int) : colon ∉ number i := by
  have hdigits : ∀ n, ':'.toUInt8 ∉ Decimal.ofNat n := fun n h => absurd (Decimal.isDigit_ofNat n _ h) (by decide)
  intro h
  obtain ⟨c, hc, hcolon⟩ := List.mem_map.1 h
  obtain rfl : c = ':'.toUInt8 := by
    have := congrArg Int8.toUInt8 hcolon
    simpa [colon] using this
  unfold Decimal.ofInt at hc
  split_ifs at hc
  · exact (List.mem_cons.1 hc).elim (by decide) (hdigits _)
  · exact hdigits _ hc

theorem number_ne_nil (i : Int) : number i ≠ [] := by
  unfold number chars Decimal.ofInt
  split_ifs
  · exact List.cons_ne_nil _ _
  · simpa using Decimal.ofNat_ne_nil i.natAbs

theorem readNumber_number (i : Int) : readNumber (number i) = some i := by
  rw [readNumber, number, unsigned_chars, Decimal.scan_ofInt]

theorem split_idText {id : ID} (h : id.xid.null = false) :
    split colon (idText id) = [Hex.encode (chars id.xid.global), Hex.encode (chars id.xid.branch),
      number id.xid.formatID.toInt, number id.owner.1.toInt, number id.owner.2.toInt] := by
  unfold idText xidText
  simp only [h, Bool.false_eq_true, if_false, List.append_assoc, List.cons_append]
  rw [split_append _ (colon_notMem_encode _), split_append _ (colon_notMem_encode _),
    split_append _ (colon_notMem_number _), split_append _ (colon_notMem_number _),
    split_self (number_ne_nil _) (colon_notMem_number _)]

theorem decodeUnsigned_chars (bytes : List UInt8) : Hex.decodeUnsigned (Hex.encode (chars bytes)) = some bytes := by
  rw [Hex.decodeUnsigned_encode, ← unsigned, unsigned_chars]

/-! ### Ids are read back -/

theorem xidOf_sameBranch {x : XID} (h : x.global.length + x.branch.length ≤ 128) :
    XID.SameBranch (xidOf x.formatID x.global x.branch h) x := by
  have hgtrid : (xidOf x.formatID x.global x.branch h).gtridLength.toNat = x.global.length :=
    (BitVec.toNat_ofNat _ _).trans (Nat.mod_eq_of_lt (by omega))
  have hbqual : (xidOf x.formatID x.global x.branch h).bqualLength.toNat = x.branch.length :=
    (BitVec.toNat_ofNat _ _).trans (Nat.mod_eq_of_lt (by omega))
  have hdata : (xidOf x.formatID x.global x.branch h).data =
      x.global ++ (x.branch ++ List.replicate (128 - (x.global.length + x.branch.length)) 0) := List.append_assoc _ _ _
  refine ⟨rfl, .inr ⟨?_, ?_⟩⟩
  · rw [XID.global, hgtrid, hdata, List.take_left]
  · rw [XID.branch, hgtrid, hbqual, hdata, List.drop_left, List.take_left]

/-- The id that is read of the text of an id is equal to it. -/
theorem idOf_idText (id : ID) : ∃ i, idOf (idText id) = some i ∧ ID.Same i id := by
  cases hnull : id.xid.null with
  | true =>
    have htext : idText id = [] := by
      unfold idText
      rw [if_pos hnull]
    have hformat : id.xid.formatID = -1 := by simpa [XID.null] using hnull
    refine ⟨ID.empty, by rw [htext]; rfl, ?_, fun h => absurd h (by decide)⟩
    rw [XID.eq_iff_equal, XID.equal_iff_sameBranch]
    exact ⟨hformat.symm, .inl rfl⟩
  | false =>
    have hformat : id.xid.formatID ≠ -1 := by simpa [XID.null] using hnull
    have hlen : id.xid.global.length + id.xid.branch.length ≤ 128 := by
      rw [XID.length_global hformat, XID.length_branch hformat]
      exact XID.length_le hformat
    refine ⟨⟨xidOf id.xid.formatID id.xid.global id.xid.branch hlen, id.owner⟩, ?_, ?_, fun _ => rfl⟩
    · unfold idOf
      rw [split_idText hnull]
      simp only [decodeUnsigned_chars, readNumber_number, Option.bind_eq_bind, Option.bind_some, BitVec.ofInt_toInt]
      exact dif_pos hlen
    · rw [XID.eq_iff_equal, XID.equal_iff_sameBranch]
      exact xidOf_sameBranch hlen

/-- What was encoded is decoded, and the other way round; uuids and ids are read back from their texts. -/
theorem transcodes :
    (∀ bytes, Hex.decode (Hex.encode bytes) = some bytes) ∧
    (∀ text : Text, text.length % 2 = 0 → (∀ c ∈ text, c ∈ Hex.digits) →
      ∃ bytes, Hex.decode text = some bytes ∧ Hex.encode bytes = text) ∧
    (∀ uuid : Uuid, Uuid.ofString uuid.string = some uuid) ∧
    ∀ id, ∃ i, idOf (idText id) = some i ∧ ID.Same i id :=
  ⟨Hex.decode_encode, fun _ => Hex.encode_decode, Uuid.ofString_string, idOf_idText⟩

end Casual.Common.Transcode

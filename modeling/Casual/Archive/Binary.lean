/-
`sf/archive/binary.h` and `buffer::binary::Stream`: a value is written to a buffer that doubles while it is
too small, and is read from where it was written.
-/
import Casual.Archive.Archive
import Casual.Lib.Bytes

namespace Casual.Archive.Binary

open Casual.Lib

/-! ## The buffer -/

/-- `tprealloc`. What was in the buffer stays; what else is in it then can be anything. -/
structure Reallocation where
  reallocate : List UInt8 → Nat → List UInt8
  length : ∀ content size, (reallocate content size).length = size
  keeps : ∀ {content : List UInt8} {size : Nat}, content.length ≤ size → content <+: reallocate content size

/-- `buffer::binary::Stream`. -/
structure Stream where
  content : List UInt8
  writeOffset : Nat
  readOffset : Nat

/-- What a binary reader or writer does to its stream. -/
abbrev M := EStateM Failure Stream

namespace Stream

/-- What was written. -/
def written (s : Stream) : List UInt8 := s.content.take s.writeOffset

/-- `memory::copy` to the offset of what is written next. -/
def put (source : List UInt8) (s : Stream) : Stream where
  content := s.written ++ source ++ s.content.drop (s.writeOffset + source.length)
  writeOffset := s.writeOffset + source.length
  readOffset := s.readOffset

end Stream

section Writing

variable (m : Reallocation)

/-- `Buffer::resize`. -/
def resize (size : Nat) : M Unit := modify fun s => { s with content := m.reallocate s.content size }

/-- The loop of `append`. -/
def grow (size : Nat) : Nat → M Unit
  | 0 => throw .unfinished
  | turns + 1 => do
    let s ← get
    if s.content.length < s.writeOffset + size then
      resize m (s.content.length * 2)
      grow size turns

variable (turns : Nat)

/-- `binary::Stream::append`. -/
def append (source : List UInt8) : M Unit := do
  grow m source.length turns
  modify (Stream.put source)

/-- `write` of a value of `n` bytes, in the order of `network::byteorder::encode`. -/
def writeEncoded (n value : Nat) : M Unit := append m turns (Bytes.ofNatBE n value)

/-- `write` of a string or a binary: the size, and what is in it. -/
def writeSized (value : List UInt8) : M Unit := do
  writeEncoded m turns 8 value.length
  append m turns value

/-- `Stream::write`. -/
def write : (p : Pod) → p.Value → M Unit
  | .bool, value => writeEncoded m turns 1 value.toNat
  | .char, value => writeEncoded m turns 1 value.toNat
  | .short, value => writeEncoded m turns 2 value.toNat
  | .long, value => writeEncoded m turns 8 value.toNat
  | .longlong, value => writeEncoded m turns 8 value.toNat
  | .float, value => writeEncoded m turns 4 value.toNat
  | .double, value => writeEncoded m turns 8 value.toNat
  | .string, value => writeSized m turns value
  | .binary, value => writeSized m turns value

/-- `implementation::Writer`. -/
def writer.implementation : writer.Implementation Stream where
  containerStart size _ := do
    writeEncoded m turns 8 size
    pure size
  containerEnd _ := pure ()
  serialtypeStart _ := pure ()
  serialtypeEnd _ := pure ()
  write p value _ := write m turns p value

end Writing

/-- `binary::Stream::consume`. -/
def consume (size : Nat) : M (List UInt8) := do
  let s ← get
  if s.content.length < s.readOffset + size then
    throw (.validation s.readOffset s.content.length)
  set { s with readOffset := s.readOffset + size }
  pure ((s.content.drop s.readOffset).take size)

/-- `read` of a value of `n` bytes. -/
def readEncoded (n : Nat) : M Nat := do
  let encoded ← consume n
  pure (Bytes.toNatBE encoded)

/-- The bytes behind a size. -/
def readSized : M (List UInt8) := do
  let size ← readEncoded 8
  consume size

/-- `Stream::read`. -/
def read : (p : Pod) → M p.Value
  | .bool => return (← readEncoded 1) != 0
  | .char => return UInt8.ofNat (← readEncoded 1)
  | .short => return BitVec.ofNat 16 (← readEncoded 2)
  | .long => return BitVec.ofNat 64 (← readEncoded 8)
  | .longlong => return BitVec.ofNat 64 (← readEncoded 8)
  | .float => return BitVec.ofNat 32 (← readEncoded 4)
  | .double => return BitVec.ofNat 64 (← readEncoded 8)
  | .string => readSized
  | .binary => readSized

/-- `implementation::Reader`. -/
def reader.implementation : reader.Implementation Stream where
  containerStart _ _ := return (← readEncoded 8, true)
  containerEnd _ := pure ()
  serialtypeStart _ := pure true
  serialtypeEnd _ := pure ()
  read p _ _ := return (← read p, true)

/-- `binary::Reader`. -/
def relaxedReader (indeterminate : BitVec 64) : Reader Stream := ⟨reader.implementation, .relaxed, indeterminate⟩

/-! ## The bytes of a value -/

/-- The bytes that are written for a plain value. -/
def podBytes : (p : Pod) → p.Value → List UInt8
  | .bool, value => Bytes.ofNatBE 1 value.toNat
  | .char, value => Bytes.ofNatBE 1 value.toNat
  | .short, value => Bytes.ofNatBE 2 value.toNat
  | .long, value => Bytes.ofNatBE 8 value.toNat
  | .longlong, value => Bytes.ofNatBE 8 value.toNat
  | .float, value => Bytes.ofNatBE 4 value.toNat
  | .double, value => Bytes.ofNatBE 8 value.toNat
  | .string, value => Bytes.ofNatBE 8 value.length ++ value
  | .binary, value => Bytes.ofNatBE 8 value.length ++ value

/-- The bytes of a kind, which is written as the plain value that it is widened to. -/
def kindBytes : (k : Kind) → k.Value → List UInt8
  | .pod p, value => podBytes p value
  | .int, value => podBytes .long (value.signExtend 64)
  | .ulong, value => podBytes .long value

section

variable (stl : Containers)

mutual

/-- The bytes that are written for a value. -/
def bytes : (t : Ty) → t.Value → List UInt8
  | .kind k, value => kindBytes k value
  | .enum k, value => kindBytes k value
  | .composite members, value => memberBytes members value
  | .tuple elements, value => Bytes.ofNatBE 8 elements.length ++ elementBytes elements value
  | .sequence element, value => Bytes.ofNatBE 8 value.length ++ value.flatMap fun v => bytes element v
  | .associative container element, value =>
    Bytes.ofNatBE 8 value.length ++ ((stl container element).iterate value).flatMap fun v => bytes element v

/-- The bytes of the members, one behind the other. -/
def memberBytes : (members : Members) → members.Value → List UInt8
  | .nil, _ => []
  | .cons _ member members, value => bytes member value.1 ++ memberBytes members value.2

/-- The bytes of the elements, one behind the other. -/
def elementBytes : (elements : Elements) → elements.Value → List UInt8
  | .nil, _ => []
  | .cons element elements, value => bytes element value.1 ++ elementBytes elements value.2

end

end

/-! ## Writing -/

/-- The bytes are appended to what was written, in a buffer that has been doubled if need be. -/
structure Appended (bytes : List UInt8) (s t : Stream) : Prop where
  written : t.written = s.written ++ bytes
  writeOffset : t.writeOffset = s.writeOffset + bytes.length
  readOffset : t.readOffset = s.readOffset
  doubled : ∃ n, t.content.length = s.content.length * 2 ^ n

/-- What was written is in the buffer, which is not empty. -/
structure Ready (s : Stream) : Prop where
  size : 0 < s.content.length
  writeOffset : s.writeOffset ≤ s.content.length

theorem Appended.refl (s : Stream) : Appended [] s s := ⟨(List.append_nil _).symm, rfl, rfl, 0, by simp⟩

theorem Appended.trans {a b : List UInt8} {s t u : Stream} (h : Appended a s t) (h' : Appended b t u) : Appended (a ++ b) s u := by
  obtain ⟨n, hn⟩ := h.doubled
  obtain ⟨n', hn'⟩ := h'.doubled
  refine ⟨?_, ?_, h'.readOffset.trans h.readOffset, n + n', ?_⟩
  · rw [h'.written, h.written, List.append_assoc]
  · rw [h'.writeOffset, h.writeOffset, List.length_append, Nat.add_assoc]
  · rw [hn', hn, Nat.pow_add, Nat.mul_assoc]

section

variable {m : Reallocation} {turns : Nat}

/-- In enough turns the buffer is not too small. -/
theorem grow_spec (size : Nat) : ∀ (turns : Nat) (s : Stream), 0 < s.content.length →
    s.writeOffset + size - s.content.length < turns →
    ∃ content : List UInt8, grow m size turns s = .ok () { s with content := content } ∧ s.content <+: content ∧
      s.writeOffset + size ≤ content.length ∧ ∃ n, content.length = s.content.length * 2 ^ n := by
  intro turns
  induction turns with
  | zero => intro s _ hturns; omega
  | succ turns ih =>
    intro s hsize hturns
    have hget : (get : M Stream) s = .ok s s := rfl
    unfold grow
    rw [bind_ok hget]
    by_cases hsmall : s.content.length < s.writeOffset + size
    · -- twice the size is at least one byte more
      have hlength : (m.reallocate s.content (s.content.length * 2)).length = s.content.length * 2 := m.length _ _
      have hresize : resize m (s.content.length * 2) s =
        .ok () { s with content := m.reallocate s.content (s.content.length * 2) } := rfl
      obtain ⟨content, hgrow, hkept, henough, n, hn⟩ := ih { s with content := m.reallocate s.content (s.content.length * 2) }
        (by rw [hlength]; omega) (by rw [hlength]; dsimp only; omega)
      rw [if_pos hsmall, bind_ok hresize]
      refine ⟨content, hgrow, (m.keeps (by omega)).trans hkept, henough, n + 1, ?_⟩
      rw [hn, hlength, Nat.pow_succ']
      exact Nat.mul_assoc ..
    · rw [if_neg hsmall]
      exact ⟨s.content, rfl, List.prefix_rfl, by omega, 0, by simp⟩

/-- A program that appends bytes, when it has the turns for it. -/
def Writes (turns : Nat) {α : Type} (x : M α) (bytes : List UInt8) : Prop :=
  ∀ s, Ready s → s.writeOffset + bytes.length < turns → ∃ a t, x s = .ok a t ∧ Appended bytes s t ∧ Ready t

variable {α β : Type}

theorem Writes.pure (a : α) : Writes turns (pure a) [] := fun s hs _ => ⟨a, s, rfl, .refl s, hs⟩

theorem Writes.bind {x : M α} {f : α → M β} {a b : List UInt8} (hx : Writes turns x a) (hf : ∀ v, Writes turns (f v) b) :
    Writes turns (x >>= f) (a ++ b) := by
  intro s hs hturns
  rw [List.length_append] at hturns
  obtain ⟨v, t, ht, hst, hready⟩ := hx s hs (by omega)
  obtain ⟨w, u, hu, htu, hready'⟩ := hf v t hready (by rw [hst.writeOffset]; omega)
  exact ⟨w, u, (bind_ok ht).trans hu, hst.trans htu, hready'⟩

/-- What is done last writes nothing. -/
theorem Writes.after {x : M α} {f : α → M β} {a : List UInt8} (hx : Writes turns x a) (hf : ∀ v, Writes turns (f v) []) :
    Writes turns (x >>= f) a := by
  have h := hx.bind hf
  rwa [List.append_nil] at h

theorem Writes.forM {values : List α} {f : α → M PUnit} {g : α → List UInt8} (h : ∀ v ∈ values, Writes turns (f v) (g v)) :
    Writes turns (values.forM f) (values.flatMap g) := by
  induction values with
  | nil => exact .pure _
  | cons v values ih =>
    rw [List.flatMap_cons]
    exact .bind (h v List.mem_cons_self) fun _ => ih fun w hw => h w (List.mem_cons_of_mem _ hw)

theorem writes_append (source : List UInt8) : Writes turns (append m turns source) source := by
  intro s hs hturns
  obtain ⟨content, hgrow, hkept, henough, n, hn⟩ := @grow_spec m source.length turns s hs.size (by omega)
  have hwritten : content.take s.writeOffset = s.written := by
    obtain ⟨rest, rfl⟩ := hkept
    rw [List.take_append_of_le_length hs.writeOffset, Stream.written]
  have hlength : (content.take s.writeOffset).length = s.writeOffset := by
    rw [List.length_take]
    omega
  have hput : (modify (Stream.put source) : M Unit) { s with content := content } = .ok () (Stream.put source { s with content := content }) := rfl
  have hsize : (Stream.put source { s with content := content }).content.length = content.length := by
    simp only [Stream.put, Stream.written, List.length_append, List.length_drop, hlength]
    omega
  refine ⟨(), _, (bind_ok hgrow).trans hput, ⟨?_, rfl, rfl, n, hsize.trans hn⟩, ?_, ?_⟩
  · have htake : (content.take s.writeOffset ++ source).length = s.writeOffset + source.length := by
      rw [List.length_append, hlength]
    show (content.take s.writeOffset ++ source ++ content.drop (s.writeOffset + source.length)).take (s.writeOffset + source.length) = _
    rw [List.take_left' htake, hwritten]
  · rw [hsize, hn]
    exact Nat.mul_pos hs.size (Nat.two_pow_pos n)
  · rw [hsize]
    exact henough

theorem writes_sized (value : List UInt8) : Writes turns (writeSized m turns value) (Bytes.ofNatBE 8 value.length ++ value) :=
  .bind (writes_append _) fun _ => writes_append value

theorem writes_pod : ∀ (p : Pod) (value : p.Value), Writes turns (write m turns p value) (podBytes p value)
  | .bool, _ | .char, _ | .short, _ | .long, _ | .longlong, _ | .float, _ | .double, _ => writes_append _
  | .string, value | .binary, value => writes_sized value

theorem writes_kind (name : Option Name) : ∀ (k : Kind) (value : k.Value),
    Writes turns ((writer.implementation m turns).writeKind k value name) (kindBytes k value)
  | .pod p, value => writes_pod p value
  | .int, _ => writes_pod .long _
  | .ulong, _ => writes_pod .long _

theorem writes_containerStart (size : Nat) (name : Option Name) :
    Writes turns ((writer.implementation m turns).containerStart size name) (Bytes.ofNatBE 8 size) :=
  .after (writes_append _) fun _ => .pure _

variable {stl : Containers}

mutual

/-- The bytes of a value are written, whatever its name is. -/
theorem writes_serialize : ∀ (t : Ty) (value : t.Value) (name : Option Name),
    Writes turns ((writer.implementation m turns).serialize stl t value name) (bytes stl t value)
  | .kind k, value, name => writes_kind name k value
  | .enum k, value, name => writes_kind name k value
  | .composite members, value, name => by
    simp only [writer.Implementation.serialize, bytes]
    exact .bind (.pure ()) fun _ => .after (writes_serializeMembers members value) fun _ => .pure ()
  | .tuple elements, value, name => by
    simp only [writer.Implementation.serialize, bytes]
    exact .bind (writes_containerStart _ name) fun _ => .after (writes_serializeElements elements value) fun _ => .pure ()
  | .sequence element, value, name => by
    simp only [writer.Implementation.serialize, bytes]
    exact .bind (writes_containerStart _ name) fun _ =>
      .after (.forM fun v _ => writes_serialize element v none) fun _ => .pure ()
  | .associative container element, value, name => by
    simp only [writer.Implementation.serialize, bytes]
    exact .bind (writes_containerStart _ name) fun _ =>
      .after (.forM fun v _ => writes_serialize element v none) fun _ => .pure ()

theorem writes_serializeMembers : ∀ (members : Members) (value : members.Value),
    Writes turns ((writer.implementation m turns).serializeMembers stl members value) (memberBytes stl members value)
  | .nil, _ => .pure ()
  | .cons name member members, value => by
    simp only [writer.Implementation.serializeMembers, memberBytes]
    exact .bind (writes_serialize member value.1 _) fun _ => writes_serializeMembers members value.2

theorem writes_serializeElements : ∀ (elements : Elements) (value : elements.Value),
    Writes turns ((writer.implementation m turns).serializeElements stl elements value) (elementBytes stl elements value)
  | .nil, _ => .pure ()
  | .cons element elements, value => by
    simp only [writer.Implementation.serializeElements, elementBytes]
    exact .bind (writes_serialize element value.1 _) fun _ => writes_serializeElements elements value.2

end

end

/-! ## Reading what was written -/

/-- `size()` of what is in the value is a `std::size_t`. -/
def Kind.Sized : (k : Kind) → k.Value → Prop
  | .pod .string, value => value.length < 2 ^ 64
  | .pod .binary, value => value.length < 2 ^ 64
  | _, _ => True

mutual

/-- The sizes in a value fit in what they are written in. -/
def Ty.Sized : (t : Ty) → t.Value → Prop
  | .kind k, value => Kind.Sized k value
  | .enum k, value => Kind.Sized k value
  | .composite members, value => Members.Sized members value
  | .tuple elements, value => elements.length < 2 ^ 64 ∧ Elements.Sized elements value
  | .sequence element, value => value.length < 2 ^ 64 ∧ ∀ v ∈ value, Ty.Sized element v
  | .associative _ element, value => value.length < 2 ^ 64 ∧ ∀ v ∈ value, Ty.Sized element v

/-- The sizes in the members fit. -/
def Members.Sized : (members : Members) → members.Value → Prop
  | .nil, _ => True
  | .cons _ member members, value => Ty.Sized member value.1 ∧ Members.Sized members value.2

/-- The sizes in the elements fit. -/
def Elements.Sized : (elements : Elements) → elements.Value → Prop
  | .nil, _ => True
  | .cons element elements, value => Ty.Sized element value.1 ∧ Elements.Sized elements value.2

end

section

/-- A program that reads a value where these bytes are. -/
def Reads {α : Type} (x : M α) (bytes : List UInt8) (a : α) : Prop :=
  ∀ s : Stream, Bytes.At s.content s.readOffset bytes → x s = .ok a { s with readOffset := s.readOffset + bytes.length }

variable {α β : Type}

theorem Reads.pure (a : α) : Reads (pure a) [] a := fun _ _ => rfl

theorem Reads.bind {x : M α} {f : α → M β} {a b : List UInt8} {v : α} {w : β} (hx : Reads x a v) (hf : Reads (f v) b w) :
    Reads (x >>= f) (a ++ b) w := by
  intro s hs
  rw [bind_ok (hx s hs.left), hf { s with readOffset := s.readOffset + a.length } hs.right, List.length_append, Nat.add_assoc]

/-- What is done last reads nothing. -/
theorem Reads.after {x : M α} {f : α → M β} {a : List UInt8} {v : α} {w : β} (hx : Reads x a v) (hf : Reads (f v) [] w) :
    Reads (x >>= f) a w := by
  have h := hx.bind hf
  rwa [List.append_nil] at h

theorem Reads.mapM {init : α} {read : α → M α} {g : α → List UInt8} : ∀ {values : List α},
    (∀ v ∈ values, Reads (read init) (g v) v) → Reads ((List.replicate values.length init).mapM read) (values.flatMap g) values
  | [], _ => .pure []
  | v :: values, h => by
    rw [List.length_cons, List.replicate_succ, List.mapM_cons, List.flatMap_cons]
    have hrest := Reads.mapM fun w hw => h w (List.mem_cons_of_mem v hw)
    exact .bind (h v List.mem_cons_self) (.after hrest (.pure _))

theorem Reads.insertEach (c : Container α) (read : M α) (g : α → List UInt8) : ∀ {values : List α} (content : List α),
    (∀ v ∈ values, Reads read (g v) v) →
    Reads (Reader.insertEach c read values.length content) (values.flatMap g) (values.foldl c.insert content)
  | [], content, _ => .pure content
  | v :: values, content, h => by
    rw [List.length_cons, Reader.insertEach, List.flatMap_cons, List.foldl_cons]
    have hrest := Reads.insertEach c read g (c.insert content v) fun w hw => h w (List.mem_cons_of_mem v hw)
    exact .bind (h v List.mem_cons_self) hrest

theorem reads_consume (part : List UInt8) : Reads (consume part.length) part part := by
  intro s hs
  have hslice := hs.slice
  have hget : (get : M Stream) s = .ok s s := rfl
  unfold Bytes.slice at hslice
  split_ifs at hslice with hsize
  unfold consume
  rw [bind_ok hget, if_neg (by omega)]
  exact congrArg (fun part' => EStateM.Result.ok part' { s with readOffset := s.readOffset + part.length }) (Option.some.inj hslice)

theorem reads_encoded {n value : Nat} (h : value < 256 ^ n) : Reads (readEncoded n) (Bytes.ofNatBE n value) value := by
  have hconsume := reads_consume (Bytes.ofNatBE n value)
  rw [Bytes.length_ofNatBE] at hconsume
  refine .after hconsume ?_
  rw [Bytes.toNatBE_ofNatBE_of_lt h]
  exact .pure value

theorem reads_sized {value : List UInt8} (h : value.length < 2 ^ 64) :
    Reads readSized (Bytes.ofNatBE 8 value.length ++ value) value :=
  .bind (reads_encoded (by omega)) (reads_consume value)

theorem reads_bits {w n : Nat} (hw : 2 ^ w = 256 ^ n) (value : BitVec w) :
    Reads (do return BitVec.ofNat w (← readEncoded n)) (Bytes.ofNatBE n value.toNat) value := by
  refine .after (reads_encoded (hw ▸ value.isLt)) ?_
  rw [BitVec.ofNat_toNat, BitVec.setWidth_eq]
  exact .pure value

theorem reads_pod : ∀ (p : Pod) (value : p.Value), Kind.Sized (.pod p) value → Reads (read p) (podBytes p value) value
  | .bool, value, _ => by
    have hread : value.toNat < 256 ^ 1 := by cases value <;> decide
    refine .after (reads_encoded hread) ?_
    cases value <;> exact .pure _
  | .char, value, _ => by
    refine .after (reads_encoded value.toNat_lt) ?_
    rw [UInt8.ofNat_toNat]
    exact .pure value
  | .short, value, _ => reads_bits (by decide) value
  | .long, value, _ => reads_bits (by decide) value
  | .longlong, value, _ => reads_bits (by decide) value
  | .float, value, _ => reads_bits (by decide) value
  | .double, value, _ => reads_bits (by decide) value
  | .string, _, h => reads_sized h
  | .binary, _, h => reads_sized h

variable {indeterminate : BitVec 64}

theorem reads_relaxedPod (p : Pod) (value old : p.Value) (name : Option Name) (h : Kind.Sized (.pod p) value) :
    Reads ((relaxedReader indeterminate).pod p old name) (podBytes p value) value :=
  .after (.after (reads_pod p value h) (.pure (value, true))) (.pure value)

theorem reads_kind (name : Option Name) : ∀ (k : Kind) (value old : k.Value), Kind.Sized k value →
    Reads ((relaxedReader indeterminate).read k old name) (kindBytes k value) value
  | .pod p, value, old, h => reads_relaxedPod p value old name h
  | .int, value, _, _ => by
    have hread := @reads_relaxedPod indeterminate .long (value.signExtend 64) indeterminate name trivial
    refine .after hread ?_
    -- an `int` is what its extension is cut to
    rw [setWidth_signExtend]
    exact .pure value
  | .ulong, value, _, _ => reads_relaxedPod .long value _ name trivial

theorem reads_containerStart {size : Nat} (h : size < 2 ^ 64) (old : Nat) (name : Option Name) :
    Reads ((relaxedReader indeterminate).containerStart old name) (Bytes.ofNatBE 8 size) size :=
  .after (.after (reads_encoded (by omega)) (.pure (size, true))) (.pure size)

variable {stl : Containers}

mutual

/-- The bytes of a value are read to the value, whatever its name is. -/
theorem reads_serialize : ∀ (t : Ty) (value : t.Value) (name : Option Name), Ty.Sized t value → t.Regular stl value →
    Reads ((relaxedReader indeterminate).serialize stl t t.init name) (bytes stl t value) value
  | .kind k, value, name, hs, _ => reads_kind name k value _ hs
  | .enum k, value, name, hs, _ => reads_kind name k value _ hs
  | .composite members, value, name, hs, hr => by
    have hmembers := @reads_serializeMembers members value hs hr
    simp only [Reader.serialize, bytes]
    exact .bind (.pure true) (.after hmembers (.after (.pure ()) (.pure value)))
  | .tuple elements, value, name, hs, hr => by
    have helements := @reads_serializeElements elements value hs.2 hr
    simp only [Reader.serialize, bytes]
    refine .bind (reads_containerStart hs.1 _ name) ?_
    rw [if_pos rfl]
    exact .after helements (.after (.pure ()) (.pure value))
  | .sequence element, value, name, hs, hr => by
    have helements := @Reads.mapM _ element.init (fun v => (relaxedReader indeterminate).serialize stl element v none)
      (bytes stl element) value fun v hv => reads_serialize element v none (hs.2 v hv) (hr v hv)
    simp only [Reader.serialize, bytes]
    refine .bind (reads_containerStart hs.1 _ name) ?_
    simp only [Ty.init]
    rw [Reader.resize_nil]
    exact .after helements (.after (.pure ()) (.pure value))
  | .associative container element, value, name, hs, hr => by
    have hmem : ∀ v ∈ (stl container element).iterate value, v ∈ value := fun v => (stl container element).mem_iterate.1
    have helements := @Reads.insertEach _ (stl container element) ((relaxedReader indeterminate).serialize stl element element.init none)
      (bytes stl element) ((stl container element).iterate value) [] fun v hv =>
        reads_serialize element v none (hs.2 v (hmem v hv)) (hr.2 v (hmem v hv))
    rw [hr.1, (stl container element).length_iterate] at helements
    simp only [Reader.serialize, bytes]
    refine .bind (reads_containerStart hs.1 _ name) ?_
    exact .after helements (.after (.pure ()) (.pure value))

theorem reads_serializeMembers : ∀ (members : Members) (value : members.Value), Members.Sized members value →
    members.Regular stl value →
    Reads ((relaxedReader indeterminate).serializeMembers stl members members.init) (memberBytes stl members value) value
  | .nil, _, _, _ => .pure ()
  | .cons name member members, value, hs, hr => by
    have hmember := reads_serialize member value.1 (some name) hs.1 hr.1
    have hmembers := reads_serializeMembers members value.2 hs.2 hr.2
    simp only [Reader.serializeMembers, memberBytes]
    exact .bind hmember (.after hmembers (.pure value))

theorem reads_serializeElements : ∀ (elements : Elements) (value : elements.Value), Elements.Sized elements value →
    elements.Regular stl value →
    Reads ((relaxedReader indeterminate).serializeElements stl elements elements.init) (elementBytes stl elements value) value
  | .nil, _, _, _ => .pure ()
  | .cons element elements, value, hs, hr => by
    have helement := reads_serialize element value.1 none hs.1 hr.1
    have helements := reads_serializeElements elements value.2 hs.2 hr.2
    simp only [Reader.serializeElements, elementBytes]
    exact .bind helement (.after helements (.pure value))

end

end

/-! ## A sequence of values -/

/-- A value, and the name it is written under. -/
structure Item where
  type : Ty
  value : type.Value
  name : Option Name

section

variable (m : Reallocation) (stl : Containers)

/-- Items are written, one behind the other. -/
def writeAll (turns : Nat) (items : List Item) : M Unit :=
  items.forM fun item => (writer.implementation m turns).serialize stl item.type item.value item.name

/-- Values of these types are read, under names that need not be those they were written under. -/
def readAll (indeterminate : BitVec 64) (slots : List (Ty × Option Name)) : M (List ((t : Ty) × t.Value)) :=
  slots.mapM fun slot => do
    let value ← (relaxedReader indeterminate).serialize stl slot.1 slot.1.init slot.2
    pure ⟨slot.1, value⟩

end

variable {m : Reallocation} {stl : Containers}

theorem writeAll_append (turns : Nat) (before after : List Item) :
    writeAll m stl turns (before ++ after) = (do writeAll m stl turns before; writeAll m stl turns after) :=
  List.forM_append

theorem writes_all (turns : Nat) (items : List Item) :
    Writes turns (writeAll m stl turns items) (items.flatMap fun item => bytes stl item.type item.value) :=
  .forM fun item _ => writes_serialize item.type item.value item.name

theorem reads_all (indeterminate : BitVec 64) : ∀ {items : List Item} {slots : List (Ty × Option Name)},
    (∀ item ∈ items, Ty.Sized item.type item.value) → (∀ item ∈ items, item.type.Regular stl item.value) →
    slots.map Prod.fst = items.map Item.type →
    Reads (readAll stl indeterminate slots) (items.flatMap fun item => bytes stl item.type item.value)
      (items.map fun item => ⟨item.type, item.value⟩)
  | [], [], _, _, _ => .pure []
  | [], slot :: slots, _, _, h => by cases h
  | item :: items, [], _, _, h => by cases h
  | ⟨type, value, _⟩ :: items, (type', name) :: slots, hs, hr, h => by
    obtain ⟨rfl, hslots⟩ := List.cons.inj h
    have hvalue := @reads_serialize indeterminate stl type' value name (hs _ List.mem_cons_self) (hr _ List.mem_cons_self)
    have hrest := @reads_all indeterminate items slots (fun item hitem => hs item (List.mem_cons_of_mem _ hitem))
      (fun item hitem => hr item (List.mem_cons_of_mem _ hitem)) hslots
    unfold readAll at hrest ⊢
    rw [List.mapM_cons, List.flatMap_cons, List.map_cons]
    exact .bind (.after hvalue (.pure _)) (.after hrest (.pure _))

/-- A stream of some size that nothing was written to or read from. -/
structure Fresh (s : Stream) : Prop where
  size : 0 < s.content.length
  writeOffset : s.writeOffset = 0
  readOffset : s.readOffset = 0

/-- Values that are written are read again, up to where was written. What was written for the first of them
is what it was when the others are written, in a buffer that has been doubled as often as need be. -/
theorem readAll_writeAll {s : Stream} (hs : Fresh s) {items : List Item}
    (hsized : ∀ item ∈ items, Ty.Sized item.type item.value) (hregular : ∀ item ∈ items, item.type.Regular stl item.value)
    {slots : List (Ty × Option Name)} (hslots : slots.map Prod.fst = items.map Item.type) (indeterminate : BitVec 64) :
    ∃ enough, ∀ turns, enough ≤ turns → ∃ t, writeAll m stl turns items s = .ok () t ∧
      (∃ n, t.content.length = s.content.length * 2 ^ n) ∧
      (∀ before after, items = before ++ after → ∃ u, writeAll m stl turns before s = .ok () u ∧
        writeAll m stl turns after u = .ok () t ∧ u.written <+: t.written) ∧
      readAll stl indeterminate slots t = .ok (items.map fun item => ⟨item.type, item.value⟩) { t with readOffset := t.writeOffset } := by
  have hready : Ready s := ⟨hs.size, by rw [hs.writeOffset]; exact Nat.zero_le _⟩
  refine ⟨(items.flatMap fun item => bytes stl item.type item.value).length + 1, fun turns hturns => ?_⟩
  have henough : s.writeOffset + (items.flatMap fun item => bytes stl item.type item.value).length < turns := by
    rw [hs.writeOffset]
    omega
  obtain ⟨_, t, ht, happended, -⟩ := writes_all turns items s hready henough
  refine ⟨t, ht, happended.doubled, ?_, ?_⟩
  · rintro before after rfl
    rw [List.flatMap_append, List.length_append] at henough
    obtain ⟨_, u, hu, hsu, hready'⟩ := @writes_all m stl turns before s hready (by omega)
    obtain ⟨_, t', ht', hut, -⟩ := @writes_all m stl turns after u hready' (by rw [hsu.writeOffset]; omega)
    have heq : t = t' := by
      rw [writeAll_append, bind_ok hu, ht'] at ht
      cases ht
      rfl
    subst heq
    refine ⟨u, hu, ht', ?_⟩
    rw [hut.written]
    exact List.prefix_append _ _
  · have hnothing : s.written = [] := by rw [Stream.written, hs.writeOffset, List.take_zero]
    have hat : Bytes.At t.content t.readOffset (items.flatMap fun item => bytes stl item.type item.value) := by
      have hwritten := happended.written
      rw [hnothing] at hwritten
      rw [happended.readOffset, hs.readOffset]
      exact Bytes.at_of_take hwritten
    rw [reads_all indeterminate hsized hregular hslots t hat, happended.readOffset, happended.writeOffset, hs.readOffset, hs.writeOffset]

/-- The memory that is added is zero. -/
def zeroed : Reallocation where
  reallocate content size := content.take size ++ List.replicate (size - content.length) 0
  length content size := by
    rw [List.length_append, List.length_take, List.length_replicate]
    omega
  keeps {content size} h := by
    rw [List.take_of_length_le h]
    exact List.prefix_append _ _

/-- A string, numbers, and pairs in an associative container. -/
def sample : List Item :=
  [⟨.kind (.pod .string), [97, 0, 98], none⟩, ⟨.sequence (.kind .int), [1, -2], none⟩,
    ⟨.associative 0 (.tuple (.cons (.enum (.pod .short)) (.cons (.kind (.pod .bool)) .nil))), [(7, true, ()), (-7, false, ())], none⟩]

theorem sample_read : ∃ enough, ∀ turns, enough ≤ turns → ∃ t, writeAll zeroed vectors turns sample ⟨[0], 0, 0⟩ = .ok () t ∧
    (∃ n, t.content.length = 1 * 2 ^ n) ∧
    (∀ before after, sample = before ++ after → ∃ u, writeAll zeroed vectors turns before ⟨[0], 0, 0⟩ = .ok () u ∧
      writeAll zeroed vectors turns after u = .ok () t ∧ u.written <+: t.written) ∧
    readAll vectors 0 (sample.map fun item => (item.type, none)) t =
      .ok (sample.map fun item => ⟨item.type, item.value⟩) { t with readOffset := t.writeOffset } := by
  have hfresh : Fresh ⟨[0], 0, 0⟩ := ⟨by decide, rfl, rfl⟩
  refine readAll_writeAll hfresh ?_ ?_ rfl 0
  · simp [sample, Ty.Sized, Elements.Sized, Kind.Sized, Elements.length]
  · simp [sample, Ty.Regular, Elements.Regular, Container.Regular, vectors]

end Casual.Archive.Binary

/-
`sf/archive/archive.h`, `sf/archive/basic.h` and `archive.cpp`: how a value is written to an archive
and read from it, whatever the format is. A format is an `Implementation`, a type that can be
serialised is a `Ty`, and reading follows the type.
-/
import Casual.Lib.Triple
import Mathlib.Data.List.TakeWhile

namespace Casual.Archive

open Casual.Lib

/-- A `std::string`, as its characters. -/
abbrev Text := List UInt8

/-- A `std::string` made of a `const char*`. -/
def cstr (s : Text) : Text := s.takeWhile (· ≠ 0)

theorem cstr_eq {s : Text} (h : 0 ∉ s) : cstr s = s := by
  refine List.takeWhile_eq_self_iff.2 fun c hc => ?_
  have : c ≠ 0 := by
    rintro rfl
    exact h hc
  simpa using this

/-- A `const char*` that is not null: what stands before the terminating NUL. -/
structure Name where
  text : Text
  terminated : 0 ∉ text
  deriving DecidableEq

theorem text_inj {a b : Name} (h : a.text = b.text) : a = b := by
  cases a
  cases b
  cases h
  rfl

/-! ## Types and values -/

/-- What `Reader::pod` and `Writer::pod` are overloaded for. -/
inductive Pod
  | bool
  | char
  | short
  | long
  | longlong
  | float
  | double
  | string
  | binary
  deriving DecidableEq, Repr

/-- A floating-point number is its representation. -/
@[reducible] def Pod.Value : Pod → Type
  | .bool => Bool
  | .char => UInt8
  | .short => BitVec 16
  | .long => BitVec 64
  | .longlong => BitVec 64
  | .float => BitVec 32
  | .double => BitVec 64
  | .string => Text
  | .binary => List UInt8

/-- `T()`. -/
def Pod.init : (p : Pod) → p.Value
  | .bool => false
  | .char => 0
  | .short => 0
  | .long => 0
  | .longlong => 0
  | .float => 0
  | .double => 0
  | .string => []
  | .binary => []

/-- What `Reader::read` and `Writer::write` are overloaded for. -/
inductive Kind
  | pod (p : Pod)
  | int
  | ulong
  deriving DecidableEq, Repr

/-- The values of a kind. -/
@[reducible] def Kind.Value : Kind → Type
  | .pod p => p.Value
  | .int => BitVec 32
  | .ulong => BitVec 64

/-- The value a variable of the kind is declared with. -/
def Kind.init : (k : Kind) → k.Value
  | .pod p => p.init
  | .int => 0
  | .ulong => 0

/-- What a variable that is not initialised holds, when its bits are the lowest of `bits`. -/
def Kind.ofBits (bits : BitVec 64) : (k : Kind) → k.Value
  | .pod .bool => bits.getLsbD 0
  | .pod .char => UInt8.ofBitVec (bits.setWidth 8)
  | .pod .short => bits.setWidth 16
  | .pod .long => bits
  | .pod .longlong => bits
  | .pod .float => bits.setWidth 32
  | .pod .double => bits
  | .pod .string => []
  | .pod .binary => []
  | .int => bits.setWidth 32
  | .ulong => bits

mutual

/-- The types that can be serialised. -/
inductive Ty
  /-- `traits::is_pod`. -/
  | kind (k : Kind)
  /-- An enumeration, with its underlying type. -/
  | enum (underlying : Kind)
  /-- `traits::has_serialize`: the members in the order in which `serialize` names them. -/
  | composite (members : Members)
  /-- `std::tuple` and `std::pair`. -/
  | tuple (elements : Elements)
  /-- `traits::container::is_sequence`. -/
  | sequence (element : Ty)
  /-- `traits::container::is_associative`, one number for each class of container. -/
  | associative (container : Nat) (element : Ty)

/-- The members of a composite, with their names. -/
inductive Members
  | nil
  | cons (name : Name) (member : Ty) (members : Members)

/-- The elements of a tuple. -/
inductive Elements
  | nil
  | cons (element : Ty) (elements : Elements)

end

mutual

/-- An associative container is the list of what is in it. -/
@[reducible] def Ty.Value : Ty → Type
  | .kind k => k.Value
  | .enum k => k.Value
  | .composite members => members.Value
  | .tuple elements => elements.Value
  | .sequence element => List element.Value
  | .associative _ element => List element.Value

/-- The values of the members. -/
@[reducible] def Members.Value : Members → Type
  | .nil => Unit
  | .cons _ member members => member.Value × members.Value

/-- The values of the elements. -/
@[reducible] def Elements.Value : Elements → Type
  | .nil => Unit
  | .cons element elements => element.Value × elements.Value

end

mutual

/-- `T()`. -/
def Ty.init : (t : Ty) → t.Value
  | .kind k => k.init
  | .enum k => k.init
  | .composite members => members.init
  | .tuple elements => elements.init
  | .sequence _ => []
  | .associative _ _ => []

/-- The members of a value that is declared. -/
def Members.init : (members : Members) → members.Value
  | .nil => ()
  | .cons _ member members => (member.init, members.init)

/-- The elements of a tuple that is declared. -/
def Elements.init : (elements : Elements) → elements.Value
  | .nil => ()
  | .cons element elements => (element.init, elements.init)

end

/-- The names of the members, in order. -/
def Members.names : Members → List Name
  | .nil => []
  | .cons name _ members => name :: members.names

/-- `std::tuple_size`. -/
def Elements.length : Elements → Nat
  | .nil => 0
  | .cons _ elements => elements.length + 1

mutual

/-- The members of a class have names of their own. -/
def Ty.Distinct : Ty → Prop
  | .kind _ => True
  | .enum _ => True
  | .composite members => members.Distinct
  | .tuple elements => elements.Distinct
  | .sequence element => element.Distinct
  | .associative _ element => element.Distinct

/-- No two members have one name, at any depth. -/
def Members.Distinct : Members → Prop
  | .nil => True
  | .cons name member members => name ∉ members.names ∧ member.Distinct ∧ members.Distinct

/-- The composites in the elements have members of distinct names. -/
def Elements.Distinct : Elements → Prop
  | .nil => True
  | .cons element elements => element.Distinct ∧ elements.Distinct

end

/-- An associative container of the standard library: the order in which its elements are visited, and
what `insert` makes of it. -/
structure Container (α : Type) where
  iterate : List α → List α
  insert : List α → α → List α
  length_iterate : ∀ content, (iterate content).length = content.length
  mem_iterate : ∀ {content : List α} {a : α}, a ∈ iterate content ↔ a ∈ content
  mem_of_insert : ∀ {content : List α} {a b : α}, b ∈ insert content a → b = a ∨ b ∈ content

namespace Container

variable {α : Type}

/-- Inserting the elements one by one in the order of iteration gives the container. -/
def Regular (c : Container α) (content : List α) : Prop := (c.iterate content).foldl c.insert [] = content

theorem mem_of_foldl (c : Container α) : ∀ {elements content : List α} {a : α},
    a ∈ elements.foldl c.insert content → a ∈ elements ∨ a ∈ content := by
  intro elements
  induction elements with
  | nil => intro content a h; exact .inr h
  | cons b elements ih =>
    intro content a h
    rcases ih h with h | h
    · exact .inl (List.mem_cons_of_mem _ h)
    · rcases c.mem_of_insert h with rfl | h
      · exact .inl List.mem_cons_self
      · exact .inr h

end Container

/-- The classes of containers that `Ty.associative` numbers. -/
abbrev Containers := (container : Nat) → (element : Ty) → Container element.Value

/-! ## Writing -/

/-- What a reader or a writer throws, and what the source does not define. -/
inductive Failure
  /-- `exception::archive::invalid::Node`: "archive - failed to find role 'role' in document". -/
  | failedToFindRole (role : Name)
  /-- `exception::archive::invalid::Node`: "expected tuple size: expected got: got". -/
  | tupleSize (expected got : Nat)
  /-- `exception::archive::invalid::Node`: "Nested containers not supported (yet)". -/
  | nestedContainers
  /-- `exception::archive::invalid::Document`. -/
  | invalidDocument
  /-- What `common::transcode` throws. -/
  | transcode
  /-- `exception::Validation`: "Attempt to read out of bounds  ro: offset size: size". -/
  | validation (offset size : Nat)
  /-- An assertion of the library, or what the language leaves open. -/
  | undefined
  /-- A loop that takes more turns than it was given. -/
  | unfinished
  deriving DecidableEq

/-- What `basic_writer` asks of a format. -/
structure writer.Implementation (σ : Type) where
  containerStart (size : Nat) (name : Option Name) : EStateM Failure σ Nat
  containerEnd (name : Option Name) : EStateM Failure σ Unit
  serialtypeStart (name : Option Name) : EStateM Failure σ Unit
  serialtypeEnd (name : Option Name) : EStateM Failure σ Unit
  write (p : Pod) (value : p.Value) (name : Option Name) : EStateM Failure σ Unit

namespace writer.Implementation

variable {σ : Type} (w : writer.Implementation σ)

/-- `Writer::write`. -/
def writeKind : (k : Kind) → k.Value → Option Name → EStateM Failure σ Unit
  | .pod p, value, name => w.write p value name
  | .int, value, name => w.write .long (value.signExtend 64) name
  | .ulong, value, name => w.write .long value name

variable (stl : Containers)

mutual

/-- `serialize( Writer& archive, const T& value, const char* name)`. -/
def serialize : (t : Ty) → t.Value → Option Name → EStateM Failure σ Unit
  | .kind k, value, name => w.writeKind k value name
  | .enum k, value, name => w.writeKind k value name
  | .composite members, value, name => do
    w.serialtypeStart name
    serializeMembers members value
    w.serialtypeEnd name
  | .tuple elements, value, name => do
    let _ ← w.containerStart elements.length name
    serializeElements elements value
    w.containerEnd name
  | .sequence element, value, name => do
    let _ ← w.containerStart value.length name
    value.forM fun v => serialize element v none
    w.containerEnd name
  | .associative container element, value, name => do
    let _ ← w.containerStart value.length name
    ((stl container element).iterate value).forM fun v => serialize element v none
    w.containerEnd name

/-- `T::serialize`. -/
def serializeMembers : (members : Members) → members.Value → EStateM Failure σ Unit
  | .nil, _ => pure ()
  | .cons name member members, value => do
    serialize member value.1 (some name)
    serializeMembers members value.2

/-- `tuple_write`. -/
def serializeElements : (elements : Elements) → elements.Value → EStateM Failure σ Unit
  | .nil, _ => pure ()
  | .cons element elements, value => do
    serialize element value.1 none
    serializeElements elements value.2

end

end writer.Implementation

/-! ## Reading -/

/-- What `basic_reader` asks of a format. -/
structure reader.Implementation (σ : Type) where
  containerStart (size : Nat) (name : Option Name) : EStateM Failure σ (Nat × Bool)
  containerEnd (name : Option Name) : EStateM Failure σ Unit
  serialtypeStart (name : Option Name) : EStateM Failure σ Bool
  serialtypeEnd (name : Option Name) : EStateM Failure σ Unit
  /-- The value that is read into comes first. -/
  read (p : Pod) (value : p.Value) (name : Option Name) : EStateM Failure σ (p.Value × Bool)

/-- `policy::Strict` and `policy::Relaxed`. -/
inductive Policy
  | strict
  | relaxed
  deriving DecidableEq, Repr

variable {σ : Type}

/-- `apply`. The text of the exception is made of `role`, which may not be null then. -/
def Policy.apply : Policy → Bool → Option Name → EStateM Failure σ Bool
  | .strict, true, _ => pure true
  | .strict, false, some role => throw (.failedToFindRole role)
  | .strict, false, none => throw .undefined
  | .relaxed, _, _ => pure true

/-- `basic_reader`. -/
structure Reader (σ : Type) where
  implementation : reader.Implementation σ
  policy : Policy
  /-- The bits that a variable without an initialiser happens to have. -/
  indeterminate : BitVec 64

namespace Reader

variable (r : Reader σ)

/-- `Reader::container_start`: the policy is told whether the container is there. -/
def containerStart (size : Nat) (name : Option Name) : EStateM Failure σ Nat := do
  let result ← r.implementation.containerStart size name
  let _ ← r.policy.apply result.2 name
  pure result.1

/-- `Reader::serialtype_start`. -/
def serialtypeStart (name : Option Name) : EStateM Failure σ Bool := do
  let result ← r.implementation.serialtypeStart name
  r.policy.apply result name

/-- `handle_pod`. -/
def pod (p : Pod) (value : p.Value) (name : Option Name) : EStateM Failure σ p.Value := do
  let result ← r.implementation.read p value name
  let _ ← r.policy.apply result.2 name
  pure result.1

/-- `Reader::read`. An `int` and an `unsigned long` are read into `long temp`, which is not
initialised. -/
def read : (k : Kind) → k.Value → Option Name → EStateM Failure σ k.Value
  | .pod p, value, name => r.pod p value name
  | .int, _, name => do
    let temp ← r.pod .long r.indeterminate name
    pure (temp.setWidth 32)
  | .ulong, _, name => do
    let temp ← r.pod .long r.indeterminate name
    pure temp

/-- `resize`. -/
def resize {α : Type} (init : α) (content : List α) (size : Nat) : List α :=
  content.take size ++ List.replicate (size - content.length) init

/-- The loop that inserts `count` elements. -/
def insertEach {α : Type} (c : Container α) (element : EStateM Failure σ α) : Nat → List α → EStateM Failure σ (List α)
  | 0, content => pure content
  | count + 1, content => do
    let value ← element
    insertEach c element count (c.insert content value)

variable (stl : Containers)

mutual

/-- `serialize( Reader& archive, T& value, const char* name)`: what `value` is then. -/
def serialize : (t : Ty) → t.Value → Option Name → EStateM Failure σ t.Value
  | .kind k, value, name => r.read k value name
  | .enum k, _, name => r.read k (k.ofBits r.indeterminate) name
  | .composite members, value, name => do
    let found ← r.serialtypeStart name
    let value ← if found then serializeMembers members value else pure value
    r.implementation.serialtypeEnd name
    pure value
  | .tuple elements, value, name => do
    let size ← r.containerStart elements.length name
    if elements.length = size then
      let value ← serializeElements elements value
      r.implementation.containerEnd name
      pure value
    else
      throw (.tupleSize elements.length size)
  | .sequence element, value, name => do
    let size ← r.containerStart 0 name
    let value ← (resize element.init value size).mapM fun v => serialize element v none
    r.implementation.containerEnd name
    pure value
  | .associative container element, value, name => do
    let count ← r.containerStart 0 name
    let value ← insertEach (stl container element) (serialize element element.init none) count value
    r.implementation.containerEnd name
    pure value

/-- `T::serialize`. -/
def serializeMembers : (members : Members) → members.Value → EStateM Failure σ members.Value
  | .nil, value => pure value
  | .cons name member members, value => do
    let first ← serialize member value.1 (some name)
    let rest ← serializeMembers members value.2
    pure (first, rest)

/-- `tuple_read`. -/
def serializeElements : (elements : Elements) → elements.Value → EStateM Failure σ elements.Value
  | .nil, value => pure value
  | .cons element elements, value => do
    let first ← serialize element value.1 none
    let rest ← serializeElements elements value.2
    pure (first, rest)

end

theorem resize_nil {α : Type} (init : α) (size : Nat) : resize init [] size = List.replicate size init := by
  rw [resize, List.take_nil, List.nil_append, List.length_nil, Nat.sub_zero]

section Stack

variable {ν α : Type} {toNode : α → ν} {f : α → α}

/-- Elements that take their nodes from a stack of the reader. -/
theorem mapM_reads {read : α → EStateM Failure (List (Option ν)) α} {init : α} : ∀ (values : List α) (rest : List (Option ν)),
    (∀ v ∈ values, ∀ rest, read init (some (toNode v) :: rest) = .ok (f v) rest) →
    (List.replicate values.length init).mapM read ((values.map toNode).map some ++ rest) = .ok (values.map f) rest := by
  intro values
  induction values with
  | nil => intro rest _; rfl
  | cons v values ih =>
    intro rest h
    have hv := h v List.mem_cons_self ((values.map toNode).map some ++ rest)
    have hr := ih rest fun w hw => h w (List.mem_cons_of_mem _ hw)
    simp only [List.length_cons, List.replicate_succ, List.mapM_cons, List.map_cons, List.cons_append]
    rw [bind_ok hv, bind_ok hr]
    rfl

theorem insertEach_reads {c : Container α} {read : EStateM Failure (List (Option ν)) α} :
    ∀ (values content : List α) (rest : List (Option ν)),
      (∀ v ∈ values, ∀ rest, read (some (toNode v) :: rest) = .ok (f v) rest) →
      insertEach c read values.length content ((values.map toNode).map some ++ rest) =
        .ok ((values.map f).foldl c.insert content) rest := by
  intro values
  induction values with
  | nil => intro content rest _; rfl
  | cons v values ih =>
    intro content rest h
    have hv := h v List.mem_cons_self ((values.map toNode).map some ++ rest)
    have hr := ih (c.insert content (f v)) rest fun w hw => h w (List.mem_cons_of_mem _ hw)
    simp only [List.length_cons, insertEach, List.map_cons, List.cons_append]
    rw [bind_ok hv, hr]
    rfl

end Stack

end Reader

/-- An `int` is what is left of it as a `long`. -/
theorem setWidth_signExtend (value : BitVec 32) : (value.signExtend 64).setWidth 32 = value := by
  ext i hi
  simp only [BitVec.getElem_setWidth, BitVec.getLsbD_signExtend]
  rw [if_pos hi, BitVec.getLsbD_eq_getElem hi]
  simp only [Bool.and_eq_right_iff_imp, decide_eq_true_eq]
  omega

/-! ## What a value is made of -/

/-- A property of the strings, the characters, the floating-point numbers of single precision and the
names of members. -/
structure Property where
  string : Text → Prop
  char : UInt8 → Prop
  float : BitVec 32 → Prop
  name : Name → Prop

/-- A property holds of the value of a kind. -/
def Kind.Every (P : Property) : (k : Kind) → k.Value → Prop
  | .pod .string, value => P.string value
  | .pod .char, value => P.char value
  | .pod .float, value => P.float value
  | _, _ => True

mutual

/-- All of these in the value have the property. -/
def Ty.Every (P : Property) : (t : Ty) → t.Value → Prop
  | .kind k, value => k.Every P value
  | .enum k, value => k.Every P value
  | .composite members, value => members.Every P value
  | .tuple elements, value => elements.Every P value
  | .sequence element, value => ∀ v ∈ value, element.Every P v
  | .associative _ element, value => ∀ v ∈ value, element.Every P v

/-- A property holds of the names and the values of the members. -/
def Members.Every (P : Property) : (members : Members) → members.Value → Prop
  | .nil, _ => True
  | .cons name member members, value => P.name name ∧ member.Every P value.1 ∧ members.Every P value.2

/-- A property holds of the values of the elements. -/
def Elements.Every (P : Property) : (elements : Elements) → elements.Value → Prop
  | .nil, _ => True
  | .cons element elements, value => element.Every P value.1 ∧ elements.Every P value.2

end

mutual

/-- Every associative container in the value is regular. -/
def Ty.Regular (stl : Containers) : (t : Ty) → t.Value → Prop
  | .kind _, _ => True
  | .enum _, _ => True
  | .composite members, value => members.Regular stl value
  | .tuple elements, value => elements.Regular stl value
  | .sequence element, value => ∀ v ∈ value, element.Regular stl v
  | .associative container element, value =>
    (stl container element).Regular value ∧ ∀ v ∈ value, element.Regular stl v

/-- The containers in the members are as a C++ container has them. -/
def Members.Regular (stl : Containers) : (members : Members) → members.Value → Prop
  | .nil, _ => True
  | .cons _ member members, value => member.Regular stl value.1 ∧ members.Regular stl value.2

/-- The containers in the elements are as a C++ container has them. -/
def Elements.Regular (stl : Containers) : (elements : Elements) → elements.Value → Prop
  | .nil, _ => True
  | .cons element elements, value => element.Regular stl value.1 ∧ elements.Regular stl value.2

end

/-! ## Examples of what the archives use -/

/-- Containers that keep what is inserted behind what they have. -/
def vectors : Containers := fun _ _ => ⟨id, fun content a => content ++ [a], fun _ => rfl, Iff.rfl, fun h => by
  rcases List.mem_append.1 h with h | h
  · exact .inr h
  · exact .inl (List.mem_singleton.1 h)⟩

/-- A byte as two letters. -/
def letters (b : UInt8) : Text := [b / 16 + 97, b % 16 + 97]

/-- The bytes that pairs of letters from `a` to `p` stand for. -/
def pairs : Text → List UInt8
  | a :: b :: s => ((a - 97) * 16 + (b - 97)) :: pairs s
  | _ => []

theorem digits (b : UInt8) : (b / 16 + 97 - 97) * 16 + (b % 16 + 97 - 97) = b := by
  rw [UInt8.add_sub_cancel, UInt8.add_sub_cancel]
  refine UInt8.toNat_inj.1 ?_
  have h := Nat.div_add_mod' b.toNat 16
  have hlt := b.toNat_lt
  simp
  omega

theorem pairs_letters : ∀ data : List UInt8, pairs (data.flatMap letters) = data
  | [] => rfl
  | b :: data => congrArg₂ List.cons (digits b) (pairs_letters data)

theorem le_of_mem_letters {b c : UInt8} (h : c ∈ letters b) : 97 ≤ c.toNat := by
  have hlt := b.toNat_lt
  simp only [letters, List.mem_cons, List.not_mem_nil, or_false] at h
  rcases h with rfl | rfl
  · simp
    omega
  · simp
    omega

/-- The name `v`. -/
def valueName : Name := ⟨[118], by decide⟩

end Casual.Archive

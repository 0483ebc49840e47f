/-
`serviceframework/source/archive/json.cpp`: the writer and the reader that walk a document of
rapidjson, each with a stack of nodes, and the ways in which a document gets to a text and back.
-/
import Casual.Archive.Archive
import Casual.Archive.Ini
import Mathlib.Data.List.Induction

namespace Casual.Archive.Json

open Casual.Lib

/-- `rapidjson::Value`. -/
inductive Value
  | null
  | bool (b : Bool)
  | number (i : Int)
  | double (d : BitVec 64)
  | string (s : Text)
  | array (elements : List Value)
  | object (members : List (Text × Value))

/-- `common::transcode`, and what the language makes of numbers that are not integers. -/
structure Transcode where
  /-- `utf8::encode`. -/
  encode : Text → Option Text
  /-- `utf8::decode`. -/
  decode : Text → Option Text
  /-- `base64::encode`. -/
  encodeBinary : List UInt8 → Text
  /-- `base64::decode`. -/
  decodeBinary : Text → Option (List UInt8)
  widen : BitVec 32 → BitVec 64
  narrow : BitVec 64 → BitVec 32
  ofInt : Int → BitVec 64

/-! ## The writer -/

namespace writer

/-- The members and elements of the open nodes as they are so far, the node at the back first. The last
member or element of a node is the one that is open. -/
abbrev Stack := List Value

/-- `AddMember` and `PushBack`, which assert that the parent is what they are for. -/
def append : Option Name → Value → Value → Option Value
  | some name, .object members, child => some (.object (members ++ [(name.text, child)]))
  | none, .array elements, child => some (.array (elements ++ [child]))
  | _, _, _ => none

/-- What is done to the open node is done to its place in the parent. -/
def place (child : Value) : Value → Value
  | .object members => .object (members.dropLast ++ (members.getLast?.map fun member => (member.1, child)).toList)
  | .array elements => .array (elements.dropLast ++ [child])
  | parent => parent

/-- `Implementation::start`: a value is put below the current one. -/
def start (name : Option Name) : EStateM Failure Stack Unit
  | parent :: stack => match append name parent .null with
    | some parent => .ok () (.null :: parent :: stack)
    | none => .error .undefined (parent :: stack)
  | [] => .error .undefined []

/-- `end`. -/
def finish (_ : Option Name) : EStateM Failure Stack Unit
  | child :: parent :: stack => .ok () (place child parent :: stack)
  | stack => .error .undefined stack

/-- One of the `Set` functions on the node at the back. -/
def assign (value : Value) : EStateM Failure Stack Unit
  | _ :: stack => .ok () (value :: stack)
  | [] => .error .undefined []

variable (tc : Transcode)

/-- `utf8::encode`, which throws. -/
def encode (s : Text) : EStateM Failure Stack Text :=
  match tc.encode s with
  | some t => pure t
  | none => throw .transcode

/-- `Implementation::writer` of a plain value. -/
def writePod : (p : Pod) → p.Value → EStateM Failure Stack Unit
  | .bool, value => assign (.bool value)
  | .char, value => do assign (.string (← encode tc [value]))
  | .short, value => assign (.number value.toInt)
  | .long, value => assign (.number value.toInt)
  | .longlong, value => assign (.number value.toInt)
  | .float, value => assign (.double (tc.widen value))
  | .double, value => assign (.double value)
  | .string, value => do assign (.string (← encode tc value))
  | .binary, value => assign (.string (tc.encodeBinary value))

/-- `json::writer::Implementation`. -/
def implementation : Archive.writer.Implementation Stack where
  containerStart size name := do
    start name
    assign (.array [])
    pure size
  containerEnd := finish
  serialtypeStart name := do
    start name
    assign (.object [])
  serialtypeEnd := finish
  write p value name := do
    start name
    writePod tc p value
    finish name

end writer

/-! ## The reader -/

namespace reader

/-- The node at the back first. A member that the document does not have is `nullptr`. -/
abbrev Stack := List (Option Value)

/-- `Implementation::start`: the member of a name, or the next element. -/
def start (name : Option Name) : EStateM Failure Stack Bool
  | [] => .error .undefined []
  | node :: stack => match name, node with
    | none, node => .ok node.isSome (node :: stack)
    | some _, none => .ok false (none :: none :: stack)
    | some name, some (.object members) =>
      .ok (members.lookup name.text).isSome (members.lookup name.text :: some (.object members) :: stack)
    -- `FindMember` asserts that the node is an object.
    | some _, some node => .error .undefined (some node :: stack)

/-- `end`. -/
def finish (_ : Option Name) : EStateM Failure Stack Unit
  | _ :: stack => .ok () stack
  | [] => .error .undefined []

/-- `*m_stack.back()`. -/
def back : EStateM Failure Stack Value
  | some node :: stack => .ok node (some node :: stack)
  | stack => .error .undefined stack

/-- `Size` of the node at the back, which asserts that it is an array, and its elements pushed
backwards. -/
def stackElements : EStateM Failure Stack Nat
  | some (.array elements) :: stack => .ok elements.length (elements.map some ++ some (.array elements) :: stack)
  | stack => .error .undefined stack

variable (tc : Transcode)

/-- What `common::transcode` throws. -/
def orTranscode {α : Type} : Option α → EStateM Failure Stack α
  | some a => pure a
  | none => throw .transcode

/-- `read( T& value)`. The functions of rapidjson assert the type of the node. -/
def readPod : (p : Pod) → Value → EStateM Failure Stack p.Value
  | .bool, .bool b => pure b
  | .char, .string s => do pure ((← orTranscode (tc.decode (cstr s))).headD 0)
  | .short, .number i => if -2 ^ 31 ≤ i ∧ i < 2 ^ 31 then pure (BitVec.ofInt 16 i) else throw .undefined
  | .long, .number i => if -2 ^ 63 ≤ i ∧ i < 2 ^ 63 then pure (BitVec.ofInt 64 i) else throw .undefined
  | .longlong, .number i => if -2 ^ 63 ≤ i ∧ i < 2 ^ 63 then pure (BitVec.ofInt 64 i) else throw .undefined
  | .float, .double d => pure (tc.narrow d)
  | .float, .number i => pure (tc.narrow (tc.ofInt i))
  | .double, .double d => pure d
  | .double, .number i => pure (tc.ofInt i)
  | .string, .string s => orTranscode (tc.decode (cstr s))
  | .binary, .string s => orTranscode (tc.decodeBinary (cstr s))
  | _, _ => throw .undefined

/-- The node at the back read, or `T()` when it is null. -/
def readNode (p : Pod) : Value → EStateM Failure Stack p.Value
  | .null => pure p.init
  | node => readPod tc p node

/-- `Implementation::read` of a plain value. -/
def read (p : Pod) (value : p.Value) (name : Option Name) : EStateM Failure Stack (p.Value × Bool) := do
  let result ← start name
  let value ← if result then do readNode tc p (← back) else pure value
  finish name
  pure (value, result)

/-- `Implementation::container_start`. -/
def containerStart (_ : Nat) (name : Option Name) : EStateM Failure Stack (Nat × Bool) := do
  if ← start name then
    let size ← stackElements
    pure (size, true)
  else
    pure (0, false)

/-- `json::reader::Implementation`. -/
def implementation : Archive.reader.Implementation Stack where
  containerStart := containerStart
  containerEnd := finish
  serialtypeStart := start
  serialtypeEnd := finish
  read := read tc

end reader

/-! ## Texts -/

/-- What the archive uses of rapidjson: `Document::Accept` of a `PrettyWriter`, and `Document::Parse`. -/
structure Library where
  accept : Value → Option Text
  parse : Text → Option Value

namespace Library

variable (lib : Library)

/-- The characters that a buffer has after `Accept`, up to the NUL that ends what `GetString` returns. -/
def buffer (document : Value) : Except Failure Text :=
  match lib.accept document with
  | some text => .ok (cstr text)
  | none => .error .invalidDocument

/-- `Save::serialize( std::string& json)`. -/
def saveString (document : Value) (_ : Text) : Except Failure Text := lib.buffer document

/-- `Save::serialize( std::ostream& stream)`: what the stream has then. -/
def saveStream (document : Value) (stream : Text) : Except Failure Text :=
  (lib.buffer document).map fun text => stream ++ text

/-- `Load::serialize( const char* json)`. -/
def loadChars (json : Text) : Except Failure Value :=
  match lib.parse json with
  | some document => .ok document
  | none => .error .invalidDocument

/-- `Load::serialize( const std::string& json)`. -/
def loadString (json : Text) : Except Failure Value := lib.loadChars (cstr json)

/-- `Load::serialize( std::istream& stream)`. A `std::istream_iterator< char>` skips white space. -/
def loadStream (stream : Text) : Except Failure Value := lib.loadString (stream.filter fun c => !Ini.isspace c)

end Library

/-- What a document is saved to and loaded from. -/
inductive Medium
  | string
  | stream
  deriving DecidableEq, Repr

/-- A document is saved. -/
def Library.save (lib : Library) : Medium → Value → Except Failure Text
  | .string, document => lib.saveString document []
  | .stream, document => lib.saveStream document []

/-- A document is loaded. -/
def Library.load (lib : Library) : Medium → Text → Except Failure Value
  | .string, text => lib.loadString text
  | .stream, text => lib.loadStream text

section

variable (tc : Transcode) (stl : Containers)

/-- The document of a `Save` in which one value is written. -/
def write (t : Ty) (value : t.Value) (name : Name) : Except Failure Value :=
  match (writer.implementation tc).serialize stl t value (some name) [.object []] with
  | .ok _ (document :: _) => .ok document
  | .ok _ [] => .error .undefined
  | .error failure _ => .error failure

/-- The reader that misses what is not there. -/
def strictReader (indeterminate : BitVec 64) : Reader reader.Stack := ⟨reader.implementation tc, .strict, indeterminate⟩

/-- A value read from a document by the strict reader, into `T()`. -/
def read (indeterminate : BitVec 64) (t : Ty) (name : Name) (document : Value) : Except Failure t.Value :=
  match (strictReader tc indeterminate).serialize stl t t.init (some name) [some document] with
  | .ok value _ => .ok value
  | .error failure _ => .error failure

/-- A value written, saved, loaded and read. -/
def writeRead (lib : Library) (indeterminate : BitVec 64) (save load : Medium) (t : Ty) (value : t.Value) (name : Name) :
    Except Failure t.Value := do
  let document ← write tc stl t value name
  let text ← lib.save save document
  let document ← lib.load load text
  read tc stl indeterminate t name document

end

end Casual.Archive.Json

/-
`serviceframework/source/archive/xml.cpp`: the writer has handles to the elements of a document that it
grows, the reader to the nodes of one that was loaded. A container has its elements pushed before they are
written or read, the last of them first.
-/
import Casual.Archive.Archive
import Casual.Archive.Ini
import Casual.Lib.Decimal
import Mathlib.Logic.Function.Basic

namespace Casual.Archive.Xml

open Casual.Lib

/-- A node of a document of pugixml. The document itself is an element without a name. -/
inductive Node
  | pcdata (text : Text)
  | element (name : Text) (children : List Node)

namespace Node

/-- Whether it is an element of that name. -/
def named (name : Text) : Node → Bool
  | .pcdata _ => false
  | .element name' _ => name' == name

/-- `children`. -/
def children : Node → List Node
  | .pcdata _ => []
  | .element _ children => children

/-- `child`. -/
def child (name : Text) (node : Node) : Option Node := node.children.find? (named name)

/-- The text of a node that is one. -/
def pcdata? : Node → Option Text
  | .pcdata text => some text
  | .element _ _ => none

/-- `text().get()`. -/
def text : Node → Text
  | .pcdata text => text
  | .element _ children => (children.findSome? pcdata?).getD []

end Node

/-- `common::transcode`, and the texts that streams make of floating-point numbers and read from them. -/
structure Transcode where
  /-- `utf8::encode`. -/
  encode : Text → Option Text
  /-- `utf8::decode`. -/
  decode : Text → Option Text
  /-- `base64::encode`. -/
  encodeBinary : List UInt8 → Text
  /-- `base64::decode`. -/
  decodeBinary : Text → Option (List UInt8)
  ofFloat : BitVec 32 → Text
  ofDouble : BitVec 64 → Text
  toFloat : Text → BitVec 32 → BitVec 32
  toDouble : Text → BitVec 64 → BitVec 64

/-! ## The writer -/

namespace writer

/-- What is in an element: a text, or another element by its handle. -/
inductive Child
  | pcdata (text : Text)
  | element (handle : Nat)
  deriving DecidableEq

/-- An element of the document that is written. -/
structure Element where
  name : Text
  children : List Child
  deriving DecidableEq

/-- The elements of the document by their handles, how many there are, and the handles of the open ones, the
one at the back first. -/
structure State where
  elements : Nat → Element
  count : Nat
  stack : List Nat

/-- What the writer does to its document. -/
abbrev M := EStateM Failure State

/-- A document, which has the handle zero, without elements. -/
def State.empty : State := ⟨fun _ => ⟨[], []⟩, 1, [0]⟩

/-- `m_stack.back()`. -/
def back : M Nat := do
  match (← get).stack with
  | handle :: _ => pure handle
  | [] => throw .undefined

/-- A new element in `parent` is pushed. -/
def insert (place : List Child → Child → List Child) (parent : Nat) (name : Text) (s : State) : State where
  elements := Function.update (Function.update s.elements s.count ⟨name, []⟩) parent
    ⟨(s.elements parent).name, place (s.elements parent).children (.element s.count)⟩
  count := s.count + 1
  stack := s.count :: s.stack

/-- `m_stack.push_back( parent.append_child( name))`. -/
def appendChild (parent : Nat) (name : Text) : M Unit :=
  modify (insert (fun children child => children ++ [child]) parent name)

/-- `m_stack.push_back( parent.prepend_child( name))`. -/
def prependChild (parent : Nat) (name : Text) : M Unit :=
  modify (insert (fun children child => child :: children) parent name)

/-- `Implementation::start`: an element of the name is put below the current one. -/
def start : Option Name → M Unit
  | none => pure ()
  | some name => do appendChild (← back) name.text

/-- `end`. -/
def finish (_ : Option Name) : M Unit := do
  match (← get).stack with
  | _ :: stack => modify fun s => { s with stack := stack }
  | [] => throw .undefined

/-- `"element"`. -/
def elementName : Text := [101, 108, 101, 109, 101, 110, 116]

/-- The loop of `container_start`. -/
def prependChildren (element : Nat) : Nat → M Unit
  | 0 => pure ()
  | size + 1 => do
    prependChild element elementName
    prependChildren element size

/-- `Implementation::container_start`: an element for each element of the container. -/
def containerStart (size : Nat) (name : Option Name) : M Nat := do
  start name
  prependChildren (← back) size
  pure size

/-- What `text().set` makes of the children: the first text among them is another, or there is one now. -/
def setText (text : Text) : List Child → List Child
  | [] => [.pcdata text]
  | .pcdata _ :: children => .pcdata text :: children
  | child :: children => child :: setText text children

/-- `text().set( text)`. -/
def set (text : Text) (handle : Nat) (s : State) : State where
  elements := Function.update s.elements handle ⟨(s.elements handle).name, setText text (s.elements handle).children⟩
  count := s.count
  stack := s.stack

/-- `m_stack.back().text().set( text.c_str())`. -/
def assign (text : Text) : M Unit := do
  let handle ← back
  modify (set (cstr text) handle)

/-- `std::boolalpha`. -/
def boolalpha : Bool → Text
  | true => [116, 114, 117, 101]
  | false => [102, 97, 108, 115, 101]

variable (tc : Transcode)

/-- `utf8::encode`, which throws. -/
def encode (s : Text) : M Text :=
  match tc.encode s with
  | some text => pure text
  | none => throw .transcode

/-- `Implementation::writer` of a plain value. -/
def writePod : (p : Pod) → p.Value → M Unit
  | .bool, value => assign (boolalpha value)
  | .char, value => do assign (← encode tc [value])
  | .short, value => assign (Decimal.ofInt value.toInt)
  | .long, value => assign (Decimal.ofInt value.toInt)
  | .longlong, value => assign (Decimal.ofInt value.toInt)
  | .float, value => assign (tc.ofFloat value)
  | .double, value => assign (tc.ofDouble value)
  | .string, value => do assign (← encode tc value)
  | .binary, value => assign (tc.encodeBinary value)

/-- `xml::writer::Implementation`. -/
def implementation : Archive.writer.Implementation State where
  containerStart := containerStart
  containerEnd := finish
  serialtypeStart := start
  serialtypeEnd := finish
  write p value name := do
    start name
    writePod tc p value
    finish name

/-- The nodes of the children, as many levels as there are. -/
def nodes (elements : Nat → Element) : Nat → List Child → List Node
  | 0, _ => []
  | levels + 1, children => children.map fun
    | .pcdata text => .pcdata text
    | .element handle => .element (elements handle).name (nodes elements levels (elements handle).children)

/-- What the document has in it. -/
def State.document (s : State) : List Node := nodes s.elements s.count (s.elements 0).children

end writer

/-! ## The reader -/

namespace reader

/-- The node at the back first. A child that a node does not have is the null node. -/
abbrev Stack := List (Option Node)

/-- What the reader does to its stack. -/
abbrev M := EStateM Failure Stack

/-- `m_stack.back()`. -/
def back : M (Option Node)
  | node :: stack => .ok node (node :: stack)
  | [] => .error .undefined []

/-- Without a name the node is at the back, whatever it is. -/
def start : Option Name → M Bool
  | none => pure true
  | some name => do
    let child := (← back).bind (Node.child name.text)
    modify fun stack => child :: stack
    pure child.isSome

/-- `end`. -/
def finish (_ : Option Name) : M Unit
  | _ :: stack => .ok () stack
  | [] => .error .undefined []

/-- `Implementation::container_start`. -/
def containerStart (_ : Nat) (name : Option Name) : M (Nat × Bool) := do
  if ← start name then
    let content := ((← back).map Node.children).getD []
    modify fun stack => content.map some ++ stack
    pure (content.length, true)
  else
    pure (0, false)

/-- `stream >> value` of an integer. A stream that is at its end leaves the value, and what is not in its range
is the nearest that is. -/
def extract (w : Nat) (text : Text) (old : BitVec w) : BitVec w :=
  if text.dropWhile Ini.isspace = [] then old
  else match Decimal.scan (text.dropWhile Ini.isspace) with
    | some i => BitVec.ofInt w (max (-2 ^ (w - 1)) (min i (2 ^ (w - 1) - 1)))
    | none => 0

/-- `stream >> std::boolalpha >> value`. -/
def extractBool (text : Text) (old : Bool) : Bool :=
  if text.dropWhile Ini.isspace = [] then old
  else (writer.boolalpha true).isPrefixOf (text.dropWhile Ini.isspace)

variable (tc : Transcode)

/-- What `common::transcode` throws. -/
def orTranscode {α : Type} : Option α → M α
  | some a => pure a
  | none => throw .transcode

/-- `read( T& value)`, from the text of the node. -/
def readPod (text : Text) : (p : Pod) → p.Value → M p.Value
  | .bool, old => pure (extractBool text old)
  | .char, _ => do pure ((cstr (← orTranscode (tc.decode text))).headD 0)
  | .short, old => pure (extract 16 text old)
  | .long, old => pure (extract 64 text old)
  | .longlong, old => pure (extract 64 text old)
  | .float, old => pure (tc.toFloat text old)
  | .double, old => pure (tc.toDouble text old)
  | .string, _ => orTranscode (tc.decode text)
  | .binary, _ => orTranscode (tc.decodeBinary text)

/-- `Implementation::read` of a plain value. -/
def read (p : Pod) (value : p.Value) (name : Option Name) : M (p.Value × Bool) := do
  let result ← start name
  let value ← if result then do readPod tc (((← back).map Node.text).getD []) p value else pure value
  finish name
  pure (value, result)

/-- `xml::reader::Implementation`. -/
def implementation : Archive.reader.Implementation Stack where
  containerStart := containerStart
  containerEnd := finish
  serialtypeStart := start
  serialtypeEnd := finish
  read := read tc

end reader

/-- `xml::Reader`. -/
def strictReader (tc : Transcode) (indeterminate : BitVec 64) : Reader reader.Stack :=
  ⟨reader.implementation tc, .strict, indeterminate⟩

/-! ## Texts -/

/-- What the archive uses of pugixml: `save` with an indent of one space, and `load_buffer`. -/
structure Library where
  save : List Node → Text
  parse : Text → Option (List Node)

/-- The overloads of `Load::serialize`. -/
inductive Source
  | string
  | stream
  | chars
  deriving DecidableEq, Repr

namespace Library

variable (lib : Library)

/-- `Save::serialize( std::ostream& stream)`: what the stream has then. -/
def saveStream (document : List Node) (stream : Text) : Text := stream ++ lib.save document

/-- `Save::serialize( std::string& xml)`. -/
def saveString (document : List Node) (_ : Text) : Text := lib.saveStream document []

/-- `check`, on the result of loading. -/
def check : Option (List Node) → Except Failure Node
  | some document => .ok (.element [] document)
  | none => .error .invalidDocument

/-- `Load::serialize`. Of a `const char*` no more than what stands before the NUL is loaded. -/
def load (lib : Library) : Source → Text → Except Failure Node
  | .string, xml => check (lib.parse xml)
  | .stream, stream => check (lib.parse stream)
  | .chars, xml => check (lib.parse (cstr xml))

end Library

end Casual.Archive.Xml

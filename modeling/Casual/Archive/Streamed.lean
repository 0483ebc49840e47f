/-
Nothing that is read has a NUL in a string, and nothing that is read from a stream has a space in it:
a value comes back exactly when it has neither.
-/
import Casual.Archive.RoundTrip

namespace Casual.Archive.Json

open Casual.Lib

/-! ## Strings of a document -/

mutual

/-- Every string and every name of a member has the property. -/
def Value.Every (P : Text → Prop) : Value → Prop
  | .string s => P s
  | .array elements => elementsEvery P elements
  | .object members => membersEvery P members
  | _ => True

/-- A property holds of the texts in elements. -/
def elementsEvery (P : Text → Prop) : List Value → Prop
  | [] => True
  | element :: elements => element.Every P ∧ elementsEvery P elements

/-- A property holds of the names and the texts in members. -/
def membersEvery (P : Text → Prop) : List (Text × Value) → Prop
  | [] => True
  | (name, member) :: members => P name ∧ member.Every P ∧ membersEvery P members

end

/-- A text without its blanks. -/
def squeezeText (s : Text) : Text := s.filter (· ≠ 32)

mutual

/-- The document without the spaces in its strings. -/
def Value.squeeze : Value → Value
  | .string s => .string (squeezeText s)
  | .array elements => .array (squeezeElements elements)
  | .object members => .object (squeezeMembers members)
  | value => value

/-- Elements without the blanks in their texts. -/
def squeezeElements : List Value → List Value
  | [] => []
  | element :: elements => element.squeeze :: squeezeElements elements

/-- Members without the blanks in their names and texts. -/
def squeezeMembers : List (Text × Value) → List (Text × Value)
  | [] => []
  | (name, member) :: members => (squeezeText name, member.squeeze) :: squeezeMembers members

end

section

variable {P : Text → Prop}

theorem elementsEvery_iff : ∀ {elements : List Value}, elementsEvery P elements ↔ ∀ element ∈ elements, element.Every P
  | [] => by simp [elementsEvery]
  | element :: elements => by
    have ih := @elementsEvery_iff elements
    simp only [elementsEvery, ih, List.forall_mem_cons]

theorem every_of_lookup : ∀ {members : List (Text × Value)}, membersEvery P members → ∀ {name : Text} {value : Value},
    members.lookup name = some value → P name ∧ value.Every P
  | [], _, _, _, h => by simp at h
  | (key, member) :: members, hm, name, value, h => by
    obtain ⟨hk, hv, hr⟩ := hm
    rw [List.lookup_cons] at h
    by_cases he : name = key
    · subst he
      simp only [beq_self_eq_true, Option.some.injEq] at h
      subst h
      exact ⟨hk, hv⟩
    · have hb : (name == key) = false := by simpa using he
      rw [hb] at h
      exact every_of_lookup hr h

end

mutual

theorem every_true : ∀ value : Value, value.Every fun _ => True
  | .string _ => trivial
  | .array elements => elementsEvery_true elements
  | .object members => membersEvery_true members
  | .null => trivial
  | .bool _ => trivial
  | .number _ => trivial
  | .double _ => trivial

theorem elementsEvery_true : ∀ elements : List Value, elementsEvery (fun _ => True) elements
  | [] => trivial
  | element :: elements => ⟨every_true element, elementsEvery_true elements⟩

theorem membersEvery_true : ∀ members : List (Text × Value), membersEvery (fun _ => True) members
  | [] => trivial
  | (_, member) :: members => ⟨trivial, every_true member, membersEvery_true members⟩

end

theorem not_mem_squeezeText (s : Text) : 32 ∉ squeezeText s := by
  simp [squeezeText]

theorem squeezeText_eq {s : Text} (h : 32 ∉ s) : squeezeText s = s := by
  refine List.filter_eq_self.2 fun c hc => ?_
  have hne : c ≠ 32 := by
    rintro rfl
    exact h hc
  simpa using hne

mutual

theorem squeeze_every : ∀ value : Value, value.squeeze.Every (32 ∉ ·)
  | .string s => not_mem_squeezeText s
  | .array elements => squeezeElements_every elements
  | .object members => squeezeMembers_every members
  | .null => trivial
  | .bool _ => trivial
  | .number _ => trivial
  | .double _ => trivial

theorem squeezeElements_every : ∀ elements : List Value, elementsEvery (32 ∉ ·) (squeezeElements elements)
  | [] => trivial
  | element :: elements => ⟨squeeze_every element, squeezeElements_every elements⟩

theorem squeezeMembers_every : ∀ members : List (Text × Value), membersEvery (32 ∉ ·) (squeezeMembers members)
  | [] => trivial
  | (name, member) :: members => ⟨not_mem_squeezeText name, squeeze_every member, squeezeMembers_every members⟩

end

mutual

/-- A document without spaces stays as it is. -/
theorem squeeze_eq : ∀ value : Value, value.Every (32 ∉ ·) → value.squeeze = value
  | .string _, h => congrArg Value.string (squeezeText_eq h)
  | .array elements, h => congrArg Value.array (squeezeElements_eq elements h)
  | .object members, h => congrArg Value.object (squeezeMembers_eq members h)
  | .null, _ => rfl
  | .bool _, _ => rfl
  | .number _, _ => rfl
  | .double _, _ => rfl

theorem squeezeElements_eq : ∀ elements : List Value, elementsEvery (32 ∉ ·) elements → squeezeElements elements = elements
  | [], _ => rfl
  | element :: elements, h => by
    rw [squeezeElements, squeeze_eq element h.1, squeezeElements_eq elements h.2]

theorem squeezeMembers_eq : ∀ members : List (Text × Value), membersEvery (32 ∉ ·) members →
    squeezeMembers members = members
  | [], _ => rfl
  | (name, member) :: members, h => by
    rw [squeezeMembers, squeezeText_eq h.1, squeeze_eq member h.2.1, squeezeMembers_eq members h.2.2]

end

/-! ## The document of a value without spaces -/

/-- No string, no character and no name of a member is or has a space. -/
def spaceFree : Property where
  string s := 32 ∉ s
  char c := c ≠ 32
  float _ := True
  name n := 32 ∉ n.text

section

variable {tc : Transcode} {stl : Containers}

theorem encode_spaceFree (htc : tc.Correct) {s : Text} (h : 32 ∉ s) : 32 ∉ (tc.encode s).getD [] := by
  cases hu : tc.encode s with
  | none => simp
  | some u => exact htc.not_mem_encode (.inr rfl) h hu

theorem kindNode_every (htc : tc.Correct) {k : Kind} {value : k.Value} (h : k.Every spaceFree value) :
    (kindNode tc k value).Every (32 ∉ ·) := by
  cases k with
  | pod p =>
    cases p with
    | char =>
      have hc : (32 : UInt8) ∉ [value] := by simpa using Ne.symm h
      exact encode_spaceFree htc hc
    | string => exact encode_spaceFree htc h
    | binary => exact htc.not_mem_encodeBinary (.inr rfl)
    | _ => trivial
  | int => trivial
  | ulong => trivial

mutual

theorem node_every (htc : tc.Correct) : ∀ (t : Ty) (value : t.Value), t.Every spaceFree value →
    (node tc stl t value).Every (32 ∉ ·)
  | .kind _, _, h => kindNode_every htc h
  | .enum _, _, h => kindNode_every htc h
  | .composite members, value, h => memberNodes_every htc members value h
  | .tuple elements, value, h => elementNodes_every htc elements value h
  | .sequence element, value, h => by
    refine elementsEvery_iff.2 fun n hn => ?_
    obtain ⟨v, hv, rfl⟩ := List.mem_map.1 hn
    exact node_every htc element v (h v hv)
  | .associative container element, value, h => by
    refine elementsEvery_iff.2 fun n hn => ?_
    obtain ⟨v, hv, rfl⟩ := List.mem_map.1 hn
    exact node_every htc element v (h v ((stl container element).mem_iterate.1 hv))

theorem memberNodes_every (htc : tc.Correct) : ∀ (members : Members) (value : members.Value),
    members.Every spaceFree value → membersEvery (32 ∉ ·) (memberNodes tc stl members value)
  | .nil, _, _ => trivial
  | .cons _ member members, value, h =>
    ⟨h.1, node_every htc member value.1 h.2.1, memberNodes_every htc members value.2 h.2.2⟩

theorem elementNodes_every (htc : tc.Correct) : ∀ (elements : Elements) (value : elements.Value),
    elements.Every spaceFree value → elementsEvery (32 ∉ ·) (elementNodes tc stl elements value)
  | .nil, _, _ => trivial
  | .cons element elements, value, h =>
    ⟨node_every htc element value.1 h.1, elementNodes_every htc elements value.2 h.2⟩

end

end

/-! ## What is read from a document -/

/-- What is read from strings with `P` has `Q`. -/
structure Yields (tc : Transcode) (P : Text → Prop) (Q : Property) : Prop where
  decode : ∀ {s u}, P s → tc.decode (cstr s) = some u → Q.string u ∧ Q.char (u.headD 0)
  nil : Q.string []
  nul : Q.char 0
  float : ∀ f, Q.float f
  name : ∀ {n : Name}, P n.text → Q.name n

theorem yields_nulFree {tc : Transcode} (htc : tc.Correct) : Yields tc (fun _ => True) nulFree where
  decode _ hu := ⟨htc.not_mem_decode (.inl rfl) (zero_not_mem_cstr _) hu, trivial⟩
  nil := List.not_mem_nil
  nul := trivial
  float _ := trivial
  name _ := trivial

theorem yields_spaceFree {tc : Transcode} (htc : tc.Correct) : Yields tc (32 ∉ ·) spaceFree where
  decode {s u} hs hu := by
    have hn : 32 ∉ u := htc.not_mem_decode (.inr rfl) (not_mem_cstr hs) hu
    refine ⟨hn, ?_⟩
    cases u with
    | nil => exact (by decide : (0 : UInt8) ≠ 32)
    | cons c u =>
      rintro rfl
      exact hn List.mem_cons_self
  nil := List.not_mem_nil
  nul := (by decide : (0 : UInt8) ≠ 32)
  float _ := trivial
  name h := h

/-- Every document on the stack has the property. -/
def Held (P : Text → Prop) (stack : reader.Stack) : Prop := ∀ value, some value ∈ stack → value.Every P

/-- Where it returns, the program returns something with `R`, and the stack still holds documents with
the property. -/
def Reads {α : Type} (P : Text → Prop) (R : α → Prop) (x : EStateM Failure reader.Stack α) : Prop :=
  Triple (Held P) x (fun a stack => R a ∧ Held P stack) (fun _ _ => True)

namespace Reads

variable {P : Text → Prop} {α β : Type} {R : α → Prop} {S : β → Prop}

theorem pure {a : α} (h : R a) : Reads P R (pure a) := Triple.pure fun _ hs => ⟨h, hs⟩

theorem throw {e : Failure} : Reads P R (throw e) := Triple.throw fun _ _ => trivial

theorem bind {x : EStateM Failure reader.Stack α} {f : α → EStateM Failure reader.Stack β} (hx : Reads P R x)
    (hf : ∀ a, R a → Reads P S (f a)) : Reads P S (x >>= f) := by
  refine Triple.bind hx fun a => ?_
  intro stack h
  exact hf a h.1 stack h.2

theorem mono {R' : α → Prop} {x : EStateM Failure reader.Stack α} (hx : Reads P R x) (h : ∀ a, R a → R' a) :
    Reads P R' x :=
  Triple.conseq hx (fun _ hs => hs) (fun a _ ha => ⟨h a ha.1, ha.2⟩) fun _ _ he => he

theorem mapM {f : α → EStateM Failure reader.Stack β} : ∀ {l : List α}, (∀ a ∈ l, Reads P S (f a)) →
    Reads P (fun bs : List β => ∀ b ∈ bs, S b) (l.mapM f)
  | [], _ => by
    rw [List.mapM_nil]
    exact pure (List.forall_mem_nil _)
  | a :: l, h => by
    rw [List.mapM_cons]
    refine bind (h a List.mem_cons_self) fun b hb => ?_
    refine bind (mapM fun c hc => h c (List.mem_cons_of_mem _ hc)) fun bs hbs => pure ?_
    exact List.forall_mem_cons.2 ⟨hb, hbs⟩

theorem insertEach {c : Container α} {x : EStateM Failure reader.Stack α} (hx : Reads P R x) :
    ∀ (count : Nat) {content : List α}, (∀ a ∈ content, R a) →
      Reads P (fun as : List α => ∀ a ∈ as, R a) (Reader.insertEach c x count content)
  | 0, _, h => pure h
  | count + 1, content, h => by
    refine bind hx fun a ha => insertEach hx count fun b hb => ?_
    rcases c.mem_of_insert hb with rfl | hb
    · exact ha
    · exact h b hb

end Reads

section

variable {tc : Transcode} {stl : Containers} {indeterminate : BitVec 64} {P : Text → Prop} {Q : Property}

theorem start_held (name : Option Name) :
    Reads P (fun found => found = true → ∀ n, name = some n → P n.text) (reader.start name) := by
  intro stack h
  cases stack with
  | nil => trivial
  | cons top stack =>
    cases name with
    | none => exact ⟨fun _ _ hn => (by cases hn), h⟩
    | some n =>
      cases top with
      | none => exact ⟨fun hf => (by cases hf), fun value hv => h value (by simpa using hv)⟩
      | some value =>
        cases value with
        | object members =>
          have hm : membersEvery P members := h _ List.mem_cons_self
          refine ⟨fun hf k hk => ?_, fun value hv => ?_⟩
          · obtain ⟨value, hl⟩ := Option.isSome_iff_exists.1 hf
            cases hk
            exact (every_of_lookup hm hl).1
          · rcases List.mem_cons.1 hv with hv | hv
            · exact (every_of_lookup hm hv.symm).2
            · exact h value hv
        | _ => trivial

theorem finish_held (name : Option Name) : Reads P (fun _ => True) (reader.finish name) := by
  intro stack h
  cases stack with
  | nil => trivial
  | cons top stack => exact ⟨trivial, fun value hv => h value (List.mem_cons_of_mem _ hv)⟩

theorem back_held : Reads P (Value.Every P) reader.back := by
  intro stack h
  cases stack with
  | nil => trivial
  | cons top stack =>
    cases top with
    | none => trivial
    | some value => exact ⟨h value List.mem_cons_self, h⟩

theorem stackElements_held : Reads P (fun _ => True) reader.stackElements := by
  intro stack h
  cases stack with
  | nil => trivial
  | cons top stack =>
    cases top with
    | none => trivial
    | some value =>
      cases value with
      | array elements =>
        have he : elementsEvery P elements := h _ List.mem_cons_self
        refine ⟨trivial, fun value hv => ?_⟩
        rcases List.mem_append.1 hv with hv | hv
        · obtain ⟨element, hm, hs⟩ := List.mem_map.1 hv
          cases hs
          exact elementsEvery_iff.1 he _ hm
        · exact h value hv
      | _ => trivial

theorem apply_held (result : Bool) (name : Option Name) :
    Reads P (fun found => found = true ∧ result = true) (Policy.apply .strict result name) := by
  cases result with
  | true => exact Reads.pure ⟨rfl, rfl⟩
  | false => cases name <;> exact Reads.throw

theorem orTranscode_held {α : Type} {R : α → Prop} {o : Option α} (h : ∀ a, o = some a → R a) :
    Reads P R (reader.orTranscode o) := by
  cases o with
  | none => exact Reads.throw
  | some a => exact Reads.pure (h a rfl)

theorem ite_held {α : Type} {R : α → Prop} {c : Prop} [Decidable c] {a : α} (h : R a) :
    Reads P R (if c then pure a else throw Failure.undefined) := by
  split_ifs
  · exact Reads.pure h
  · exact Reads.throw

section

variable (hy : Yields tc P Q)

include hy

theorem init_every : ∀ p : Pod, (Kind.pod p).Every Q p.init
  | .string => hy.nil
  | .char => hy.nul
  | .float => hy.float _
  | .bool => trivial
  | .short => trivial
  | .long => trivial
  | .longlong => trivial
  | .double => trivial
  | .binary => trivial

theorem readPod_held (p : Pod) {value : Value} (h : value.Every P) :
    Reads P ((Kind.pod p).Every Q) (reader.readPod tc p value) := by
  cases p with
  | bool =>
    cases value with
    | bool b => exact Reads.pure trivial
    | _ => exact Reads.throw
  | char =>
    cases value with
    | string s =>
      refine Reads.bind (orTranscode_held (R := fun u => Q.char (u.headD 0)) fun u hu => (hy.decode h hu).2) ?_
      exact fun u hu => Reads.pure hu
    | _ => exact Reads.throw
  | short =>
    cases value with
    | number i => exact ite_held trivial
    | _ => exact Reads.throw
  | long =>
    cases value with
    | number i => exact ite_held trivial
    | _ => exact Reads.throw
  | longlong =>
    cases value with
    | number i => exact ite_held trivial
    | _ => exact Reads.throw
  | float =>
    cases value with
    | double d => exact Reads.pure (hy.float _)
    | number i => exact Reads.pure (hy.float _)
    | _ => exact Reads.throw
  | double =>
    cases value with
    | double d => exact Reads.pure trivial
    | number i => exact Reads.pure trivial
    | _ => exact Reads.throw
  | string =>
    cases value with
    | string s => exact orTranscode_held fun u hu => (hy.decode h hu).1
    | _ => exact Reads.throw
  | binary =>
    cases value with
    | string s => exact orTranscode_held fun _ _ => trivial
    | _ => exact Reads.throw

theorem readNode_held (p : Pod) {value : Value} (h : value.Every P) :
    Reads P ((Kind.pod p).Every Q) (reader.readNode tc p value) := by
  cases value with
  | null => exact Reads.pure (init_every hy p)
  | _ => exact readPod_held hy p h

/-- A named value that the strict reader reads has its name in the document. -/
theorem pod_held (p : Pod) (old : p.Value) (name : Option Name) :
    Reads P (fun value => (Kind.pod p).Every Q value ∧ ∀ n, name = some n → Q.name n)
      ((strictReader tc indeterminate).pod p old name) := by
  have hread : Reads P (fun result : p.Value × Bool =>
      result.2 = true → (Kind.pod p).Every Q result.1 ∧ ∀ n, name = some n → Q.name n) (reader.read tc p old name) := by
    refine Reads.bind (start_held name) fun found hfound => ?_
    cases found with
    | true =>
      have hname : ∀ n, name = some n → Q.name n := fun n hn => hy.name (hfound rfl n hn)
      refine Reads.bind back_held fun node hn => Reads.bind (readNode_held hy p hn) fun value hv => ?_
      exact Reads.bind (finish_held name) fun _ _ => Reads.pure fun _ => ⟨hv, hname⟩
    | false =>
      refine Reads.bind (R := fun _ => True) (Reads.pure trivial) fun value _ => ?_
      exact Reads.bind (finish_held name) fun _ _ => Reads.pure nofun
  refine Reads.bind hread fun result hr => ?_
  exact Reads.bind (apply_held result.2 name) fun _ ha => Reads.pure (hr ha.2)

theorem read_held (k : Kind) (old : k.Value) (name : Option Name) :
    Reads P (fun value => k.Every Q value ∧ ∀ n, name = some n → Q.name n)
      ((strictReader tc indeterminate).read k old name) := by
  cases k with
  | pod p => exact pod_held hy p old name
  | int => exact Reads.bind (pod_held hy .long _ name) fun temp h => Reads.pure ⟨trivial, h.2⟩
  | ulong => exact Reads.mono (pod_held hy .long _ name) fun temp h => ⟨trivial, h.2⟩

theorem serialtypeStart_held (name : Option Name) :
    Reads P (fun found => found = true ∧ ∀ n, name = some n → Q.name n)
      ((strictReader tc indeterminate).serialtypeStart name) := by
  refine Reads.bind (start_held name) fun found hfound => ?_
  exact Reads.mono (apply_held found name) fun _ h => ⟨h.1, fun n hn => hy.name (hfound h.2 n hn)⟩

theorem containerStart_held (size : Nat) (name : Option Name) :
    Reads P (fun _ => ∀ n, name = some n → Q.name n) ((strictReader tc indeterminate).containerStart size name) := by
  have hstart : Reads P (fun result : Nat × Bool => result.2 = true → ∀ n, name = some n → Q.name n)
      (reader.containerStart size name) := by
    refine Reads.bind (start_held name) fun found hfound => ?_
    cases found with
    | true => exact Reads.bind stackElements_held fun _ _ => Reads.pure fun _ n hn => hy.name (hfound rfl n hn)
    | false => exact Reads.pure nofun
  refine Reads.bind hstart fun result hr => ?_
  exact Reads.bind (apply_held result.2 name) fun _ ha => Reads.pure (hr ha.2)

end

mutual

/-- Whatever the strict reader returns has the property, and so does the name under which it was found. -/
theorem serialize_held (hy : Yields tc P Q) : ∀ (t : Ty) (name : Option Name), Reads P
    (fun value => t.Every Q value ∧ ∀ n, name = some n → Q.name n)
    ((strictReader tc indeterminate).serialize stl t t.init name)
  | .kind k, name => read_held hy k _ name
  | .enum k, name => read_held hy k _ name
  | .composite members, name => by
    simp only [Reader.serialize]
    refine Reads.bind (serialtypeStart_held hy name) fun found hf => ?_
    rw [hf.1]
    refine Reads.bind (serializeMembers_held hy members) fun value hv => ?_
    exact Reads.bind (finish_held name) fun _ _ => Reads.pure ⟨hv, hf.2⟩
  | .tuple elements, name => by
    simp only [Reader.serialize]
    refine Reads.bind (containerStart_held hy _ name) fun size hs => ?_
    split_ifs
    · refine Reads.bind (serializeElements_held hy elements) fun value hv => ?_
      exact Reads.bind (finish_held name) fun _ _ => Reads.pure ⟨hv, hs⟩
    · exact Reads.throw
  | .sequence element, name => by
    have he : Reads P (element.Every Q) ((strictReader tc indeterminate).serialize stl element element.init none) :=
      Reads.mono (serialize_held hy element none) fun _ h => h.1
    simp only [Reader.serialize]
    refine Reads.bind (containerStart_held hy 0 name) fun size hs => ?_
    refine Reads.bind (Reads.mapM fun v hv => ?_) fun value hv =>
      Reads.bind (finish_held name) fun _ _ => Reads.pure ⟨hv, hs⟩
    have hv : v = element.init := by
      simp only [Ty.init, Reader.resize, List.take_nil, List.nil_append] at hv
      exact List.eq_of_mem_replicate hv
    rw [hv]
    exact he
  | .associative container element, name => by
    have he : Reads P (element.Every Q) ((strictReader tc indeterminate).serialize stl element element.init none) :=
      Reads.mono (serialize_held hy element none) fun _ h => h.1
    simp only [Reader.serialize]
    refine Reads.bind (containerStart_held hy 0 name) fun count hs => ?_
    refine Reads.bind (Reads.insertEach he count (List.forall_mem_nil _)) fun value hv => ?_
    exact Reads.bind (finish_held name) fun _ _ => Reads.pure ⟨hv, hs⟩

theorem serializeMembers_held (hy : Yields tc P Q) : ∀ members : Members,
    Reads P (members.Every Q) ((strictReader tc indeterminate).serializeMembers stl members members.init)
  | .nil => Reads.pure trivial
  | .cons name member members => by
    simp only [Reader.serializeMembers]
    refine Reads.bind (serialize_held hy member (some name)) fun first hf => ?_
    refine Reads.bind (serializeMembers_held hy members) fun rest hr => ?_
    exact Reads.pure ⟨hf.2 name rfl, hf.1, hr⟩

theorem serializeElements_held (hy : Yields tc P Q) : ∀ elements : Elements,
    Reads P (elements.Every Q) ((strictReader tc indeterminate).serializeElements stl elements elements.init)
  | .nil => Reads.pure trivial
  | .cons element elements => by
    simp only [Reader.serializeElements]
    refine Reads.bind (serialize_held hy element none) fun first hf => ?_
    refine Reads.bind (serializeElements_held hy elements) fun rest hr => ?_
    exact Reads.pure ⟨hf.1, hr⟩

end

end

/-! ## There and back -/

/-- The library is right about a document: it makes a text of it that it parses to the document again.
A control character in a string is written as an escape, so the only white space in a string of the
text is the space, and between the tokens white space does not matter. -/
structure Library.Correct (lib : Library) (document : Value) : Prop where
  parse_accept : ∃ text, lib.accept document = some text ∧ 0 ∉ text ∧ lib.parse text = some document ∧
    lib.parse (text.filter fun c => !Ini.isspace c) = some document.squeeze

/-- What is loaded from a medium that a document was saved to. -/
def Medium.loaded : Medium → Value → Value
  | .string, document => document
  | .stream, document => document.squeeze

section

variable {tc : Transcode} {stl : Containers} {indeterminate : BitVec 64} {lib : Library}

theorem save_eq {document : Value} {text : Text} (ha : lib.accept document = some text) (hn : 0 ∉ text) (save : Medium) :
    lib.save save document = .ok text := by
  have hb : lib.buffer document = .ok text := by
    simp only [Library.buffer, ha, cstr_eq hn]
  cases save with
  | string => exact hb
  | stream =>
    simp only [Library.save, Library.saveStream, hb]
    rfl

theorem load_save {document : Value} (h : lib.Correct document) (save load : Medium) :
    (lib.save save document >>= fun text => lib.load load text) = .ok (load.loaded document) := by
  obtain ⟨text, ha, hn, hp, hs⟩ := h.parse_accept
  rw [save_eq ha hn save]
  change lib.load load text = _
  cases load with
  | string => simp only [Library.load, Library.loadString, Library.loadChars, cstr_eq hn, hp, Medium.loaded]
  | stream =>
    have hf : 0 ∉ text.filter fun c => !Ini.isspace c := fun h => hn (List.mem_of_mem_filter h)
    simp only [Library.load, Library.loadStream, Library.loadString, Library.loadChars, cstr_eq hf, hs, Medium.loaded]

theorem every_of_read {P : Text → Prop} {Q : Property} (hy : Yields tc P Q) {t : Ty} {name : Name} {document : Value}
    {value : t.Value} (hd : document.Every P) (h : read tc stl indeterminate t name document = .ok value) :
    t.Every Q value ∧ Q.name name := by
  have hheld : Held P [some document] := fun node hn => by
    cases List.mem_singleton.1 hn
    exact hd
  have hr := @serialize_held tc stl indeterminate P Q hy t (some name) [some document] hheld
  unfold read at h
  cases hs : (strictReader tc indeterminate).serialize stl t t.init (some name) [some document] with
  | ok v stack =>
    rw [hs] at hr h
    cases h
    exact ⟨hr.1.1, hr.1.2 name rfl⟩
  | error e stack =>
    rw [hs] at h
    cases h

/-- What was written is read. -/
theorem read_document (htc : tc.Correct) {t : Ty} {value : t.Value} (hd : t.Distinct) (hr : t.Regular stl value)
    (hp : t.Every (portable tc) value) (hn : t.Every nulFree value) (name : Name) :
    read tc stl indeterminate t name (.object [(name.text, node tc stl t value)]) = .ok value := by
  have hl : [(name.text, node tc stl t value)].lookup name.text = some (node tc stl t value) := List.lookup_cons_self
  have hs := @serialize_reads tc stl indeterminate htc t value hd hr hp hn (some name) _ _ (start_member hl [])
  simp only [read, hs]

/-- A value comes back from a string exactly when no string in it has a NUL, and from a stream when no
string, character or name has a space either. -/
theorem writeRead_iff (htc : tc.Correct) {t : Ty} {value : t.Value} (hd : t.Distinct) (hr : t.Regular stl value)
    (hp : t.Every (portable tc) value) (name : Name)
    (hl : ∀ document, write tc stl t value name = .ok document → lib.Correct document) (save load : Medium) :
    writeRead tc stl lib indeterminate save load t value name = .ok value ↔
      t.Every nulFree value ∧ (load = .stream → t.Every spaceFree value ∧ 32 ∉ name.text) := by
  have hw := @write_eq tc stl t value hp name
  have hread : writeRead tc stl lib indeterminate save load t value name =
      read tc stl indeterminate t name (load.loaded (.object [(name.text, node tc stl t value)])) := by
    have hls := load_save (hl _ hw) save load
    unfold writeRead
    rw [hw]
    change (lib.save save _ >>= fun text => lib.load load text >>= fun document =>
      read tc stl indeterminate t name document) = _
    rw [← bind_assoc, hls]
    rfl
  rw [hread]
  constructor
  · intro h
    refine ⟨(every_of_read (yields_nulFree htc) (every_true _) h).1, ?_⟩
    rintro rfl
    exact every_of_read (yields_spaceFree htc) (squeeze_every _) h
  · rintro ⟨hn, hs⟩
    have hsame : load.loaded (.object [(name.text, node tc stl t value)]) =
        .object [(name.text, node tc stl t value)] := by
      cases load with
      | string => rfl
      | stream =>
        obtain ⟨hv, hname⟩ := hs rfl
        exact squeeze_eq _ ⟨hname, node_every htc t value hv, trivial⟩
    rw [hsame]
    exact read_document htc hd hr hp hn name

end

section Witness

/-- A locale of plain bytes. A byte of a binary is written as two letters. -/
def bytes : Transcode where
  encode := some
  decode := some
  encodeBinary data := data.flatMap letters
  decodeBinary s := some (pairs s)
  widen f := f.setWidth 64
  narrow d := d.setWidth 32
  ofInt := BitVec.ofInt 64

theorem bytes_correct : bytes.Correct where
  decode_encode h := by cases h; rfl
  encode_nul h := by cases h; rfl
  decode_nil := rfl
  not_mem_encode _ h hu := by cases hu; exact h
  not_mem_decode _ h hu := by cases hu; exact h
  decodeBinary_encodeBinary data := congrArg some (pairs_letters data)
  not_mem_encodeBinary {data c} hc h := by
    obtain ⟨b, -, hb⟩ := List.mem_flatMap.1 h
    have hle := le_of_mem_letters hb
    rcases hc with rfl | rfl <;> exact absurd hle (by decide)

/-- The text of the document with the one member `v`, which is "a b". -/
def text : Text := [123, 10, 32, 32, 32, 32, 34, 118, 34, 58, 32, 34, 97, 32, 98, 34, 10, 125]

/-- A member `v` whose text has a blank. -/
def document : Value := .object [([118], .string [97, 32, 98])]

/-- The library, as far as that document goes. -/
def table : Library where
  accept _ := some text
  parse s := if s = text then some document else if s = (text.filter fun c => !Ini.isspace c) then some document.squeeze else none

theorem table_correct : table.Correct document := ⟨text, rfl, by decide, rfl, rfl⟩

theorem string_returns : writeRead bytes vectors table 0 .stream .string (.kind (.pod .string)) [97, 32, 98] valueName =
    .ok [97, 32, 98] :=
  (@writeRead_iff bytes vectors 0 table bytes_correct (.kind (.pod .string)) [97, 32, 98] trivial trivial rfl valueName
    (fun document h => by cases h; exact table_correct) .stream .string).2
    ⟨(by decide : (0 : UInt8) ∉ [97, 32, 98]), Medium.noConfusion⟩

/-- Loaded from a stream, "a b" is "ab". -/
theorem stream_loses : bytes.Correct ∧ table.Correct document ∧
    writeRead bytes vectors table 0 .stream .stream (.kind (.pod .string)) [97, 32, 98] valueName = .ok [97, 98] ∧
    writeRead bytes vectors table 0 .stream .stream (.kind (.pod .string)) [97, 32, 98] valueName ≠ .ok [97, 32, 98] := by
  have h : writeRead bytes vectors table 0 .stream .stream (.kind (.pod .string)) [97, 32, 98] valueName = .ok [97, 98] :=
    rfl
  refine ⟨bytes_correct, table_correct, h, ?_⟩
  rw [h]
  exact fun he => absurd (Except.ok.inj he) (by decide)

end Witness

end Casual.Archive.Json

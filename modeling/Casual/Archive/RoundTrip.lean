/-
What becomes of a value that is written to a document of rapidjson, saved, loaded and read. Through a
string nothing is lost but what stands behind a NUL in a string; through a stream the spaces are.
-/
import Casual.Archive.Json

namespace Casual.Archive.Json

open Casual.Lib

section

variable (tc : Transcode) (stl : Containers)

/-! ## The document of a value -/

/-- The value that is written for a plain value. -/
def podNode : (p : Pod) → p.Value → Value
  | .bool, value => .bool value
  | .char, value => .string ((tc.encode [value]).getD [])
  | .short, value => .number value.toInt
  | .long, value => .number value.toInt
  | .longlong, value => .number value.toInt
  | .float, value => .double (tc.widen value)
  | .double, value => .double value
  | .string, value => .string ((tc.encode value).getD [])
  | .binary, value => .string (tc.encodeBinary value)

/-- The value of a kind, which is written as the plain value that it is widened to. -/
def kindNode : (k : Kind) → k.Value → Value
  | .pod p, value => podNode tc p value
  | .int, value => podNode tc .long (value.signExtend 64)
  | .ulong, value => podNode tc .long value

mutual

/-- The node that is written for a value. -/
def node : (t : Ty) → t.Value → Value
  | .kind k, value => kindNode tc k value
  | .enum k, value => kindNode tc k value
  | .composite members, value => .object (memberNodes members value)
  | .tuple elements, value => .array (elementNodes elements value)
  | .sequence element, value => .array (value.map fun v => node element v)
  | .associative container element, value => .array (((stl container element).iterate value).map fun v => node element v)

/-- The values of the members, under their names. -/
def memberNodes : (members : Members) → members.Value → List (Text × Value)
  | .nil, _ => []
  | .cons name member members, value => (name.text, node member value.1) :: memberNodes members value.2

/-- The values of the elements. -/
def elementNodes : (elements : Elements) → elements.Value → List Value
  | .nil, _ => []
  | .cons element elements, value => node element value.1 :: elementNodes elements value.2

end

end

/-! ## Writing -/

section Writing

variable {tc : Transcode} {stl : Containers}

/-- The strings and characters are of the current codeset, and the floating-point numbers are the same in
double precision and back. -/
def portable (tc : Transcode) : Property where
  string s := (tc.encode s).isSome
  char c := (tc.encode [c]).isSome
  float f := tc.narrow (tc.widen f) = f
  name _ := True

theorem start_append {name : Option Name} {parent opened : Value} {stack : writer.Stack}
    (h : writer.append name parent .null = some opened) :
    writer.start name (parent :: stack) = .ok () (.null :: opened :: stack) := by
  simp only [writer.start, h]

theorem encode_eq {s : Text} (h : (tc.encode s).isSome) (stack : writer.Stack) :
    writer.encode tc s stack = .ok ((tc.encode s).getD []) stack := by
  obtain ⟨u, hu⟩ := Option.isSome_iff_exists.1 h
  simp only [writer.encode, hu, Option.getD_some]
  rfl

theorem writePod_node {p : Pod} {value : p.Value} (h : (Kind.pod p).Every (portable tc) value) (opened : Value)
    (stack : writer.Stack) : writer.writePod tc p value (opened :: stack) = .ok () (podNode tc p value :: stack) := by
  cases p with
  | char => exact bind_ok (encode_eq h _)
  | string => exact bind_ok (encode_eq h _)
  | _ => rfl

theorem write_node {p : Pod} {value : p.Value} (h : (Kind.pod p).Every (portable tc) value) {name : Option Name}
    {parent opened : Value} {stack : writer.Stack} (ha : writer.append name parent .null = some opened) :
    (writer.implementation tc).write p value name (parent :: stack) =
      .ok () (writer.place (podNode tc p value) opened :: stack) := by
  change (writer.start name >>= fun _ => writer.writePod tc p value >>= fun _ => writer.finish name) (parent :: stack) = _
  rw [bind_ok (start_append ha), bind_ok (writePod_node h _ _)]
  rfl

theorem writeKind_node {k : Kind} {value : k.Value} (h : k.Every (portable tc) value) {name : Option Name}
    {parent opened : Value} {stack : writer.Stack} (ha : writer.append name parent .null = some opened) :
    (writer.implementation tc).writeKind k value name (parent :: stack) =
      .ok () (writer.place (kindNode tc k value) opened :: stack) := by
  cases k with
  | pod p => exact write_node h ha
  | int => exact @write_node tc .long _ trivial name _ _ _ ha
  | ulong => exact @write_node tc .long _ trivial name _ _ _ ha

theorem containerStart_writes (size : Nat) {name : Option Name} {parent opened : Value} {stack : writer.Stack}
    (ha : writer.append name parent .null = some opened) :
    (writer.implementation tc).containerStart size name (parent :: stack) = .ok size (.array [] :: opened :: stack) := by
  change (writer.start name >>= fun _ => writer.assign (.array []) >>= fun _ => pure size) (parent :: stack) = _
  rw [bind_ok (start_append ha)]
  rfl

theorem serialtypeStart_writes {name : Option Name} {parent opened : Value} {stack : writer.Stack}
    (ha : writer.append name parent .null = some opened) :
    (writer.implementation tc).serialtypeStart name (parent :: stack) = .ok () (.object [] :: opened :: stack) := by
  change (writer.start name >>= fun _ => writer.assign (.object [])) (parent :: stack) = _
  rw [bind_ok (start_append ha)]
  rfl

/-- The elements of a container are appended to its node. -/
theorem forM_writes {element : Ty} {stack : writer.Stack} :
    ∀ (values : List element.Value) (elements : List Value),
      (∀ v ∈ values, ∀ elements : List Value,
        (writer.implementation tc).serialize stl element v none (.array elements :: stack) =
          .ok () (.array (elements ++ [node tc stl element v]) :: stack)) →
      values.forM (fun v => (writer.implementation tc).serialize stl element v none) (.array elements :: stack) =
        .ok () (.array (elements ++ values.map fun v => node tc stl element v) :: stack) := by
  intro values
  induction values with
  | nil =>
    intro elements _
    simp only [List.map_nil, List.append_nil]
    rfl
  | cons v values ih =>
    intro elements h
    change ((writer.implementation tc).serialize stl element v none >>= fun _ =>
      values.forM fun v => (writer.implementation tc).serialize stl element v none) (.array elements :: stack) = _
    rw [bind_ok (h v List.mem_cons_self elements), ih _ fun w hw => h w (List.mem_cons_of_mem _ hw)]
    simp only [List.map_cons, List.append_assoc, List.cons_append, List.nil_append]

theorem append_array (elements : List Value) :
    writer.append none (.array elements) .null = some (.array (elements ++ [.null])) := rfl

theorem place_array (elements : List Value) (value : Value) :
    writer.place value (.array (elements ++ [.null])) = .array (elements ++ [value]) := by
  simp [writer.place]

theorem place_object (members : List (Text × Value)) (name : Text) (value : Value) :
    writer.place value (.object (members ++ [(name, .null)])) = .object (members ++ [(name, value)]) := by
  simp [writer.place]

mutual

/-- What is written at a place is the node of the value. -/
theorem serialize_writes : ∀ (t : Ty) (value : t.Value), t.Every (portable tc) value → ∀ (name : Option Name)
    (parent opened : Value) (stack : writer.Stack), writer.append name parent .null = some opened →
    (writer.implementation tc).serialize stl t value name (parent :: stack) =
      .ok () (writer.place (node tc stl t value) opened :: stack)
  | .kind _, _, h, _, _, _, _, ha => writeKind_node h ha
  | .enum _, _, h, _, _, _, _, ha => writeKind_node h ha
  | .composite members, value, h, name, parent, opened, stack, ha => by
    have hm := serializeMembers_writes members value h [] (opened :: stack)
    simp only [writer.Implementation.serialize]
    rw [bind_ok (serialtypeStart_writes ha), bind_ok hm]
    rfl
  | .tuple elements, value, h, name, parent, opened, stack, ha => by
    have he := serializeElements_writes elements value h [] (opened :: stack)
    simp only [writer.Implementation.serialize]
    rw [bind_ok (containerStart_writes _ ha), bind_ok he]
    rfl
  | .sequence element, value, h, name, parent, opened, stack, ha => by
    have he : ∀ v ∈ value, _ := fun v hv elements => serialize_element element v (h v hv) elements (opened :: stack)
    simp only [writer.Implementation.serialize]
    rw [bind_ok (containerStart_writes _ ha), bind_ok (forM_writes value [] he)]
    rfl
  | .associative container element, value, h, name, parent, opened, stack, ha => by
    have he : ∀ v ∈ (stl container element).iterate value, _ := fun v hv elements =>
      serialize_element element v (h v ((stl container element).mem_iterate.1 hv)) elements (opened :: stack)
    simp only [writer.Implementation.serialize]
    rw [bind_ok (containerStart_writes _ ha), bind_ok (forM_writes _ [] he)]
    rfl

theorem serialize_element (element : Ty) (value : element.Value) (h : element.Every (portable tc) value)
    (before : List Value) (stack : writer.Stack) :
    (writer.implementation tc).serialize stl element value none (.array before :: stack) =
      .ok () (.array (before ++ [node tc stl element value]) :: stack) := by
  rw [serialize_writes element value h none _ _ stack (append_array before), place_array]

theorem serializeMembers_writes : ∀ (members : Members) (value : members.Value), members.Every (portable tc) value →
    ∀ (before : List (Text × Value)) (stack : writer.Stack),
    (writer.implementation tc).serializeMembers stl members value (.object before :: stack) =
      .ok () (.object (before ++ memberNodes tc stl members value) :: stack)
  | .nil, _, _, before, stack => by
    simp only [memberNodes, List.append_nil]
    rfl
  | .cons name member members, value, h, before, stack => by
    have hm := serialize_writes member value.1 h.2.1 (some name) (.object before) _ stack rfl
    have hr := serializeMembers_writes members value.2 h.2.2 (before ++ [(name.text, node tc stl member value.1)]) stack
    rw [place_object] at hm
    simp only [writer.Implementation.serializeMembers]
    rw [bind_ok hm, hr]
    simp only [memberNodes, List.append_assoc, List.cons_append, List.nil_append]

theorem serializeElements_writes : ∀ (elements : Elements) (value : elements.Value), elements.Every (portable tc) value →
    ∀ (before : List Value) (stack : writer.Stack),
    (writer.implementation tc).serializeElements stl elements value (.array before :: stack) =
      .ok () (.array (before ++ elementNodes tc stl elements value) :: stack)
  | .nil, _, _, before, stack => by
    simp only [elementNodes, List.append_nil]
    rfl
  | .cons element elements, value, h, before, stack => by
    have he := serialize_element element value.1 h.1 before stack
    have hr := serializeElements_writes elements value.2 h.2 (before ++ [node tc stl element value.1]) stack
    simp only [writer.Implementation.serializeElements]
    rw [bind_ok he, hr]
    simp only [elementNodes, List.append_assoc, List.cons_append, List.nil_append]

end

/-- The document that a value is written to. -/
theorem write_eq {t : Ty} {value : t.Value} (h : t.Every (portable tc) value) (name : Name) :
    write tc stl t value name = .ok (.object [(name.text, node tc stl t value)]) := by
  have hw : (writer.implementation tc).serialize stl t value (some name) [.object []] = _ :=
    serialize_writes t value h (some name) (.object []) _ [] rfl
  simp only [write, hw]
  rfl

end Writing

/-! ## Reading what was written -/

section Reading

variable {tc : Transcode} {stl : Containers} {indeterminate : BitVec 64}

/-- The conversions are each other's inverses, and the only bytes for a NUL or a space are these
characters themselves. -/
structure Transcode.Correct (tc : Transcode) : Prop where
  decode_encode : ∀ {s u}, tc.encode s = some u → tc.decode u = some s
  encode_nul : ∀ {u}, tc.encode [0] = some u → u = [0]
  decode_nil : tc.decode [] = some []
  not_mem_encode : ∀ {s u c}, c = 0 ∨ c = 32 → c ∉ s → tc.encode s = some u → c ∉ u
  not_mem_decode : ∀ {s u c}, c = 0 ∨ c = 32 → c ∉ s → tc.decode s = some u → c ∉ u
  decodeBinary_encodeBinary : ∀ b, tc.decodeBinary (tc.encodeBinary b) = some b
  not_mem_encodeBinary : ∀ {b c}, c = 0 ∨ c = 32 → c ∉ tc.encodeBinary b

/-- No string has a NUL in it. -/
def nulFree : Property where
  string s := 0 ∉ s
  char _ := True
  float _ := True
  name _ := True

theorem zero_not_mem_cstr (s : Text) : 0 ∉ cstr s := by
  intro h
  have := List.mem_takeWhile_imp h
  simp at this

theorem not_mem_cstr {s : Text} {c : UInt8} (h : c ∉ s) : c ∉ cstr s :=
  fun hc => h ((List.takeWhile_sublist _).subset hc)

theorem short_range (value : BitVec 16) : -2 ^ 31 ≤ value.toInt ∧ value.toInt < 2 ^ 31 := by
  have h₁ := value.le_toInt
  have h₂ := value.toInt_lt
  omega

section

variable (htc : tc.Correct)

include htc

theorem decode_cstr_encode {s : Text} (hp : (tc.encode s).isSome) (hn : 0 ∉ s) :
    tc.decode (cstr ((tc.encode s).getD [])) = some s := by
  obtain ⟨u, hu⟩ := Option.isSome_iff_exists.1 hp
  rw [hu, Option.getD_some, cstr_eq (htc.not_mem_encode (.inl rfl) hn hu)]
  exact htc.decode_encode hu

/-- A NUL makes an empty string, whose first character is a NUL. -/
theorem decode_cstr_encode_char {c : UInt8} (hp : (tc.encode [c]).isSome) :
    ∃ s, tc.decode (cstr ((tc.encode [c]).getD [])) = some s ∧ s.headD 0 = c := by
  by_cases hc : c = 0
  · subst hc
    obtain ⟨u, hu⟩ := Option.isSome_iff_exists.1 hp
    refine ⟨[], ?_, rfl⟩
    rw [hu, Option.getD_some, htc.encode_nul hu]
    exact htc.decode_nil
  · have hn : 0 ∉ [c] := by simpa using Ne.symm hc
    exact ⟨[c], decode_cstr_encode htc hp hn, rfl⟩

theorem readNode_podNode {p : Pod} {value : p.Value} (hp : (Kind.pod p).Every (portable tc) value)
    (hn : (Kind.pod p).Every nulFree value) (stack : reader.Stack) :
    reader.readNode tc p (podNode tc p value) stack = .ok value stack := by
  cases p with
  | bool => rfl
  | char =>
    obtain ⟨s, hs, hc⟩ := decode_cstr_encode_char htc hp
    change (reader.orTranscode (tc.decode (cstr ((tc.encode [value]).getD []))) >>= fun s => pure (s.headD 0)) stack = _
    rw [hs]
    exact congrArg (fun c => EStateM.Result.ok c stack) hc
  | short =>
    simp only [podNode, reader.readNode, reader.readPod, BitVec.ofInt_toInt]
    rw [if_pos (short_range value)]
    rfl
  | long =>
    simp only [podNode, reader.readNode, reader.readPod, BitVec.ofInt_toInt]
    rw [if_pos ⟨value.le_toInt, value.toInt_lt⟩]
    rfl
  | longlong =>
    simp only [podNode, reader.readNode, reader.readPod, BitVec.ofInt_toInt]
    rw [if_pos ⟨value.le_toInt, value.toInt_lt⟩]
    rfl
  | float => exact congrArg (fun f => EStateM.Result.ok f stack) hp
  | double => rfl
  | string =>
    change reader.orTranscode (tc.decode (cstr ((tc.encode value).getD []))) stack = _
    rw [decode_cstr_encode htc hp hn]
    rfl
  | binary =>
    change reader.orTranscode (tc.decodeBinary (cstr (tc.encodeBinary value))) stack = _
    rw [cstr_eq (htc.not_mem_encodeBinary (.inl rfl)), htc.decodeBinary_encodeBinary]
    rfl

theorem pod_reads {p : Pod} {value : p.Value} (hp : (Kind.pod p).Every (portable tc) value)
    (hn : (Kind.pod p).Every nulFree value) {name : Option Name} {before after : reader.Stack} (old : p.Value)
    (hs : reader.start name before = .ok true (some (podNode tc p value) :: after)) :
    (strictReader tc indeterminate).pod p old name before = .ok value after := by
  have hr : reader.read tc p old name before = .ok (value, true) after := by
    simp only [reader.read]
    rw [bind_ok hs]
    change (reader.readNode tc p (podNode tc p value) >>= fun value => reader.finish name >>= fun _ =>
      pure (value, true)) _ = _
    rw [bind_ok (readNode_podNode htc hp hn _)]
    rfl
  change (reader.read tc p old name >>= fun result => Policy.apply .strict result.2 name >>= fun _ =>
    pure result.1) before = _
  rw [bind_ok hr]
  rfl

theorem read_reads {k : Kind} {value : k.Value} (hp : k.Every (portable tc) value) (hn : k.Every nulFree value)
    {name : Option Name} {before after : reader.Stack} (old : k.Value)
    (hs : reader.start name before = .ok true (some (kindNode tc k value) :: after)) :
    (strictReader tc indeterminate).read k old name before = .ok value after := by
  cases k with
  | pod p => exact pod_reads htc hp hn old hs
  | int =>
    have h := @pod_reads tc indeterminate htc .long _ trivial trivial name before after (strictReader tc indeterminate).indeterminate hs
    simp only [Reader.read]
    rw [bind_ok h]
    exact congrArg (fun v => EStateM.Result.ok v after) (setWidth_signExtend value)
  | ulong =>
    have h := @pod_reads tc indeterminate htc .long _ trivial trivial name before after (strictReader tc indeterminate).indeterminate hs
    simp only [Reader.read]
    exact h

end

theorem start_member {members : List (Text × Value)} {name : Name} {value : Value}
    (h : members.lookup name.text = some value) (stack : reader.Stack) :
    reader.start (some name) (some (.object members) :: stack) = .ok true (some value :: some (.object members) :: stack) := by
  simp only [reader.start, h, Option.isSome_some]

theorem serialtypeStart_reads {name : Option Name} {before after : reader.Stack}
    (hs : reader.start name before = .ok true after) :
    (strictReader tc indeterminate).serialtypeStart name before = .ok true after := by
  change (reader.start name >>= fun result => Policy.apply .strict result name) before = _
  rw [bind_ok hs]
  rfl

theorem containerStart_reads {size : Nat} {name : Option Name} {before after : reader.Stack} {elements : List Value}
    (hs : reader.start name before = .ok true (some (.array elements) :: after)) :
    (strictReader tc indeterminate).containerStart size name before =
      .ok elements.length (elements.map some ++ some (.array elements) :: after) := by
  have hc : reader.containerStart size name before =
      .ok (elements.length, true) (elements.map some ++ some (.array elements) :: after) := by
    simp only [reader.containerStart]
    rw [bind_ok hs]
    rfl
  change (reader.containerStart size name >>= fun result => Policy.apply .strict result.2 name >>= fun _ =>
    pure result.1) before = _
  rw [bind_ok hc]
  rfl

theorem elementNodes_length : ∀ (elements : Elements) (value : elements.Value),
    (elementNodes tc stl elements value).length = elements.length := by
  intro elements
  cases elements with
  | nil => exact fun _ => rfl
  | cons _ elements => exact fun value => congrArg (· + 1) (elementNodes_length elements value.2)

theorem lookup_memberNodes {before : List (Text × Value)} {name : Text} (h : name ∉ before.map Prod.fst) (value : Value)
    (after : List (Text × Value)) : (before ++ (name, value) :: after).lookup name = some value := by
  have hb : before.lookup name = none := by
    rw [List.lookup_eq_none_iff]
    intro member hm
    have hne : name ≠ member.1 := fun he => h (he ▸ List.mem_map_of_mem hm)
    simpa using hne
  rw [List.lookup_append, hb, List.lookup_cons_self]
  rfl

mutual

/-- The node that was written for a value is read to the value, and the stack is then what it was before
the node was found. -/
theorem serialize_reads (htc : tc.Correct) : ∀ (t : Ty) (value : t.Value), t.Distinct → t.Regular stl value → t.Every (portable tc) value →
    t.Every nulFree value → ∀ (name : Option Name) (before after : reader.Stack),
    reader.start name before = .ok true (some (node tc stl t value) :: after) →
    (strictReader tc indeterminate).serialize stl t t.init name before = .ok value after
  | .kind _, _, _, _, hp, hn, _, _, _, hs => read_reads htc hp hn _ hs
  | .enum _, _, _, _, hp, hn, _, _, _, hs => read_reads htc hp hn _ hs
  | .composite members, value, hd, hr, hp, hn, name, before, after, hs => by
    have hm := serializeMembers_reads htc members value hd hr hp hn [] (fun _ _ => List.not_mem_nil) after
    simp only [Reader.serialize]
    rw [bind_ok (serialtypeStart_reads hs)]
    exact (bind_ok hm).trans rfl
  | .tuple elements, value, hd, hr, hp, hn, name, before, after, hs => by
    have he := serializeElements_reads htc elements value hd hr hp hn (some (node tc stl (.tuple elements) value) :: after)
    simp only [Reader.serialize]
    rw [bind_ok (containerStart_reads hs), if_pos (elementNodes_length elements value).symm]
    exact (bind_ok he).trans rfl
  | .sequence element, value, hd, hr, hp, hn, name, before, after, hs => by
    have he := @Reader.mapM_reads _ _ (node tc stl element) id (fun v => (strictReader tc indeterminate).serialize stl element v none)
      element.init value (some (node tc stl (.sequence element) value) :: after) fun v hv rest =>
      serialize_reads htc element v hd (hr v hv) (hp v hv) (hn v hv) none _ rest rfl
    rw [List.map_id] at he
    simp only [Reader.serialize]
    rw [bind_ok (containerStart_reads hs)]
    simp only [Ty.init]
    rw [Reader.resize_nil, List.length_map]
    exact (bind_ok he).trans rfl
  | .associative container element, value, hd, hr, hp, hn, name, before, after, hs => by
    have hm : ∀ v ∈ (stl container element).iterate value, v ∈ value := fun v => (stl container element).mem_iterate.1
    have he := @Reader.insertEach_reads _ _ (node tc stl element) id (stl container element)
      ((strictReader tc indeterminate).serialize stl element element.init none) ((stl container element).iterate value) []
      (some (node tc stl (.associative container element) value) :: after) fun v hv rest =>
      serialize_reads htc element v hd (hr.2 v (hm v hv)) (hp v (hm v hv)) (hn v (hm v hv)) none _ rest rfl
    rw [List.map_id, hr.1] at he
    simp only [Reader.serialize]
    rw [bind_ok (containerStart_reads hs), List.length_map]
    exact (bind_ok he).trans rfl

theorem serializeMembers_reads (htc : tc.Correct) : ∀ (members : Members) (value : members.Value), members.Distinct →
    members.Regular stl value → members.Every (portable tc) value → members.Every nulFree value →
    ∀ before : List (Text × Value), (∀ name ∈ members.names, name.text ∉ before.map Prod.fst) → ∀ stack : reader.Stack,
    (strictReader tc indeterminate).serializeMembers stl members members.init
      (some (.object (before ++ memberNodes tc stl members value)) :: stack) =
      .ok value (some (.object (before ++ memberNodes tc stl members value)) :: stack)
  | .nil, _, _, _, _, _, _, _, _ => rfl
  | .cons name member members, value, hd, hr, hp, hn, before, hb, stack => by
    have hl : (before ++ memberNodes tc stl (.cons name member members) value).lookup name.text =
        some (node tc stl member value.1) := lookup_memberNodes (hb name List.mem_cons_self) _ _
    have hm := serialize_reads htc member value.1 hd.2.1 hr.1 hp.2.1 hn.2.1 (some name) _ _ (start_member hl stack)
    have ha : before ++ memberNodes tc stl (.cons name member members) value =
        (before ++ [(name.text, node tc stl member value.1)]) ++ memberNodes tc stl members value.2 := by
      simp only [memberNodes, List.append_assoc, List.cons_append, List.nil_append]
    have hr := serializeMembers_reads htc members value.2 hd.2.2 hr.2 hp.2.2 hn.2.2
      (before ++ [(name.text, node tc stl member value.1)]) (fun other ho => by
        have hne : other.text ≠ name.text := fun h => hd.1 (text_inj h ▸ ho)
        simpa [hne] using hb other (List.mem_cons_of_mem _ ho)) stack
    rw [← ha] at hr
    simp only [Reader.serializeMembers]
    refine (bind_ok hm).trans ?_
    exact (bind_ok hr).trans rfl

theorem serializeElements_reads (htc : tc.Correct) : ∀ (elements : Elements) (value : elements.Value), elements.Distinct →
    elements.Regular stl value → elements.Every (portable tc) value → elements.Every nulFree value →
    ∀ rest : reader.Stack,
    (strictReader tc indeterminate).serializeElements stl elements elements.init
      ((elementNodes tc stl elements value).map some ++ rest) = .ok value rest
  | .nil, _, _, _, _, _, _ => rfl
  | .cons element elements, value, hd, hr, hp, hn, rest => by
    have he := serialize_reads htc element value.1 hd.1 hr.1 hp.1 hn.1 none
      (some (node tc stl element value.1) :: ((elementNodes tc stl elements value.2).map some ++ rest)) _ rfl
    have hr := serializeElements_reads htc elements value.2 hd.2 hr.2 hp.2 hn.2 rest
    simp only [Reader.serializeElements, elementNodes, List.map_cons, List.cons_append]
    refine (bind_ok he).trans ?_
    exact (bind_ok hr).trans rfl

end

end Reading

end Casual.Archive.Json

/-
What becomes of a value that is written to a document of pugixml, saved, loaded and read: texts of white
space only are not loaded, so blank strings and characters do not come back, and all else does.
-/
import Casual.Archive.Xml

namespace Casual.Archive.Xml

open Casual.Lib

/-! ## What a value is written as -/

section

variable (tc : Transcode)

/-- The text that is written for a plain value. -/
def podText : (p : Pod) → p.Value → Text
  | .bool, value => writer.boolalpha value
  | .char, value => (tc.encode [value]).getD []
  | .short, value => Decimal.ofInt value.toInt
  | .long, value => Decimal.ofInt value.toInt
  | .longlong, value => Decimal.ofInt value.toInt
  | .float, value => tc.ofFloat value
  | .double, value => tc.ofDouble value
  | .string, value => (tc.encode value).getD []
  | .binary, value => tc.encodeBinary value

/-- The text of a kind, which is written as the plain value that it is widened to. -/
def kindText : (k : Kind) → k.Value → Text
  | .pod p, value => podText tc p value
  | .int, value => podText tc .long (value.signExtend 64)
  | .ulong, value => podText tc .long value

variable (stl : Containers)

mutual

/-- What is in the element of a value. -/
def content : (t : Ty) → t.Value → List Node
  | .kind k, value => [.pcdata (cstr (kindText tc k value))]
  | .enum k, value => [.pcdata (cstr (kindText tc k value))]
  | .composite members, value => memberContent members value
  | .tuple elements, value => (elementContents elements value).map (.element writer.elementName)
  | .sequence element, value => (value.map fun v => content element v).map (.element writer.elementName)
  | .associative container element, value =>
    (((stl container element).iterate value).map fun v => content element v).map (.element writer.elementName)

/-- An element for each member. -/
def memberContent : (members : Members) → members.Value → List Node
  | .nil, _ => []
  | .cons name member members, value => .element name.text (content member value.1) :: memberContent members value.2

/-- The content of each element of a tuple. -/
def elementContents : (elements : Elements) → elements.Value → List (List Node)
  | .nil, _ => []
  | .cons element elements, value => content element value.1 :: elementContents elements value.2

end

end

/-! ## Handles -/

namespace writer

mutual

/-- A child stands for a node when its handle is in a range. What is in an element has later handles. -/
def ShownNode (elements : Nat → Element) (lo hi : Nat) : Node → Child → Prop
  | .pcdata text, child => child = .pcdata text
  | .element name nodes, child => ∃ handle, child = .element handle ∧ lo ≤ handle ∧ handle < hi ∧
    (elements handle).name = name ∧ Shown elements (handle + 1) hi nodes (elements handle).children

/-- Nodes are in the document of the writer, in their order. -/
def Shown (elements : Nat → Element) (lo hi : Nat) : List Node → List Child → Prop
  | [], children => children = []
  | node :: nodes, children => ∃ child rest, children = child :: rest ∧
    ShownNode elements lo hi node child ∧ Shown elements lo hi nodes rest

end

section Shown

variable {elements elements' : Nat → Element} {hi hi' : Nat}

mutual

/-- Only the handles in the range matter. -/
theorem ShownNode.mono : ∀ {node : Node} {child : Child} {lo lo' : Nat}, ShownNode elements lo hi node child → lo' ≤ lo → hi ≤ hi' →
    (∀ j, lo ≤ j → j < hi → elements' j = elements j) → ShownNode elements' lo' hi' node child
  | .pcdata _, _, _, _, h, _, _, _ => h
  | .element name nodes, child, lo, lo', h, hlo, hhi, helements => by
    obtain ⟨handle, hchild, hle, hlt, hname, hnodes⟩ := h
    have heq := helements handle hle hlt
    refine ⟨handle, hchild, hlo.trans hle, hlt.trans_le hhi, heq ▸ hname, ?_⟩
    rw [heq]
    exact Shown.mono hnodes le_rfl hhi fun j hj hj' => helements j (by omega) hj'

theorem Shown.mono : ∀ {nodes : List Node} {children : List Child} {lo lo' : Nat}, Shown elements lo hi nodes children → lo' ≤ lo →
    hi ≤ hi' → (∀ j, lo ≤ j → j < hi → elements' j = elements j) → Shown elements' lo' hi' nodes children
  | [], _, _, _, h, _, _, _ => h
  | node :: nodes, children, lo, lo', h, hlo, hhi, helements => by
    obtain ⟨child, rest, hchildren, hnode, hnodes⟩ := h
    exact ⟨child, rest, hchildren, ShownNode.mono hnode hlo hhi helements, Shown.mono hnodes hlo hhi helements⟩

end

theorem Shown.append {lo : Nat} : ∀ {before after : List Node} {children children' : List Child},
    Shown elements lo hi before children → Shown elements lo hi after children' →
    Shown elements lo hi (before ++ after) (children ++ children')
  | [], after, children, children', h, h' => by
    have hnil : children = [] := h
    subst hnil
    exact h'
  | node :: before, after, children, children', h, h' => by
    obtain ⟨child, rest, rfl, hnode, hbefore⟩ := h
    exact ⟨child, rest ++ children', rfl, hnode, Shown.append hbefore h'⟩

mutual

theorem node_of_shown : ∀ {node : Node} {child : Child} {lo levels : Nat}, ShownNode elements lo hi node child → lo ≤ hi →
    hi < lo + (levels + 1) → nodes elements (levels + 1) [child] = [node]
  | .pcdata text, child, _, _, h, _, _ => by
    have hchild : child = .pcdata text := h
    subst hchild
    rfl
  | .element name children, child, lo, levels, h, _, hlevels => by
    obtain ⟨handle, rfl, hle, hlt, rfl, hchildren⟩ := h
    have hnodes := @nodes_of_shown children (elements handle).children (handle + 1) levels hchildren (by omega) (by omega)
    show [Node.element (elements handle).name (nodes elements levels (elements handle).children)] = _
    rw [hnodes]

/-- The levels that are left suffice for the handles that are left. -/
theorem nodes_of_shown : ∀ {shown : List Node} {children : List Child} {lo levels : Nat}, Shown elements lo hi shown children →
    lo ≤ hi → hi < lo + levels → nodes elements levels children = shown
  | shown, children, lo, 0, _, hle, hlt => by omega
  | [], children, lo, levels + 1, h, _, _ => by
    have hnil : children = [] := h
    subst hnil
    rfl
  | node :: shown, children, lo, levels + 1, h, hle, hlt => by
    obtain ⟨child, rest, rfl, hnode, hrest⟩ := h
    have hfirst := node_of_shown hnode hle hlt
    have hothers := @nodes_of_shown shown rest lo (levels + 1) hrest hle hlt
    have hsplit : nodes elements (levels + 1) (child :: rest) =
      nodes elements (levels + 1) [child] ++ nodes elements (levels + 1) rest := rfl
    rw [hsplit, hfirst, hothers]
    rfl

end

end Shown

/-! ## Writing -/

section Insert

variable {place : List Child → Child → List Child} {parent : Nat} {name : Text} {s : State}

theorem insert_new (h : parent ≠ s.count) : (insert place parent name s).elements s.count = ⟨name, []⟩ :=
  (Function.update_of_ne h.symm ..).trans (Function.update_self ..)

theorem insert_parent : (insert place parent name s).elements parent =
    ⟨(s.elements parent).name, place (s.elements parent).children (.element s.count)⟩ := Function.update_self ..

theorem insert_other {j : Nat} (h : j ≠ parent) (h' : j ≠ s.count) : (insert place parent name s).elements j = s.elements j :=
  (Function.update_of_ne h ..).trans (Function.update_of_ne h' ..)

end Insert

/-- The nodes are new in an element, with handles that are new; nothing else has changed. -/
structure Wrote (nodes : List Node) (handle : Nat) (s t : State) : Prop where
  count : s.count ≤ t.count
  others : ∀ j, j < s.count → j ≠ handle → t.elements j = s.elements j
  name : (t.elements handle).name = (s.elements handle).name
  children : ∃ children, (t.elements handle).children = (s.elements handle).children ++ children ∧
    Shown t.elements s.count t.count nodes children

theorem Wrote.nil (handle : Nat) (s : State) : Wrote [] handle s s :=
  ⟨le_rfl, fun _ _ _ => rfl, rfl, [], (List.append_nil _).symm, rfl⟩

theorem Wrote.trans {before after : List Node} {handle : Nat} {s t u : State} (hhandle : handle < s.count)
    (h : Wrote before handle s t) (h' : Wrote after handle t u) : Wrote (before ++ after) handle s u := by
  obtain ⟨children, hchildren, hshown⟩ := h.children
  obtain ⟨children', hchildren', hshown'⟩ := h'.children
  have hcount := h.count
  refine ⟨hcount.trans h'.count, fun j hj hne => ?_, h'.name.trans h.name, children ++ children', ?_, ?_⟩
  · rw [h'.others j (by omega) hne, h.others j hj hne]
  · rw [hchildren', hchildren, List.append_assoc]
  · refine .append (hshown.mono le_rfl h'.count fun j hj hj' => h'.others j hj' (by omega)) ?_
    exact hshown'.mono hcount le_rfl fun _ _ _ => rfl

/-- A program that writes in the element at the back, which is still there then. -/
def Appends (x : M Unit) (nodes : List Node) : Prop :=
  ∀ s handle rest, s.stack = handle :: rest → handle < s.count →
    ∃ t, x s = .ok () t ∧ t.stack = handle :: rest ∧ Wrote nodes handle s t

/-- A program that writes in the element at the back, which has nothing in it and is not there any more then. -/
def Fills (x : M Unit) (nodes : List Node) : Prop :=
  ∀ s handle rest, s.stack = handle :: rest → handle < s.count → (s.elements handle).children = [] →
    ∃ t, x s = .ok () t ∧ t.stack = rest ∧ Wrote nodes handle s t

/-- The elements at these handles are new and have nothing in them. -/
structure Empty (handles : List Nat) (s : State) : Prop where
  nodup : handles.Nodup
  lt : ∀ handle ∈ handles, handle < s.count
  elements : ∀ handle ∈ handles, s.elements handle = ⟨elementName, []⟩

/-- A program that writes in as many elements as there are lists of nodes. -/
def FillsAll (x : M Unit) (contents : List (List Node)) : Prop :=
  ∀ s handles rest, s.stack = handles ++ rest → handles.length = contents.length → Empty handles s →
    ∃ t, x s = .ok () t ∧ t.stack = rest ∧ s.count ≤ t.count ∧
      (∀ j, j < s.count → j ∉ handles → t.elements j = s.elements j) ∧
      ∀ lo, (∀ handle ∈ handles, lo ≤ handle) →
        Shown t.elements lo t.count (contents.map (.element elementName)) (handles.map .element)

section Programs

variable {x y : M Unit} {nodes nodes' : List Node} {contents : List (List Node)}

theorem Appends.pure : Appends (pure ()) [] := fun s handle _ hstack _ => ⟨s, rfl, hstack, .nil handle s⟩

theorem Appends.bind (hx : Appends x nodes) (hy : Appends y nodes') : Appends (do x; y) (nodes ++ nodes') := by
  intro s handle rest hstack hhandle
  obtain ⟨t, ht, hstack', hwrote⟩ := hx s handle rest hstack hhandle
  obtain ⟨u, hu, hstack'', hwrote'⟩ := hy t handle rest hstack' (hhandle.trans_le hwrote.count)
  exact ⟨u, (bind_ok ht).trans hu, hstack'', hwrote.trans hhandle hwrote'⟩

theorem back_ok {s : State} {handle : Nat} {rest : List Nat} (h : s.stack = handle :: rest) : back s = .ok handle s := by
  have hget : (get : M State) s = .ok s s := rfl
  unfold back
  rw [bind_ok hget, h]
  rfl

theorem finish_ok (name : Option Name) {s : State} {handle : Nat} {rest : List Nat} (h : s.stack = handle :: rest) :
    finish name s = .ok () { s with stack := rest } := by
  have hget : (get : M State) s = .ok s s := rfl
  unfold finish
  rw [bind_ok hget, h]
  rfl

theorem Appends.fills (hx : Appends x nodes) (name : Option Name) : Fills (do x; finish name) nodes := by
  intro s handle rest hstack hhandle _
  obtain ⟨t, ht, hstack', hwrote⟩ := hx s handle rest hstack hhandle
  exact ⟨_, (bind_ok ht).trans (finish_ok name hstack'), rfl, hwrote.count, hwrote.others, hwrote.name, hwrote.children⟩

/-- An element that is appended is filled. -/
theorem Fills.appends (hx : Fills x nodes) (name : Name) : Appends (do start (some name); x) [.element name.text nodes] := by
  intro s handle rest hstack hhandle
  have hmodify : appendChild handle name.text s =
    .ok () (insert (fun children child => children ++ [child]) handle name.text s) := rfl
  have hstart : start (some name) s = .ok () (insert (fun children child => children ++ [child]) handle name.text s) := by
    exact (bind_ok (back_ok hstack)).trans hmodify
  have hne : handle ≠ s.count := hhandle.ne
  have hnew := @insert_new (fun children child => children ++ [child]) handle name.text s hne
  have hparent := @insert_parent (fun children child => children ++ [child]) handle name.text s
  obtain ⟨t, ht, hstack', hwrote⟩ := hx _ s.count (handle :: rest) (congrArg (s.count :: ·) hstack) (Nat.lt_succ_self _)
    (by rw [hnew])
  have hcount : s.count + 1 ≤ t.count := hwrote.count
  have hkept : t.elements handle = _ := (hwrote.others handle (Nat.lt_succ_of_lt hhandle) hne).trans hparent
  obtain ⟨children, hchildren, hshown⟩ := hwrote.children
  rw [hnew, List.nil_append] at hchildren
  refine ⟨t, (bind_ok hstart).trans ht, hstack', by omega, fun j hj hj' => ?_, by rw [hkept], [.element s.count], by rw [hkept], ?_⟩
  · rw [hwrote.others j (Nat.lt_succ_of_lt hj) hj.ne, insert_other hj' hj.ne]
  · refine ⟨_, [], rfl, ⟨s.count, rfl, le_rfl, by omega, ?_, ?_⟩, rfl⟩
    · rw [hwrote.name, hnew]
    · rw [hchildren]
      exact hshown

theorem FillsAll.nil : FillsAll (pure ()) [] := by
  intro s handles rest hstack hlength _
  obtain rfl := List.length_eq_zero_iff.1 hlength
  exact ⟨s, rfl, hstack, le_rfl, fun _ _ _ => rfl, fun _ _ => rfl⟩

/-- The element at the back is filled, then the others. -/
theorem FillsAll.cons (hx : Fills x nodes) (hy : FillsAll y contents) : FillsAll (do x; y) (nodes :: contents) := by
  intro s handles rest hstack hlength hempty
  obtain ⟨handle, handles, rfl⟩ : ∃ handle others, handles = handle :: others := by
    cases handles with
    | nil => cases hlength
    | cons handle others => exact ⟨handle, others, rfl⟩
  obtain ⟨hnot, hnodup⟩ := List.nodup_cons.1 hempty.nodup
  have hhandle := hempty.lt handle List.mem_cons_self
  have helement := hempty.elements handle List.mem_cons_self
  obtain ⟨t, ht, hstack', hwrote⟩ := hx s handle (handles ++ rest) hstack hhandle (by rw [helement])
  have hne : ∀ other ∈ handles, other ≠ handle := fun other hother heq => hnot (heq ▸ hother)
  obtain ⟨u, hu, hstack'', hcount, hothers, hshown⟩ := hy t handles rest hstack' (by simpa using hlength)
    ⟨hnodup, fun other hother => (hempty.lt other (List.mem_cons_of_mem _ hother)).trans_le hwrote.count, fun other hother => by
      rw [hwrote.others other (hempty.lt other (List.mem_cons_of_mem _ hother)) (hne other hother),
        hempty.elements other (List.mem_cons_of_mem _ hother)]⟩
  obtain ⟨children, hchildren, hcontent⟩ := hwrote.children
  have hkept : u.elements handle = t.elements handle := hothers handle (hhandle.trans_le hwrote.count) hnot
  rw [helement, List.nil_append] at hchildren
  refine ⟨u, (bind_ok ht).trans hu, hstack'', hwrote.count.trans hcount, fun j hj hj' => ?_, fun lo hlo => ?_⟩
  · obtain ⟨hj', hj''⟩ := not_or.1 (mt List.mem_cons.2 hj')
    rw [hothers j (hj.trans_le hwrote.count) hj'', hwrote.others j hj hj']
  · refine ⟨_, _, rfl, ⟨handle, rfl, hlo handle List.mem_cons_self, ?_, ?_, ?_⟩,
      hshown lo fun other hother => hlo other (List.mem_cons_of_mem _ hother)⟩
    · exact hhandle.trans_le (hwrote.count.trans hcount)
    · rw [hkept, hwrote.name, helement]
    · rw [hkept, hchildren]
      -- what is in it has handles that came after all of these
      refine hcontent.mono hhandle hcount fun j hj hj' => hothers j hj' fun hmem => ?_
      have := hempty.lt j (List.mem_cons_of_mem _ hmem)
      omega

/-- The elements of a container, the first at the back. -/
theorem prependChildren_spec {element : Nat} : ∀ (size : Nat) (s : State), element < s.count →
    ∃ (handles : List Nat) (t : State), prependChildren element size s = .ok () t ∧ handles.length = size ∧
      t.stack = handles ++ s.stack ∧ t.count = s.count + size ∧ Empty handles t ∧ (∀ handle ∈ handles, s.count ≤ handle) ∧
      t.elements element = ⟨(s.elements element).name, handles.map .element ++ (s.elements element).children⟩ ∧
      ∀ j, j < s.count → j ≠ element → t.elements j = s.elements j
  | 0, s, _ => ⟨[], s, rfl, rfl, rfl, rfl, ⟨.nil, nofun, nofun⟩, nofun, rfl, fun _ _ _ => rfl⟩
  | size + 1, s, helement => by
    have hmodify : prependChild element elementName s =
      .ok () (insert (fun children child => child :: children) element elementName s) := rfl
    obtain ⟨handles, t, ht, hlength, hstack, hcount, hempty, hge, hchildren, hothers⟩ := @prependChildren_spec element size
      (insert (fun children child => child :: children) element elementName s) (Nat.lt_succ_of_lt helement)
    have hne : element ≠ s.count := helement.ne
    have hgt : ∀ handle ∈ handles, s.count < handle := hge
    have hnew : t.elements s.count = ⟨elementName, []⟩ := by
      rw [hothers s.count (Nat.lt_succ_self _) hne.symm, insert_new hne]
    have hcount' : t.count = s.count + 1 + size := hcount
    refine ⟨handles ++ [s.count], t, (bind_ok hmodify).trans ht, ?_, ?_, by omega, ⟨?_, ?_, ?_⟩, ?_, ?_, ?_⟩
    · rw [List.length_append, hlength]
      rfl
    · rw [hstack, List.append_assoc]
      rfl
    · refine List.nodup_append.2 ⟨hempty.nodup, List.nodup_singleton _, fun a ha b hb => ?_⟩
      have := hgt a ha
      rw [List.mem_singleton] at hb
      omega
    · intro handle hhandle
      rcases List.mem_append.1 hhandle with hhandle | hhandle
      · exact hempty.lt handle hhandle
      · rw [List.mem_singleton] at hhandle
        omega
    · intro handle hhandle
      rcases List.mem_append.1 hhandle with hhandle | hhandle
      · exact hempty.elements handle hhandle
      · rw [List.mem_singleton.1 hhandle, hnew]
    · intro handle hhandle
      rcases List.mem_append.1 hhandle with hhandle | hhandle
      · exact (hgt handle hhandle).le
      · exact (List.mem_singleton.1 hhandle).ge
    · rw [hchildren, insert_parent, List.map_append, List.append_assoc]
      rfl
    · intro j hj hj'
      rw [hothers j (Nat.lt_succ_of_lt hj) hj', insert_other hj' hj.ne]

/-- A container is filled when its elements are. -/
theorem FillsAll.fills (hy : FillsAll y contents) {size : Nat} (hsize : contents.length = size) (name : Option Name) :
    Fills (do let _ ← containerStart size none; y; finish name) (contents.map (.element elementName)) := by
  intro s handle rest hstack hhandle hchildren
  obtain ⟨handles, t, ht, hlength, hstack', hcount, hempty, hge, helement, hothers⟩ := prependChildren_spec size s hhandle
  have hstart : containerStart size none s = .ok size t := by
    have hnothing : start none s = .ok () s := rfl
    unfold containerStart
    rw [bind_ok hnothing, bind_ok (back_ok hstack), bind_ok ht]
    rfl
  have hnot : handle ∉ handles := fun hmem => absurd (hge handle hmem) (by omega)
  obtain ⟨u, hu, hstack'', hcount', hothers', hshown⟩ := hy t handles (handle :: rest) (hstack ▸ hstack') (hlength.trans hsize.symm) hempty
  have hkept : u.elements handle = t.elements handle := hothers' handle (by omega) hnot
  refine ⟨_, (bind_ok hstart).trans ((bind_ok hu).trans (finish_ok name hstack'')), rfl, ?_, ?_, ?_, handles.map .element, ?_, ?_⟩
  · show s.count ≤ u.count
    omega
  · intro j hj hj'
    exact (hothers' j (by omega) fun hmem => absurd (hge j hmem) (by omega)).trans (hothers j hj hj')
  · show (u.elements handle).name = _
    rw [hkept, helement]
  · show (u.elements handle).children = _
    rw [hkept, helement, hchildren, List.append_nil, List.nil_append]
  · exact hshown s.count hge

end Programs

section Values

variable {tc : Transcode} {stl : Containers}

/-- The strings, which have no NUL in them, and the characters are of the current codeset. -/
def plain (tc : Transcode) : Property where
  string s := (tc.encode s).isSome ∧ 0 ∉ s
  char c := (tc.encode [c]).isSome
  float _ := True
  name _ := True

theorem fills_assign (text : Text) (name : Option Name) : Fills (do assign text; finish name) [.pcdata (cstr text)] := by
  intro s handle rest hstack hhandle hchildren
  have hset : assign text s = .ok () (set (cstr text) handle s) := bind_ok (back_ok hstack)
  have helement : (set (cstr text) handle s).elements handle = ⟨(s.elements handle).name, [.pcdata (cstr text)]⟩ := by
    refine (Function.update_self ..).trans ?_
    rw [hchildren]
    rfl
  refine ⟨_, (bind_ok hset).trans (finish_ok name hstack), rfl, le_rfl, fun j _ hj => Function.update_of_ne hj .., ?_,
    [.pcdata (cstr text)], ?_, _, [], rfl, rfl, rfl⟩
  · exact (congrArg Element.name helement).trans rfl
  · rw [hchildren]
    exact (congrArg Element.children helement).trans rfl

theorem encode_eq {s : Text} (h : (tc.encode s).isSome) : encode tc s = pure ((tc.encode s).getD []) := by
  obtain ⟨text, htext⟩ := Option.isSome_iff_exists.1 h
  unfold encode
  rw [htext]
  rfl

theorem writePod_eq : ∀ (p : Pod) (value : p.Value), (Kind.pod p).Every (plain tc) value →
    writePod tc p value = assign (podText tc p value)
  | .char, _, h => (congrArg (· >>= assign) (encode_eq h)).trans rfl
  | .string, _, h => (congrArg (· >>= assign) (encode_eq h.1)).trans rfl
  | .bool, _, _ | .short, _, _ | .long, _, _ | .longlong, _, _ | .float, _, _ | .double, _, _ | .binary, _, _ => rfl

theorem fills_pod (p : Pod) (value : p.Value) (h : (Kind.pod p).Every (plain tc) value) :
    Fills ((implementation tc).write p value none) [.pcdata (cstr (podText tc p value))] := by
  have hwrite : (implementation tc).write p value none = (do assign (podText tc p value); finish none) := by
    rw [← writePod_eq p value h]
    rfl
  rw [hwrite]
  exact fills_assign _ none

theorem fills_kind : ∀ (k : Kind) (value : k.Value), k.Every (plain tc) value →
    Fills ((implementation tc).writeKind k value none) [.pcdata (cstr (kindText tc k value))]
  | .pod p, value, h => fills_pod p value h
  | .int, _, _ => fills_pod .long _ trivial
  | .ulong, _, _ => fills_pod .long _ trivial

theorem containerStart_some (size : Nat) (name : Name) : (implementation tc).containerStart size (some name) =
    (do start (some name); (implementation tc).containerStart size none) := rfl

/-- With a name, an element is appended and then written without one. -/
theorem serialize_some (name : Name) : ∀ (t : Ty) (value : t.Value), (implementation tc).serialize stl t value (some name) =
    (do start (some name); (implementation tc).serialize stl t value none)
  | .kind (.pod p), value | .enum (.pod p), value => rfl
  | .kind .int, value | .enum .int, value => rfl
  | .kind .ulong, value | .enum .ulong, value => rfl
  | .composite members, value => by
    simp only [Archive.writer.Implementation.serialize]
    rfl
  | .tuple elements, value => by
    simp only [Archive.writer.Implementation.serialize]
    rw [containerStart_some]
    exact bind_assoc ..
  | .sequence element, value => by
    simp only [Archive.writer.Implementation.serialize]
    rw [containerStart_some]
    exact bind_assoc ..
  | .associative container element, value => by
    simp only [Archive.writer.Implementation.serialize]
    rw [containerStart_some]
    exact bind_assoc ..

theorem elementContents_length : ∀ (elements : Elements) (value : elements.Value),
    (elementContents tc stl elements value).length = elements.length := by
  intro elements
  cases elements with
  | nil => exact fun _ => rfl
  | cons _ elements => exact fun value => congrArg (· + 1) (elementContents_length elements value.2)

theorem FillsAll.forM {α : Type} {f : α → M PUnit} {g : α → List Node} : ∀ {values : List α},
    (∀ v ∈ values, Fills (f v) (g v)) → FillsAll (values.forM f) (values.map g)
  | [], _ => .nil
  | v :: _, h => .cons (h v List.mem_cons_self) (.forM fun w hw => h w (List.mem_cons_of_mem v hw))

mutual

/-- A value is written in the element at the back. -/
theorem serialize_fills : ∀ (t : Ty) (value : t.Value), t.Every (plain tc) value →
    Fills ((implementation tc).serialize stl t value none) (content tc stl t value)
  | .kind k, value, h => fills_kind k value h
  | .enum k, value, h => fills_kind k value h
  | .composite members, value, h => (serializeMembers_appends members value h).fills none
  | .tuple elements, value, h =>
    (serializeElements_fillsAll elements value h).fills (elementContents_length elements value) none
  | .sequence element, value, h =>
    (FillsAll.forM fun v hv => serialize_fills element v (h v hv)).fills (List.length_map _) none
  | .associative container element, value, h => by
    refine (FillsAll.forM fun v hv => serialize_fills element v (h v ((stl container element).mem_iterate.1 hv))).fills ?_ none
    rw [List.length_map, (stl container element).length_iterate]

theorem serializeMembers_appends : ∀ (members : Members) (value : members.Value), members.Every (plain tc) value →
    Appends ((implementation tc).serializeMembers stl members value) (memberContent tc stl members value)
  | .nil, _, _ => .pure
  | .cons name member members, value, h => by
    have hmember := (serialize_fills member value.1 h.2.1).appends name
    simp only [Archive.writer.Implementation.serializeMembers, memberContent]
    rw [serialize_some]
    exact hmember.bind (serializeMembers_appends members value.2 h.2.2)

theorem serializeElements_fillsAll : ∀ (elements : Elements) (value : elements.Value), elements.Every (plain tc) value →
    FillsAll ((implementation tc).serializeElements stl elements value) (elementContents tc stl elements value)
  | .nil, _, _ => .nil
  | .cons element elements, value, h =>
    .cons (serialize_fills element value.1 h.1) (serializeElements_fillsAll elements value.2 h.2)

end

/-- A complete value leaves the stack as it was, and the element that it names is the document's. -/
theorem write_eq {t : Ty} {value : t.Value} (h : t.Every (plain tc) value) (name : Name) :
    ∃ s, (implementation tc).serialize stl t value (some name) .empty = .ok () s ∧ s.stack = State.empty.stack ∧
      s.document = [.element name.text (content tc stl t value)] := by
  rw [serialize_some]
  obtain ⟨s, hs, hstack, hwrote⟩ := (serialize_fills t value h).appends name .empty 0 [] rfl Nat.one_pos
  obtain ⟨children, hchildren, hshown⟩ := hwrote.children
  refine ⟨s, hs, hstack, ?_⟩
  have hempty : (State.empty.elements 0).children = [] := rfl
  rw [hempty, List.nil_append] at hchildren
  unfold State.document
  rw [hchildren]
  exact nodes_of_shown hshown hwrote.count (Nat.lt_add_of_pos_left Nat.one_pos)

end Values

end writer

/-! ## What is loaded -/

/-- `ct_space`. -/
def white (c : UInt8) : Bool := c = 32 ∨ c = 9 ∨ c = 10 ∨ c = 13

/-- A text that is not of white space only. -/
def kept (text : Text) : Text := if text.all white then [] else text

mutual

/-- The node without the texts that are of white space only. -/
def Node.loaded : Node → List Node
  | .pcdata text => if text.all white then [] else [.pcdata text]
  | .element name children => [.element name (loaded children)]

/-- What the parser makes of nodes. -/
def loaded : List Node → List Node
  | [] => []
  | node :: nodes => node.loaded ++ loaded nodes

end

/-- The library is correct for a document: the text that it saves has no NUL in it, and is loaded as the document
without the texts of white space. -/
structure Library.Correct (lib : Library) (document : List Node) : Prop where
  text : 0 ∉ lib.save document
  parse : lib.parse (lib.save document) = some (loaded document)

/-- The conversions are each other's inverses, what is white stays white, and the text of a binary is of neither
NULs nor spaces. -/
structure Transcode.Correct (tc : Transcode) : Prop where
  decode_encode : ∀ {s u}, tc.encode s = some u → tc.decode u = some s
  encode_nul : ∀ {u}, tc.encode [0] = some u → u = [0]
  decode_nil : tc.decode [] = some []
  not_mem_encode : ∀ {s u}, 0 ∉ s → tc.encode s = some u → 0 ∉ u
  white_encode : ∀ {s u}, tc.encode s = some u → u.all white = s.all white
  decodeBinary_encodeBinary : ∀ b, tc.decodeBinary (tc.encodeBinary b) = some b
  encodeBinary : ∀ b, ∀ c ∈ tc.encodeBinary b, c ≠ 0 ∧ Ini.isspace c = false

/-- A value has a text that is read as it: it is not made of floating-point numbers. -/
def Kind.Exact : Kind → Prop
  | .pod .float => False
  | .pod .double => False
  | _ => True

mutual

/-- No text in a value of the type is changed by white space that is dropped. -/
def Ty.Exact : Ty → Prop
  | .kind k => Kind.Exact k
  | .enum k => Kind.Exact k
  | .composite members => Members.Exact members
  | .tuple elements => Elements.Exact elements
  | .sequence element => Ty.Exact element
  | .associative _ element => Ty.Exact element

/-- The members are of exact types. -/
def Members.Exact : Members → Prop
  | .nil => True
  | .cons _ member members => Ty.Exact member ∧ Members.Exact members

/-- The elements are of exact types. -/
def Elements.Exact : Elements → Prop
  | .nil => True
  | .cons element elements => Ty.Exact element ∧ Elements.Exact elements

end

/-- What is read of the value of a kind whose white space has been dropped. -/
def Kind.blanked : (k : Kind) → k.Value → k.Value
  | .pod .string, value => kept value
  | .pod .char, value => if white value then 0 else value
  | _, value => value

section

variable (stl : Containers)

mutual

/-- The value with blank strings empty and blank characters NUL. -/
def Ty.blanked : (t : Ty) → t.Value → t.Value
  | .kind k, value => Kind.blanked k value
  | .enum k, value => Kind.blanked k value
  | .composite members, value => Members.blanked members value
  | .tuple elements, value => Elements.blanked elements value
  | .sequence element, value => value.map fun v => Ty.blanked element v
  | .associative container element, value =>
    (((stl container element).iterate value).map fun v => Ty.blanked element v).foldl (stl container element).insert []

/-- What is read of the members. -/
def Members.blanked : (members : Members) → members.Value → members.Value
  | .nil, value => value
  | .cons _ member members, value => (Ty.blanked member value.1, Members.blanked members value.2)

/-- What is read of the elements. -/
def Elements.blanked : (elements : Elements) → elements.Value → elements.Value
  | .nil, value => value
  | .cons element elements, value => (Ty.blanked element value.1, Elements.blanked elements value.2)

end

end

/-! ## Reading -/

section Texts

theorem kept_of_solid {text : Text} (h : ∀ c ∈ text, c ≠ 0 ∧ Ini.isspace c = false) : kept (cstr text) = text := by
  have hcstr : cstr text = text := cstr_eq fun hmem => (h 0 hmem).1 rfl
  rw [hcstr]
  unfold kept
  split_ifs with hwhite
  · cases text with
    | nil => rfl
    | cons c text =>
      -- white space of the library is white space of the language
      have hc : white c = true := List.all_eq_true.1 hwhite c List.mem_cons_self
      have hspace := (h c List.mem_cons_self).2
      unfold white at hc
      unfold Ini.isspace at hspace
      rw [decide_eq_true_eq] at hc
      rw [decide_eq_false_iff_not] at hspace
      rcases hc with rfl | rfl | rfl | rfl <;> exact absurd (by decide) hspace
  · rfl

theorem dropWhile_of_solid {text : Text} (h : ∀ c ∈ text, c ≠ 0 ∧ Ini.isspace c = false) : text.dropWhile Ini.isspace = text := by
  cases text with
  | nil => rfl
  | cons c text => exact List.dropWhile_cons_of_neg (by simp [(h c List.mem_cons_self).2])

theorem ofInt_solid (i : Int) : ∀ c ∈ Decimal.ofInt i, c ≠ 0 ∧ Ini.isspace c = false := by
  intro c hc
  rcases Decimal.mem_ofInt hc with rfl | hdigit
  · decide
  · unfold Decimal.isDigit at hdigit
    rw [decide_eq_true_eq] at hdigit
    obtain ⟨hle, hge⟩ := hdigit
    have hle' : 48 ≤ c.toNat := hle
    have hge' : c.toNat ≤ 57 := hge
    refine ⟨fun heq => ?_, ?_⟩
    · rw [heq] at hle'
      exact absurd hle' (by decide)
    · unfold Ini.isspace
      rw [decide_eq_false_iff_not]
      rintro (rfl | ⟨-, h⟩)
      · exact absurd hle' (by decide)
      · have h' : c.toNat ≤ 13 := h
        omega

theorem boolalpha_solid (b : Bool) : ∀ c ∈ writer.boolalpha b, c ≠ 0 ∧ Ini.isspace c = false := by
  cases b <;> decide +kernel

theorem extract_ofInt {w : Nat} (value old : BitVec w) : reader.extract w (Decimal.ofInt value.toInt) old = value := by
  have hle := value.le_toInt
  have hlt := value.toInt_lt
  unfold reader.extract
  rw [dropWhile_of_solid (ofInt_solid _), if_neg (Decimal.ofInt_ne_nil _), Decimal.scan_ofInt]
  dsimp only
  rw [min_eq_left (by omega), max_eq_right hle, BitVec.ofInt_toInt]

theorem extractBool_boolalpha (value old : Bool) : reader.extractBool (writer.boolalpha value) old = value := by
  cases value <;> rfl

end Texts

section Reading

variable {tc : Transcode} {stl : Containers} {indeterminate : BitVec 64}

theorem decode_kept (htc : tc.Correct) {s : Text} (h : (tc.encode s).isSome) (hnul : 0 ∉ s) :
    tc.decode (kept (cstr ((tc.encode s).getD []))) = some (kept s) := by
  obtain ⟨u, hu⟩ := Option.isSome_iff_exists.1 h
  rw [hu, Option.getD_some, cstr_eq (htc.not_mem_encode hnul hu)]
  unfold kept
  rw [htc.white_encode hu]
  split_ifs
  · exact htc.decode_nil
  · exact htc.decode_encode hu

/-- A NUL makes an empty text, whose first character is a NUL. -/
theorem decode_kept_char (htc : tc.Correct) {c : UInt8} (h : (tc.encode [c]).isSome) :
    ∃ s, tc.decode (kept (cstr ((tc.encode [c]).getD []))) = some s ∧ (cstr s).headD 0 = if white c then 0 else c := by
  by_cases hc : c = 0
  · subst hc
    obtain ⟨u, hu⟩ := Option.isSome_iff_exists.1 h
    refine ⟨[], ?_, rfl⟩
    rw [hu, Option.getD_some, htc.encode_nul hu]
    exact htc.decode_nil
  · have hnul : 0 ∉ [c] := by simpa using Ne.symm hc
    refine ⟨kept [c], decode_kept htc h hnul, ?_⟩
    unfold kept
    rw [List.all_cons, List.all_nil, Bool.and_true]
    split_ifs
    · rfl
    · rw [cstr_eq hnul]
      rfl

theorem readPod_text (htc : tc.Correct) : ∀ (p : Pod) (value old : p.Value), Kind.Exact (.pod p) →
    (Kind.pod p).Every (writer.plain tc) value →
    reader.readPod tc (kept (cstr (podText tc p value))) p old = pure (Kind.blanked (.pod p) value)
  | .bool, value, old, _, _ => by
    rw [podText, kept_of_solid (boolalpha_solid _)]
    exact congrArg pure (extractBool_boolalpha value old)
  | .char, value, _, _, h => by
    obtain ⟨s, hs, hc⟩ := decode_kept_char htc h
    rw [podText, reader.readPod, hs]
    exact congrArg (pure : UInt8 → reader.M UInt8) hc
  | .short, value, old, _, _ => by
    rw [podText, kept_of_solid (ofInt_solid _)]
    exact congrArg pure (extract_ofInt value old)
  | .long, value, old, _, _ => by
    rw [podText, kept_of_solid (ofInt_solid _)]
    exact congrArg pure (extract_ofInt value old)
  | .longlong, value, old, _, _ => by
    rw [podText, kept_of_solid (ofInt_solid _)]
    exact congrArg pure (extract_ofInt value old)
  | .string, value, _, _, h => by
    rw [podText]
    exact congrArg reader.orTranscode (decode_kept htc h.1 h.2)
  | .binary, value, _, _, _ => by
    rw [podText, kept_of_solid (htc.encodeBinary _)]
    exact congrArg reader.orTranscode (htc.decodeBinary_encodeBinary value)

theorem text_loaded (name text : Text) : (Node.element name (loaded [.pcdata text])).text = kept text := by
  simp only [loaded, Node.loaded, kept, List.append_nil]
  split_ifs <;> rfl

theorem start_child {name : Name} {parent child : Node} (h : parent.child name.text = some child) (stack : reader.Stack) :
    reader.start (some name) (some parent :: stack) = .ok true (some child :: some parent :: stack) := by
  have hback : reader.back (some parent :: stack) = .ok (some parent) (some parent :: stack) := rfl
  change (reader.back >>= fun node => do
    modify fun stack => node.bind (Node.child name.text) :: stack
    pure (node.bind (Node.child name.text)).isSome) (some parent :: stack) = _
  rw [bind_ok hback, Option.bind_some, h]
  rfl

theorem pod_reads (htc : tc.Correct) {p : Pod} {value : p.Value} (hx : Kind.Exact (.pod p)) (h : (Kind.pod p).Every (writer.plain tc) value)
    {name : Option Name} {before after : reader.Stack} (old : p.Value) {element : Text}
    (hs : reader.start name before = .ok true (some (.element element (loaded [.pcdata (cstr (podText tc p value))])) :: after)) :
    (strictReader tc indeterminate).pod p old name before = .ok (Kind.blanked (.pod p) value) after := by
  have hread : reader.read tc p old name before = .ok (Kind.blanked (.pod p) value, true) after := by
    unfold reader.read
    rw [bind_ok hs]
    change ((reader.readPod tc (Node.text (.element element (loaded [.pcdata (cstr (podText tc p value))]))) p old) >>= fun value =>
      reader.finish name >>= fun _ => pure (value, true)) _ = _
    rw [text_loaded, readPod_text htc p value old hx h]
    rfl
  change (reader.read tc p old name >>= fun result => Policy.apply .strict result.2 name >>= fun _ => pure result.1) before = _
  rw [bind_ok hread]
  rfl

theorem read_reads (htc : tc.Correct) {k : Kind} {value : k.Value} (hx : Kind.Exact k) (h : k.Every (writer.plain tc) value)
    {name : Option Name} {before after : reader.Stack} (old : k.Value) {element : Text}
    (hs : reader.start name before = .ok true (some (.element element (loaded [.pcdata (cstr (kindText tc k value))])) :: after)) :
    (strictReader tc indeterminate).read k old name before = .ok (Kind.blanked k value) after := by
  cases k with
  | pod p => exact pod_reads htc hx h old hs
  | int =>
    have hread := @pod_reads tc indeterminate htc .long _ trivial trivial name before after indeterminate element hs
    refine (bind_ok hread).trans ?_
    exact congrArg (fun v => EStateM.Result.ok v after) (setWidth_signExtend value)
  | ulong => exact @pod_reads tc indeterminate htc .long _ trivial trivial name before after indeterminate element hs

theorem serialtypeStart_reads {name : Option Name} {before after : reader.Stack} (hs : reader.start name before = .ok true after) :
    (strictReader tc indeterminate).serialtypeStart name before = .ok true after := by
  change (reader.start name >>= fun result => Policy.apply .strict result name) before = _
  rw [bind_ok hs]
  rfl

theorem containerStart_reads {size : Nat} {name : Option Name} {before after : reader.Stack} {element : Text} {nodes : List Node}
    (hs : reader.start name before = .ok true (some (.element element nodes) :: after)) :
    (strictReader tc indeterminate).containerStart size name before =
      .ok nodes.length (nodes.map some ++ some (.element element nodes) :: after) := by
  have hstart : reader.containerStart size name before =
      .ok (nodes.length, true) (nodes.map some ++ some (.element element nodes) :: after) := by
    unfold reader.containerStart
    rw [bind_ok hs]
    rfl
  change (reader.containerStart size name >>= fun result => Policy.apply .strict result.2 name >>= fun _ => pure result.1) before = _
  rw [bind_ok hstart]
  rfl

theorem loaded_elements (name : Text) : ∀ contents : List (List Node),
    loaded (contents.map (.element name)) = contents.map fun nodes => .element name (loaded nodes)
  | [] => rfl
  | nodes :: contents => congrArg (List.cons (Node.element name (loaded nodes))) (loaded_elements name contents)

theorem child_append {before : List Node} {name : Text} (h : ∀ node ∈ before, node.named name = false) (element : Text)
    (nodes rest : List Node) :
    (Node.element element (before ++ .element name nodes :: rest)).child name = some (.element name nodes) := by
  have hbefore : before.find? (Node.named name) = none := List.find?_eq_none.2 fun node hnode => by simp [h node hnode]
  have hnamed : Node.named name (.element name nodes) = true := beq_self_eq_true name
  unfold Node.child Node.children
  rw [List.find?_append, hbefore, Option.none_or, List.find?_cons_of_pos hnamed]

mutual

/-- What was written for a value is read as the value without what is blank, and the stack is then what it was
before the node was found. -/
theorem serialize_reads (htc : tc.Correct) : ∀ (t : Ty) (value : t.Value), t.Distinct → Ty.Exact t → t.Every (writer.plain tc) value →
    ∀ (name : Option Name) (before after : reader.Stack) (element : Text),
    reader.start name before = .ok true (some (.element element (loaded (content tc stl t value))) :: after) →
    (strictReader tc indeterminate).serialize stl t t.init name before = .ok (Ty.blanked stl t value) after
  | .kind _, _, _, hx, h, _, _, _, _, hs => read_reads htc hx h _ hs
  | .enum _, _, _, hx, h, _, _, _, _, hs => read_reads htc hx h _ hs
  | .composite members, value, hd, hx, h, name, before, after, element, hs => by
    have hmembers := serializeMembers_reads htc members value hd hx h [] (fun _ _ _ => nofun) element after
    simp only [Reader.serialize]
    rw [bind_ok (serialtypeStart_reads hs)]
    exact (bind_ok hmembers).trans rfl
  | .tuple elements, value, hd, hx, h, name, before, after, node, hs => by
    have helements := serializeElements_reads htc elements value hd hx h
      (some (.element node (loaded (content tc stl (.tuple elements) value))) :: after)
    have hlength : elements.length = (loaded (content tc stl (.tuple elements) value)).length := by
      rw [content, loaded_elements, List.length_map, writer.elementContents_length]
    simp only [Reader.serialize]
    rw [bind_ok (containerStart_reads hs), if_pos hlength]
    exact (bind_ok helements).trans rfl
  | .sequence element, value, hd, hx, h, name, before, after, node, hs => by
    have hnodes : loaded (content tc stl (.sequence element) value) =
        value.map fun v => .element writer.elementName (loaded (content tc stl element v)) := by
      rw [content, loaded_elements, List.map_map]
      rfl
    rw [hnodes] at hs
    have helements := @Reader.mapM_reads _ _ (fun v => Node.element writer.elementName (loaded (content tc stl element v)))
      (Ty.blanked stl element) (fun v => (strictReader tc indeterminate).serialize stl element v none) element.init value
      (some (.element node (value.map fun v => .element writer.elementName (loaded (content tc stl element v)))) :: after)
      fun v hv rest => serialize_reads htc element v hd hx (h v hv) none _ rest writer.elementName rfl
    simp only [Reader.serialize]
    rw [bind_ok (containerStart_reads hs)]
    simp only [Ty.init]
    rw [Reader.resize_nil, List.length_map]
    exact (bind_ok helements).trans rfl
  | .associative container element, value, hd, hx, h, name, before, after, node, hs => by
    have hmem : ∀ v ∈ (stl container element).iterate value, v ∈ value := fun v => (stl container element).mem_iterate.1
    have hnodes : loaded (content tc stl (.associative container element) value) =
        ((stl container element).iterate value).map fun v => .element writer.elementName (loaded (content tc stl element v)) := by
      rw [content, loaded_elements, List.map_map]
      rfl
    rw [hnodes] at hs
    have helements := @Reader.insertEach_reads _ _ (fun v => Node.element writer.elementName (loaded (content tc stl element v)))
      (Ty.blanked stl element) (stl container element) ((strictReader tc indeterminate).serialize stl element element.init none)
      ((stl container element).iterate value) [] (some (.element node (((stl container element).iterate value).map fun v =>
        .element writer.elementName (loaded (content tc stl element v)))) :: after)
      fun v hv rest => serialize_reads htc element v hd hx (h v (hmem v hv)) none _ rest writer.elementName rfl
    simp only [Reader.serialize]
    rw [bind_ok (containerStart_reads hs), List.length_map]
    exact (bind_ok helements).trans rfl

theorem serializeMembers_reads (htc : tc.Correct) : ∀ (members : Members) (value : members.Value), members.Distinct →
    Members.Exact members → members.Every (writer.plain tc) value → ∀ before : List Node,
    (∀ name ∈ members.names, ∀ node ∈ before, node.named name.text = false) → ∀ (element : Text) (stack : reader.Stack),
    (strictReader tc indeterminate).serializeMembers stl members members.init
      (some (.element element (before ++ loaded (memberContent tc stl members value))) :: stack) =
      .ok (Members.blanked stl members value) (some (.element element (before ++ loaded (memberContent tc stl members value))) :: stack)
  | .nil, _, _, _, _, _, _, _, _ => rfl
  | .cons name member members, value, hd, hx, h, before, hb, element, stack => by
    have hsplit : before ++ loaded (memberContent tc stl (.cons name member members) value) =
        (before ++ [.element name.text (loaded (content tc stl member value.1))]) ++ loaded (memberContent tc stl members value.2) := by
      rw [List.append_assoc]
      rfl
    have hchild := child_append (hb name List.mem_cons_self) element (loaded (content tc stl member value.1))
      (loaded (memberContent tc stl members value.2))
    have hmember := serialize_reads htc member value.1 hd.2.1 hx.1 h.2.1 (some name) _ _ name.text (start_child hchild stack)
    have hmembers := serializeMembers_reads htc members value.2 hd.2.2 hx.2 h.2.2
      (before ++ [.element name.text (loaded (content tc stl member value.1))]) (fun other hother node hnode => by
        rcases List.mem_append.1 hnode with hnode | hnode
        · exact hb other (List.mem_cons_of_mem _ hother) node hnode
        · -- the members have names of their own
          rw [List.mem_singleton.1 hnode]
          exact beq_eq_false_iff_ne.2 fun heq => hd.1 (text_inj heq ▸ hother)) element stack
    rw [← hsplit] at hmembers
    simp only [Reader.serializeMembers]
    refine (bind_ok hmember).trans ?_
    exact (bind_ok hmembers).trans rfl

theorem serializeElements_reads (htc : tc.Correct) : ∀ (elements : Elements) (value : elements.Value), elements.Distinct →
    Elements.Exact elements → elements.Every (writer.plain tc) value → ∀ rest : reader.Stack,
    (strictReader tc indeterminate).serializeElements stl elements elements.init
      ((loaded ((elementContents tc stl elements value).map (.element writer.elementName))).map some ++ rest) =
      .ok (Elements.blanked stl elements value) rest
  | .nil, _, _, _, _, _ => rfl
  | .cons element elements, value, hd, hx, h, rest => by
    have helement := serialize_reads htc element value.1 hd.1 hx.1 h.1 none
      (some (.element writer.elementName (loaded (content tc stl element value.1))) ::
        ((loaded ((elementContents tc stl elements value.2).map (.element writer.elementName))).map some ++ rest)) _ writer.elementName rfl
    have helements := serializeElements_reads htc elements value.2 hd.2 hx.2 h.2 rest
    simp only [Reader.serializeElements]
    refine (bind_ok helement).trans ?_
    exact (bind_ok helements).trans rfl

end

end Reading

/-! ## Round trips -/

/-- No string is of white space only, unless it is empty, and no character is white space. -/
def visible : Property where
  string s := s.all white = true → s = []
  char c := white c = false
  float _ := True
  name _ := True

section Visible

variable {stl : Containers}

theorem kept_visible (s : Text) : visible.string (kept s) := by
  unfold kept
  split_ifs with h
  · exact fun _ => rfl
  · exact fun h' => absurd h' h

theorem kept_eq {s : Text} (h : visible.string s) : kept s = s := by
  unfold kept
  split_ifs with hwhite
  · exact (h hwhite).symm
  · rfl

theorem kind_visible : ∀ (k : Kind) (value : k.Value), k.Every visible (Kind.blanked k value)
  | .pod .string, value => kept_visible value
  | .pod .char, value => by
    show white (if white value then 0 else value) = false
    split_ifs with h
    · rfl
    · simpa using h
  | .pod .bool, _ | .pod .short, _ | .pod .long, _ | .pod .longlong, _ | .pod .float, _ | .pod .double, _ | .pod .binary, _ => trivial
  | .int, _ | .ulong, _ => trivial

theorem kind_eq : ∀ (k : Kind) (value : k.Value), k.Every visible value → Kind.blanked k value = value
  | .pod .string, _, h => kept_eq h
  | .pod .char, value, h => by
    have hvisible : white value = false := h
    show (if white value then 0 else value) = value
    rw [if_neg (by simp [hvisible])]
  | .pod .bool, _, _ | .pod .short, _, _ | .pod .long, _, _ | .pod .longlong, _, _ | .pod .float, _, _ | .pod .double, _, _ => rfl
  | .pod .binary, _, _ | .int, _, _ | .ulong, _, _ => rfl

mutual

theorem blanked_visible : ∀ (t : Ty) (value : t.Value), t.Every visible (Ty.blanked stl t value)
  | .kind k, value => kind_visible k value
  | .enum k, value => kind_visible k value
  | .composite members, value => members_visible members value
  | .tuple elements, value => elements_visible elements value
  | .sequence element, value => by
    intro v hv
    obtain ⟨w, -, rfl⟩ := List.mem_map.1 hv
    exact blanked_visible element w
  | .associative container element, value => by
    intro v hv
    rcases (stl container element).mem_of_foldl hv with hv | hv
    · obtain ⟨w, -, rfl⟩ := List.mem_map.1 hv
      exact blanked_visible element w
    · cases hv

theorem members_visible : ∀ (members : Members) (value : members.Value), members.Every visible (Members.blanked stl members value)
  | .nil, _ => trivial
  | .cons _ member members, value => ⟨trivial, blanked_visible member value.1, members_visible members value.2⟩

theorem elements_visible : ∀ (elements : Elements) (value : elements.Value), elements.Every visible (Elements.blanked stl elements value)
  | .nil, _ => trivial
  | .cons element elements, value => ⟨blanked_visible element value.1, elements_visible elements value.2⟩

end

mutual

theorem blanked_eq : ∀ (t : Ty) (value : t.Value), t.Regular stl value → t.Every visible value → Ty.blanked stl t value = value
  | .kind k, value, _, h => kind_eq k value h
  | .enum k, value, _, h => kind_eq k value h
  | .composite members, value, hr, h => members_eq members value hr h
  | .tuple elements, value, hr, h => elements_eq elements value hr h
  | .sequence element, value, hr, h => by
    have hvalues := List.map_congr_left fun v hv => blanked_eq element v (hr v hv) (h v hv)
    exact hvalues.trans (List.map_id' value)
  | .associative container element, value, hr, h => by
    have hmem : ∀ v ∈ (stl container element).iterate value, v ∈ value := fun v => (stl container element).mem_iterate.1
    have hvalues := List.map_congr_left fun v hv => blanked_eq element v (hr.2 v (hmem v hv)) (h v (hmem v hv))
    refine Eq.trans ?_ hr.1
    exact congrArg (fun values => values.foldl (stl container element).insert []) (hvalues.trans (List.map_id' _))

theorem members_eq : ∀ (members : Members) (value : members.Value), members.Regular stl value → members.Every visible value →
    Members.blanked stl members value = value
  | .nil, _, _, _ => rfl
  | .cons _ member members, value, hr, h =>
    Prod.ext (blanked_eq member value.1 hr.1 h.2.1) (members_eq members value.2 hr.2 h.2.2)

theorem elements_eq : ∀ (elements : Elements) (value : elements.Value), elements.Regular stl value → elements.Every visible value →
    Elements.blanked stl elements value = value
  | .nil, _, _, _ => rfl
  | .cons element elements, value, hr, h =>
    Prod.ext (blanked_eq element value.1 hr.1 h.1) (elements_eq elements value.2 hr.2 h.2)

end

end Visible

section RoundTrip

variable (tc : Transcode) (stl : Containers) (lib : Library) (indeterminate : BitVec 64)

/-- A value that is written, saved, loaded and read is the value, and the stacks are then as they were. -/
def RoundTrip (source : Source) (t : Ty) (value : t.Value) (name : Name) : Prop :=
  ∃ s document, (writer.implementation tc).serialize stl t value (some name) .empty = .ok () s ∧
    s.stack = writer.State.empty.stack ∧
    lib.load source (lib.saveString s.document []) = .ok document ∧
    (strictReader tc indeterminate).serialize stl t t.init (some name) [some document] = .ok value [some document]

variable {tc : Transcode} {stl : Containers} {lib : Library} {indeterminate : BitVec 64}

theorem load_save {document : List Node} (h : lib.Correct document) (source : Source) :
    lib.load source (lib.saveString document []) = .ok (.element [] (loaded document)) := by
  have hsave : lib.saveString document [] = lib.save document := rfl
  have hchars : cstr (lib.save document) = lib.save document := cstr_eq h.text
  rw [hsave]
  cases source with
  | string => exact congrArg Library.check h.parse
  | stream => exact congrArg Library.check h.parse
  | chars =>
    unfold Library.load
    dsimp only
    rw [hchars, h.parse]
    rfl

/-- What was written and loaded is read as the value without what is blank. -/
theorem read_document (htc : tc.Correct) {t : Ty} {value : t.Value} (hd : t.Distinct) (hx : Ty.Exact t)
    (h : t.Every (writer.plain tc) value) (name : Name) :
    (strictReader tc indeterminate).serialize stl t t.init (some name)
      [some (.element [] (loaded [.element name.text (content tc stl t value)]))] =
      .ok (Ty.blanked stl t value) [some (.element [] (loaded [.element name.text (content tc stl t value)]))] := by
  have hchild := @child_append [] name.text (fun _ => nofun) [] (loaded (content tc stl t value)) []
  exact serialize_reads htc t value hd hx h (some name) _ _ name.text (start_child hchild [])

theorem visible_of_roundTrip (htc : tc.Correct) {t : Ty} {value : t.Value} (hd : t.Distinct) (hx : Ty.Exact t)
    (h : t.Every (writer.plain tc) value) {name : Name}
    (hlib : ∀ s, (writer.implementation tc).serialize stl t value (some name) .empty = .ok () s → lib.Correct s.document)
    {source : Source} (hreturns : RoundTrip tc stl lib indeterminate source t value name) : t.Every visible value := by
  obtain ⟨s, document, hs, -, hload, hread⟩ := hreturns
  obtain ⟨s', hs', -, hdocument⟩ := @writer.write_eq tc stl t value h name
  rw [hs'] at hs
  cases hs
  rw [load_save (hlib _ hs') source, hdocument] at hload
  cases hload
  rw [read_document htc hd hx h name] at hread
  have hvalue : Ty.blanked stl t value = value := by
    injection hread
  rw [← hvalue]
  exact blanked_visible t value

/-- A value returns exactly when nothing in it is blank. -/
theorem roundTrip_iff (htc : tc.Correct) {t : Ty} {value : t.Value} (hd : t.Distinct) (hx : Ty.Exact t) (hr : t.Regular stl value)
    (h : t.Every (writer.plain tc) value) (name : Name)
    (hlib : ∀ s, (writer.implementation tc).serialize stl t value (some name) .empty = .ok () s → lib.Correct s.document)
    (source : Source) : RoundTrip tc stl lib indeterminate source t value name ↔ t.Every visible value := by
  refine ⟨visible_of_roundTrip htc hd hx h hlib, fun hvisible => ?_⟩
  obtain ⟨s, hs, hstack, hdocument⟩ := @writer.write_eq tc stl t value h name
  have hload := load_save (hlib s hs) source
  have hread := @read_document tc stl indeterminate htc t value hd hx h name
  rw [hdocument] at hload
  rw [blanked_eq t value hr hvisible] at hread
  exact ⟨s, _, hs, hstack, hdocument ▸ hload, hread⟩

end RoundTrip

section Witness

/-- A locale of plain bytes. A byte of a binary is written as two letters, and floating-point numbers are not. -/
def bytes : Transcode where
  encode := some
  decode := some
  encodeBinary data := data.flatMap letters
  decodeBinary s := some (pairs s)
  ofFloat _ := []
  ofDouble _ := []
  toFloat _ old := old
  toDouble _ old := old

theorem bytes_correct : bytes.Correct where
  decode_encode h := by cases h; rfl
  encode_nul h := by cases h; rfl
  decode_nil := rfl
  not_mem_encode h hu := by cases hu; exact h
  white_encode h := by cases h; rfl
  decodeBinary_encodeBinary data := congrArg some (pairs_letters data)
  encodeBinary data c h := by
    obtain ⟨b, -, hb⟩ := List.mem_flatMap.1 h
    have hle := le_of_mem_letters hb
    refine ⟨fun heq => absurd (heq ▸ hle) (by decide), ?_⟩
    unfold Ini.isspace
    rw [decide_eq_false_iff_not]
    rintro (rfl | ⟨-, h⟩)
    · exact absurd hle (by decide)
    · have h' : c.toNat ≤ 13 := h
      omega

/-- The library, as far as `<v>text</v>` goes. -/
def table (text : Text) : Library where
  save _ := [60, 118, 62] ++ text ++ [60, 47, 118, 62]
  parse _ := some (loaded [.element valueName.text [.pcdata text]])

theorem table_correct {text : Text} (h : 0 ∉ text) : (table text).Correct [.element valueName.text [.pcdata text]] where
  text := by simpa [table] using h
  parse := rfl

/-- The document of a string. -/
theorem string_document {text : Text} (h : 0 ∉ text) {s : writer.State}
    (hs : (writer.implementation bytes).serialize vectors (.kind (.pod .string)) text (some valueName) .empty = .ok () s) :
    (table text).Correct s.document := by
  obtain ⟨s', hs', -, hdocument⟩ := @writer.write_eq bytes vectors (.kind (.pod .string)) text ⟨rfl, h⟩ valueName
  have hcontent : content bytes vectors (.kind (.pod .string)) text = [.pcdata text] := by
    show [Node.pcdata (cstr text)] = _
    rw [cstr_eq h]
  rw [hs'] at hs
  cases hs
  rw [hdocument, hcontent]
  exact table_correct h

theorem words_return : RoundTrip bytes vectors (table [97, 32, 98]) 0 .stream (.kind (.pod .string)) [97, 32, 98] valueName := by
  have hplain : (Ty.kind (.pod .string)).Every (writer.plain bytes) [97, 32, 98] := ⟨rfl, by decide⟩
  refine (@roundTrip_iff bytes vectors _ 0 bytes_correct (.kind (.pod .string)) [97, 32, 98] trivial trivial trivial hplain valueName
    (fun s hs => string_document hplain.2 hs) .stream).2 ?_
  show [97, 32, 98].all white = true → [97, 32, 98] = []
  decide

/-- A space does not return. -/
theorem space_lost : bytes.Correct ∧ (∀ s, (writer.implementation bytes).serialize vectors (.kind (.pod .string)) [32] (some valueName) .empty =
      .ok () s → (table [32]).Correct s.document) ∧
    ¬RoundTrip bytes vectors (table [32]) 0 .string (.kind (.pod .string)) [32] valueName := by
  have hplain : (Ty.kind (.pod .string)).Every (writer.plain bytes) [32] := ⟨rfl, by decide⟩
  have hlib := fun s hs => @string_document [32] hplain.2 s hs
  refine ⟨bytes_correct, hlib, fun hreturns => ?_⟩
  have hvisible : ([32] : Text).all white = true → ([32] : Text) = [] :=
    @visible_of_roundTrip bytes vectors _ 0 bytes_correct (.kind (.pod .string)) [32] trivial trivial hplain valueName hlib .string hreturns
  exact absurd (hvisible rfl) (List.cons_ne_nil _ _)

end Witness

end Casual.Archive.Xml

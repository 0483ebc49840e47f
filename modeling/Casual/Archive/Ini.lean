/-
`serviceframework/source/archive/ini.cpp`: the flat text of a tree of sections and values. What is
written for a tree is parsed to the same tree.
-/
import Casual.Lib.Multimap
import Mathlib.Data.List.DropRight

namespace Casual.Archive.Ini

open Casual.Lib

/-- A `std::string`, as its characters. -/
abbrev Text := List UInt8

/-- `tree`: two `std::multimap`s. -/
structure Tree where
  children : List (Text × Tree)
  values : List (Text × Text)

/-- A document with nothing in it. -/
def Tree.empty : Tree := ⟨[], []⟩

/-! ## Writing -/

/-- `encode`. -/
def escape : UInt8 → Option UInt8
  | 92 => some 92   -- `\\`
  | 0 => some 48    -- `\0`
  | 7 => some 97    -- `\a`
  | 8 => some 98    -- `\b`
  | 12 => some 102  -- `\f`
  | 10 => some 110  -- `\n`
  | 13 => some 114  -- `\r`
  | 9 => some 116   -- `\t`
  | 11 => some 118  -- `\v`
  | _ => none

/-- `local::encode` of one sign. -/
def encodeSign (sign : UInt8) : Text :=
  match escape sign with
  | some letter => ['\\'.toUInt8, letter]
  | none => [sign]

/-- `local::encode`. -/
def encode (data : Text) : Text := data.flatMap encodeSign

/-- The name of a section in that of another. -/
def qualified (name child : Text) : Text := if name = [] then child else name ++ '.'.toUInt8 :: child

mutual

/-- `write_flat`. -/
def writeFlat : Tree → Text → Text
  | ⟨children, values⟩, name =>
    (values.flatMap fun value => value.1 ++ '='.toUInt8 :: encode value.2 ++ ['\n'.toUInt8]) ++ writeChildren children name

/-- The loop of `local::write_flat` over the children of a tree. -/
def writeChildren : List (Text × Tree) → Text → Text
  | [], _ => []
  | (key, child) :: children, name =>
    '\n'.toUInt8 :: '['.toUInt8 :: qualified name key ++ [']'.toUInt8, '\n'.toUInt8] ++
      writeFlat child (qualified name key) ++ writeChildren children name

end

/-! ## Reading -/

/-- What the parser throws, and what the source does not define. -/
inductive Failure
  /-- `exception::archive::invalid::Document`. -/
  | invalidDocument (description : String)
  /-- The element before the first one, which the source would go on with. -/
  | beforeBegin
  deriving DecidableEq, Repr

/-- `std::isspace` in the classic locale. -/
def isspace (c : UInt8) : Bool := c = 32 ∨ 9 ≤ c ∧ c ≤ 13

/-- `common::string::trim`. -/
def trim (string : Text) : Text := (string.dropWhile isspace).rdropWhile isspace

/-- The `switch` of `decode`. -/
def unescape : UInt8 → Option UInt8
  | 92 => some 92
  | 48 => some 0
  | 97 => some 7
  | 98 => some 8
  | 102 => some 12
  | 110 => some 10
  | 114 => some 13
  | 116 => some 9
  | 118 => some 11
  | _ => none

/-- `local::decode`. -/
def decode : Text → Except Failure Text
  | [] => .ok []
  | c :: data =>
    if c = '\\'.toUInt8 then
      match data with
      -- what is at the size of a string is its null character
      | [] => .error (.invalidDocument "Invalid content")
      | letter :: data =>
        match unescape letter with
        | none => .error (.invalidDocument "Invalid content")
        | some sign => return sign :: (← decode data)
    else return c :: (← decode data)

/-- What `std::getline` gets until there is nothing left. -/
def getlines (delimiter : UInt8) : Text → List Text
  | [] => []
  | c :: text =>
    if c = delimiter then [] :: getlines delimiter text
    else
      match getlines delimiter text with
      | [] => [[c]]
      | line :: lines => (c :: line) :: lines

/-- `splitter`. -/
def splitter (qualified : Text) : Except Failure (List Text) :=
  let result := (getlines '.'.toUInt8 qualified).map trim
  if [] ∈ result ∨ result = [] then .error (.invalidDocument "Invalid name") else .ok result

/-- How far two ranges are the same. -/
def mismatch : List Text → List Text → Nat
  | a :: as, b :: bs => if a = b then mismatch as bs + 1 else 0
  | _, _ => 0

/-- `finder`: which of the names is the first that is added. -/
def finder (last next : List Text) : Nat :=
  if last.length < next.length then mismatch last next
  else if mismatch next last = next.length then next.length - 1
  else mismatch next last

/-- The names are added below a section. -/
def Tree.graft : List Text → Tree → Tree
  | [], t => t
  | name :: names, t => { t with children := Multimap.emplace name (graft names empty) t.children }

/-- A section changes, which is found from the root by the last of each name. -/
def Tree.update : List Text → (Tree → Tree) → Tree → Except Failure Tree
  | [], f, t => .ok (f t)
  | name :: names, f, t =>
    match Multimap.before name t.children with
    | none => .error .beforeBegin
    | some child => return { t with children := Multimap.setBefore name (← update names f child.2) t.children }

/-- The state of `parse_flat`; `composite` is a pointer there, to the last section of these names. -/
structure Parse where
  document : Tree
  composite : List Text
  last : List Text

namespace Parse

/-- A value is put where the parser is. -/
def addValue (name data : Text) (p : Parse) : Except Failure Parse :=
  return { p with
    document := ← p.document.update p.composite fun t => { t with values := Multimap.emplace name data t.values } }

/-- A section is begun, and its name is where the parser is from now on. -/
def addSection (next : List Text) (p : Parse) : Except Failure Parse :=
  let inserter := finder p.last next
  return ⟨← p.document.update (next.take inserter) (Tree.graft (next.drop inserter)), next, next⟩

/-- A line of the document. -/
def line (p : Parse) (line : Text) : Except Failure Parse :=
  let candidate := trim line
  if candidate = [] then .ok p
  else if candidate.head? = some '#'.toUInt8 ∨ candidate.head? = some ';'.toUInt8 then .ok p
  else if '='.toUInt8 ∈ line then do
    let data ← decode (line.dropWhile (· ≠ '='.toUInt8)).tail
    p.addValue (trim (line.takeWhile (· ≠ '='.toUInt8))) data
  else if candidate.head? = some '['.toUInt8 ∧ candidate.getLast? = some ']'.toUInt8 then do
    let next ← splitter candidate.tail.dropLast
    p.addSection next
  -- an exception is made here, and not thrown
  else .ok p

end Parse

/-- The lines that are left. -/
def read (text : Text) (p : Parse) : Except Failure Parse := (getlines '\n'.toUInt8 text).foldlM Parse.line p

/-- `parse_flat`. -/
def parseFlat (document : Tree) (text : Text) : Except Failure Tree := return (← read text ⟨document, [], []⟩).document

/-! ## Names and values -/

/-- A name of a section or a value: not empty, no white space around it, on one line, nothing that separates. -/
structure IsName (name : Text) : Prop where
  nonempty : name ≠ []
  trimmed : trim name = name
  plain : ∀ c ∈ name, c ≠ '='.toUInt8 ∧ c ≠ '.'.toUInt8 ∧ c ≠ '\n'.toUInt8

namespace Tree

/-- A section's names are names, and those of values begin no comment. -/
structure Named (t : Tree) : Prop where
  children : ∀ child ∈ t.children, IsName child.1
  values : ∀ value ∈ t.values, IsName value.1 ∧ value.1.head? ≠ some '#'.toUInt8 ∧ value.1.head? ≠ some ';'.toUInt8

/-- What a `std::multimap` keeps. -/
structure Ordered (t : Tree) : Prop where
  children : Multimap.Sorted t.children
  values : Multimap.Sorted t.values

/-- Every section of a tree meets a condition. -/
inductive Everywhere (P : Tree → Prop) : Tree → Prop
  | mk {t : Tree} : P t → (∀ child ∈ t.children, Everywhere P child.2) → Everywhere P t

theorem Everywhere.and {P Q : Tree → Prop} {t : Tree} (hP : Everywhere P t) (hQ : Everywhere Q t) :
    Everywhere (fun t => P t ∧ Q t) t := by
  induction hP with
  | mk h _ ih =>
    obtain ⟨hq, hchildren⟩ := hQ
    exact .mk ⟨h, hq⟩ fun child hchild => ih child hchild (hchildren child hchild)

end Tree

theorem dropWhile_cons_of_not {p : UInt8 → Bool} {c : UInt8} (h : p c = false) (text : Text) :
    (c :: text).dropWhile p = c :: text := by
  rw [List.dropWhile_cons, h, if_neg Bool.false_ne_true]

theorem rdropWhile_cons_of_not {p : UInt8 → Bool} {c : UInt8} (h : p c = false) (text : Text) :
    (c :: text).rdropWhile p = c :: text.rdropWhile p := by
  unfold List.rdropWhile
  rw [List.reverse_cons, List.dropWhile_append, List.dropWhile_cons, h, if_neg Bool.false_ne_true]
  split_ifs with hempty
  · rw [List.isEmpty_iff.1 hempty]
    rfl
  · rw [List.reverse_append]
    rfl

theorem trim_cons {c : UInt8} (h : isspace c = false) (text : Text) : trim (c :: text) = c :: text.rdropWhile isspace := by
  unfold trim
  rw [dropWhile_cons_of_not h, rdropWhile_cons_of_not h]

theorem trim_concat {c last : UInt8} (h : isspace c = false) (hlast : isspace last = false) (text : Text) :
    trim (c :: (text ++ [last])) = c :: (text ++ [last]) := by
  rw [trim_cons h, List.rdropWhile_concat_neg _ _ _ (by rw [hlast]; exact Bool.false_ne_true)]

/-- A name begins with something other than white space. -/
theorem IsName.head {name : Text} (h : IsName name) : ∃ c rest, name = c :: rest ∧ isspace c = false := by
  cases hname : name with
  | nil => exact absurd hname h.nonempty
  | cons c rest =>
    refine ⟨c, rest, rfl, ?_⟩
    by_contra hspace
    rw [Bool.not_eq_false] at hspace
    have htrimmed := h.trimmed
    have hshort : (trim (c :: rest)).length ≤ rest.length := by
      unfold trim
      rw [List.dropWhile_cons, hspace, if_pos rfl]
      exact (List.rdropWhile_prefix _ _).length_le.trans (List.dropWhile_sublist _).length_le
    rw [hname] at htrimmed
    rw [htrimmed, List.length_cons] at hshort
    omega

theorem unescape_escape {sign letter : UInt8} (h : escape sign = some letter) : unescape letter = some sign := by
  unfold escape at h
  split at h
  all_goals first
    | (cases h; rfl)
    | cases h

theorem escape_backslash : escape '\\'.toUInt8 = some 92 := rfl

theorem decode_encode : ∀ data : Text, decode (encode data) = .ok data
  | [] => rfl
  | sign :: data => by
    have ih := decode_encode data
    have hencode : encode (sign :: data) = encodeSign sign ++ encode data := rfl
    rw [hencode]
    unfold encodeSign
    cases hsign : escape sign with
    | none =>
      have hne : sign ≠ '\\'.toUInt8 := by
        rintro rfl
        rw [escape_backslash] at hsign
        cases hsign
      show decode (sign :: encode data) = _
      unfold decode
      rw [if_neg hne, ih]
      rfl
    | some letter =>
      show decode ('\\'.toUInt8 :: letter :: encode data) = _
      unfold decode
      rw [if_pos rfl]
      simp only [unescape_escape hsign, ih]
      rfl

/-- No line is broken by a value. -/
theorem newline_notMem_encode (data : Text) : '\n'.toUInt8 ∉ encode data := by
  intro h
  obtain ⟨sign, -, hsign⟩ := List.mem_flatMap.1 h
  unfold encodeSign at hsign
  cases hescape : escape sign with
  | none =>
    rw [hescape] at hsign
    obtain rfl := List.mem_singleton.1 hsign
    cases hescape
  | some letter =>
    rw [hescape] at hsign
    have hunescape := unescape_escape hescape
    rcases List.mem_cons.1 hsign with hbackslash | hletter
    · cases hbackslash
    · obtain rfl := List.mem_singleton.1 hletter
      cases hunescape

/-! ## Lines -/

theorem getlines_append {delimiter : UInt8} : ∀ {line : Text} (rest : Text), delimiter ∉ line →
    getlines delimiter (line ++ delimiter :: rest) = line :: getlines delimiter rest
  | [], rest, _ => by rw [List.nil_append, getlines, if_pos rfl]
  | c :: line, rest, h => by
    obtain ⟨hc, hline⟩ := not_or.1 (mt List.mem_cons.2 h)
    rw [List.cons_append, getlines, if_neg (Ne.symm hc), getlines_append rest hline]

theorem getlines_self {delimiter : UInt8} : ∀ {line : Text}, line ≠ [] → delimiter ∉ line → getlines delimiter line = [line]
  | [c], _, h => by
    rw [getlines, if_neg (Ne.symm (mt List.mem_singleton.2 h))]
    rfl
  | c :: d :: line, _, h => by
    obtain ⟨hc, hline⟩ := not_or.1 (mt List.mem_cons.2 h)
    rw [getlines, if_neg (Ne.symm hc), getlines_self (List.cons_ne_nil d line) hline]

theorem read_line {line : Text} (hline : '\n'.toUInt8 ∉ line) (rest : Text) {p p' : Parse} (h : p.line line = .ok p') :
    read (line ++ '\n'.toUInt8 :: rest) p = read rest p' := by
  unfold read
  rw [getlines_append rest hline, List.foldlM_cons, h]
  rfl

/-- The qualified name of the section at these names. -/
def join (names : List Text) : Text := names.foldl qualified []

theorem join_concat (names : List Text) (name : Text) : join (names ++ [name]) = qualified (join names) name := by
  unfold join
  rw [List.foldl_append]
  rfl

theorem join_concat_ne_nil (names : List Text) {name : Text} (h : name ≠ []) : join (names ++ [name]) ≠ [] := by
  rw [join_concat]
  unfold qualified
  split_ifs
  · exact h
  · exact List.append_ne_nil_of_right_ne_nil _ (List.cons_ne_nil _ _)

theorem join_eq_nil {names : List Text} (h : ∀ name ∈ names, IsName name) (hjoin : join names = []) : names = [] := by
  rcases List.eq_nil_or_concat' names with rfl | ⟨names, name, rfl⟩
  · rfl
  · exact absurd hjoin (join_concat_ne_nil names (h name List.mem_concat_self).nonempty)

theorem mem_join {names : List Text} {c : UInt8} (h : c ∈ join names) : c = '.'.toUInt8 ∨ ∃ name ∈ names, c ∈ name := by
  induction names using List.reverseRecOn with
  | nil => cases h
  | append_singleton names name ih =>
    have hname : name ∈ names ++ [name] := List.mem_concat_self
    rw [join_concat] at h
    unfold qualified at h
    split_ifs at h
    · exact .inr ⟨name, hname, h⟩
    · rcases List.mem_append.1 h with h | h
      · rcases ih h with h | ⟨n, hn, h⟩
        · exact .inl h
        · exact .inr ⟨n, List.mem_append_left _ hn, h⟩
      · rcases List.mem_cons.1 h with h | h
        · exact .inl h
        · exact .inr ⟨name, hname, h⟩

theorem dot_notMem {name : Text} (h : IsName name) : '.'.toUInt8 ∉ name := fun hmem => (h.plain _ hmem).2.1 rfl

/-- What follows a qualified name does not change its parts. -/
theorem getlines_join_append {names : List Text} (hne : names ≠ []) (h : ∀ name ∈ names, IsName name) (rest : Text) :
    getlines '.'.toUInt8 (join names ++ '.'.toUInt8 :: rest) = names ++ getlines '.'.toUInt8 rest := by
  induction names using List.reverseRecOn generalizing rest with
  | nil => exact absurd rfl hne
  | append_singleton names name ih =>
    have hname : IsName name := h name List.mem_concat_self
    have hnames : ∀ n ∈ names, IsName n := fun n hn => h n (List.mem_append_left _ hn)
    rw [join_concat]
    unfold qualified
    split_ifs with hjoin
    · obtain rfl := join_eq_nil hnames hjoin
      exact getlines_append rest (dot_notMem hname)
    · have hne : names ≠ [] := by
        rintro rfl
        exact hjoin rfl
      rw [List.append_assoc, List.cons_append, ih hne hnames, getlines_append rest (dot_notMem hname), List.append_assoc]
      rfl

theorem getlines_join {names : List Text} (h : ∀ name ∈ names, IsName name) : getlines '.'.toUInt8 (join names) = names := by
  rcases List.eq_nil_or_concat' names with rfl | ⟨names, name, rfl⟩
  · rfl
  · have hname : IsName name := h name List.mem_concat_self
    have hnames : ∀ n ∈ names, IsName n := fun n hn => h n (List.mem_append_left _ hn)
    rw [join_concat]
    unfold qualified
    split_ifs with hjoin
    · obtain rfl := join_eq_nil hnames hjoin
      exact getlines_self hname.nonempty (dot_notMem hname)
    · have hne : names ≠ [] := by
        rintro rfl
        exact hjoin rfl
      rw [getlines_join_append hne hnames, getlines_self hname.nonempty (dot_notMem hname)]

theorem splitter_join {names : List Text} (hne : names ≠ []) (h : ∀ name ∈ names, IsName name) :
    splitter (join names) = .ok names := by
  have hresult : (getlines '.'.toUInt8 (join names)).map trim = names := by
    rw [getlines_join h]
    exact (List.map_congr_left fun name hname => (h name hname).trimmed).trans (List.map_id' _)
  have hempty : ¬ ([] ∈ names ∨ names = []) := by
    rintro (hmem | hnil)
    · exact (h [] hmem).nonempty rfl
    · exact hne hnil
  unfold splitter
  rw [hresult]
  exact if_neg hempty

/-! ## What is parsed -/

namespace Tree

theorem Everywhere.empty : Tree.empty.Everywhere Ordered := .mk ⟨.nil, .nil⟩ nofun

end Tree

/-! ## Where a section is -/

/-- A section that is being read: what it has so far, and the name of its last child. -/
structure Frame where
  before : List (Text × Tree)
  values : List (Text × Text)
  name : Text

namespace Frame

/-- The document with a section at the end of these. -/
def plug : List Frame → Tree → Tree
  | [], t => t
  | f :: fs, t => ⟨f.before ++ [(f.name, plug fs t)], f.values⟩

/-- The name of the last child comes after the others. -/
structure Good (f : Frame) : Prop where
  last : Multimap.AtMost f.name f.before
  name : IsName f.name

/-- The names of the frames, outermost first. -/
abbrev names (fs : List Frame) : List Text := fs.map Frame.name

theorem plug_concat (fs : List Frame) (f : Frame) (t : Tree) :
    plug (fs ++ [f]) t = plug fs ⟨f.before ++ [(f.name, t)], f.values⟩ := by
  induction fs with
  | nil => rfl
  | cons g fs ih =>
    rw [List.cons_append, plug, ih]
    rfl

theorem names_concat (fs : List Frame) (f : Frame) : names (fs ++ [f]) = names fs ++ [f.name] := List.map_append

/-- The names lead to the section. -/
theorem update_plug (g : Tree → Tree) (t : Tree) : ∀ {fs : List Frame}, (∀ f ∈ fs, f.Good) →
    (plug fs t).update (names fs) g = .ok (plug fs (g t))
  | [], _ => rfl
  | f :: fs, h => by
    have hlast := (h f List.mem_cons_self).last
    have ih := update_plug g t fun f' hf' => h f' (List.mem_cons_of_mem _ hf')
    have hbefore := Multimap.before_concat (v := plug fs t) hlast
    show Tree.update (f.name :: names fs) g ⟨f.before ++ [(f.name, plug fs t)], f.values⟩ = _
    simp only [Tree.update, hbefore, ih]
    show Except.ok (Tree.mk (Multimap.setBefore f.name (plug fs (g t)) (f.before ++ [(f.name, plug fs t)])) f.values) = _
    rw [Multimap.setBefore_concat hlast]
    rfl

end Frame

open Ini.Frame

theorem mismatch_append : ∀ (names as bs : List Text), mismatch (names ++ as) (names ++ bs) = names.length + mismatch as bs
  | [], as, bs => (Nat.zero_add _).symm
  | name :: names, as, bs => by
    rw [List.cons_append, List.cons_append, mismatch, if_pos rfl, mismatch_append names, List.length_cons]
    omega

/-- Whatever was read last below a section, its next child is added to it. -/
theorem finder_child (names rest : List Text) (child : Text) : finder (names ++ rest) (names ++ [child]) = names.length := by
  have hlength : (names ++ [child]).length = names.length + 1 := List.length_append
  unfold finder
  cases rest with
  | nil =>
    rw [if_pos (by rw [hlength, List.append_nil]; exact Nat.lt_succ_self _), mismatch_append]
    rfl
  | cons last rest =>
    rw [if_neg (by rw [hlength, List.length_append, List.length_cons]; omega), mismatch_append, hlength]
    by_cases heq : child = last
    · have hsame : mismatch [child] (last :: rest) = 1 := by
        rw [mismatch, if_pos heq]
        rfl
      rw [hsame, if_pos rfl]
      rfl
    · have hother : mismatch [child] (last :: rest) = 0 := by rw [mismatch, if_neg heq]
      rw [hother, if_neg (by omega)]
      rfl

/-! ## What the lines do -/

theorem newline_notMem_name {name : Text} (h : IsName name) : '\n'.toUInt8 ∉ name := fun hmem => (h.plain _ hmem).2.2 rfl

theorem equals_notMem_name {name : Text} (h : IsName name) : '='.toUInt8 ∉ name := fun hmem => (h.plain _ hmem).1 rfl

theorem newline_notMem_join {names : List Text} (h : ∀ name ∈ names, IsName name) : '\n'.toUInt8 ∉ join names := by
  intro hmem
  rcases mem_join hmem with hdot | ⟨name, hname, hmem⟩
  · cases hdot
  · exact newline_notMem_name (h name hname) hmem

theorem equals_notMem_join {names : List Text} (h : ∀ name ∈ names, IsName name) : '='.toUInt8 ∉ join names := by
  intro hmem
  rcases mem_join hmem with hdot | ⟨name, hname, hmem⟩
  · cases hdot
  · exact equals_notMem_name (h name hname) hmem

theorem takeWhile_equals {name : Text} (h : '='.toUInt8 ∉ name) (data : Text) :
    (name ++ '='.toUInt8 :: data).takeWhile (· ≠ '='.toUInt8) = name ∧
      (name ++ '='.toUInt8 :: data).dropWhile (· ≠ '='.toUInt8) = '='.toUInt8 :: data := by
  have hname : ∀ c ∈ name, decide (c ≠ '='.toUInt8) = true := by
    intro c hc
    refine decide_eq_true fun heq => h ?_
    rwa [← heq]
  constructor
  · rw [List.takeWhile_append_of_pos hname, List.takeWhile_cons, decide_eq_false (not_not.2 rfl), if_neg Bool.false_ne_true,
      List.append_nil]
  · rw [List.dropWhile_append_of_pos hname, List.dropWhile_cons, decide_eq_false (not_not.2 rfl), if_neg Bool.false_ne_true]

theorem line_blank (p : Parse) : p.line [] = .ok p := rfl

/-- The line of a value adds it to the section that is being read. -/
theorem line_value {fs : List Frame} (hfs : ∀ f ∈ fs, f.Good) {children : List (Text × Tree)} {values : List (Text × Text)}
    {name : Text} (data : Text) (hname : IsName name) (hcomment : name.head? ≠ some '#'.toUInt8 ∧ name.head? ≠ some ';'.toUInt8)
    (hlast : Multimap.AtMost name values) (last : List Text) :
    Parse.line ⟨plug fs ⟨children, values⟩, names fs, last⟩ (name ++ '='.toUInt8 :: encode data) =
      .ok ⟨plug fs ⟨children, values ++ [(name, data)]⟩, names fs, last⟩ := by
  obtain ⟨c, rest, hc, hspace⟩ := hname.head
  obtain ⟨htake, hdrop⟩ := takeWhile_equals (equals_notMem_name hname) (encode data)
  have hcandidate : trim (name ++ '='.toUInt8 :: encode data) = c :: (rest ++ '='.toUInt8 :: encode data).rdropWhile isspace := by
    rw [hc, List.cons_append, trim_cons hspace]
  have hhead : name.head? = some c := by
    rw [hc]
    rfl
  rw [hhead] at hcomment
  have hmem : '='.toUInt8 ∈ name ++ '='.toUInt8 :: encode data := List.mem_append_right _ List.mem_cons_self
  unfold Parse.line
  simp only [hcandidate, List.head?_cons]
  rw [if_neg (List.cons_ne_nil _ _), if_neg (not_or.2 hcomment), if_pos hmem, htake, hdrop, hname.trimmed]
  show (do let data ← decode (encode data); Parse.addValue name data _) = _
  rw [decode_encode]
  show Parse.addValue name data _ = _
  unfold Parse.addValue
  simp only [update_plug _ _ hfs]
  show Except.ok (Parse.mk (plug fs ⟨children, Multimap.emplace name data values⟩) _ _) = _
  rw [Multimap.emplace_of_atMost hlast]

/-- The line of a section adds it behind the other children, and it is the one that is read. -/
theorem line_section {fs : List Frame} (hfs : ∀ f ∈ fs, f.Good) {children : List (Text × Tree)} {values : List (Text × Text)}
    {name : Text} (hname : IsName name) (hlast : Multimap.AtMost name children) (composite rest : List Text) :
    Parse.line ⟨plug fs ⟨children, values⟩, composite, names fs ++ rest⟩
        ('['.toUInt8 :: (join (names fs ++ [name]) ++ [']'.toUInt8])) =
      .ok ⟨plug (fs ++ [⟨children, values, name⟩]) .empty, names fs ++ [name], names fs ++ [name]⟩ := by
  have hnames : ∀ n ∈ names fs ++ [name], IsName n := by
    intro n hn
    rcases List.mem_append.1 hn with hn | hn
    · obtain ⟨f, hf, rfl⟩ := List.mem_map.1 hn
      exact (hfs f hf).name
    · rw [List.mem_singleton.1 hn]
      exact hname
  have hcandidate : trim ('['.toUInt8 :: (join (names fs ++ [name]) ++ [']'.toUInt8])) =
      '['.toUInt8 :: (join (names fs ++ [name]) ++ [']'.toUInt8]) := trim_concat rfl rfl _
  have hplain : '='.toUInt8 ∉ '['.toUInt8 :: (join (names fs ++ [name]) ++ [']'.toUInt8]) := by
    intro hmem
    rcases List.mem_cons.1 hmem with hopen | hmem
    · cases hopen
    · rcases List.mem_append.1 hmem with hmem | hclose
      · exact equals_notMem_join hnames hmem
      · cases List.mem_singleton.1 hclose
  have hclose : ('['.toUInt8 :: (join (names fs ++ [name]) ++ [']'.toUInt8])).getLast? = some ']'.toUInt8 := by
    rw [← List.cons_append, List.getLast?_concat]
  have hinner : ('['.toUInt8 :: (join (names fs ++ [name]) ++ [']'.toUInt8])).tail.dropLast = join (names fs ++ [name]) :=
    List.dropLast_concat
  unfold Parse.line
  simp only [hcandidate]
  rw [if_neg (List.cons_ne_nil _ _), if_neg (by rintro (h | h) <;> cases h), if_neg hplain, if_pos ⟨rfl, hclose⟩, hinner,
    splitter_join (List.append_ne_nil_of_right_ne_nil _ (List.cons_ne_nil _ _)) hnames]
  show Parse.addSection (names fs ++ [name]) _ = _
  have htake : (names fs ++ [name]).take (names fs).length = names fs := List.take_left
  have hdrop : (names fs ++ [name]).drop (names fs).length = [name] := List.drop_left
  unfold Parse.addSection
  simp only [finder_child, htake, hdrop, update_plug _ _ hfs]
  show Except.ok (Parse.mk (plug fs ⟨Multimap.emplace name .empty children, values⟩) _ _) = _
  rw [Multimap.emplace_of_atMost hlast, plug_concat]

/-! ## The round trip -/

/-- What is written for a section makes it of an empty one. -/
def Restored (t : Tree) : Prop :=
  ∀ fs : List Frame, (∀ f ∈ fs, f.Good) → ∃ last, ∀ rest,
    read (writeFlat t (join (names fs)) ++ rest) ⟨plug fs .empty, names fs, names fs⟩ =
      read rest ⟨plug fs t, names fs ++ last, names fs ++ last⟩

theorem good_names {fs : List Frame} (hfs : ∀ f ∈ fs, f.Good) : ∀ name ∈ names fs, IsName name := by
  intro name hname
  obtain ⟨f, hf, rfl⟩ := List.mem_map.1 hname
  exact (hfs f hf).name

theorem read_values {fs : List Frame} (hfs : ∀ f ∈ fs, f.Good) (last : List Text) (rest : Text) :
    ∀ {values done : List (Text × Text)}, Multimap.Sorted (done ++ values) →
      (∀ value ∈ values, IsName value.1 ∧ value.1.head? ≠ some '#'.toUInt8 ∧ value.1.head? ≠ some ';'.toUInt8) →
      read ((values.flatMap fun value => value.1 ++ '='.toUInt8 :: encode value.2 ++ ['\n'.toUInt8]) ++ rest)
          ⟨plug fs ⟨[], done⟩, names fs, last⟩ =
        read rest ⟨plug fs ⟨[], done ++ values⟩, names fs, last⟩
  | [], done, _, _ => by
    rw [List.append_nil]
    rfl
  | (name, data) :: values, done, hsorted, h => by
    obtain ⟨hname, hcomment⟩ := h (name, data) List.mem_cons_self
    have hlast : Multimap.AtMost name done := by
      intro e he
      exact (List.pairwise_append.1 hsorted).2.2 e he (name, data) List.mem_cons_self
    have hline : '\n'.toUInt8 ∉ name ++ '='.toUInt8 :: encode data := by
      intro hmem
      rcases List.mem_append.1 hmem with hmem | hmem
      · exact newline_notMem_name hname hmem
      · rcases List.mem_cons.1 hmem with hequals | hmem
        · cases hequals
        · exact newline_notMem_encode data hmem
    have hsorted' : Multimap.Sorted (done ++ [(name, data)] ++ values) := by rwa [List.append_assoc]
    have ih := read_values hfs last rest hsorted' fun value hvalue => h value (List.mem_cons_of_mem _ hvalue)
    have hstep := read_line hline ((values.flatMap fun value => value.1 ++ '='.toUInt8 :: encode value.2 ++ ['\n'.toUInt8]) ++ rest)
      (@line_value fs hfs [] done name data hname hcomment hlast last)
    rw [List.append_assoc] at ih
    refine Eq.trans ?_ (hstep.trans ih)
    rw [List.flatMap_cons]
    simp only [List.append_assoc, List.cons_append, List.nil_append]

theorem read_children {fs : List Frame} (hfs : ∀ f ∈ fs, f.Good) (values : List (Text × Text)) :
    ∀ {children done : List (Text × Tree)} (last : List Text), Multimap.Sorted (done ++ children) →
      (∀ child ∈ children, IsName child.1 ∧ Restored child.2) → ∃ last', ∀ rest,
        read (writeChildren children (join (names fs)) ++ rest) ⟨plug fs ⟨done, values⟩, names fs ++ last, names fs ++ last⟩ =
          read rest ⟨plug fs ⟨done ++ children, values⟩, names fs ++ last', names fs ++ last'⟩
  | [], done, last, _, _ => by
    refine ⟨last, fun rest => ?_⟩
    rw [List.append_nil]
    rfl
  | (name, child) :: children, done, last, hsorted, h => by
    obtain ⟨hname, hchild⟩ := h (name, child) List.mem_cons_self
    have hlast : Multimap.AtMost name done := by
      intro e he
      exact (List.pairwise_append.1 hsorted).2.2 e he (name, child) List.mem_cons_self
    have hgood : ∀ f ∈ fs ++ [⟨done, values, name⟩], f.Good := by
      intro f hf
      rcases List.mem_append.1 hf with hf | hf
      · exact hfs f hf
      · rw [List.mem_singleton.1 hf]
        exact ⟨hlast, hname⟩
    obtain ⟨inner, hinner⟩ := hchild (fs ++ [⟨done, values, name⟩]) hgood
    have hsorted' : Multimap.Sorted (done ++ [(name, child)] ++ children) := by rwa [List.append_assoc]
    obtain ⟨last', ih⟩ := read_children hfs values (name :: inner) hsorted'
      fun c hc => h c (List.mem_cons_of_mem _ hc)
    refine ⟨last', fun rest => ?_⟩
    have hline : '\n'.toUInt8 ∉ '['.toUInt8 :: (join (names fs ++ [name]) ++ [']'.toUInt8]) := by
      intro hmem
      rcases List.mem_cons.1 hmem with hopen | hmem
      · cases hopen
      · rcases List.mem_append.1 hmem with hmem | hclose
        · rw [← names_concat fs ⟨done, values, name⟩] at hmem
          exact newline_notMem_join (good_names hgood) hmem
        · cases List.mem_singleton.1 hclose
    have hsection := @line_section fs hfs done values name hname hlast (names fs ++ last) last
    have hqualified : qualified (join (names fs)) name = join (names fs ++ [name]) := (join_concat _ _).symm
    rw [names_concat, plug_concat, plug_concat, List.append_assoc] at hinner
    rw [plug_concat] at hsection
    calc read (writeChildren ((name, child) :: children) (join (names fs)) ++ rest)
          ⟨plug fs ⟨done, values⟩, names fs ++ last, names fs ++ last⟩
        = read ([] ++ '\n'.toUInt8 :: (('['.toUInt8 :: (join (names fs ++ [name]) ++ [']'.toUInt8])) ++ '\n'.toUInt8 ::
            (writeFlat child (join (names fs ++ [name])) ++ (writeChildren children (join (names fs)) ++ rest))))
            ⟨plug fs ⟨done, values⟩, names fs ++ last, names fs ++ last⟩ := by
          rw [writeChildren, hqualified]
          simp only [List.append_assoc, List.cons_append, List.nil_append]
      _ = read (writeFlat child (join (names fs ++ [name])) ++ (writeChildren children (join (names fs)) ++ rest))
            ⟨plug fs ⟨done ++ [(name, .empty)], values⟩, names fs ++ [name], names fs ++ [name]⟩ :=
          (read_line List.not_mem_nil _ (line_blank _)).trans (read_line hline _ hsection)
      _ = read (writeChildren children (join (names fs)) ++ rest)
            ⟨plug fs ⟨done ++ [(name, child)], values⟩, names fs ++ (name :: inner), names fs ++ (name :: inner)⟩ := hinner _
      _ = read rest ⟨plug fs ⟨done ++ (name, child) :: children, values⟩, names fs ++ last', names fs ++ last'⟩ := by
          rw [ih, List.append_assoc]
          rfl

theorem restored {t : Tree} (h : t.Everywhere fun t => t.Ordered ∧ t.Named) : Restored t := by
  induction h with
  | @mk t h _ ih =>
    obtain ⟨hordered, hnamed⟩ := h
    intro fs hfs
    obtain ⟨children, values⟩ := t
    have hsections : Multimap.Sorted ([] ++ children) := hordered.children
    have hdata : Multimap.Sorted ([] ++ values) := hordered.values
    obtain ⟨last, hchildren⟩ := read_children hfs values [] hsections
      fun child hchild => ⟨hnamed.children child hchild, ih child hchild⟩
    refine ⟨last, fun rest => ?_⟩
    have hvalues := read_values hfs (names fs) (writeChildren children (join (names fs)) ++ rest) hdata hnamed.values
    have hrest := hchildren rest
    rw [List.append_nil, List.nil_append] at hrest
    rw [List.nil_append] at hvalues
    refine Eq.trans ?_ (hvalues.trans hrest)
    rw [writeFlat, List.append_assoc]
    rfl

/-- What is written for a tree is parsed to it. -/
theorem parseFlat_writeFlat {t : Tree} (hordered : t.Everywhere Tree.Ordered) (hnamed : t.Everywhere Tree.Named) :
    parseFlat .empty (writeFlat t []) = .ok t := by
  obtain ⟨last, h⟩ := restored (hordered.and hnamed) [] nofun
  have hread := h []
  rw [List.append_nil] at hread
  unfold parseFlat
  rw [show read (writeFlat t []) ⟨.empty, [], []⟩ = read [] ⟨t, last, last⟩ from hread]
  rfl

/-! ### A document -/

/-- Sections with one name, some within a section of that name, and values with one name. -/
def repeated : Tree :=
  ⟨[([97], ⟨[([97], .empty), ([97], ⟨[], [([98], [32, 10, 92, 0])]⟩)], []⟩), ([97], .empty)], [([98], [61]), ([98], [])]⟩

theorem repeated_parsed : parseFlat .empty (writeFlat repeated []) = .ok repeated := by
  have ha : IsName [97] := ⟨by decide, by decide, List.forall_mem_singleton.2 (by decide)⟩
  have hb : IsName [98] ∧ [98].head? ≠ some '#'.toUInt8 ∧ [98].head? ≠ some ';'.toUInt8 :=
    ⟨⟨by decide, by decide, List.forall_mem_singleton.2 (by decide)⟩, by decide, by decide⟩
  have hempty : Tree.empty.Everywhere Tree.Named := .mk ⟨nofun, nofun⟩ nofun
  refine parseFlat_writeFlat ?_ ?_
  · refine .mk ⟨by unfold Multimap.Sorted; decide, by unfold Multimap.Sorted; decide⟩ ?_
    refine List.forall_mem_cons.2 ⟨?_, List.forall_mem_singleton.2 .empty⟩
    refine .mk ⟨by unfold Multimap.Sorted; decide, .nil⟩ ?_
    exact List.forall_mem_cons.2 ⟨.empty, List.forall_mem_singleton.2 (.mk ⟨.nil, List.pairwise_singleton _ _⟩ nofun)⟩
  · refine .mk ⟨by simp [repeated, ha], List.forall_mem_cons.2 ⟨hb, List.forall_mem_singleton.2 hb⟩⟩ ?_
    refine List.forall_mem_cons.2 ⟨?_, List.forall_mem_singleton.2 hempty⟩
    refine .mk ⟨by simp [ha], nofun⟩ ?_
    exact List.forall_mem_cons.2 ⟨hempty, List.forall_mem_singleton.2 (.mk ⟨nofun, List.forall_mem_singleton.2 hb⟩ nofun)⟩

end Casual.Archive.Ini

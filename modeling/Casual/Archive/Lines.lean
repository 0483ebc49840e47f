/-
`parse_flat` of `ini.cpp`: which lines it takes, and what becomes of those that are not INI.
-/
import Casual.Archive.Ini

namespace Casual.Archive.Ini

open Casual.Lib

/-! ## Lines -/

/-- The letters behind a backslash: those of `\\`, `\0`, `\a`, `\b`, `\f`, `\n`, `\r`, `\t` and `\v`. -/
def letters : Text := [92, 48, 97, 98, 102, 110, 114, 116, 118]

/-- Every backslash of a value begins an escape. -/
inductive Escaped : Text → Prop
  | nil : Escaped []
  | plain {c : UInt8} {data : Text} : c ≠ '\\'.toUInt8 → Escaped data → Escaped (c :: data)
  | escape {letter : UInt8} {data : Text} : letter ∈ letters → Escaped data → Escaped ('\\'.toUInt8 :: letter :: data)

/-- A line of white space. -/
def IsBlank (line : Text) : Prop := trim line = []

/-- A line that the parser passes over. -/
def IsComment (line : Text) : Prop := (trim line).head? = some '#'.toUInt8 ∨ (trim line).head? = some ';'.toUInt8

/-- `name=value`. -/
def HasEquals (line : Text) : Prop := '='.toUInt8 ∈ line

/-- What stands behind the first `=` of a line. -/
def valueOf (line : Text) : Text := (line.dropWhile (· ≠ '='.toUInt8)).tail

/-- Something in brackets. -/
def Bracketed (line : Text) : Prop := (trim line).head? = some '['.toUInt8 ∧ (trim line).getLast? = some ']'.toUInt8

/-- The names in the brackets, between the dots. -/
def namesOf (line : Text) : List Text := (getlines '.'.toUInt8 (trim line).tail.dropLast).map trim

/-- The lines of INI: what has an equals sign is a pair, also when it is in brackets. -/
inductive IsIni (line : Text) : Prop
  | blank : IsBlank line → IsIni line
  | comment : IsComment line → IsIni line
  | pair : HasEquals line → Escaped (valueOf line) → IsIni line
  | header : ¬ HasEquals line → Bracketed line → namesOf line ≠ [] → [] ∉ namesOf line → IsIni line

/-- A line that looks like nothing of it. -/
structure Unknown (line : Text) : Prop where
  blank : ¬ IsBlank line
  comment : ¬ IsComment line
  pair : ¬ HasEquals line
  header : ¬ Bracketed line

/-- A line that looks like a pair or a section, with an escape that is none or a name that is empty. -/
inductive Malformed (line : Text) : Prop
  | value : ¬ IsBlank line → ¬ IsComment line → HasEquals line → ¬ Escaped (valueOf line) → Malformed line
  | name : ¬ IsBlank line → ¬ IsComment line → ¬ HasEquals line → Bracketed line →
      [] ∈ namesOf line ∨ namesOf line = [] → Malformed line

theorem Unknown.not_isIni {line : Text} (h : Unknown line) : ¬ IsIni line
  | .blank hblank => h.blank hblank
  | .comment hcomment => h.comment hcomment
  | .pair hequals _ => h.pair hequals
  | .header _ hbracketed _ _ => h.header hbracketed

theorem Malformed.not_isIni {line : Text} (h : Malformed line) : ¬ IsIni line := by
  intro hini
  cases h with
  | value hblank hcomment hequals hvalue =>
    cases hini with
    | blank h => exact hblank h
    | comment h => exact hcomment h
    | pair _ h => exact hvalue h
    | header h => exact h hequals
  | name hblank hcomment hequals _ hnames =>
    cases hini with
    | blank h => exact hblank h
    | comment h => exact hcomment h
    | pair h => exact hequals h
    | header _ _ hne hmem => exact hnames.elim hmem hne

theorem Malformed.not_unknown {line : Text} : Malformed line → ¬ Unknown line
  | .value _ _ hequals _, hunknown => hunknown.pair hequals
  | .name _ _ _ hbracketed _, hunknown => hunknown.header hbracketed

instance (line : Text) : Decidable (IsBlank line) := inferInstanceAs (Decidable (_ = _))
instance (line : Text) : Decidable (IsComment line) := inferInstanceAs (Decidable (_ ∨ _))
instance (line : Text) : Decidable (HasEquals line) := inferInstanceAs (Decidable (_ ∈ _))
instance (line : Text) : Decidable (Bracketed line) := inferInstanceAs (Decidable (_ ∧ _))

/-- The lines of a text. -/
def linesOf (text : Text) : List Text := getlines '\n'.toUInt8 text

/-- The exception that says that a document is not valid. -/
def IsInvalid : Except Failure Tree → Prop
  | .error (.invalidDocument _) => True
  | _ => False

/-- A text is parsed when all of its lines are lines of INI, and refused when one is not. -/
structure Judged (document : Tree) (text : Text) : Prop where
  accepted : (∀ line ∈ linesOf text, IsIni line) → ∃ t, parseFlat document text = .ok t
  refused : (∃ line ∈ linesOf text, ¬ IsIni line) → IsInvalid (parseFlat document text)

/-! ## Values and names -/

theorem unescape_isSome_iff (letter : UInt8) : (∃ sign, unescape letter = some sign) ↔ letter ∈ letters := by
  constructor
  · rintro ⟨sign, h⟩
    unfold unescape at h
    split at h
    all_goals first | decide | cases h
  · intro h
    simp only [letters, List.mem_cons, List.not_mem_nil, or_false] at h
    rcases h with rfl | rfl | rfl | rfl | rfl | rfl | rfl | rfl | rfl
    all_goals exact ⟨_, rfl⟩

/-- A value is decoded, or its content is not valid. -/
theorem decode_spec : ∀ data : Text, (Escaped data ∧ ∃ value, decode data = .ok value) ∨
    (¬ Escaped data ∧ decode data = .error (.invalidDocument "Invalid content"))
  | [] => .inl ⟨.nil, [], rfl⟩
  | [c] => by
    by_cases hc : c = '\\'.toUInt8
    · subst hc
      refine .inr ⟨fun h => ?_, rfl⟩
      cases h with
      | plain hne => exact hne rfl
    · refine .inl ⟨.plain hc .nil, [c], ?_⟩
      rw [decode, if_neg hc]
      rfl
  | c :: letter :: data => by
    by_cases hc : c = '\\'.toUInt8
    · subst hc
      cases hletter : unescape letter with
      | none =>
        refine .inr ⟨fun h => ?_, ?_⟩
        · cases h with
          | plain hne => exact hne rfl
          | escape hmem =>
            obtain ⟨sign, hsign⟩ := (unescape_isSome_iff letter).2 hmem
            rw [hletter] at hsign
            cases hsign
        · rw [decode, if_pos rfl]
          simp only [hletter]
      | some sign =>
        have hmem := (unescape_isSome_iff letter).1 ⟨sign, hletter⟩
        rcases decode_spec data with ⟨hescaped, value, hvalue⟩ | ⟨hescaped, hfailed⟩
        · refine .inl ⟨.escape hmem hescaped, sign :: value, ?_⟩
          rw [decode, if_pos rfl]
          simp only [hletter, hvalue]
          rfl
        · refine .inr ⟨fun h => ?_, ?_⟩
          · cases h with
            | plain hne => exact hne rfl
            | escape _ hdata => exact hescaped hdata
          · rw [decode, if_pos rfl]
            simp only [hletter, hfailed]
            rfl
    · rcases decode_spec (letter :: data) with ⟨hescaped, value, hvalue⟩ | ⟨hescaped, hfailed⟩
      · refine .inl ⟨.plain hc hescaped, c :: value, ?_⟩
        rw [decode, if_neg hc, hvalue]
        rfl
      · refine .inr ⟨fun h => ?_, ?_⟩
        · cases h with
          | plain _ hdata => exact hescaped hdata
          | escape _ _ => exact hc rfl
        · rw [decode, if_neg hc, hfailed]
          rfl

theorem splitter_brackets (line : Text) : splitter (trim line).tail.dropLast =
    if [] ∈ namesOf line ∨ namesOf line = [] then .error (.invalidDocument "Invalid name") else .ok (namesOf line) := rfl

/-! ## Where sections are -/

namespace Tree

/-- The names lead to a section, by the last child that is not behind each. -/
def Reaches : List Text → Tree → Prop
  | [], _ => True
  | name :: names, t => ∃ child, Multimap.before name t.children = some child ∧ Reaches names child.2

theorem Reaches.of_append : ∀ {names more : List Text} {t : Tree}, Reaches (names ++ more) t → Reaches names t
  | [], _, _, _ => trivial
  | _ :: _, _, _, ⟨child, hbefore, h⟩ => ⟨child, hbefore, Reaches.of_append h⟩

theorem reaches_graft : ∀ (names : List Text) (t : Tree), Reaches names (t.graft names)
  | [], _ => trivial
  | name :: names, _ => ⟨(name, graft names empty), Multimap.before_emplace, reaches_graft names empty⟩

/-- A section that the names lead to is changed, and they lead to it still, and to what it has then. -/
theorem update_of_reaches {f : Tree → Tree} {more : List Text} (hf : ∀ t, Reaches more (f t)) :
    ∀ {names : List Text} {t : Tree}, Reaches names t → ∃ t', t.update names f = .ok t' ∧ Reaches (names ++ more) t'
  | [], t, _ => ⟨f t, rfl, hf t⟩
  | name :: names, t, ⟨child, hbefore, h⟩ => by
    obtain ⟨child', hupdate, hreach⟩ := update_of_reaches hf h
    refine ⟨{ t with children := Multimap.setBefore name child' t.children }, ?_, ?_⟩
    · rw [update, hbefore]
      simp only [hupdate]
      rfl
    · exact ⟨(child.1, child'), Multimap.before_setBefore hbefore, hreach⟩

end Tree

/-- Names that are the same lead the same way. -/
theorem take_mismatch : ∀ as bs : List Text, as.take (mismatch as bs) = bs.take (mismatch as bs)
  | [], bs => by simp [mismatch]
  | a :: as, [] => by simp [mismatch]
  | a :: as, b :: bs => by
    rw [mismatch]
    split_ifs with heq
    · rw [List.take_succ_cons, List.take_succ_cons, heq, take_mismatch as bs]
    · rfl

/-- Where the first new name is added is a section of the last name. -/
theorem take_finder (last next : List Text) : next.take (finder last next) <+: last := by
  unfold finder
  split_ifs with hlen hall
  · rw [← take_mismatch]
    exact List.take_prefix _ _
  · have hsame := take_mismatch next last
    rw [hall, List.take_length] at hsame
    exact (List.take_prefix _ _).trans (hsame ▸ List.take_prefix _ _)
  · rw [take_mismatch]
    exact List.take_prefix _ _

/-! ## A line -/

/-- The section that values are added to is there, and it is the last one. -/
structure Parse.Keeps (p : Parse) : Prop where
  last : p.last = p.composite
  reaches : p.document.Reaches p.composite

theorem Parse.Keeps.addValue {p : Parse} (h : p.Keeps) (name data : Text) : ∃ p', p.addValue name data = .ok p' ∧ p'.Keeps := by
  have hadd (t : Tree) : Tree.Reaches [] { t with values := Multimap.emplace name data t.values } := trivial
  obtain ⟨t, hupdate, hreach⟩ := Tree.update_of_reaches hadd h.reaches
  refine ⟨{ p with document := t }, ?_, h.last, ?_⟩
  · unfold Parse.addValue
    rw [hupdate]
    rfl
  · rwa [List.append_nil] at hreach

theorem Parse.Keeps.addSection {p : Parse} (h : p.Keeps) (next : List Text) : ∃ p', p.addSection next = .ok p' ∧ p'.Keeps := by
  obtain ⟨rest, hrest⟩ := take_finder p.last next
  have hpath : p.document.Reaches (next.take (finder p.last next) ++ rest) := by
    rw [hrest, h.last]
    exact h.reaches
  obtain ⟨t, hupdate, hreach⟩ := Tree.update_of_reaches (fun u => Tree.reaches_graft (next.drop (finder p.last next)) u)
    hpath.of_append
  refine ⟨⟨t, next, next⟩, ?_, rfl, ?_⟩
  · unfold Parse.addSection
    simp only [hupdate]
    rfl
  · rwa [List.take_append_drop] at hreach

/-- What becomes of a line: it is taken, it is passed over although it is nothing, or the document is refused. -/
theorem line_spec {p : Parse} (h : p.Keeps) (line : Text) :
    (IsIni line ∧ ∃ p', p.line line = .ok p' ∧ p'.Keeps) ∨ (Unknown line ∧ p.line line = .ok p) ∨
      (Malformed line ∧ ∃ description, p.line line = .error (.invalidDocument description)) := by
  by_cases hblank : IsBlank line
  · exact .inl ⟨.blank hblank, p, if_pos hblank, h⟩
  by_cases hcomment : IsComment line
  · refine .inl ⟨.comment hcomment, p, ?_, h⟩
    unfold Parse.line
    exact (if_neg hblank).trans (if_pos hcomment)
  by_cases hequals : HasEquals line
  · have hline : p.line line =
        (decode (valueOf line)).bind fun data => p.addValue (trim (line.takeWhile (· ≠ '='.toUInt8))) data := by
      unfold Parse.line
      exact (if_neg hblank).trans ((if_neg hcomment).trans (if_pos hequals))
    rcases decode_spec (valueOf line) with ⟨hescaped, data, hdata⟩ | ⟨hescaped, hfailed⟩
    · obtain ⟨p', hp', hkeeps⟩ := h.addValue (trim (line.takeWhile (· ≠ '='.toUInt8))) data
      exact .inl ⟨.pair hequals hescaped, p', by rw [hline, hdata]; exact hp', hkeeps⟩
    · exact .inr (.inr ⟨.value hblank hcomment hequals hescaped, "Invalid content", by rw [hline, hfailed]; rfl⟩)
  by_cases hbracketed : Bracketed line
  · have hline : p.line line = (splitter (trim line).tail.dropLast).bind fun next => p.addSection next := by
      unfold Parse.line
      exact (if_neg hblank).trans ((if_neg hcomment).trans ((if_neg hequals).trans (if_pos hbracketed)))
    rw [splitter_brackets] at hline
    by_cases hnames : [] ∈ namesOf line ∨ namesOf line = []
    · rw [if_pos hnames] at hline
      exact .inr (.inr ⟨.name hblank hcomment hequals hbracketed hnames, "Invalid name", hline⟩)
    · rw [if_neg hnames] at hline
      obtain ⟨p', hp', hkeeps⟩ := h.addSection (namesOf line)
      obtain ⟨hmem, hne⟩ := not_or.1 hnames
      exact .inl ⟨.header hequals hbracketed hne hmem, p', hline.trans hp', hkeeps⟩
  · refine .inr (.inl ⟨⟨hblank, hcomment, hequals, hbracketed⟩, ?_⟩)
    unfold Parse.line
    exact (if_neg hblank).trans ((if_neg hcomment).trans ((if_neg hequals).trans (if_neg hbracketed)))

/-! ## A text -/

/-- Every line is read, up to the first that is malformed. -/
theorem lines_spec : ∀ (lines : List Text) {p : Parse}, p.Keeps →
    ((∀ line ∈ lines, IsIni line ∨ Unknown line) ∧ ∃ p', lines.foldlM Parse.line p = .ok p') ∨
      ((∃ line ∈ lines, Malformed line) ∧ ∃ description, lines.foldlM Parse.line p = .error (.invalidDocument description))
  | [], p, _ => .inl ⟨nofun, p, rfl⟩
  | line :: lines, p, h => by
    have hrest : ∀ p', p'.Keeps → IsIni line ∨ Unknown line → p.line line = .ok p' →
        ((∀ l ∈ line :: lines, IsIni l ∨ Unknown l) ∧ ∃ p', (line :: lines).foldlM Parse.line p = .ok p') ∨
          ((∃ l ∈ line :: lines, Malformed l) ∧
            ∃ description, (line :: lines).foldlM Parse.line p = .error (.invalidDocument description)) := by
      intro p' hkeeps hline hp'
      rw [List.foldlM_cons, hp']
      rcases lines_spec lines hkeeps with ⟨hlines, p'', hp''⟩ | ⟨⟨bad, hbad, hmalformed⟩, description, hfailed⟩
      · exact .inl ⟨List.forall_mem_cons.2 ⟨hline, hlines⟩, p'', hp''⟩
      · exact .inr ⟨⟨bad, List.mem_cons_of_mem _ hbad, hmalformed⟩, description, hfailed⟩
    rcases line_spec h line with ⟨hini, p', hp', hkeeps⟩ | ⟨hunknown, hp⟩ | ⟨hmalformed, description, hfailed⟩
    · exact hrest p' hkeeps (.inl hini) hp'
    · exact hrest p h (.inr hunknown) hp
    · exact .inr ⟨⟨line, List.mem_cons_self, hmalformed⟩, description, by rw [List.foldlM_cons, hfailed]; rfl⟩

/-- A text is parsed unless a line is malformed. -/
theorem parseFlat_spec (document : Tree) (text : Text) :
    ((∀ line ∈ linesOf text, IsIni line ∨ Unknown line) ∧ ∃ t, parseFlat document text = .ok t) ∨
      ((∃ line ∈ linesOf text, Malformed line) ∧ IsInvalid (parseFlat document text)) := by
  unfold parseFlat read
  rcases lines_spec (linesOf text) (p := ⟨document, [], []⟩) ⟨rfl, trivial⟩ with
    ⟨hlines, p, hp⟩ | ⟨hbad, description, hfailed⟩
  · exact .inl ⟨hlines, p.document, by rw [show getlines _ text = linesOf text from rfl, hp]; rfl⟩
  · exact .inr ⟨hbad, by rw [show getlines _ text = linesOf text from rfl, hfailed]; trivial⟩

/-- Exactly when no line is unknown, or another is malformed, a text is parsed if all of its lines are INI and refused
if one is not. -/
theorem judged_iff (document : Tree) (text : Text) :
    Judged document text ↔ (∀ line ∈ linesOf text, ¬ Unknown line) ∨ ∃ line ∈ linesOf text, Malformed line := by
  rcases parseFlat_spec document text with ⟨hlines, t, ht⟩ | ⟨⟨bad, hbad, hmalformed⟩, hinvalid⟩
  · constructor
    · intro h
      refine .inl fun line hline hunknown => ?_
      have hrefused := h.refused ⟨line, hline, hunknown.not_isIni⟩
      rw [ht] at hrefused
      exact hrefused
    · intro h
      refine ⟨fun _ => ⟨t, ht⟩, fun ⟨line, hline, hnot⟩ => ?_⟩
      have hunknown := (hlines line hline).resolve_left hnot
      rcases h with h | ⟨bad, hbad, hmalformed⟩
      · exact absurd hunknown (h line hline)
      · exact absurd (hlines bad hbad) (not_or.2 ⟨hmalformed.not_isIni, hmalformed.not_unknown⟩)
  · exact iff_of_true ⟨fun h => absurd (h bad hbad) hmalformed.not_isIni, fun _ => hinvalid⟩ (.inr ⟨bad, hbad, hmalformed⟩)

/-- A line of a word is passed over. -/
theorem word_accepted : ¬ ∀ document text, Judged document text := by
  intro h
  have hunknown : Unknown [97] := ⟨by decide, by decide, by decide, by decide⟩
  exact (h .empty [97]).refused ⟨[97], by decide, hunknown.not_isIni⟩

end Casual.Archive.Ini

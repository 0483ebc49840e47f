/-
`common/environment.cpp`: a string in which `${name}` stands for the value of a variable. The splitter
looks for one of the two characters of the opener, and takes two.
-/
import Mathlib.Tactic
import Mathlib.Data.List.TakeWhile

namespace Casual.Common.Environment

/-- A `std::string`, as its characters. -/
abbrev Text := List UInt8

/-- What an expansion throws, and what the source does not define. -/
inductive Failure
  /-- `exception::invalid::Argument`, with the range that was split. -/
  | invalidArgument (description : String) (value : Text)
  /-- `exception::invalid::environment::Variable`. -/
  | invalidVariable (description : String) (name : Text)
  /-- A range is advanced by more than its size. -/
  | outside
  deriving DecidableEq, Repr

/-! ## Expanding -/

/-- The sign `$`. -/
def dollar : UInt8 := '$'.toUInt8

/-- The sign that opens a name. -/
def opening : UInt8 := '{'.toUInt8

/-- The sign that closes a name. -/
def closing : UInt8 := '}'.toUInt8

/-- `range::divide_first`: the second part begins with the first element that is one of the lookup's. -/
def divideFirst (range lookup : Text) : Text × Text :=
  (range.takeWhile fun c => c ∉ lookup, range.dropWhile fun c => c ∉ lookup)

/-- `Range::advance`. -/
def advance (size : Nat) (range : Text) : Except Failure Text :=
  if size ≤ range.length then .ok (range.drop size) else .error .outside

/-- `local::Token`, with its type. -/
inductive Token
  | text (value : Text)
  | token (value : Text)
  deriving DecidableEq, Repr

/-- What a variable begins with. -/
def first : Text := [dollar, opening]

/-- What a variable ends with. -/
def last : Text := [closing]

theorem length_of_advance {size : Nat} {range rest : Text} (h : advance size range = .ok rest) :
    rest.length = range.length - size := by
  unfold advance at h
  split_ifs at h
  obtain rfl := Except.ok.inj h
  exact List.length_drop

theorem length_divideFirst (range lookup : Text) : (divideFirst range lookup).2.length ≤ range.length :=
  (List.dropWhile_sublist _).length_le

/-- `local::split`. -/
def split (range : Text) : Except Failure (List Token) :=
  let splitted := divideFirst range first
  let result := if splitted.1 ≠ [] then [Token.text splitted.1] else []
  if splitted.2 = [] then .ok result
  else
    match _ : advance first.length splitted.2 with
    | .error e => .error e
    | .ok token =>
      let value := divideFirst token last
      if _ : value.2 = [] then
        .error (.invalidArgument "syntax error, such as unbalanced parentheses" range)
      else
        match _ : advance last.length value.2 with
        | .error e => .error e
        | .ok next =>
          match split next with
          | .error e => .error e
          | .ok tokens => .ok (result ++ .token value.1 :: tokens)
  termination_by range.length
  decreasing_by
    have hnext := length_of_advance ‹advance last.length value.2 = .ok next›
    have htoken := length_of_advance ‹advance first.length splitted.2 = .ok token›
    have hsize : first.length = 2 ∧ last.length = 1 := ⟨rfl, rfl⟩
    have hvalue : 0 < value.2.length := List.length_pos_iff.2 ‹value.2 ≠ []›
    have hle : splitted.2.length ≤ range.length := length_divideFirst range first
    have hle' : value.2.length ≤ token.length := length_divideFirst token last
    omega

/-- What `std::string::c_str` is for `getenv`. -/
def cString (name : Text) : Text := name.takeWhile (· ≠ 0)

/-- `variable::get`. -/
def get (getenv : Text → Option Text) (name : Text) : Except Failure Text :=
  match getenv (cString name) with
  | some result => .ok result
  | none => .error (.invalidVariable "failed to get variable" name)

/-- The loop of `string`. -/
def concat (getenv : Text → Option Text) : List Token → Except Failure Text
  | [] => .ok []
  | .text value :: tokens => return value ++ (← concat getenv tokens)
  | .token value :: tokens => do
    let result ← get getenv value
    return result ++ (← concat getenv tokens)

/-- `string`. -/
def string (getenv : Text → Option Text) (value : Text) : Except Failure Text := do
  concat getenv (← split value)

/-! ## What a string is to stand for -/

/-- A string up to the first opener, and what is behind it. -/
def cut : Text → Text × Option Text
  | [] => ([], none)
  | c :: text =>
    if c = dollar ∧ text.head? = some opening then ([], some text.tail)
    else (c :: (cut text).1, (cut text).2)

theorem length_cut : ∀ {text rest : Text}, (cut text).2 = some rest → rest.length < text.length
  | c :: text, rest, h => by
    rw [cut] at h
    split_ifs at h
    · obtain rfl := Option.some.inj h
      rw [List.length_tail, List.length_cons]
      omega
    · exact (length_cut h).trans (Nat.lt_succ_self _)

/-- A part of a string. -/
inductive Piece
  | text (value : Text)
  | named (name : Text)
  deriving DecidableEq, Repr

/-- The parts of a string, and what is behind an opener that is not closed. -/
def parse (text : Text) : List Piece × Option Text :=
  match _ : (cut text).2 with
  | none => ([.text (cut text).1], none)
  | some rest =>
    match _ : rest.dropWhile (· ≠ closing) with
    | [] => ([.text (cut text).1], some rest)
    | _ :: next => (.text (cut text).1 :: .named (rest.takeWhile (· ≠ closing)) :: (parse next).1, (parse next).2)
  termination_by text.length
  decreasing_by
    all_goals
      have hcut := length_cut ‹(cut text).2 = some rest›
      have hrest := congrArg List.length ‹rest.dropWhile (· ≠ closing) = _ :: next›
      have hle := (List.dropWhile_sublist (l := rest) (· ≠ closing)).length_le
      rw [List.length_cons] at hrest
      omega

/-- What a part stands for. -/
def Piece.expand (getenv : Text → Option Text) : Piece → Option Text
  | .text value => some value
  | .named name => getenv (cString name)

/-- The parts of a string with the values of the variables, if each opener is closed and each variable is set. -/
def expanded (getenv : Text → Option Text) (text : Text) : Option Text :=
  match parse text with
  | (pieces, none) => (pieces.mapM (Piece.expand getenv)).map List.flatten
  | (_, some _) => none

/-- An opener is not closed. -/
def Unterminated (text : Text) : Prop := (parse text).2 ≠ none

/-- The characters of an opener occur only in openers and in names. -/
def Plain (text : Text) : Prop := ∀ value, Piece.text value ∈ (parse text).1 → ∀ c ∈ value, c ∉ first

/-- Every part is in the result, which there is when the parts have one; else an exception says so. -/
def Expands (getenv : Text → Option Text) (text : Text) : Except Failure Text → Prop
  | .ok result => expanded getenv text = some result
  | .error failure => expanded getenv text = none ∧ failure ≠ .outside

/-! ## The parts of a string -/

theorem cut_none : ∀ {text : Text}, (cut text).2 = none → (cut text).1 = text
  | [], _ => rfl
  | c :: text, h => by
    rw [cut] at h ⊢
    split_ifs at h ⊢
    rw [cut_none h]

theorem cut_some : ∀ {text rest : Text}, (cut text).2 = some rest → text = (cut text).1 ++ dollar :: opening :: rest
  | c :: text, rest, h => by
    rw [cut] at h ⊢
    split_ifs at h ⊢ with hopener
    · obtain rfl := Option.some.inj h
      obtain ⟨rfl, hhead⟩ := hopener
      rw [List.nil_append, ← List.cons_head?_tail (Option.mem_def.2 hhead)]
      rfl
    · exact congrArg (c :: ·) (cut_some h)

theorem dropWhile_closing {name : Text} (h : closing ∉ name) (next : Text) :
    (name ++ closing :: next).dropWhile (· ≠ closing) = closing :: next ∧
      (name ++ closing :: next).takeWhile (· ≠ closing) = name := by
  have hname : ∀ c ∈ name, (decide (c ≠ closing)) = true := fun c hc => by
    rw [decide_eq_true_eq]
    exact ne_of_mem_of_not_mem hc h
  constructor
  · rw [List.dropWhile_append_of_pos hname, List.dropWhile_cons_of_neg (by simp)]
  · rw [List.takeWhile_append_of_pos hname, List.takeWhile_cons_of_neg (by simp), List.append_nil]

theorem parse_text {text : Text} (h : (cut text).2 = none) : parse text = ([.text text], none) := by
  rw [parse]
  split
  · rw [cut_none h]
  · rename_i rest hrest
    rw [h] at hrest
    cases hrest

theorem parse_open {text rest : Text} (h : (cut text).2 = some rest) (hrest : closing ∉ rest) :
    parse text = ([.text (cut text).1], some rest) := by
  have hdrop : rest.dropWhile (· ≠ closing) = [] := by
    rw [List.dropWhile_eq_nil_iff]
    intro c hc
    rw [decide_eq_true_eq]
    exact ne_of_mem_of_not_mem hc hrest
  rw [parse]
  split
  · rename_i hnone
    rw [h] at hnone
    cases hnone
  · rename_i rest' hsome
    obtain rfl := Option.some.inj (h.symm.trans hsome)
    split
    · rfl
    · rename_i hcons
      rw [hdrop] at hcons
      cases hcons

theorem parse_closed {text name next : Text} (h : (cut text).2 = some (name ++ closing :: next)) (hname : closing ∉ name) :
    parse text = (.text (cut text).1 :: .named name :: (parse next).1, (parse next).2) := by
  obtain ⟨hdrop, htake⟩ := dropWhile_closing hname next
  rw [parse]
  split
  · rename_i hnone
    rw [h] at hnone
    cases hnone
  · rename_i rest hsome
    obtain rfl := Option.some.inj (h.symm.trans hsome)
    split
    · rename_i hnil
      rw [hdrop] at hnil
      cases hnil
    · rename_i hcons
      obtain ⟨-, rfl⟩ := List.cons.inj (hdrop.symm.trans hcons)
      rw [htake]

/-- A string has no opener, or one that is not closed, or a name and what comes behind it. -/
theorem parse_induction {P : Text → Prop} (text : ∀ text, (cut text).2 = none → P text)
    (opened : ∀ text rest, (cut text).2 = some rest → closing ∉ rest → P text)
    (closed : ∀ text name next, (cut text).2 = some (name ++ closing :: next) → closing ∉ name → P next → P text)
    (t : Text) : P t := by
  induction hlen : t.length using Nat.strong_induction_on generalizing t with
  | _ n ih =>
    subst hlen
    cases hcut : (cut t).2 with
    | none => exact text t hcut
    | some rest =>
      by_cases hrest : closing ∈ rest
      · obtain ⟨name, next, rfl, hname⟩ := List.eq_append_cons_of_mem hrest
        have hlen := length_cut hcut
        rw [List.length_append, List.length_cons] at hlen
        exact closed t name next hcut hname (ih next.length (by omega) next rfl)
      · exact opened t rest hcut hrest

/-- What a part is written as. -/
def Piece.source : Piece → Text
  | .text value => value
  | .named name => dollar :: opening :: name ++ [closing]

/-- The parts are all of a string: nothing is left out or moved. -/
theorem parse_source (text : Text) :
    (parse text).1.flatMap Piece.source ++ ((parse text).2.elim [] fun rest => dollar :: opening :: rest) = text := by
  induction text using parse_induction with
  | text text h =>
    rw [parse_text h]
    simp [Piece.source]
  | opened text rest h hrest =>
    rw [parse_open h hrest]
    simpa [Piece.source] using (cut_some h).symm
  | closed text name next h hname ih =>
    rw [parse_closed h hname]
    have hcut := cut_some h
    simp only [List.flatMap_cons, Piece.source, List.append_assoc, List.cons_append, List.nil_append, ih]
    exact hcut.symm

/-- A string without an opener stands for itself. -/
theorem expanded_of_no_opener (getenv : Text → Option Text) {text : Text}
    (h : ∀ before rest, text ≠ before ++ dollar :: opening :: rest) : expanded getenv text = some text := by
  have hcut : (cut text).2 = none := by
    rw [Option.eq_none_iff_forall_ne_some]
    intro rest hrest
    exact h _ _ (cut_some hrest)
  unfold expanded
  rw [parse_text hcut]
  simp [Piece.expand]

/-! ## Splitting -/

theorem divideFirst_self {text lookup : Text} (h : ∀ c ∈ text, c ∉ lookup) : divideFirst text lookup = (text, []) := by
  have htext : ∀ c ∈ text, (decide (c ∉ lookup)) = true := fun c hc => decide_eq_true (h c hc)
  unfold divideFirst
  rw [List.takeWhile_eq_self_iff.2 htext, List.dropWhile_eq_nil_iff.2 htext]

theorem divideFirst_append {text lookup : Text} {c : UInt8} (h : ∀ c ∈ text, c ∉ lookup) (hc : c ∈ lookup) (rest : Text) :
    divideFirst (text ++ c :: rest) lookup = (text, c :: rest) := by
  have htext : ∀ c ∈ text, (decide (c ∉ lookup)) = true := fun c hc => decide_eq_true (h c hc)
  unfold divideFirst
  rw [List.takeWhile_append_of_pos htext, List.dropWhile_append_of_pos htext,
    List.takeWhile_cons_of_neg (by simpa using hc), List.dropWhile_cons_of_neg (by simpa using hc), List.append_nil]

/-- The text before an opener, which is left out when it is empty. -/
def textBefore (value : Text) : List Token := if value ≠ [] then [.text value] else []

/-- The error of a name that is not closed. -/
def unbalanced (range : Text) : Failure := .invalidArgument "syntax error, such as unbalanced parentheses" range

/-- What `split` does, without what its recursion needs. -/
theorem split_eq (range : Text) : split range =
    (if (divideFirst range first).2 = [] then .ok (textBefore (divideFirst range first).1)
    else
      (advance first.length (divideFirst range first).2).bind fun token =>
        if (divideFirst token last).2 = [] then .error (unbalanced range)
        else
          (advance last.length (divideFirst token last).2).bind fun next =>
            (split next).map fun tokens =>
              textBefore (divideFirst range first).1 ++ Token.token (divideFirst token last).1 :: tokens) := by
  rw [split]
  unfold textBefore unbalanced
  dsimp only
  split_ifs with hfound
  · rfl
  · rfl
  all_goals
    split <;> rename_i htoken <;> rw [htoken]
    · rfl
    · show _ = ite _ _ _
      split_ifs
      · rfl
      · split <;> rename_i hnext <;> rw [hnext]
        · rfl
        · show _ = (split _).map _
          split <;> rename_i htokens <;> rw [htokens] <;> rfl

/-- Nothing is found. -/
theorem split_self {text : Text} (h : ∀ c ∈ text, c ∉ first) : split text = .ok (textBefore text) := by
  rw [split_eq, divideFirst_self h, if_pos rfl]

/-- One character is found that is the last one: the range is advanced by two. -/
theorem split_last {text : Text} {c : UInt8} (h : ∀ c ∈ text, c ∉ first) (hc : c ∈ first) :
    split (text ++ [c]) = .error .outside := by
  rw [split_eq, divideFirst_append h hc, if_neg (List.cons_ne_nil _ _)]
  rfl

/-- The character behind the one that is found is taken, whatever it is. -/
theorem split_unbalanced {text rest : Text} {c d : UInt8} (h : ∀ c ∈ text, c ∉ first) (hc : c ∈ first)
    (hrest : closing ∉ rest) : split (text ++ c :: d :: rest) = .error (unbalanced (text ++ c :: d :: rest)) := by
  have hlast : ∀ c ∈ rest, c ∉ last := fun c hc hlast => hrest (List.mem_singleton.1 hlast ▸ hc)
  have hadvance : advance first.length (c :: d :: rest) = .ok rest := rfl
  rw [split_eq, divideFirst_append h hc, if_neg (List.cons_ne_nil _ _)]
  dsimp only
  rw [hadvance]
  show ite _ _ _ = _
  rw [divideFirst_self hlast, if_pos rfl]

theorem split_token {text name : Text} (next : Text) {c d : UInt8} (h : ∀ c ∈ text, c ∉ first) (hc : c ∈ first)
    (hname : closing ∉ name) : split (text ++ c :: d :: (name ++ closing :: next)) =
      (split next).map fun tokens => textBefore text ++ .token name :: tokens := by
  have hlast : ∀ c ∈ name, c ∉ last := fun c hc hlast => hname (List.mem_singleton.1 hlast ▸ hc)
  have hadvance : advance first.length (c :: d :: (name ++ closing :: next)) = .ok (name ++ closing :: next) := rfl
  have hnext : advance last.length (closing :: next) = .ok next := rfl
  rw [split_eq, divideFirst_append h hc, if_neg (List.cons_ne_nil _ _)]
  dsimp only
  rw [hadvance]
  show ite _ _ _ = _
  rw [divideFirst_append hlast (List.mem_singleton_self closing), if_neg (List.cons_ne_nil _ _)]
  dsimp only
  rw [hnext]
  rfl

/-- A range has none of the characters, or one that is the last, or one with a character behind it and no
closing brace, or what is taken for a token. -/
theorem split_induction {P : Text → Prop} (text : ∀ text, (∀ c ∈ text, c ∉ first) → P text)
    (last : ∀ text c, (∀ c ∈ text, c ∉ first) → c ∈ first → P (text ++ [c]))
    (unbalanced : ∀ text c d rest, (∀ c ∈ text, c ∉ first) → c ∈ first → closing ∉ rest → P (text ++ c :: d :: rest))
    (token : ∀ text c d name next, (∀ c ∈ text, c ∉ first) → c ∈ first → closing ∉ name → P next →
      P (text ++ c :: d :: (name ++ closing :: next)))
    (range : Text) : P range := by
  induction hlen : range.length using Nat.strong_induction_on generalizing range with
  | _ n ih =>
    subst hlen
    have hbefore : ∀ c ∈ range.takeWhile (· ∉ first), c ∉ first := fun c hc => by
      simpa using List.mem_takeWhile_imp hc
    have hrange := List.takeWhile_append_dropWhile (p := (· ∉ first)) (l := range)
    cases hfound : range.dropWhile (· ∉ first) with
    | nil =>
      rw [hfound, List.append_nil] at hrange
      exact text range (hrange ▸ hbefore)
    | cons c rest =>
      have hc : c ∈ first := by
        have hhead := List.head?_dropWhile_not (· ∉ first) range
        rw [hfound] at hhead
        simpa using hhead
      rw [hfound] at hrange
      rw [← hrange]
      cases rest with
      | nil => exact last _ c hbefore hc
      | cons d rest =>
        by_cases hrest : closing ∈ rest
        · obtain ⟨name, next, rfl, hname⟩ := List.eq_append_cons_of_mem hrest
          have hlen := congrArg List.length hrange
          simp only [List.length_append, List.length_cons] at hlen
          exact token _ c d name next hbefore hc hname (ih next.length (by omega) next rfl)
        · exact unbalanced _ c d rest hbefore hc hrest

/-! ## Strings that are plain -/

/-- The tokens of the parts: an empty text is none. -/
def tokens : List Piece → List Token
  | [] => []
  | .text value :: pieces => textBefore value ++ tokens pieces
  | .named name :: pieces => .token name :: tokens pieces

theorem split_plain (text : Text) : Plain text → (parse text).2 = none → split text = .ok (tokens (parse text).1) := by
  induction text using parse_induction with
  | text text h =>
    intro hplain _
    unfold Plain at hplain
    rw [parse_text h] at hplain ⊢
    rw [split_self (hplain text (List.mem_singleton_self _)), tokens, tokens, List.append_nil]
  | opened text rest h hrest =>
    intro _ hclosed
    rw [parse_open h hrest] at hclosed
    cases hclosed
  | closed text name next h hname ih =>
    intro hplain hclosed
    unfold Plain at hplain ih
    rw [parse_closed h hname] at hplain hclosed ⊢
    have hbefore := hplain _ List.mem_cons_self
    have hnext := ih (fun value hvalue => hplain value (List.mem_cons_of_mem _ (List.mem_cons_of_mem _ hvalue))) hclosed
    have hsplit := split_token next hbefore (c := dollar) (d := opening) (by decide) hname
    rw [← cut_some h, hnext] at hsplit
    exact hsplit

theorem concat_textBefore (getenv : Text → Option Text) (value : Text) (result : List Token) :
    concat getenv (textBefore value ++ result) = (concat getenv result).map (value ++ ·) := by
  unfold textBefore
  split_ifs with hvalue
  · rw [List.singleton_append, concat]
    cases concat getenv result <;> rfl
  · rw [not_not.1 hvalue, List.nil_append]
    cases concat getenv result <;> rfl

/-- What the parts stand for together. -/
def expandAll (getenv : Text → Option Text) (pieces : List Piece) : Option Text :=
  (pieces.mapM (Piece.expand getenv)).map List.flatten

theorem expandAll_cons (getenv : Text → Option Text) (piece : Piece) (pieces : List Piece) :
    expandAll getenv (piece :: pieces) = (piece.expand getenv).bind fun value => (expandAll getenv pieces).map (value ++ ·) := by
  unfold expandAll
  rw [List.mapM_cons]
  cases piece.expand getenv with
  | none => rfl
  | some value => cases pieces.mapM (Piece.expand getenv) <;> rfl

/-- A variable is not set. -/
def unset (name : Text) : Failure := .invalidVariable "failed to get variable" name

/-- Tokens are put together as the parts are, up to the first variable that is not set. -/
theorem concat_tokens (getenv : Text → Option Text) : ∀ pieces,
    (∃ result, expandAll getenv pieces = some result ∧ concat getenv (tokens pieces) = .ok result) ∨
      ∃ name, expandAll getenv pieces = none ∧ concat getenv (tokens pieces) = .error (unset name)
  | [] => .inl ⟨[], rfl, rfl⟩
  | .text value :: pieces => by
    rw [tokens, concat_textBefore, expandAll_cons]
    rcases concat_tokens getenv pieces with ⟨result, hexpand, hconcat⟩ | ⟨name, hexpand, hconcat⟩
    · exact .inl ⟨value ++ result, by rw [hexpand]; rfl, by rw [hconcat]; rfl⟩
    · exact .inr ⟨name, by rw [hexpand]; rfl, by rw [hconcat]; rfl⟩
  | .named name :: pieces => by
    rw [tokens, concat, expandAll_cons, Piece.expand, get]
    cases getenv (cString name) with
    | none => exact .inr ⟨name, rfl, rfl⟩
    | some value =>
      rcases concat_tokens getenv pieces with ⟨result, hexpand, hconcat⟩ | ⟨name, hexpand, hconcat⟩
      · exact .inl ⟨value ++ result, by rw [hexpand]; rfl, by rw [hconcat]; rfl⟩
      · exact .inr ⟨name, by rw [hexpand]; rfl, by rw [hconcat]; rfl⟩

theorem expands_of_plain (getenv : Text → Option Text) {text : Text} (hplain : Plain text) (hclosed : (parse text).2 = none) :
    Expands getenv text (string getenv text) := by
  have hexpanded : expanded getenv text = expandAll getenv (parse text).1 := by
    unfold expanded
    rw [← Prod.mk.eta (p := parse text), hclosed]
    rfl
  have hstring : string getenv text = concat getenv (tokens (parse text).1) := by
    unfold string
    rw [split_plain text hplain hclosed]
    rfl
  rw [hstring]
  rcases concat_tokens getenv (parse text).1 with ⟨result, hexpand, hconcat⟩ | ⟨name, hexpand, hconcat⟩
  · rw [hconcat]
    exact hexpanded.trans hexpand
  · rw [hconcat]
    exact ⟨hexpanded.trans hexpand, nofun⟩

/-! ## Openers that are not closed -/

theorem closing_notMem_of_open (text : Text) : ∀ rest, (parse text).2 = some rest → closing ∉ rest := by
  induction text using parse_induction with
  | text text h =>
    intro rest hopen
    rw [parse_text h] at hopen
    cases hopen
  | opened text rest h hrest =>
    intro rest' hopen
    rw [parse_open h hrest] at hopen
    exact Option.some.inj hopen ▸ hrest
  | closed text name next h hname ih =>
    intro rest hopen
    rw [parse_closed h hname] at hopen
    exact ih rest hopen

/-- Wherever the range is divided, no closing brace is left behind the last opener. -/
theorem split_of_unclosed {rest : Text} (hrest : closing ∉ rest) (range : Text) :
    dollar :: opening :: rest <:+ range → ∃ value, split range = .error (unbalanced value) := by
  induction range using split_induction with
  | text text h =>
    intro hsuffix
    exact absurd (by decide) (h dollar (hsuffix.subset (by simp)))
  | last text c h hc =>
    -- the opener has two characters, so that the first of them is found before
    rintro ⟨before, hbefore⟩
    have hdrop := congrArg List.dropLast hbefore
    rw [List.dropLast_concat, List.dropLast_append_of_ne_nil (by simp)] at hdrop
    exact absurd (by decide) (h dollar (hdrop ▸ by simp))
  | unbalanced text c d rest' h hc hrest' => exact fun _ => ⟨_, split_unbalanced h hc hrest'⟩
  | token text c d name next h hc hname ih =>
    intro hsuffix
    have hclosing : closing :: next <:+ text ++ c :: d :: (name ++ closing :: next) :=
      ⟨text ++ c :: d :: name, by simp⟩
    have hnext : dollar :: opening :: rest <:+ next := by
      rcases List.suffix_or_suffix_of_suffix hsuffix hclosing with hin | hin
      · exact (List.suffix_cons_iff.1 hin).resolve_left fun heq => absurd (List.cons.inj heq).1 (by decide)
      · have hmem : closing ∈ dollar :: opening :: rest := hin.subset List.mem_cons_self
        simp only [List.mem_cons, hrest, or_false] at hmem
        exact absurd hmem (by decide)
    obtain ⟨value, hvalue⟩ := ih hnext
    exact ⟨value, by rw [split_token next h hc hname, hvalue]; rfl⟩

theorem expands_of_unterminated (getenv : Text → Option Text) {text : Text} (h : Unterminated text) :
    Expands getenv text (string getenv text) := by
  obtain ⟨rest, hopen⟩ := Option.ne_none_iff_exists'.1 h
  have hsource := parse_source text
  rw [hopen] at hsource
  obtain ⟨value, hsplit⟩ := split_of_unclosed (closing_notMem_of_open text rest hopen) text ⟨_, hsource⟩
  have hexpanded : expanded getenv text = none := by
    unfold expanded
    rw [← Prod.mk.eta (p := parse text), hopen]
  have hstring : string getenv text = .error (unbalanced value) := by
    unfold string
    rw [hsplit]
    rfl
  rw [hstring]
  exact ⟨hexpanded, nofun⟩

/-! ## Strings that are not plain -/

/-- What is taken for text has none of the two characters. -/
theorem split_text (range : Text) : ∀ {result : List Token}, split range = .ok result →
    ∀ value, Token.text value ∈ result → ∀ c ∈ value, c ∉ first := by
  have hbefore : ∀ {text value : Text}, (∀ c ∈ text, c ∉ first) → Token.text value ∈ textBefore text →
      ∀ c ∈ value, c ∉ first := by
    intro text value h hvalue
    unfold textBefore at hvalue
    split_ifs at hvalue
    · obtain rfl : value = text := by simpa using hvalue
      exact h
    · cases hvalue
  induction range using split_induction with
  | text text h =>
    intro result hsplit value hvalue
    rw [split_self h] at hsplit
    obtain rfl := Except.ok.inj hsplit
    exact hbefore h hvalue
  | last text c h hc =>
    intro result hsplit
    rw [split_last h hc] at hsplit
    cases hsplit
  | unbalanced text c d rest h hc hrest =>
    intro result hsplit
    rw [split_unbalanced h hc hrest] at hsplit
    cases hsplit
  | token text c d name next h hc hname ih =>
    intro result hsplit value hvalue
    rw [split_token next h hc hname] at hsplit
    cases hnext : split next with
    | error e =>
      rw [hnext] at hsplit
      cases hsplit
    | ok rest =>
      rw [hnext] at hsplit
      obtain rfl := Except.ok.inj hsplit
      rcases List.mem_append.1 hvalue with hvalue | hvalue
      · exact hbefore h hvalue
      · exact ih hnext value ((List.mem_cons.1 hvalue).resolve_left nofun)

/-- Every variable is set and empty. -/
def emptyVariables : Text → Option Text := fun _ => some []

theorem mem_of_concat {c : UInt8} : ∀ {result : List Token} {text : Text}, concat emptyVariables result = .ok text →
    c ∈ text → ∃ value, Token.text value ∈ result ∧ c ∈ value
  | [], text, h, hc => by
    obtain rfl := Except.ok.inj h
    cases hc
  | .text value :: result, text, h, hc => by
    rw [concat] at h
    cases hrest : concat emptyVariables result with
    | error e =>
      rw [hrest] at h
      cases h
    | ok rest =>
      rw [hrest] at h
      obtain rfl := Except.ok.inj h
      rcases List.mem_append.1 hc with hc | hc
      · exact ⟨value, List.mem_cons_self, hc⟩
      · obtain ⟨value', hvalue', hc'⟩ := mem_of_concat hrest hc
        exact ⟨value', List.mem_cons_of_mem _ hvalue', hc'⟩
  | .token name :: result, text, h, hc => by
    rw [concat] at h
    cases hrest : concat emptyVariables result with
    | error e =>
      rw [hrest] at h
      cases h
    | ok rest =>
      rw [hrest] at h
      obtain rfl := Except.ok.inj h
      obtain ⟨value', hvalue', hc'⟩ := mem_of_concat hrest hc
      exact ⟨value', List.mem_cons_of_mem _ hvalue', hc'⟩

theorem expandAll_emptyVariables {c : UInt8} : ∀ pieces : List Piece, ∃ result,
    expandAll emptyVariables pieces = some result ∧ ∀ value, Piece.text value ∈ pieces → c ∈ value → c ∈ result
  | [] => ⟨[], rfl, nofun⟩
  | piece :: pieces => by
    obtain ⟨result, hexpand, hmem⟩ := expandAll_emptyVariables (c := c) pieces
    rw [expandAll_cons, hexpand]
    cases piece with
    | text value =>
      refine ⟨value ++ result, rfl, fun value' hvalue' hc => ?_⟩
      rcases List.mem_cons.1 hvalue' with heq | hvalue'
      · obtain rfl := Piece.text.inj heq
        exact List.mem_append_left _ hc
      · exact List.mem_append_right _ (hmem value' hvalue' hc)
    | named name =>
      exact ⟨result, rfl, fun value' hvalue' hc => hmem value' ((List.mem_cons.1 hvalue').resolve_left nofun) hc⟩

/-- For every environment a string is expanded, exactly when the two characters of an opener occur only in openers
and names, or an opener is not closed. -/
theorem expands_iff (text : Text) : (∀ getenv, Expands getenv text (string getenv text)) ↔ Plain text ∨ Unterminated text := by
  constructor
  · intro h
    by_contra hnot
    obtain ⟨hplain, hclosed⟩ := not_or.1 hnot
    have hclosed : (parse text).2 = none := not_not.1 hclosed
    unfold Plain at hplain
    push Not at hplain
    obtain ⟨value, hvalue, c, hc, hfirst⟩ := hplain
    obtain ⟨result, hexpand, hmem⟩ := expandAll_emptyVariables (c := c) (parse text).1
    have hexpanded : expanded emptyVariables text = some result := by
      unfold expanded
      rw [← Prod.mk.eta (p := parse text), hclosed]
      exact hexpand
    have hstring := h emptyVariables
    unfold string at hstring
    cases hsplit : split text with
    | error e =>
      rw [hsplit] at hstring
      rw [hstring.1] at hexpanded
      cases hexpanded
    | ok tokens =>
      rw [hsplit] at hstring
      change Expands emptyVariables text (concat emptyVariables tokens) at hstring
      cases hconcat : concat emptyVariables tokens with
      | error e =>
        rw [hconcat] at hstring
        rw [hstring.1] at hexpanded
        cases hexpanded
      | ok got =>
        rw [hconcat] at hstring
        obtain rfl := Option.some.inj (hexpanded.symm.trans hstring)
        obtain ⟨value', hvalue', hc'⟩ := mem_of_concat hconcat (hmem value hvalue hc)
        exact split_text text hsplit value' hvalue' c hc' hfirst
  · rintro (hplain | hopen) getenv
    · by_cases hclosed : (parse text).2 = none
      · exact expands_of_plain getenv hplain hclosed
      · exact expands_of_unterminated getenv hclosed
    · exact expands_of_unterminated getenv hopen

/-- `a$b`: nothing is to be expanded, and the string is refused. -/
theorem lone_dollar_refused : ¬ ∀ getenv text, Expands getenv text (string getenv text) := by
  intro h
  have hsplit : split [97, 36, 98] = .error (unbalanced [97, 36, 98]) :=
    @split_unbalanced [97] [] 36 98 (by decide +kernel) (by decide +kernel) (by decide +kernel)
  have hexpands := h emptyVariables [97, 36, 98]
  unfold string at hexpands
  rw [hsplit] at hexpands
  have hself : expanded emptyVariables [97, 36, 98] = some [97, 36, 98] := by
    apply expanded_of_no_opener
    intro before rest heq
    have hmem : opening ∈ ([97, 36, 98] : Text) := heq ▸ by simp
    exact absurd hmem (by decide)
  rw [hexpands.1] at hself
  cases hself

end Casual.Common.Environment

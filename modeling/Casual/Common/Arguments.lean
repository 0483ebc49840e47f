/-
`common/arguments.h` and `common/arguments.cpp`: how the arguments of a process get to the options it has. What is
parsed is a line of options, each with the values that follow it.
-/
import Mathlib.Tactic
import Mathlib.Data.List.TakeWhile
import Casual.Common.Environment

namespace Casual.Common.Arguments

open Environment (Text)

/-- A literal of the source. -/
def bytes (s : String) : Text := s.toList.map fun c => UInt8.ofNat c.toNat

/-! ## Directives -/

/-- `basic_directive`, with its cardinality and what has been assigned to it. -/
structure Directive where
  options : List Text
  min : Nat
  max : Nat
  values : List Text
  assigned : Bool
  deriving DecidableEq

/-- `directive`, with its cardinality. -/
def directive (options : List Text) (min max : Nat) : Directive := ⟨options, min, max, [], false⟩

/-- The directive of a variable or a function of one value: `cardinality::One`. -/
def one (options : List Text) : Directive := directive options 1 1

/-- That of a `bool` or a function without arguments: `cardinality::Zero`. -/
def zero (options : List Text) : Directive := directive options 0 0

namespace Directive

/-- `option`. -/
def option (d : Directive) (option : Text) : Bool := d.options.contains option

/-- `assign`. -/
def assign (d : Directive) (values : List Text) : Directive := { d with values := d.values ++ values, assigned := true }

/-- `valid`. -/
def valid (d : Directive) : Bool := decide (d.min ≤ d.values.length ∧ d.values.length ≤ d.max)

end Directive

/-! ## `Arguments` -/

/-- `exception::invalid::Argument`. -/
inductive Exception
  | invalidArgument (argument : Text)
  | invalidValues (option : Text)
  deriving DecidableEq

/-- The directive that is found for an option. -/
def owner (ds : List Directive) (option : Text) : Option Nat := ds.findIdx? fun d => d.option option

/-- `local::Option`, for any of the directives. -/
def isOption (ds : List Directive) (option : Text) : Bool := ds.any fun d => d.option option

/-- `Arguments`, with the option for help. -/
def arguments (options : List Directive) : List Directive := options ++ [zero [bytes "--help"]]

/-- The loop of `parse`. -/
def assignAll (ds : List Directive) : List Text → Except Exception (List Directive)
  | [] => .ok ds
  | argument :: rest =>
    match owner ds argument with
    | none => .error (.invalidArgument argument)
    | some i =>
      -- the values end where the next option is
      let assigned := ds.modify i fun d => d.assign (rest.takeWhile fun value => !isOption ds value)
      if (assigned[i]?).any Directive.valid then assignAll assigned (rest.dropWhile fun value => !isOption ds value)
      else .error (.invalidValues argument)
  termination_by arguments => arguments.length
  decreasing_by exact Nat.lt_succ_of_le (List.dropWhile_sublist _).length_le

/-- `dispatch`: the directives that are called, with their values. -/
def dispatch (ds : List Directive) : List (Nat × List Text) :=
  ds.zipIdx.filterMap fun d => if d.1.assigned then some (d.2, d.1.values) else none

/-- `parse`. -/
def parse (ds : List Directive) (arguments : List Text) : Except Exception (List (Nat × List Text)) := do
  return dispatch (← assignAll ds arguments)

/-! ## Lines -/

/-- An option with its values. -/
structure Item where
  option : Text
  values : List Text

/-- The options of a line, each with its values. -/
abbrev Line := List Item

namespace Line

/-- How it is written. -/
def text (l : Line) : List Text := l.flatMap fun g => g.option :: g.values

/-- Its options are options, its values are not. -/
def WellFormed (ds : List Directive) (l : Line) : Prop :=
  ∀ g ∈ l, isOption ds g.option = true ∧ ∀ value ∈ g.values, isOption ds value = false

/-- The values that a directive gets of a line. -/
def taken (ds : List Directive) (i : Nat) (l : Line) : List Text :=
  (l.filter fun g => owner ds g.option == some i).flatMap (·.values)

end Line

/-- The directive of an option has as many values as it takes, with those that come before. -/
def Accepts (ds : List Directive) (before : Line) (g : Item) : Prop :=
  ∀ i d, owner ds g.option = some i → ds[i]? = some d →
    d.min ≤ (d.values ++ Line.taken ds i (before ++ [g])).length ∧ (d.values ++ Line.taken ds i (before ++ [g])).length ≤ d.max

/-- That holds of each option of a line. -/
def Accepted (ds : List Directive) (l : Line) : Prop := ∀ before g after, l = before ++ g :: after → Accepts ds before g

/-- What is assigned for a line. -/
def assignLine (ds : List Directive) (l : Line) : List Directive :=
  ds.mapIdx fun i d =>
    { d with
      values := d.values ++ l.taken ds i
      assigned := d.assigned || l.any fun g => owner ds g.option == some i }

/-! ## The directives are the same throughout -/

/-- What is known of the options does not change. -/
theorem owner_congr {ds ds' : List Directive} (h : ds'.map Directive.options = ds.map Directive.options) (option : Text) :
    owner ds' option = owner ds option ∧ isOption ds' option = isOption ds option := by
  have howner : ∀ ds : List Directive, owner ds option = (ds.map Directive.options).findIdx? fun os => os.contains option := by
    intro ds
    rw [List.findIdx?_map]
    rfl
  have hoption : ∀ ds : List Directive, isOption ds option = (ds.map Directive.options).any fun os => os.contains option := by
    intro ds
    rw [List.any_map]
    rfl
  exact ⟨by rw [howner, howner, h], by rw [hoption, hoption, h]⟩

theorem options_modify (ds : List Directive) (i : Nat) (values : List Text) :
    (ds.modify i fun d => d.assign values).map Directive.options = ds.map Directive.options := by
  apply List.ext_getElem?
  intro j
  rw [List.getElem?_map, List.getElem?_map, List.getElem?_modify]
  split_ifs <;> cases ds[j]? <;> rfl

theorem isOption_iff {ds : List Directive} {option : Text} : isOption ds option = true ↔ ∃ i, owner ds option = some i := by
  unfold isOption owner
  rw [List.any_eq_true, ← Option.isSome_iff_exists, List.findIdx?_isSome, List.any_eq_true]

theorem taken_congr {ds ds' : List Directive} (h : ds'.map Directive.options = ds.map Directive.options) (i : Nat) (l : Line) :
    l.taken ds' i = l.taken ds i := by
  unfold Line.taken
  simp only [(owner_congr h _).1]

theorem wellFormed_congr {ds ds' : List Directive} (h : ds'.map Directive.options = ds.map Directive.options) {l : Line} :
    l.WellFormed ds' ↔ l.WellFormed ds := by
  unfold Line.WellFormed
  simp only [(owner_congr h _).2]

/-! ## A line is parsed -/

section

variable {ds : List Directive} {g : Item} {l : Line} {i : Nat}

/-- Behind the values of an option is the end or the next option. -/
theorem text_split (hg : ∀ value ∈ g.values, isOption ds value = false) (hl : l.WellFormed ds) :
    ((g.values ++ l.text).takeWhile fun value => !isOption ds value) = g.values ∧
      ((g.values ++ l.text).dropWhile fun value => !isOption ds value) = l.text := by
  have hvalues : ∀ value ∈ g.values, (!isOption ds value) = true := fun value hvalue => by rw [hg value hvalue]; rfl
  have hnext : (l.text.takeWhile fun value => !isOption ds value) = [] ∧
      (l.text.dropWhile fun value => !isOption ds value) = l.text := by
    cases l with
    | nil => exact ⟨rfl, rfl⟩
    | cons g' l =>
      have hoption := (hl g' List.mem_cons_self).1
      constructor
      · exact List.takeWhile_cons_of_neg (by rw [hoption]; decide)
      · exact List.dropWhile_cons_of_neg (by rw [hoption]; decide)
  rw [List.takeWhile_append_of_pos hvalues, List.dropWhile_append_of_pos hvalues, hnext.1, hnext.2, List.append_nil]
  exact ⟨rfl, rfl⟩

/-- An option with its values is assigned, and the rest is parsed, if it is valid then. -/
theorem assignAll_cons (howner : owner ds g.option = some i) (hg : ∀ value ∈ g.values, isOption ds value = false)
    (hl : l.WellFormed ds) : assignAll ds (Line.text (g :: l)) =
      if ((ds.modify i fun d => d.assign g.values)[i]?).any Directive.valid then
        assignAll (ds.modify i fun d => d.assign g.values) l.text
      else .error (.invalidValues g.option) := by
  obtain ⟨htake, hdrop⟩ := text_split hg hl
  show assignAll ds (g.option :: (g.values ++ l.text)) = _
  rw [assignAll, howner]
  dsimp only
  rw [htake, hdrop]

/-- The values of the directive that is assigned. -/
theorem taken_cons (howner : owner ds g.option = some i) (j : Nat) (l : Line) :
    Line.taken ds j (g :: l) = (if i = j then g.values else []) ++ l.taken ds j := by
  unfold Line.taken
  by_cases hij : i = j
  · rw [List.filter_cons_of_pos (by rw [howner, hij]; exact beq_self_eq_true _), List.flatMap_cons, if_pos hij]
  · rw [List.filter_cons_of_neg (by rw [howner]; simpa using hij), if_neg hij]
    rfl

theorem getElem?_assigned (i j : Nat) (values : List Text) : (ds.modify i fun d => d.assign values)[j]? =
    ds[j]?.map fun d => if i = j then d.assign values else d := by
  rw [List.getElem?_modify]
  split_ifs <;> cases ds[j]? <;> rfl

/-- Of an option that comes later it is the same to have assigned one before. -/
theorem accepts_cons (howner : owner ds g.option = some i) (before : Line) (g' : Item) :
    Accepts (ds.modify i fun d => d.assign g.values) before g' ↔ Accepts ds (g :: before) g' := by
  have hoptions := options_modify ds i g.values
  unfold Accepts
  refine forall_congr' fun j => ?_
  have hcount : ∀ d : Directive, (if i = j then d.assign g.values else d).values ++ Line.taken ds j (before ++ [g']) =
      d.values ++ Line.taken ds j (g :: before ++ [g']) := by
    intro d
    rw [List.cons_append, taken_cons howner]
    split_ifs
    · exact List.append_assoc _ _ _
    · rfl
  have hbounds : ∀ d : Directive, (if i = j then d.assign g.values else d).min = d.min ∧
      (if i = j then d.assign g.values else d).max = d.max := fun d => by
    split_ifs <;> exact ⟨rfl, rfl⟩
  rw [(owner_congr hoptions _).1, getElem?_assigned]
  constructor
  · intro h d hj hd
    have hbound := h (if i = j then d.assign g.values else d) hj (by rw [hd]; rfl)
    rwa [taken_congr hoptions, hcount, (hbounds d).1, (hbounds d).2] at hbound
  · intro h d' hj hd'
    obtain ⟨d, hd, rfl⟩ := Option.map_eq_some_iff.1 hd'
    rw [taken_congr hoptions, hcount, (hbounds d).1, (hbounds d).2]
    exact h d hj hd

theorem assignLine_cons (howner : owner ds g.option = some i) (l : Line) :
    assignLine (ds.modify i fun d => d.assign g.values) l = assignLine ds (g :: l) := by
  have hoptions := options_modify ds i g.values
  apply List.ext_getElem?
  intro j
  unfold assignLine
  rw [List.getElem?_mapIdx, List.getElem?_mapIdx, getElem?_assigned, Option.map_map]
  refine congrArg (Option.map · ds[j]?) (funext fun d => ?_)
  simp only [Function.comp_apply, taken_congr hoptions, (owner_congr hoptions _).1, taken_cons howner, List.any_cons, howner]
  by_cases hij : i = j
  · simp [hij, Directive.assign]
  · have hne : (i == j) = false := beq_eq_false_iff_ne.2 hij
    simp [hij, hne]

/-- The directive of the option is valid when it has been assigned. -/
theorem valid_iff (howner : owner ds g.option = some i) :
    ((ds.modify i fun d => d.assign g.values)[i]?).any Directive.valid = true ↔ Accepts ds [] g := by
  have hlt : i < ds.length := by
    obtain ⟨hi, -⟩ := List.findIdx?_eq_some_iff_getElem.1 howner
    exact hi
  have htaken : Line.taken ds i ([] ++ [g]) = g.values := by
    rw [List.nil_append, taken_cons howner, if_pos rfl]
    exact List.append_nil _
  rw [getElem?_assigned, List.getElem?_eq_getElem hlt]
  rw [Option.map_some, if_pos rfl]
  show (ds[i].assign g.values).valid = true ↔ _
  unfold Directive.valid Accepts
  rw [decide_eq_true_iff]
  constructor
  · intro h j d hj hd
    obtain rfl := Option.some.inj (howner.symm.trans hj)
    rw [List.getElem?_eq_getElem hlt] at hd
    obtain rfl := Option.some.inj hd
    rw [htaken]
    exact h
  · intro h
    have hbound := h i _ howner (List.getElem?_eq_getElem hlt)
    rwa [htaken] at hbound

end

theorem assignLine_nil (ds : List Directive) : assignLine ds [] = ds := by
  apply List.ext_getElem?
  intro j
  unfold assignLine
  rw [List.getElem?_mapIdx]
  cases ds[j]? with
  | none => rfl
  | some d => simp [Line.taken]

theorem accepted_nil (ds : List Directive) : Accepted ds [] := fun _ _ _ h =>
  absurd h.symm (List.append_ne_nil_of_right_ne_nil _ (List.cons_ne_nil _ _))

/-- A line is assigned as a whole, or up to the first option that has not as many values as it takes. -/
theorem assignAll_text : ∀ {l : Line} {ds : List Directive}, l.WellFormed ds →
    (Accepted ds l ∧ assignAll ds l.text = .ok (assignLine ds l)) ∨
      ∃ before g after, l = before ++ g :: after ∧ Accepted ds before ∧ ¬ Accepts ds before g ∧
        assignAll ds l.text = .error (.invalidValues g.option)
  | [], ds, _ => by
    refine .inl ⟨accepted_nil ds, ?_⟩
    rw [assignLine_nil]
    exact assignAll.eq_1 ds
  | g :: l, ds, h => by
    obtain ⟨hoption, hvalues⟩ := h g List.mem_cons_self
    have hl : Line.WellFormed ds l := fun g' hg' => h g' (List.mem_cons_of_mem _ hg')
    obtain ⟨i, howner⟩ := isOption_iff.1 hoption
    have hrest := @assignAll_text l (ds.modify i fun d => d.assign g.values)
      ((wellFormed_congr (options_modify ds i g.values)).2 hl)
    rw [assignAll_cons howner hvalues hl]
    by_cases hvalid : Accepts ds [] g
    · rw [if_pos ((valid_iff howner).2 hvalid)]
      -- the options that come before one are those that come before it in the rest, and this one
      have haccepted : ∀ before : Line, Accepted (ds.modify i fun d => d.assign g.values) before →
          Accepted ds (g :: before) := by
        intro before hbefore before' g' after' heq
        cases before' with
        | nil =>
          rw [List.nil_append, List.cons.injEq] at heq
          exact heq.1 ▸ hvalid
        | cons g'' before' =>
          rw [List.cons_append, List.cons.injEq] at heq
          rw [← heq.1]
          exact (accepts_cons howner before' g').1 (hbefore before' g' after' heq.2)
      rcases hrest with ⟨hall, hok⟩ | ⟨before, g', after, rfl, hbefore, hnot, herror⟩
      · refine .inl ⟨haccepted l hall, ?_⟩
        rw [hok, assignLine_cons howner]
      · exact .inr ⟨g :: before, g', after, rfl, haccepted before hbefore,
          fun h => hnot ((accepts_cons howner before g').2 h), herror⟩
    · rw [if_neg fun h => hvalid ((valid_iff howner).1 h)]
      exact .inr ⟨[], g, l, rfl, accepted_nil ds, hvalid, rfl⟩

/-- An option that takes one value and has none yet, before the end or another option. -/
theorem assignAll_value {ds : List Directive} {option value : Text} {rest : List Text} {i : Nat} {d : Directive}
    (howner : owner ds option = some i) (hd : ds[i]? = some d) (hone : d.min = 1 ∧ d.max = 1) (hnone : d.values = [])
    (hrest : ∀ next ∈ rest.head?, isOption ds next = true) : assignAll ds (option :: value :: rest) =
      if isOption ds value then .error (.invalidValues option) else assignAll (ds.modify i fun d => d.assign [value]) rest := by
  have hassigned : ∀ values : List Text, ((ds.modify i fun d => d.assign values)[i]?).any Directive.valid =
      decide (values.length = 1) := by
    intro values
    rw [getElem?_assigned, hd, Option.map_some, if_pos rfl, Option.any_some]
    unfold Directive.valid Directive.assign
    rw [hone.1, hone.2, hnone, List.nil_append]
    rw [decide_eq_decide]
    show 1 ≤ values.length ∧ values.length ≤ 1 ↔ values.length = 1
    omega
  have hnext : (rest.takeWhile fun value => !isOption ds value) = [] ∧ (rest.dropWhile fun value => !isOption ds value) = rest := by
    cases rest with
    | nil => exact ⟨rfl, rfl⟩
    | cons next rest =>
      have hoption := hrest next rfl
      constructor
      · exact List.takeWhile_cons_of_neg (by rw [hoption]; decide)
      · exact List.dropWhile_cons_of_neg (by rw [hoption]; decide)
  rw [assignAll, howner]
  dsimp only
  rw [hassigned]
  cases hvalue : isOption ds value with
  | true =>
    rw [List.takeWhile_cons_of_neg (by rw [hvalue]; decide)]
    rfl
  | false =>
    rw [List.takeWhile_cons_of_pos (by rw [hvalue]; rfl), List.dropWhile_cons_of_pos (by rw [hvalue]; rfl), hnext.1, hnext.2]
    rfl

/-- Options of one value each, none twice: all are assigned, unless one of the values is itself an option. -/
theorem assignAll_values : ∀ {pairs : List (Text × Text)} {ds : List Directive},
    (∀ pair ∈ pairs, ∃ i d, owner ds pair.1 = some i ∧ ds[i]? = some d ∧ (d.min = 1 ∧ d.max = 1) ∧ d.values = []) →
    (pairs.map fun pair => owner ds pair.1).Nodup →
    assignAll ds (pairs.flatMap fun pair => [pair.1, pair.2]) =
      (pairs.find? fun pair => isOption ds pair.2).elim
        (.ok (assignLine ds (pairs.map fun pair => ⟨pair.1, [pair.2]⟩))) fun pair => .error (.invalidValues pair.1)
  | [], ds, _, _ => by
    rw [List.map_nil, assignLine_nil]
    exact assignAll.eq_1 ds
  | pair :: pairs, ds, h, hnodup => by
    obtain ⟨i, d, howner, hd, hone, hnone⟩ := h pair List.mem_cons_self
    have hoptions := options_modify ds i [pair.2]
    have hrest : ∀ next ∈ (pairs.flatMap fun pair => [pair.1, pair.2]).head?, isOption ds next = true := by
      intro next hnext
      cases pairs with
      | nil => cases hnext
      | cons pair' pairs =>
        obtain rfl : pair'.1 = next := Option.some.inj hnext
        obtain ⟨i', -, howner', -⟩ := h pair' (List.mem_cons_of_mem _ List.mem_cons_self)
        exact isOption_iff.2 ⟨i', howner'⟩
    rw [List.map_cons, List.nodup_cons] at hnodup
    show assignAll ds (pair.1 :: pair.2 :: pairs.flatMap fun pair => [pair.1, pair.2]) = _
    rw [assignAll_value howner hd hone hnone hrest]
    cases hvalue : isOption ds pair.2 with
    | true =>
      rw [List.find?_cons, hvalue]
      rfl
    | false =>
      rw [List.find?_cons, hvalue, if_neg (by decide)]
      have hothers : ∀ pair' ∈ pairs, ∃ i' d', owner (ds.modify i fun d => d.assign [pair.2]) pair'.1 = some i' ∧
          (ds.modify i fun d => d.assign [pair.2])[i']? = some d' ∧ (d'.min = 1 ∧ d'.max = 1) ∧ d'.values = [] := by
        intro pair' hpair'
        obtain ⟨i', d', howner', hd', hone', hnone'⟩ := h pair' (List.mem_cons_of_mem _ hpair')
        have hne : i ≠ i' := by
          rintro rfl
          exact hnodup.1 (List.mem_map.2 ⟨pair', hpair', howner'.trans howner.symm⟩)
        refine ⟨i', d', (owner_congr hoptions _).1.trans howner', ?_, hone', hnone'⟩
        rw [getElem?_assigned, hd', Option.map_some, if_neg hne]
      rw [assignAll_values hothers (by simpa only [(owner_congr hoptions _).1] using hnodup.2)]
      simp only [(owner_congr hoptions _).2]
      rw [assignLine_cons (g := ⟨pair.1, [pair.2]⟩) howner]
      rfl

/-! ## Every list of arguments -/

/-- Arguments of which the first is an option are a line. -/
theorem exists_line {ds : List Directive} : ∀ {arguments : List Text}, (∀ first ∈ arguments.head?, isOption ds first = true) →
    ∃ l : Line, l.WellFormed ds ∧ l.text = arguments
  | [], _ => ⟨[], nofun, rfl⟩
  | argument :: rest, h => by
    obtain ⟨l, hl, htext⟩ := @exists_line ds (rest.dropWhile fun value => !isOption ds value) (by
      intro first hfirst
      have := List.head?_dropWhile_not (fun value => !isOption ds value) rest
      rw [Option.mem_def.1 hfirst] at this
      simpa using this)
    refine ⟨⟨argument, rest.takeWhile fun value => !isOption ds value⟩ :: l, fun g hg => ?_, ?_⟩
    · rcases List.mem_cons.1 hg with rfl | hg
      · refine ⟨h argument rfl, fun value hvalue => ?_⟩
        simpa using List.mem_takeWhile_imp hvalue
      · exact hl g hg
    · show argument :: (rest.takeWhile _ ++ l.text) = argument :: rest
      rw [htext, List.takeWhile_append_dropWhile]
  termination_by arguments => arguments.length
  decreasing_by exact Nat.lt_succ_of_le (List.dropWhile_sublist _).length_le

/-- And of one line only. -/
theorem text_inj {ds : List Directive} : ∀ {l l' : Line}, l.WellFormed ds → l'.WellFormed ds → l.text = l'.text → l = l'
  | [], [], _, _, _ => rfl
  | [], g' :: l', _, _, h => by cases h
  | g :: l, [], _, _, h => by cases h
  | g :: l, g' :: l', hl, hl', h => by
    obtain ⟨hoption, hrest⟩ := List.cons.inj (show g.option :: (g.values ++ Line.text l) = g'.option :: (g'.values ++ Line.text l') from h)
    have hwl : Line.WellFormed ds l := fun g hg => hl g (List.mem_cons_of_mem _ hg)
    have hwl' : Line.WellFormed ds l' := fun g hg => hl' g (List.mem_cons_of_mem _ hg)
    obtain ⟨htake, hdrop⟩ := text_split (hl g List.mem_cons_self).2 hwl
    obtain ⟨htake', hdrop'⟩ := text_split (hl' g' List.mem_cons_self).2 hwl'
    have hvalues : g.values = g'.values := by rw [← htake, ← htake', hrest]
    have hlines : l = l' := text_inj hwl hwl' (by rw [← hdrop, ← hdrop', hrest])
    rw [hlines, show g = g' from by cases g; cases g'; cases hoption; cases hvalues; rfl]

/-- What becomes of any arguments. Unless the first is no option they are one line of options with values. All
directives are dispatched, each once with all values its options have on the line, when each option finds its
directive with as many values as it takes; else nothing is, and the first that does not is told. -/
theorem parse_arguments (ds : List Directive) (arguments : List Text) :
    (∃ argument ∈ arguments.head?, isOption ds argument = false ∧ parse ds arguments = .error (.invalidArgument argument)) ∨
      ∃ l : Line, (l.WellFormed ds ∧ l.text = arguments ∧ ∀ l' : Line, l'.WellFormed ds → l'.text = arguments → l' = l) ∧
        ((Accepted ds l ∧ parse ds arguments = .ok (dispatch (assignLine ds l))) ∨
          ∃ before g after, l = before ++ g :: after ∧ Accepted ds before ∧ ¬ Accepts ds before g ∧
            parse ds arguments = .error (.invalidValues g.option)) := by
  by_cases hfirst : ∀ first ∈ arguments.head?, isOption ds first = true
  · obtain ⟨l, hl, rfl⟩ := exists_line hfirst
    refine .inr ⟨l, ⟨hl, rfl, fun l' hl' htext => text_inj hl' hl htext⟩, ?_⟩
    unfold parse
    rcases assignAll_text hl with ⟨haccepted, hok⟩ | ⟨before, g, after, heq, hbefore, hnot, herror⟩
    · exact .inl ⟨haccepted, by rw [hok]; rfl⟩
    · exact .inr ⟨before, g, after, heq, hbefore, hnot, by rw [herror]; rfl⟩
  · push Not at hfirst
    obtain ⟨argument, hargument, hnot⟩ := hfirst
    have hnot : isOption ds argument = false := by simpa using hnot
    refine .inl ⟨argument, hargument, hnot, ?_⟩
    cases arguments with
    | nil => cases hargument
    | cons first rest =>
      obtain rfl : first = argument := Option.some.inj hargument
      have howner : owner ds first = none := by
        cases howner : owner ds first with
        | none => rfl
        | some i => rw [isOption_iff.2 ⟨i, howner⟩] at hnot; cases hnot
      unfold parse
      rw [assignAll, howner]
      rfl

end Casual.Common.Arguments

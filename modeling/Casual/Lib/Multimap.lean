/-
Ordered maps with repeated keys, as lists of entries in the order of their keys: what is put in
comes behind the entries that its key is not less than.
-/
import Mathlib.Tactic
import Mathlib.Data.List.TakeWhile

namespace Casual.Lib.Multimap

variable {α β : Type} [LT α] [DecidableLT α] {k : α} {v : β} {l l' : List (α × β)}

/-- The entries up to the upper bound of a key. -/
def upTo (k : α) (l : List (α × β)) : List (α × β) := l.takeWhile fun e => ¬ k < e.1

/-- The entries from the upper bound of a key. -/
def beyond (k : α) (l : List (α × β)) : List (α × β) := l.dropWhile fun e => ¬ k < e.1

/-- `emplace`: behind all entries with the key. -/
def emplace (k : α) (v : β) (l : List (α × β)) : List (α × β) := upTo k l ++ (k, v) :: beyond k l

/-- The entry before the upper bound of a key. -/
def before (k : α) (l : List (α × β)) : Option (α × β) := (upTo k l).getLast?

/-- Another value for the entry before the upper bound of a key. -/
def setBefore (k : α) (v : β) (l : List (α × β)) : List (α × β) :=
  match before k l with
  | none => l
  | some e => (upTo k l).dropLast ++ (e.1, v) :: beyond k l

/-- The entries come in the order of their keys. -/
def Sorted (l : List (α × β)) : Prop := l.Pairwise fun a b => ¬ b.1 < a.1

/-- No key is greater than this one. -/
def AtMost (k : α) (l : List (α × β)) : Prop := ∀ e ∈ l, ¬ k < e.1

theorem AtMost.upTo (h : AtMost k l) : upTo k l = l :=
  List.takeWhile_eq_self_iff.2 fun e he => decide_eq_true (h e he)

theorem AtMost.beyond (h : AtMost k l) : beyond k l = [] :=
  List.dropWhile_eq_nil_iff.2 fun e he => decide_eq_true (h e he)

omit [DecidableLT α] in

omit [DecidableLT α] in
theorem AtMost.concat [Std.Irrefl (α := α) (· < ·)] (h : AtMost k l) : AtMost k (l ++ [(k, v)]) := by
  intro e he
  rcases List.mem_append.1 he with he | he
  · exact h e he
  · rw [List.mem_singleton.1 he]
    exact Std.Irrefl.irrefl k

/-- An entry with a key that no other is greater than comes last. -/
theorem emplace_of_atMost (h : AtMost k l) : emplace k v l = l ++ [(k, v)] := by
  unfold emplace
  rw [h.upTo, h.beyond]

theorem before_concat [Std.Irrefl (α := α) (· < ·)] (h : AtMost k l) : before k (l ++ [(k, v)]) = some (k, v) := by
  unfold before
  rw [h.concat.upTo, List.getLast?_concat]

theorem setBefore_concat [Std.Irrefl (α := α) (· < ·)] (h : AtMost k l) (v' : β) :
    setBefore k v' (l ++ [(k, v)]) = l ++ [(k, v')] := by
  have hall : AtMost k (l ++ [(k, v)]) := h.concat
  unfold setBefore
  rw [before_concat h, hall.upTo, hall.beyond, List.dropLast_concat]

/-! ## Order -/

theorem upTo_atMost (k : α) (l : List (α × β)) : AtMost k (upTo k l) := by
  intro e he
  have h := List.mem_takeWhile_imp he
  exact of_decide_eq_true h

theorem beyond_head {e : α × β} (h : beyond k l = e :: l') : k < e.1 := by
  have hne : beyond k l ≠ [] := by
    rw [h]
    exact List.cons_ne_nil _ _
  have hnot := List.head_dropWhile_not (fun e : α × β => decide (¬ k < e.1)) hne
  have hhead : (beyond k l).head hne = e := by
    simp only [h, List.head_cons]
  change decide (¬ k < ((beyond k l).head hne).1) = false at hnot
  rw [hhead] at hnot
  exact not_not.1 (of_decide_eq_false hnot)

/-- Where the entries up to the upper bound of a key end. -/
theorem upTo_append_of_beyond {up : List (α × β)} (hup : AtMost k up) (l : List (α × β)) :
    upTo k (up ++ beyond k l) = up := by
  have hall : ∀ e ∈ up, decide (¬ k < e.1) = true := fun e he => decide_eq_true (hup e he)
  unfold upTo
  rw [List.takeWhile_append_of_pos hall]
  cases hb : beyond k l with
  | nil => rw [List.takeWhile_nil, List.append_nil]
  | cons e rest => rw [List.takeWhile_cons_of_neg (by simpa using beyond_head hb), List.append_nil]

/-- What was put in is found. -/
theorem before_emplace [Std.Irrefl (α := α) (· < ·)] : before k (emplace k v l) = some (k, v) := by
  have hup : AtMost k (upTo k l ++ [(k, v)]) := (upTo_atMost k l).concat
  have hsplit : emplace k v l = (upTo k l ++ [(k, v)]) ++ beyond k l := by
    rw [emplace, List.append_assoc, List.singleton_append]
  unfold before
  rw [hsplit, upTo_append_of_beyond hup, List.getLast?_concat]

theorem before_setBefore {e : α × β} (h : before k l = some e) : before k (setBefore k v l) = some (e.1, v) := by
  have hmem := List.mem_of_getLast? h
  have hup : AtMost k ((upTo k l).dropLast ++ [(e.1, v)]) := by
    intro e' he'
    rcases List.mem_append.1 he' with he' | he'
    · exact upTo_atMost k l e' ((List.dropLast_sublist _).subset he')
    · rw [List.mem_singleton.1 he']
      exact upTo_atMost k l e hmem
  have hsplit : setBefore k v l = ((upTo k l).dropLast ++ [(e.1, v)]) ++ beyond k l := by
    unfold setBefore
    rw [h, List.append_assoc, List.singleton_append]
  unfold before at h ⊢
  rw [hsplit, upTo_append_of_beyond hup, List.getLast?_concat]

end Casual.Lib.Multimap

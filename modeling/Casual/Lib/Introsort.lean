/-
The unstable sort of the usual standard libraries: parts of more than sixteen elements are partitioned
around a pivot, the rest is left to an insertion sort. The result is sorted, and elements that compare
equal come in some order.
-/
import Mathlib

namespace Casual.Lib.Introsort

variable {α : Type} (le : α → α → Prop) [DecidableRel le]

/-! ## Partitions -/

/-- The element of one position is less than that of another. -/
def below (xs : Array α) (i j : Nat) : Bool :=
  match xs[i]?, xs[j]? with
  | some a, some b => !decide (le b a)
  | _, _ => false

/-- Two elements change places. -/
def swap (xs : Array α) (i j : Nat) : Array α :=
  if h : i < xs.size ∧ j < xs.size then xs.swap i j h.1 h.2 else xs

/-- The median of three elements changes places with the first. -/
def medianToFirst (xs : Array α) (first a b c : Nat) : Array α :=
  swap xs first <|
    if below le xs a b then
      if below le xs b c then b else if below le xs a c then c else a
    else if below le xs a c then a
    else if below le xs b c then c
    else b

/-- The next position whose element is not less than the pivot. -/
def up (xs : Array α) (pivot : Nat) : Nat → Nat → Nat
  | 0, i => i
  | n + 1, i => if below le xs i pivot then up xs pivot n (i + 1) else i

/-- The previous position whose element is not greater than the pivot. -/
def down (xs : Array α) (pivot : Nat) : Nat → Nat → Nat
  | 0, i => i
  | n + 1, i => if below le xs pivot i then down xs pivot n (i - 1) else i

/-- Elements on the wrong sides of the pivot change places until the sides meet. -/
def partition (pivot : Nat) : Nat → Array α → Nat → Nat → Array α × Nat
  | 0, xs, first, _ => (xs, first)
  | n + 1, xs, first, last =>
    let first := up le xs pivot xs.size first
    let last := down le xs pivot xs.size (last - 1)
    if first < last then partition pivot n (swap xs first last) (first + 1) last else (xs, first)

/-- The part is partitioned around the median of three of its elements. -/
def partitionPivot (xs : Array α) (first last : Nat) : Array α × Nat :=
  let xs := medianToFirst le xs first (first + 1) (first + (last - first) / 2) (last - 1)
  partition le first xs.size xs (first + 1) last

/-! ## The sort -/

/-- The parts of more than sixteen elements. The recursion is on the depth that is left; where there is
none, a part stays for the insertion sort. -/
def loop : Nat → Array α → Nat → Nat → Array α
  | 0, xs, _, _ => xs
  | depth + 1, xs, first, last =>
    if 16 < last - first then
      let (xs, cut) := partitionPivot le xs first last
      loop depth (loop depth xs cut last) first cut
    else xs

/-- The whole sort. -/
def sort (l : List α) : List α :=
  (loop le (2 * l.length.log2) l.toArray 0 l.length).toList.insertionSort le

/-! ## What it promises -/

theorem swap_perm (xs : Array α) (i j : Nat) : (swap xs i j).Perm xs := by
  unfold swap
  split_ifs with h
  · exact Array.swap_perm h.1 h.2
  · exact .refl _

theorem partition_perm (pivot : Nat) : ∀ (n : Nat) (xs : Array α) (first last : Nat),
    (partition le pivot n xs first last).1.Perm xs
  | 0, xs, _, _ => .refl xs
  | n + 1, xs, first, last => by
    unfold partition
    dsimp only
    split_ifs
    · exact (partition_perm pivot n _ _ _).trans (swap_perm xs _ _)
    · exact .refl xs

theorem partitionPivot_perm (xs : Array α) (first last : Nat) : (partitionPivot le xs first last).1.Perm xs :=
  (partition_perm le first _ _ _ _).trans (swap_perm xs _ _)

theorem loop_perm : ∀ (depth : Nat) (xs : Array α) (first last : Nat), (loop le depth xs first last).Perm xs
  | 0, xs, _, _ => .refl xs
  | depth + 1, xs, first, last => by
    unfold loop
    split_ifs
    · have hright := loop_perm depth (partitionPivot le xs first last).1 (partitionPivot le xs first last).2 last
      have hleft := loop_perm depth (loop le depth (partitionPivot le xs first last).1
        (partitionPivot le xs first last).2 last) first (partitionPivot le xs first last).2
      exact hleft.trans (hright.trans (partitionPivot_perm le xs first last))
    · exact .refl xs

/-- The elements stay the same. -/
theorem sort_perm (l : List α) : (sort le l).Perm l := by
  have hloop := (loop_perm le (2 * l.length.log2) l.toArray 0 l.length).toList
  exact (List.perm_insertionSort le _).trans hloop

/-- They come in order, whatever the partitions have left. -/
theorem sort_sorted [Std.Total le] [IsTrans α le] (l : List α) : (sort le l).Pairwise le :=
  List.pairwise_insertionSort le _

end Casual.Lib.Introsort

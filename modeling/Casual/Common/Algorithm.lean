/-
`common/algorithm.h`: the ranges the transports are cut in, their position algorithms, and the
partition of a container by a predicate.
-/
import Mathlib

namespace Casual.Common

/-! ## Ranges -/

/-- `Range`: a first position and a size. -/
structure Range where
  first : Nat
  size : Nat
  deriving DecidableEq, Repr

namespace Range

/-- `Range( first, last)`. -/
def make (first last : Nat) : Range := ⟨first, last - first⟩

/-- `Range()`. -/
def null : Range := ⟨0, 0⟩

/-- `Range::begin`. -/
def begin (r : Range) : Nat := r.first

/-- `Range::end`. -/
def «end» (r : Range) : Nat := r.first + r.size

/-- `Range::empty`. -/
def empty (r : Range) : Bool := r.size == 0

/-- `position::overlap`. -/
def overlap (lhs rhs : Range) : Prop := lhs.end ≥ rhs.begin ∧ lhs.begin ≤ rhs.end

instance (lhs rhs : Range) : Decidable (lhs.overlap rhs) := inferInstanceAs (Decidable (_ ∧ _))

/-- `position::subtract`: what is left of `lhs` in front of and behind `rhs`. -/
def subtract (lhs rhs : Range) : Range × Range :=
  if lhs.overlap rhs then
    if lhs.begin < rhs.begin ∧ lhs.end > rhs.end then
      (make lhs.begin rhs.begin, make rhs.end lhs.end)
    else if lhs.begin < rhs.begin then
      (make lhs.begin rhs.begin, null)
    else if lhs.end > rhs.end then
      (make rhs.end lhs.end, null)
    else
      (null, null)
  else
    (lhs, null)

/-! ### The positions of a range -/

/-- The positions a range stands for. -/
def toSet (r : Range) : Set Nat := Set.Ico r.begin r.end

@[simp] theorem mem_toSet {r : Range} {i : Nat} : i ∈ r.toSet ↔ r.first ≤ i ∧ i < r.first + r.size := Iff.rfl

theorem toSet_eq_empty {r : Range} : r.toSet = ∅ ↔ r.empty = true := by
  simp [toSet, begin, Range.end, empty, Set.Ico_eq_empty_iff]

/-- The two parts of a subtraction are the positions of `lhs` that are not in `rhs`. -/
theorem mem_subtract (lhs rhs : Range) (i : Nat) :
    (i ∈ (subtract lhs rhs).1.toSet ∨ i ∈ (subtract lhs rhs).2.toSet) ↔ i ∈ lhs.toSet ∧ i ∉ rhs.toSet := by
  unfold subtract
  split_ifs with ho h1 h2 h3 <;>
    simp only [overlap, begin, Range.end, make, null, mem_toSet] at * <;>
    omega

/-- The second part is empty unless `rhs` lies strictly inside `lhs`. -/
theorem subtract_snd_empty {lhs rhs : Range} (h : ¬ (lhs.begin < rhs.begin ∧ lhs.end > rhs.end)) :
    (subtract lhs rhs).2.toSet = ∅ := by
  unfold subtract
  split_ifs <;> simp_all [toSet, null, begin, Range.end]

end Range

/-! ## Partition -/

/-- The last element of a list that satisfies `p`, with what stands in front of it and behind it. -/
def findLast {α : Type} (p : α → Bool) : List α → Option (List α × α × List α)
  | [] => none
  | x :: xs =>
    match findLast p xs with
    | some (mid, y, tail) => some (x :: mid, y, tail)
    | none => if p x then some ([], x, xs) else none

/-- `std::partition`, the exchange from both ends: an element that fails `p` changes place with
the last one that satisfies it. The order within the two parts is not kept. -/
def partitionAux {α : Type} (p : α → Bool) : Nat → List α → List α × List α
  | 0, xs => ([], xs)
  | _ + 1, [] => ([], [])
  | n + 1, x :: xs =>
    if p x then
      let r := partitionAux p n xs
      (x :: r.1, r.2)
    else
      match findLast p xs with
      | none => ([], x :: xs)
      | some (mid, y, tail) =>
        let r := partitionAux p n mid
        (y :: r.1, r.2 ++ x :: tail)

/-- `range::partition`. -/
def partition {α : Type} (p : α → Bool) (xs : List α) : List α × List α := partitionAux p xs.length xs

theorem findLast_none {α : Type} {p : α → Bool} : ∀ {xs : List α},
    findLast p xs = none → ∀ z ∈ xs, p z = false
  | [], _, z, hz => by cases hz
  | x :: xs, h, z, hz => by
    simp only [findLast] at h
    cases hl : findLast p xs with
    | some r => rw [hl] at h; simp at h
    | none =>
      rw [hl] at h
      split_ifs at h with hp
      rcases List.mem_cons.1 hz with rfl | hz
      · simpa using hp
      · exact findLast_none hl z hz

theorem findLast_some {α : Type} {p : α → Bool} : ∀ {xs mid : List α} {y : α} {tail : List α},
    findLast p xs = some (mid, y, tail) → xs = mid ++ y :: tail ∧ p y = true ∧ ∀ z ∈ tail, p z = false
  | [], _, _, _, h => by simp [findLast] at h
  | x :: xs, mid, y, tail, h => by
    simp only [findLast] at h
    cases hl : findLast p xs with
    | some r =>
      obtain ⟨m, z, t⟩ := r
      rw [hl] at h
      simp only [Option.some.injEq, Prod.mk.injEq] at h
      obtain ⟨rfl, rfl, rfl⟩ := h
      obtain ⟨h1, h2, h3⟩ := findLast_some hl
      exact ⟨by rw [h1]; rfl, h2, h3⟩
    | none =>
      rw [hl] at h
      split_ifs at h with hp
      simp only [Option.some.injEq, Prod.mk.injEq] at h
      obtain ⟨rfl, rfl, rfl⟩ := h
      exact ⟨rfl, hp, findLast_none hl⟩

theorem partitionAux_spec {α : Type} (p : α → Bool) : ∀ (n : Nat) (xs : List α), xs.length ≤ n →
    ((partitionAux p n xs).1 ++ (partitionAux p n xs).2).Perm xs ∧
      (∀ z ∈ (partitionAux p n xs).1, p z = true) ∧ ∀ z ∈ (partitionAux p n xs).2, p z = false
  | 0, xs, h => by
    have : xs = [] := List.length_eq_zero_iff.1 (by omega)
    subst this; simp [partitionAux]
  | n + 1, [], _ => by simp [partitionAux]
  | n + 1, x :: xs, h => by
    have hlen : xs.length ≤ n := by simpa using h
    simp only [partitionAux]
    split_ifs with hp
    · obtain ⟨h1, h2, h3⟩ := partitionAux_spec p n xs hlen
      refine ⟨h1.cons x, ?_, h3⟩
      rintro z (_ | ⟨_, hz⟩)
      · exact hp
      · exact h2 z hz
    · cases hl : findLast p xs with
      | none =>
        refine ⟨by simp, by simp, ?_⟩
        rintro z (_ | ⟨_, hz⟩)
        · simpa using hp
        · exact findLast_none hl z hz
      | some r =>
        obtain ⟨mid, y, tail⟩ := r
        obtain ⟨rfl, hy, ht⟩ := findLast_some hl
        have hmid : mid.length ≤ n := by simp only [List.length_append, List.length_cons] at hlen; omega
        obtain ⟨h1, h2, h3⟩ := partitionAux_spec p n mid hmid
        simp only
        refine ⟨?_, ?_, ?_⟩
        · have : (y :: ((partitionAux p n mid).1 ++ (partitionAux p n mid).2) ++ x :: tail).Perm
              (x :: (mid ++ y :: tail)) := by
            refine ((h1.cons y).append_right (x :: tail)).trans ?_
            exact List.perm_middle.trans (List.perm_middle.symm.cons x)
          simpa using this
        · rintro z (_ | ⟨_, hz⟩)
          · exact hy
          · exact h2 z hz
        · intro z hz
          rcases List.mem_append.1 hz with hz | hz
          · exact h3 z hz
          · rcases List.mem_cons.1 hz with rfl | hz
            · simpa using hp
            · exact ht z hz

/-- The two parts together are the container. -/
theorem partition_perm {α : Type} (p : α → Bool) (xs : List α) :
    ((partition p xs).1 ++ (partition p xs).2).Perm xs := (partitionAux_spec p _ xs (le_refl _)).1

/-- The first part holds the elements that satisfy the predicate. -/
theorem mem_partition_fst {α : Type} {p : α → Bool} {xs : List α} {z : α} :
    z ∈ (partition p xs).1 ↔ z ∈ xs ∧ p z = true := by
  obtain ⟨h1, h2, h3⟩ := partitionAux_spec p _ xs (le_refl _)
  constructor
  · intro hz
    exact ⟨h1.mem_iff.1 (List.mem_append_left _ hz), h2 z hz⟩
  · rintro ⟨hz, hp⟩
    rcases List.mem_append.1 (h1.mem_iff.2 hz) with h | h
    · exact h
    · rw [h3 z h] at hp; cases hp

end Casual.Common

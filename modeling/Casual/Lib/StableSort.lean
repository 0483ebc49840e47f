/-
Stable sorts: what a stable sort promises of a comparison that is a strict weak ordering, and an
insertion sort that keeps the promise.
-/
import Mathlib

namespace Casual.Lib.StableSort

variable {α : Type} {lt : α → α → Bool}

/-- The comparison is a strict weak ordering among the elements of a list. -/
structure StrictWeak (lt : α → α → Bool) (l : List α) : Prop where
  irrefl : ∀ a ∈ l, ¬ lt a a
  trans : ∀ a ∈ l, ∀ b ∈ l, ∀ c ∈ l, lt a b → lt b c → lt a c
  incomparable : ∀ a ∈ l, ∀ b ∈ l, ∀ c ∈ l, ¬ lt a b → ¬ lt b a → ¬ lt b c → ¬ lt c b → ¬ lt a c

namespace StrictWeak

variable {l l' : List α} {a b c : α}

theorem subset (h : StrictWeak lt l) (hl : l' ⊆ l) : StrictWeak lt l' :=
  ⟨fun a ha => h.irrefl a (hl ha), fun a ha b hb c hc => h.trans a (hl ha) b (hl hb) c (hl hc),
    fun a ha b hb c hc => h.incomparable a (hl ha) b (hl hb) c (hl hc)⟩

end StrictWeak

/-- An element is put behind the last one that it is not less than; the last one comes first here. -/
def insert (lt : α → α → Bool) (v : α) : List α → List α
  | [] => [v]
  | a :: l => if lt v a then a :: insert lt v l else v :: a :: l

/-- The elements are inserted one after the other, each from the end. -/
def insertionSort (lt : α → α → Bool) (l : List α) : List α :=
  (l.foldl (fun sorted v => insert lt v sorted) []).reverse

end Casual.Lib.StableSort

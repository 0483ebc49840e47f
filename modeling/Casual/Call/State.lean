/-
`common/call/state.h`: the call descriptors of a process.
-/
import Casual.Communication.Message

namespace Casual.Call

open Communication

/-- `State::Pending::Descriptor`. -/
structure Descriptor where
  descriptor : Nat
  active : Bool
  correlation : Uuid
  deriving DecidableEq, Repr

/-- `State::Pending`: there is always a last descriptor; they are positive, and each is larger than those
before it. -/
structure Pending where
  descriptors : List Descriptor
  nonempty : descriptors ≠ []
  positive : ∀ d ∈ descriptors, 0 < d.descriptor
  ascending : (descriptors.map (·.descriptor)).Pairwise (· < ·)
  deriving DecidableEq

namespace Pending

/-- `Pending()`. -/
def initial : Pending := ⟨[1, 2, 3, 4, 5, 6, 7, 8].map (⟨·, false, 0⟩), by simp, by simp, by decide⟩

/-- An assignment to the descriptor that was found. -/
def assign (p : Pending) (descriptor : Nat) (active : Bool) (correlation : Uuid → Uuid) : Pending where
  descriptors := p.descriptors.map fun d =>
    ⟨d.descriptor, if d.descriptor = descriptor then active else d.active,
      if d.descriptor = descriptor then correlation d.correlation else d.correlation⟩
  nonempty := fun h => p.nonempty (List.map_eq_nil_iff.1 h)
  positive := by
    intro d hd
    obtain ⟨e, he, rfl⟩ := List.mem_map.1 hd
    exact p.positive e he
  ascending := by
    rw [List.map_map]
    exact p.ascending

/-- The largest descriptor is the last. -/
theorem le_last (p : Pending) {d : Descriptor} (hd : d ∈ p.descriptors) :
    d.descriptor ≤ (p.descriptors.getLast p.nonempty).descriptor := by
  have hp := p.ascending
  rw [← List.dropLast_append_getLast p.nonempty] at hd hp
  rw [List.map_append, List.pairwise_append] at hp
  rcases List.mem_append.1 hd with hd | hd
  · exact (hp.2.2 _ (List.mem_map_of_mem hd) _ (List.mem_singleton_self _)).le
  · rw [List.mem_singleton.1 hd]

/-- `emplace_back` of the one after the last. -/
def extend (p : Pending) (correlation : Uuid) : Pending where
  descriptors := p.descriptors ++ [⟨(p.descriptors.getLast p.nonempty).descriptor + 1, true, correlation⟩]
  nonempty := List.append_ne_nil_of_left_ne_nil p.nonempty _
  positive := by
    intro d hd
    rcases List.mem_append.1 hd with hd | hd
    · exact p.positive d hd
    · rw [List.mem_singleton.1 hd]
      exact Nat.succ_pos _
  ascending := by
    rw [List.map_append, List.pairwise_append]
    refine ⟨p.ascending, List.pairwise_singleton _ _, ?_⟩
    intro a ha b hb
    obtain ⟨d, hd, rfl⟩ := List.mem_map.1 ha
    obtain rfl := List.mem_singleton.1 hb
    exact Nat.lt_succ_of_le (p.le_last hd)

/-- `reserve`: the first descriptor that is not active, or one after the last. -/
def reserve (p : Pending) (correlation : Uuid) : Pending × Nat :=
  match p.descriptors.find? (!·.active) with
  | some found => (p.assign found.descriptor true fun _ => correlation, found.descriptor)
  | none => (p.extend correlation, (p.descriptors.getLast p.nonempty).descriptor + 1)

/-- `range::find` of a descriptor. -/
def find (p : Pending) (descriptor : Nat) : Option Descriptor :=
  p.descriptors.find? (·.descriptor == descriptor)

/-- `unreserve`: `none` for a descriptor there is not. -/
def unreserve (p : Pending) (descriptor : Nat) : Option Pending :=
  (p.find descriptor).map fun found => p.assign found.descriptor false id

/-- `get`: `none` for a descriptor that is not active. -/
def get (p : Pending) (descriptor : Nat) : Option Descriptor := (p.find descriptor).filter (·.active)

/-- `empty`. -/
def empty (p : Pending) : Bool := p.descriptors.all (!·.active)

/-! ## The active descriptors -/

/-- The descriptors that are active. -/
def actives (p : Pending) : List Descriptor := p.descriptors.filter (·.active)

theorem mem_actives {p : Pending} {d : Descriptor} : d ∈ p.actives ↔ d ∈ p.descriptors ∧ d.active = true :=
  List.mem_filter

theorem eq_of_descriptor (p : Pending) {d e : Descriptor} (hd : d ∈ p.descriptors) (he : e ∈ p.descriptors)
    (h : d.descriptor = e.descriptor) : d = e :=
  List.inj_on_of_nodup_map (p.ascending.imp Nat.ne_of_lt) hd he h

theorem nodup_actives (p : Pending) : (p.actives.map (·.descriptor)).Nodup :=
  (p.ascending.imp Nat.ne_of_lt).sublist (List.filter_sublist.map _)

theorem find_eq_some {p : Pending} {descriptor : Nat} {d : Descriptor} :
    p.find descriptor = some d ↔ d ∈ p.descriptors ∧ d.descriptor = descriptor := by
  constructor
  · intro h
    exact ⟨List.mem_of_find?_eq_some h, by simpa using List.find?_some h⟩
  · rintro ⟨hd, rfl⟩
    cases hfind : p.find d.descriptor with
    | none => exact absurd (List.find?_eq_none.1 hfind d hd) (by simp)
    | some e =>
      have he : e ∈ p.descriptors := List.mem_of_find?_eq_some hfind
      have hde : e.descriptor = d.descriptor := by simpa using List.find?_some hfind
      rw [p.eq_of_descriptor he hd hde]

theorem get_eq_some {p : Pending} {descriptor : Nat} {d : Descriptor} :
    p.get descriptor = some d ↔ d ∈ p.actives ∧ d.descriptor = descriptor := by
  unfold get
  rw [Option.filter_eq_some_iff, find_eq_some, mem_actives]
  tauto

theorem mem_actives_assign {p : Pending} {descriptor : Nat} {correlation : Uuid → Uuid} {d : Descriptor} :
    d ∈ (p.assign descriptor false correlation).actives ↔ d ∈ p.actives ∧ d.descriptor ≠ descriptor := by
  simp only [mem_actives, assign, List.mem_map]
  constructor
  · rintro ⟨⟨e, he, rfl⟩, hactive⟩
    by_cases hd : e.descriptor = descriptor
    · simp [hd] at hactive
    · simpa [hd, he] using hactive
  · rintro ⟨⟨hd, hactive⟩, hne⟩
    exact ⟨⟨d, hd, by simp [hne]⟩, hactive⟩

/-- A descriptor that is released is no longer active, the others are as before. -/
theorem actives_unreserve {p q : Pending} {descriptor : Nat} (h : p.unreserve descriptor = some q) {d : Descriptor} :
    d ∈ q.actives ↔ d ∈ p.actives ∧ d.descriptor ≠ descriptor := by
  obtain ⟨found, hfound, rfl⟩ := Option.map_eq_some_iff.1 h
  rw [mem_actives_assign, (find_eq_some.1 hfound).2]

/-- The descriptor that is reserved was not active, and is now, for the correlation. -/
theorem reserve_spec (p : Pending) (correlation : Uuid) :
    (∀ d ∈ p.actives, d.descriptor ≠ (p.reserve correlation).2) ∧
      ∀ d, d ∈ (p.reserve correlation).1.actives ↔ d ∈ p.actives ∨ d = ⟨(p.reserve correlation).2, true, correlation⟩ := by
  unfold reserve
  cases hfind : p.descriptors.find? (!·.active) with
  | some found =>
    have hfound := List.mem_of_find?_eq_some hfind
    have hinactive : found.active = false := by simpa using List.find?_some hfind
    have hne : ∀ d ∈ p.actives, d.descriptor ≠ found.descriptor := by
      intro d hd h
      obtain ⟨hd, hactive⟩ := mem_actives.1 hd
      rw [p.eq_of_descriptor hd hfound h, hinactive] at hactive
      cases hactive
    refine ⟨hne, fun d => ?_⟩
    simp only [mem_actives, assign, List.mem_map]
    constructor
    · rintro ⟨⟨e, he, rfl⟩, hactive⟩
      by_cases hd : e.descriptor = found.descriptor
      · right
        simp [hd]
      · left
        simpa [hd, he] using hactive
    · rintro (⟨hd, hactive⟩ | rfl)
      · have hd' := hne d (mem_actives.2 ⟨hd, hactive⟩)
        exact ⟨⟨d, hd, by simp [hd']⟩, hactive⟩
      · exact ⟨⟨found, hfound, by simp⟩, rfl⟩
  | none =>
    refine ⟨?_, fun d => ?_⟩
    · intro d hd h
      have hle := p.le_last (mem_actives.1 hd).1
      simp only at h
      omega
    · simp only [mem_actives, extend, List.mem_append, List.mem_singleton]
      constructor
      · rintro ⟨hd | rfl, hactive⟩
        · exact .inl ⟨hd, hactive⟩
        · exact .inr rfl
      · rintro (⟨hd, hactive⟩ | rfl)
        · exact ⟨.inl hd, hactive⟩
        · exact ⟨.inr rfl, rfl⟩

end Pending

end Casual.Call

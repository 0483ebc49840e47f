/-
`local::resource::involved`: resources of a message are merged with those of a transaction, as
`std::sort` and `std::unique` leave them.
-/
import Casual.Lib.Introsort
import Casual.Manager.View

namespace Casual.Manager

open Casual.Common Casual.Communication Casual.Lib
open Casual.Common.Transaction (ID XID)

/-! ## What a merge is to be -/

/-- The manager has a proxy for the resource. -/
def State.Knows (s : State) (id : Nat) : Prop := ∃ p ∈ s.resources, p.id = id

/-- The resources are kept as they were, and each that is known, listed and not involved yet is there as a
new one; none is there twice. -/
structure Merges (s : State) (t : Transaction) (ids : List Nat) (t' : Transaction) : Prop where
  kept : ∀ r ∈ t.resources, r ∈ t'.resources
  added : ∀ r, (∀ u ∈ t.resources, u.id ≠ r.id) → (r ∈ t'.resources ↔ r = .new r.id ∧ r.id ∈ ids ∧ s.Knows r.id)
  nodup : (t'.resources.map (·.id)).Nodup
  frame : t'.trid = t.trid ∧ t'.correlation = t.correlation

/-- Resources with one id are the same, and those that are listed are as they are when they are new. -/
structure Alike (s : State) (t : Transaction) (ids : List Nat) : Prop where
  resources : ∀ r ∈ t.resources, ∀ u ∈ t.resources, r.id = u.id → r = u
  listed : ∀ r ∈ t.resources, r.id ∈ ids → s.Knows r.id → r = .new r.id

/-! ## What is sorted -/

/-- The resources before they are sorted. -/
def appended (s : State) (t : Transaction) (ids : List Nat) : List Resource :=
  t.resources ++ (ids.filter fun id => s.resources.any fun p => p.id == id).map Resource.new

theorem mem_appended {s : State} {t : Transaction} {ids : List Nat} {r : Resource} :
    r ∈ appended s t ids ↔ r ∈ t.resources ∨ r = .new r.id ∧ r.id ∈ ids ∧ s.Knows r.id := by
  have hknows : ∀ id, (s.resources.any fun p => p.id == id) = true ↔ s.Knows id := fun id => by
    rw [List.any_eq_true]
    exact exists_congr fun p => and_congr_right fun _ => beq_iff_eq
  unfold appended
  rw [List.mem_append]
  refine or_congr_right ⟨fun h => ?_, fun ⟨hnew, hid, hknown⟩ => ?_⟩
  · obtain ⟨id, hid, rfl⟩ := List.mem_map.1 h
    rw [List.mem_filter, hknows] at hid
    exact ⟨rfl, hid⟩
  · exact List.mem_map.2 ⟨r.id, List.mem_filter.2 ⟨hid, (hknows _).2 hknown⟩, hnew.symm⟩

theorem mem_of_mem_involved {env : Environment} {s : State} {t : Transaction} {ids : List Nat} {r : Resource}
    (h : r ∈ (involved env s t ids).resources) : r ∈ appended s t ids :=
  (env.sort_perm _).mem_iff.1 ((List.destutter_sublist _ _).subset h)

/-- Entries with one id that are the same stay, whichever is left. -/
theorem Alike.eq {s : State} {t : Transaction} {ids : List Nat} (h : Alike s t ids) {r u : Resource}
    (hr : r ∈ appended s t ids) (hu : u ∈ appended s t ids) (hid : r.id = u.id) : r = u := by
  rcases mem_appended.1 hr with hr | ⟨hnew, hlisted, hknown⟩ <;>
    rcases mem_appended.1 hu with hu | ⟨hnew', hlisted', hknown'⟩
  · exact h.resources r hr u hu hid
  · rw [h.listed r hr (hid ▸ hlisted') (hid ▸ hknown'), hnew', hid]
  · rw [h.listed u hu (hid ▸ hlisted) (hid ▸ hknown), hnew, hid]
  · rw [hnew, hnew', hid]

theorem Alike.mem_involved {env : Environment} {s : State} {t : Transaction} {ids : List Nat} (h : Alike s t ids)
    {r : Resource} (hr : r ∈ appended s t ids) : r ∈ (involved env s t ids).resources := by
  obtain ⟨u, hu, hid⟩ := exists_unique_id ((env.sort_perm _).mem_iff.2 hr)
  exact h.eq (mem_of_mem_involved hu) hr hid ▸ hu

theorem Alike.merges {s : State} {t : Transaction} {ids : List Nat} (h : Alike s t ids) (env : Environment) :
    Merges s t ids (involved env s t ids) where
  kept r hr := h.mem_involved (mem_appended.2 (.inl hr))
  added r hfresh := by
    constructor
    · intro hr
      exact (mem_appended.1 (mem_of_mem_involved hr)).resolve_left fun hr => hfresh r hr rfl
    · intro hr
      exact h.mem_involved (mem_appended.2 (.inr hr))
  nodup := unique_nodup (env.sort_sorted _)
  frame := ⟨rfl, rfl⟩

/-! ## What the standard leaves open -/

/-- The standard does not say in which order `std::sort` leaves resources with one id. In one of the orders
it allows those that are new come first. -/
def newFirst (r u : Resource) : Prop := r.id < u.id ∨ r.id = u.id ∧ (r = .new r.id ∨ u ≠ .new u.id)

instance (r u : Resource) : Decidable (newFirst r u) := inferInstanceAs (Decidable (_ ∨ _ ∧ (_ ∨ _)))

instance : Std.Total newFirst where
  total r u := by
    unfold newFirst
    rcases lt_trichotomy r.id u.id with h | h | h
    · exact .inl (.inl h)
    · by_cases hr : r = .new r.id
      · exact .inl (.inr ⟨h, .inl hr⟩)
      · exact .inr (.inr ⟨h.symm, .inr hr⟩)
    · exact .inr (.inl h)

instance : IsTrans Resource newFirst where
  trans r u v hru huv := by
    unfold newFirst at *
    rcases hru with hru | ⟨hid, hru⟩ <;> rcases huv with huv | ⟨hid', huv⟩
    · exact .inl (hru.trans huv)
    · exact .inl (hid' ▸ hru)
    · exact .inl (hid ▸ huv)
    · refine .inr ⟨hid.trans hid', ?_⟩
      tauto

theorem newFirst.id_le {r u : Resource} (h : newFirst r u) : r.id ≤ u.id := h.elim Nat.le_of_lt fun h => h.1.le

/-- Of resources with one id that are sorted, the first is left. -/
theorem first_of_destutter : ∀ (rs : List Resource) (a : Resource), (a :: rs).Pairwise newFirst →
    ∀ u ∈ rs.destutter' (fun r r' => r.id ≠ r'.id) a, ∀ w ∈ a :: rs, w.id = u.id → u = w ∨ newFirst u w
  | [], a, _, u, hu, w, hw, _ => by
    rw [List.destutter'_nil, List.mem_singleton] at hu
    exact .inl (hu.trans (List.mem_singleton.1 hw).symm)
  | b :: rs, a, h, u, hu, w, hw, hid => by
    have hab := (List.pairwise_cons.1 h).1 b List.mem_cons_self
    have hrest := (List.pairwise_cons.1 h).2
    rw [List.destutter'_cons] at hu
    split_ifs at hu with hne
    · rcases List.mem_cons.1 hu with rfl | hmem
      · rcases List.mem_cons.1 hw with rfl | hw
        · exact .inl rfl
        · exact .inr ((List.pairwise_cons.1 h).1 w hw)
      · rcases List.mem_cons.1 hw with rfl | hw
        · -- the ids behind are larger
          have hbu : b.id ≤ u.id := by
            rcases List.mem_cons.1 ((List.destutter'_sublist _ _ _).subset hmem) with rfl | hmem
            · exact le_rfl
            · exact ((List.pairwise_cons.1 hrest).1 u hmem).id_le
          have := hab.id_le
          omega
        · exact first_of_destutter rs b hrest u hmem w hw hid
    · have hskip : (a :: rs).Pairwise newFirst :=
        List.pairwise_cons.2 ⟨fun r hr => (List.pairwise_cons.1 h).1 r (List.mem_cons_of_mem _ hr),
          (List.pairwise_cons.1 hrest).2⟩
      have hfirst := first_of_destutter rs a hskip u hu
      rcases List.mem_cons.1 hw with rfl | hw
      · exact hfirst w List.mem_cons_self hid
      · rcases List.mem_cons.1 hw with rfl | hw
        · rcases hfirst a List.mem_cons_self ((not_not.1 hne).trans hid) with rfl | hua
          · exact .inr hab
          · exact .inr (IsTrans.trans _ _ _ hua hab)
        · exact hfirst w (List.mem_cons_of_mem _ hw) hid

/-- A standard library that sorts so. -/
def newFirstEnvironment : Environment :=
  { someEnvironment fun _ _ => .accepted with
    sort := List.insertionSort newFirst
    sort_perm := List.perm_insertionSort _
    sort_sorted := fun l => (List.pairwise_insertionSort newFirst l).imp newFirst.id_le }

theorem new_of_mem {s : State} {t : Transaction} {ids : List Nat} {r : Resource}
    (hr : r ∈ (involved newFirstEnvironment s t ids).resources) (hid : r.id ∈ ids) (hknown : s.Knows r.id) :
    r = .new r.id := by
  have hnew : Resource.new r.id ∈ newFirstEnvironment.sort (appended s t ids) :=
    (newFirstEnvironment.sort_perm _).mem_iff.2 (mem_appended.2 (.inr ⟨rfl, hid, hknown⟩))
  have hsorted : (newFirstEnvironment.sort (appended s t ids)).Pairwise newFirst := List.pairwise_insertionSort newFirst _
  change r ∈ unique (newFirstEnvironment.sort (appended s t ids)) at hr
  cases hlist : newFirstEnvironment.sort (appended s t ids) with
  | nil => rw [hlist] at hnew; cases hnew
  | cons a rs =>
    rw [hlist] at hr hnew hsorted
    rcases first_of_destutter rs a hsorted r hr _ hnew rfl with heq | hlt | ⟨-, hisnew | hnotnew⟩
    · exact heq
    · exact absurd hlt (lt_irrefl _)
    · exact hisnew
    · exact absurd rfl hnotnew

/-! ## When resources are merged -/

/-- Whatever order the standard library leaves resources with one id in, they are merged, exactly when no two
of them differ. -/
theorem merges_iff (s : State) (t : Transaction) (ids : List Nat) :
    (∀ env, Merges s t ids (involved env s t ids)) ↔ Alike s t ids := by
  refine ⟨fun h => ⟨fun r hr u hu hid => ?_, fun r hr hid hknown => ?_⟩, fun h env => h.merges env⟩
  · have hmerges := h newFirstEnvironment
    exact List.inj_on_of_nodup_map hmerges.nodup (hmerges.kept r hr) (hmerges.kept u hu) hid
  · exact new_of_mem ((h newFirstEnvironment).kept r hr) hid hknown

/-! ### More than sixteen entries -/

/-- A standard library whose `std::sort` partitions what is longer than sixteen elements. -/
def introsortEnvironment : Environment :=
  { someEnvironment fun _ _ => .accepted with
    sort := Introsort.sort fun r r' => r.id ≤ r'.id
    sort_perm := Introsort.sort_perm _
    sort_sorted := fun l =>
      have : Std.Total fun r r' : Resource => r.id ≤ r'.id := ⟨fun r r' => Nat.le_total r.id r'.id⟩
      have : IsTrans Resource fun r r' => r.id ≤ r'.id := ⟨fun _ _ _ => Nat.le_trans⟩
      Introsort.sort_sorted _ l }

/-- The ids from one to sixteen. -/
def sixteenIds : List Nat := (List.range 16).map (· + 1)

/-- A manager with sixteen resources. -/
def sixteenResources : State :=
  (World.start (sixteenIds.map fun id => ⟨id, [⟨id, ⟨10 + id, 0⟩, .started⟩]⟩) []).state

/-- All of them have been asked to prepare and the third one has voted; a message that lists it comes late. -/
def thirdVoted : Transaction :=
  ⟨someID, sixteenIds.map fun id => ⟨id, if id = 3 then .prepareReplied else .prepareRequested, .XA_OK⟩, 0⟩

/-- The vote is lost: the third resource is as if it had just been involved. -/
theorem vote_lost : ¬ ∀ env s t ids, Merges s t ids (involved env s t ids) := by
  intro h
  have hkept := (h introsortEnvironment sixteenResources thirdVoted [3]).kept ⟨3, .prepareReplied, .XA_OK⟩ (by decide)
  have hmem : (⟨3, .prepareReplied, .XA_OK⟩ : Resource) ∈
      (involved introsortEnvironment sixteenResources thirdVoted [3]).resources.filter fun r => r.id = 3 :=
    List.mem_filter.2 ⟨hkept, rfl⟩
  have hthird : ((involved introsortEnvironment sixteenResources thirdVoted [3]).resources.filter fun r => r.id = 3) =
      [.new 3] := by decide +kernel
  rw [hthird] at hmem
  exact absurd hmem (by decide)

end Casual.Manager

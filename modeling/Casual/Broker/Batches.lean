/-
Each server and each executable is in exactly one of the batches of `State::bootOrder`, the one of the
last group, in the order of booting, that it belongs to.
-/
import Casual.Broker.BootOrder

namespace Casual.Broker

/-! ## Where something belongs -/

/-- The place of the last group that it belongs to, in the order of booting. -/
def Executable.place : List Group → Executable → Option Nat
  | [], _ => none
  | g :: ordered, e =>
    match e.place ordered with
    | some i => some (i + 1)
    | none => if e.inGroup g.id then some 0 else none

theorem Executable.place_eq_none_iff {e : Executable} {ordered : List Group} :
    e.place ordered = none ↔ ∀ g ∈ ordered, g.id ∉ e.memberships := by
  induction ordered with
  | nil => simp [place]
  | cons g ordered ih =>
    rw [List.forall_mem_cons, ← ih, place]
    cases e.place ordered with
    | some i => simp
    | none => simp [inGroup]

/-- It belongs to the group at its place and to none of those that come later. -/
theorem Executable.place_eq_some_iff {e : Executable} {ordered : List Group} {i : Nat} :
    e.place ordered = some i ↔ ∃ earlier g later, ordered = earlier ++ g :: later ∧ earlier.length = i ∧
      g.id ∈ e.memberships ∧ ∀ h ∈ later, h.id ∉ e.memberships := by
  constructor
  · intro hplace
    induction ordered generalizing i with
    | nil => cases hplace
    | cons g ordered ih =>
      rw [place] at hplace
      split at hplace
      · rename_i k hk
        obtain ⟨earlier, h, later, rfl, hlength, hmember, hlater⟩ := ih hk
        refine ⟨g :: earlier, h, later, rfl, ?_, hmember, hlater⟩
        rw [List.length_cons, hlength, Option.some_inj.1 hplace]
      · rename_i hnone
        split at hplace
        · rename_i hmember
          refine ⟨[], g, ordered, rfl, Option.some_inj.1 hplace, ?_, place_eq_none_iff.1 hnone⟩
          simpa [inGroup] using hmember
        · cases hplace
  · rintro ⟨earlier, g, later, rfl, rfl, hmember, hlater⟩
    induction earlier with
    | nil => simp [place, place_eq_none_iff.2 hlater, inGroup, hmember]
    | cons h earlier ih => simp [place, ih]

/-- What belongs at a place, under the name of its group. -/
def batchAt (ordered : List Group) (servers : List Server) (executables : List Executable) (name : String)
    (place : Option Nat) : Batch where
  group := name
  servers := servers.filter fun s => s.place ordered == place
  executables := executables.filter fun e => e.place ordered == place

/-- The batches of all groups in order, and that of what belongs to none. -/
def partitioned (ordered : List Group) (servers : List Server) (executables : List Executable) : List Batch :=
  (ordered.zipIdx.map fun g => batchAt ordered servers executables g.1.name (some g.2)) ++
    [batchAt ordered servers executables "<no group>" none]

/-- There is something to boot in it. -/
def Batch.nonempty (b : Batch) : Bool := !b.servers.isEmpty || !b.executables.isEmpty

namespace Normalized

/-! ## What the loop does -/

/-- The batches of the groups that were gone through, and what belongs to none of them. -/
structure Carved (ordered : List Group) (servers : List Server) (executables : List Executable) (n : Normalized) :
    Prop where
  result : n.result.reverse =
    (ordered.zipIdx.map fun g => batchAt ordered servers executables g.1.name (some g.2)).filter Batch.nonempty
  servers : n.servers = servers.filter fun s => s.place ordered == none
  executables : n.executables = executables.filter fun e => e.place ordered == none

/-- One group more moves the others by one place. -/
theorem place_cons_succ (g : Group) (ordered : List Group) (e : Executable) (i : Nat) :
    (e.place (g :: ordered) == some (i + 1)) = (e.place ordered == some i) := by
  rw [Executable.place]
  cases e.place ordered with
  | some k => simp
  | none => cases e.inGroup g.id <;> rfl

theorem place_cons_zero (g : Group) (ordered : List Group) (e : Executable) :
    (e.place (g :: ordered) == some 0) = (e.inGroup g.id && e.place ordered == none) := by
  rw [Executable.place]
  cases e.place ordered with
  | some k => simp
  | none => cases e.inGroup g.id <;> rfl

theorem place_cons_none (g : Group) (ordered : List Group) (e : Executable) :
    (e.place (g :: ordered) == none) = (!e.inGroup g.id && e.place ordered == none) := by
  rw [Executable.place]
  cases e.place ordered with
  | some k => simp
  | none => cases e.inGroup g.id <;> rfl

theorem batchAt_cons (g : Group) (ordered : List Group) (servers : List Server) (executables : List Executable)
    (name : String) (i : Nat) : batchAt (g :: ordered) servers executables name (some (i + 1)) =
      batchAt ordered servers executables name (some i) := by
  unfold batchAt
  simp only [place_cons_succ]

theorem Carved.group {ordered : List Group} {servers : List Server} {executables : List Executable} {n : Normalized}
    (h : Carved ordered servers executables n) (g : Group) :
    Carved (g :: ordered) servers executables (n.group g) := by
  have hfirst : batchAt (g :: ordered) servers executables g.name (some 0) =
      ⟨g.name, n.servers.filter fun s => s.inGroup g.id, n.executables.filter (Executable.inGroup g.id)⟩ := by
    simp only [batchAt, place_cons_zero, h.servers, h.executables, List.filter_filter]
  have hothers : ((g :: ordered).zipIdx.map fun k => batchAt (g :: ordered) servers executables k.1.name (some k.2)) =
      batchAt (g :: ordered) servers executables g.name (some 0) ::
        ordered.zipIdx.map fun k => batchAt ordered servers executables k.1.name (some k.2) := by
    rw [List.zipIdx_cons, List.map_cons, Nat.zero_add, List.zipIdx_succ, List.map_map]
    simp only [Function.comp_def, batchAt_cons]
  have hservers : (servers.filter fun s => s.place (g :: ordered) == none) =
      n.servers.filter fun s => !s.inGroup g.id := by
    simp only [place_cons_none, h.servers, List.filter_filter]
  have hexecutables : (executables.filter fun e => e.place (g :: ordered) == none) =
      n.executables.filter fun e => !e.inGroup g.id := by
    simp only [place_cons_none, h.executables, List.filter_filter]
  unfold Normalized.group
  simp only [List.partition_eq_filter_filter]
  split_ifs with hany
  · have hsome : Batch.nonempty (batchAt (g :: ordered) servers executables g.name (some 0)) := by
      rw [hfirst]
      exact hany
    constructor
    · dsimp only
      rw [List.reverse_append, h.result, hothers, List.filter_cons_of_pos hsome, hfirst]
      rfl
    · exact hservers.symm
    · exact hexecutables.symm
  · -- nothing is left that belongs to the group
    have hnone : ¬ Batch.nonempty (batchAt (g :: ordered) servers executables g.name (some 0)) := by
      rw [hfirst]
      exact hany
    simp only [Bool.or_eq_true, Bool.not_eq_true', List.isEmpty_eq_false_iff, ne_eq, not_or, not_not,
      List.filter_eq_nil_iff] at hany
    constructor
    · rw [h.result, hothers, List.filter_cons_of_neg hnone]
    · rw [hservers]
      exact (List.filter_eq_self.2 fun s hs => by simpa using hany.1 s hs).symm
    · rw [hexecutables]
      exact (List.filter_eq_self.2 fun e he => by simpa using hany.2 e he).symm

/-- The induction is on the groups, the first of which is gone through last. -/
theorem carved_foldl (servers : List Server) (executables : List Executable) : ∀ ordered : List Group,
    Carved ordered servers executables (ordered.reverse.foldl Normalized.group ⟨[], servers, executables⟩)
  | [] => ⟨rfl, by simp [Executable.place], by simp [Executable.place]⟩
  | g :: ordered => by
    rw [List.reverse_cons, List.foldl_append]
    exact (carved_foldl servers executables ordered).group g

/-- A group takes out what is put into its batch. -/
theorem group_perm (n : Normalized) (g : Group) :
    ((n.group g).result.flatMap Batch.servers ++ (n.group g).servers).Perm (n.result.flatMap Batch.servers ++ n.servers) ∧
    ((n.group g).result.flatMap Batch.executables ++ (n.group g).executables).Perm
      (n.result.flatMap Batch.executables ++ n.executables) := by
  unfold group
  simp only [List.partition_eq_filter_filter]
  split_ifs
  · constructor
    · simp only [List.flatMap_append, List.flatMap_cons, List.flatMap_nil, List.append_nil, List.append_assoc]
      exact (List.filter_append_perm _ _).append_left _
    · simp only [List.flatMap_append, List.flatMap_cons, List.flatMap_nil, List.append_nil, List.append_assoc]
      exact (List.filter_append_perm _ _).append_left _
  · exact ⟨.refl _, .refl _⟩

theorem foldl_perm (groups : List Group) (n : Normalized) :
    ((groups.foldl group n).result.flatMap Batch.servers ++ (groups.foldl group n).servers).Perm
      (n.result.flatMap Batch.servers ++ n.servers) ∧
    ((groups.foldl group n).result.flatMap Batch.executables ++ (groups.foldl group n).executables).Perm
      (n.result.flatMap Batch.executables ++ n.executables) := by
  induction groups generalizing n with
  | nil => exact ⟨.refl _, .refl _⟩
  | cons g groups ih =>
    obtain ⟨hservers, hexecutables⟩ := n.group_perm g
    exact ⟨(ih _).1.trans hservers, (ih _).2.trans hexecutables⟩

theorem batches_perm (n : Normalized) :
    (n.batches.flatMap Batch.servers).Perm (n.result.flatMap Batch.servers ++ n.servers) ∧
    (n.batches.flatMap Batch.executables).Perm (n.result.flatMap Batch.executables ++ n.executables) := by
  have hreverse := List.reverse_perm n.result
  unfold batches
  split_ifs with hany
  · rw [List.flatMap_append, List.flatMap_append]
    simp only [List.flatMap_cons, List.flatMap_nil, List.append_nil]
    exact ⟨(hreverse.flatMap_right _).append_right _, (hreverse.flatMap_right _).append_right _⟩
  · simp only [Bool.or_eq_true, Bool.not_eq_true', List.isEmpty_eq_false_iff, ne_eq, not_or, not_not] at hany
    rw [hany.1, hany.2, List.append_nil, List.append_nil]
    exact ⟨hreverse.flatMap_right _, hreverse.flatMap_right _⟩

/-- What is left comes last, when there is anything. -/
theorem Carved.batches {ordered : List Group} {servers : List Server} {executables : List Executable} {n : Normalized}
    (h : Carved ordered servers executables n) :
    n.batches = (partitioned ordered servers executables).filter Batch.nonempty := by
  have hlast : batchAt ordered servers executables "<no group>" none = ⟨"<no group>", n.servers, n.executables⟩ := by
    rw [h.servers, h.executables]
    rfl
  unfold Normalized.batches partitioned
  rw [List.filter_append, h.result, hlast]
  split_ifs with hany
  · have hsome : Batch.nonempty ⟨"<no group>", n.servers, n.executables⟩ := hany
    rw [List.filter_cons_of_pos hsome, List.filter_nil]
  · have hnone : ¬ Batch.nonempty ⟨"<no group>", n.servers, n.executables⟩ := hany
    rw [List.filter_cons_of_neg hnone, List.filter_nil, List.append_nil]

end Normalized

/-- The batches are what belongs to each group and to no later one, in the order of the groups, and then
what belongs to no group; each server and each executable is in one of them, once. -/
theorem bootOrder_partitions (sort : List Group → List Group) (groups : List Group) (servers : List Server)
    (executables : List Executable) :
    bootOrder sort groups servers executables =
      (partitioned (sort groups) servers executables).filter Batch.nonempty ∧
    ((bootOrder sort groups servers executables).flatMap Batch.servers).Perm servers ∧
    ((bootOrder sort groups servers executables).flatMap Batch.executables).Perm executables := by
  have hcarved := Normalized.carved_foldl servers executables (sort groups)
  obtain ⟨hservers, hexecutables⟩ := Normalized.foldl_perm (sort groups).reverse ⟨[], servers, executables⟩
  obtain ⟨hservers', hexecutables'⟩ := Normalized.batches_perm
    ((sort groups).reverse.foldl Normalized.group ⟨[], servers, executables⟩)
  refine ⟨?_, hservers'.trans hservers, hexecutables'.trans hexecutables⟩
  exact hcarved.batches

end Casual.Broker

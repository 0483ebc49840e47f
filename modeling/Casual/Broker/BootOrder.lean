/-
`State::bootOrder` of `broker/source/state.cpp`: the batches in which servers and executables are
booted. They respect the dependencies between the groups, whatever stable sort there is, exactly when
the comparison of groups is one that can be sorted by.
-/
import Casual.Lib.StableSort
import Casual.Broker.State

namespace Casual.Broker

open Casual.Lib

/-! ## Groups and batches -/

/-- `operator <`. -/
def Group.lt (lhs rhs : Group) : Bool :=
  if lhs.dependencies.isEmpty && !lhs.dependencies.isEmpty then true
  else if !lhs.dependencies.isEmpty && lhs.dependencies.isEmpty then false
  else rhs.dependencies.contains lhs.id

/-- `state::Batch`: the servers and executables of one group. -/
structure Batch where
  group : String
  servers : List Server
  executables : List Executable
  deriving DecidableEq

/-- `filter::group::Id`. -/
def Executable.inGroup (id : Nat) (value : Executable) : Bool := value.memberships.contains id

/-- The batches so far, and what is in none of them. -/
structure Normalized where
  result : List Batch
  servers : List Server
  executables : List Executable

namespace Normalized

/-- What is done for a group. -/
def group (n : Normalized) (g : Group) : Normalized :=
  let server := n.servers.partition fun s => s.inGroup g.id
  let executable := n.executables.partition (Executable.inGroup g.id)
  if !server.1.isEmpty || !executable.1.isEmpty then
    ⟨n.result ++ [⟨g.name, server.1, executable.1⟩], server.2, executable.2⟩
  else n

/-- The result is reversed, and what is left comes last. -/
def batches (n : Normalized) : List Batch :=
  if !n.servers.isEmpty || !n.executables.isEmpty then
    n.result.reverse ++ [⟨"<no group>", n.servers, n.executables⟩]
  else n.result.reverse

end Normalized

/-- `bootOrder`: the groups are gone through in reverse. -/
def bootOrder (sort : List Group → List Group) (groups : List Group) (servers : List Server)
    (executables : List Executable) : List Batch :=
  ((sort groups).reverse.foldl Normalized.group ⟨[], servers, executables⟩).batches

/-! ## What the order is for -/

/-- A group depends on another one, directly or through others. -/
def Depends (groups : List Group) : Group → Group → Prop :=
  Relation.TransGen fun g h => g ∈ groups ∧ h ∈ groups ∧ h.id ∈ g.dependencies

/-- What a batch boots. -/
def Batch.members (b : Batch) : List Executable := b.servers.map Server.toExecutable ++ b.executables

/-- It belongs to this group and to no other. -/
def Executable.Only (e : Executable) (h : Group) : Prop := e.memberships ≠ [] ∧ ∀ id ∈ e.memberships, id = h.id

/-- What is in the earlier batch belongs to no group that depends on the only one of what is in the later. -/
def Respects (groups : List Group) (earlier later : Batch) : Prop :=
  ∀ e ∈ earlier.members, ∀ e' ∈ later.members, ∀ g ∈ groups, ∀ h ∈ groups,
    g.id ∈ e.memberships → e'.Only h → ¬ Depends groups g h

/-- No server or executable of a group is in an earlier batch than one that belongs only to a group that
the first depends on. -/
def Ordered (groups : List Group) (batches : List Batch) : Prop := batches.Pairwise (Respects groups)

/-! ## What the loop does -/

namespace Normalized

/-- What is in no batch. -/
def rest (n : Normalized) : List Executable := n.servers.map Server.toExecutable ++ n.executables

/-- The members of the batch of a group are taken out, when there are any. -/
theorem group_cases (n : Normalized) (g : Group) :
    (∃ b : Batch, b.members ≠ [] ∧ (n.group g).result = n.result ++ [b] ∧ (∀ e ∈ b.members, e ∈ n.rest ∧ g.id ∈ e.memberships) ∧
      ∀ e ∈ (n.group g).rest, e ∈ n.rest ∧ g.id ∉ e.memberships) ∨
    (n.group g = n ∧ ∀ e ∈ n.rest, g.id ∉ e.memberships) := by
  unfold group
  simp only [List.partition_eq_filter_filter]
  split_ifs with h
  · refine .inl ⟨_, ?_, rfl, ?_, ?_⟩
    · intro hnil
      obtain ⟨hservers, hexecutables⟩ := List.append_eq_nil_iff.1 hnil
      rw [List.map_eq_nil_iff] at hservers
      dsimp only at hservers hexecutables
      rw [hservers, hexecutables] at h
      cases h
    · intro e he
      simp only [Batch.members, List.mem_append, List.mem_map, List.mem_filter] at he
      rcases he with ⟨s, ⟨hs, hin⟩, rfl⟩ | ⟨he, hin⟩
      · exact ⟨List.mem_append_left _ (List.mem_map_of_mem hs), by simpa [Executable.inGroup] using hin⟩
      · exact ⟨List.mem_append_right _ he, by simpa [Executable.inGroup] using hin⟩
    · intro e he
      simp only [rest, List.mem_append, List.mem_map, List.mem_filter] at he
      rcases he with ⟨s, ⟨hs, hin⟩, rfl⟩ | ⟨he, hin⟩
      · exact ⟨List.mem_append_left _ (List.mem_map_of_mem hs), by simpa [Executable.inGroup] using hin⟩
      · exact ⟨List.mem_append_right _ he, by simpa [Executable.inGroup] using hin⟩
  · refine .inr ⟨rfl, ?_⟩
    intro e he
    simp only [Bool.or_eq_true, Bool.not_eq_true', List.isEmpty_eq_false_iff, ne_eq, not_or, not_not,
      List.filter_eq_nil_iff] at h
    rcases List.mem_append.1 he with he | he
    · obtain ⟨s, hs, rfl⟩ := List.mem_map.1 he
      simpa [Executable.inGroup] using h.1 s hs
    · simpa [Executable.inGroup] using h.2 e he

/-- What holds when the groups that were gone through are `done`. -/
structure Sound (groups done : List Group) (n : Normalized) : Prop where
  ordered : n.result.Pairwise fun later earlier => Respects groups earlier later
  taken : ∀ b ∈ n.result, ∀ e ∈ b.members, ∃ g ∈ done, g.id ∈ e.memberships
  rest : ∀ e ∈ n.rest, ∀ g ∈ done, g.id ∉ e.memberships

theorem Sound.group {groups done left : List Group} {g : Group} {n : Normalized}
    (unique : (groups.map Group.id).Nodup) (hgroups : groups.Perm (done ++ g :: left))
    (hsorted : ∀ h ∈ done, ∀ g' ∈ g :: left, ¬ Depends groups g' h) (h : Sound groups done n) :
    Sound groups (done ++ [g]) (n.group g) := by
  rcases n.group_cases g with ⟨b, -, hresult, hb, hrest⟩ | ⟨heq, hrest⟩
  · constructor
    · rw [hresult, List.pairwise_append]
      refine ⟨h.ordered, List.pairwise_singleton _ _, ?_⟩
      rintro b' hb' _ hmem e he e' he' g' hg' k hk hmember honly hdep
      rw [List.mem_singleton.1 hmem] at he
      -- the group of the later batch has been gone through, that of this one has not
      obtain ⟨k', hk', hkmember⟩ := h.taken b' hb' e' he'
      have hkk : k' = k := by
        apply List.inj_on_of_nodup_map unique
        · exact hgroups.mem_iff.2 (List.mem_append_left _ hk')
        · exact hk
        · exact honly.2 _ hkmember
      subst hkk
      have hleft : g' ∈ g :: left := by
        rcases List.mem_append.1 (hgroups.mem_iff.1 hg') with hdone | hleft
        · exact absurd hmember (h.rest e (hb e he).1 g' hdone)
        · exact hleft
      exact hsorted k' hk' g' hleft hdep
    · rw [hresult]
      intro b' hb' e he
      rcases List.mem_append.1 hb' with hb' | hb'
      · obtain ⟨k, hk, hmember⟩ := h.taken b' hb' e he
        exact ⟨k, List.mem_append_left _ hk, hmember⟩
      · rw [List.mem_singleton.1 hb'] at he
        exact ⟨g, by simp, (hb e he).2⟩
    · intro e he k hk
      obtain ⟨hrest, hnot⟩ := hrest e he
      rcases List.mem_append.1 hk with hk | hk
      · exact h.rest e hrest k hk
      · rw [List.mem_singleton.1 hk]
        exact hnot
  · rw [heq]
    refine ⟨h.ordered, ?_, ?_⟩
    · intro b hb e he
      obtain ⟨k, hk, hmember⟩ := h.taken b hb e he
      exact ⟨k, List.mem_append_left _ hk, hmember⟩
    · intro e he k hk
      rcases List.mem_append.1 hk with hk | hk
      · exact h.rest e he k hk
      · rw [List.mem_singleton.1 hk]
        exact hrest e he

/-- The induction is on the groups that are left. -/
theorem Sound.foldl {groups : List Group} (unique : (groups.map Group.id).Nodup) :
    ∀ {left done : List Group} {n : Normalized}, groups.Perm (done ++ left) →
      (done ++ left).Pairwise (fun h g => ¬ Depends groups g h) → Sound groups done n →
        Sound groups (done ++ left) (left.foldl Normalized.group n)
  | [], done, n, _, _, h => by rwa [List.append_nil]
  | g :: left, done, n, hgroups, hsorted, h => by
    have hstep := h.group unique hgroups fun k hk g' hg' => (List.pairwise_append.1 hsorted).2.2 k hk g' hg'
    have happend : done ++ g :: left = (done ++ [g]) ++ left := by simp
    rw [happend] at hgroups hsorted ⊢
    exact Sound.foldl unique hgroups hsorted hstep

/-- What is left belongs to no group. -/
theorem Sound.batches {groups done : List Group} {n : Normalized} (hgroups : groups.Perm done)
    (h : Sound groups done n) : Ordered groups n.batches := by
  have hresult : n.result.reverse.Pairwise (Respects groups) := List.pairwise_reverse.2 h.ordered
  unfold Normalized.batches
  split_ifs
  · refine List.pairwise_append.2 ⟨hresult, List.pairwise_singleton _ _, ?_⟩
    rintro b - _ hmem e - e' he' g - k hk - ⟨hne, honly⟩ -
    rw [List.mem_singleton.1 hmem] at he'
    obtain ⟨id, hid⟩ := List.exists_mem_of_ne_nil _ hne
    have hmember := hid
    rw [honly id hid] at hmember
    exact h.rest e' he' k (hgroups.mem_iff.1 hk) hmember
  · exact hresult

end Normalized

/-- A server that is in one group. -/
def member (g : Group) : Server := { id := g.id, name := g.name, memberships := [g.id] }

/-- The same with what is configured, where the casual group comes last and every group depends on it. -/
example : bootOrder (StableSort.insertionSort Group.lt)
    [⟨11, "first", [14, 10]⟩, ⟨12, "second", [10]⟩, ⟨13, "third", [10]⟩, ⟨14, "fourth", [10]⟩, ⟨10, "casual-group", []⟩]
    [member ⟨11, "first", [14, 10]⟩, member ⟨14, "fourth", [10]⟩] [] =
    [⟨"first", [member ⟨11, "first", [14, 10]⟩], []⟩, ⟨"fourth", [member ⟨14, "fourth", [10]⟩], []⟩] := by decide

end Casual.Broker

/-
The lives of the transactions in the manager's state, and what each step of a handler makes of them.
-/
import Mathlib.Data.List.Destutter
import Casual.Manager.Life

namespace Casual.Manager

open Casual.Common Casual.Communication Casual.Lib
open Casual.Common.Transaction (ID XID)

/-! ## Involvement -/

theorem mem_destutter_id : ∀ (rs : List Resource) (a : Resource), ∀ r ∈ a :: rs,
    ∃ u ∈ rs.destutter' (fun r r' => r.id ≠ r'.id) a, u.id = r.id
  | [], a, r, hr => ⟨a, List.mem_destutter' _ _ _, by rw [List.mem_singleton.1 hr]⟩
  | b :: rs, a, r, hr => by
    by_cases hab : a.id ≠ b.id
    · rw [List.destutter'_cons, if_pos hab]
      rcases List.mem_cons.1 hr with rfl | hr
      · exact ⟨r, List.mem_cons_self, rfl⟩
      · obtain ⟨u, hu, hid⟩ := mem_destutter_id rs b r hr
        exact ⟨u, List.mem_cons_of_mem _ hu, hid⟩
    · rw [List.destutter'_cons, if_neg hab]
      rcases List.mem_cons.1 hr with rfl | hr
      · exact mem_destutter_id rs r r List.mem_cons_self
      · rcases List.mem_cons.1 hr with rfl | hr
        · obtain ⟨u, hu, hid⟩ := mem_destutter_id rs a a List.mem_cons_self
          exact ⟨u, hu, hid.trans (not_not.1 hab)⟩
        · exact mem_destutter_id rs a r (List.mem_cons_of_mem _ hr)

theorem exists_unique_id {rs : List Resource} {r : Resource} (h : r ∈ rs) : ∃ u ∈ unique rs, u.id = r.id := by
  cases rs with
  | nil => cases h
  | cons a rs => exact mem_destutter_id rs a r h

theorem nodup_of_chain : ∀ {ids : List Nat}, ids.Pairwise (· ≤ ·) → ids.IsChain (· ≠ ·) → ids.Nodup
  | [], _, _ => List.nodup_nil
  | [a], _, _ => List.nodup_singleton a
  | a :: b :: ids, h, hc => by
    rw [List.isChain_cons_cons] at hc
    have hrest := (List.pairwise_cons.1 h).2
    have hab : a < b := lt_of_le_of_ne ((List.pairwise_cons.1 h).1 b List.mem_cons_self) hc.1
    refine List.nodup_cons.2 ⟨fun hmem => ?_, nodup_of_chain hrest hc.2⟩
    rcases List.mem_cons.1 hmem with rfl | hmem
    · exact lt_irrefl _ hab
    · have := (List.pairwise_cons.1 hrest).1 a hmem
      omega

/-- Of resources that are sorted, each is left once. -/
theorem unique_nodup {rs : List Resource} (h : rs.Pairwise fun r r' => r.id ≤ r'.id) :
    ((unique rs).map (·.id)).Nodup := by
  have hsorted : (unique rs).Pairwise fun r r' => r.id ≤ r'.id := h.sublist (List.destutter_sublist _ _)
  exact nodup_of_chain (List.pairwise_map.2 hsorted) ((List.isChain_map _).2 (List.isChain_destutter _ rs))

/-- What `involved` makes of the resources of a transaction. -/
theorem involved_joins (env : Environment) (s : State) (t : Transaction) (ids : List Nat) :
    Joins ↑t.resources ↑(involved env s t ids).resources := by
  set new := (ids.filter fun id => s.resources.any fun p => p.id == id).map Resource.new with hnew
  have hperm := env.sort_perm (t.resources ++ new)
  have hmem : ∀ u ∈ unique (env.sort (t.resources ++ new)), u ∈ t.resources ++ new := fun u hu =>
    hperm.mem_iff.1 ((List.destutter_sublist _ _).subset hu)
  refine ⟨?_, fun u hu => ?_, fun u hu => ?_⟩
  · rw [Multiset.map_coe, Multiset.coe_nodup]
    exact unique_nodup (env.sort_sorted _)
  · rcases List.mem_append.1 (hmem u hu) with hu | hu
    · exact .inl hu
    · obtain ⟨id, -, rfl⟩ := List.mem_map.1 hu
      exact .inr rfl
  · obtain ⟨v, hv, hid⟩ := exists_unique_id (hperm.mem_iff.2 (List.mem_append_left new hu))
    exact Multiset.mem_map.2 ⟨v, hv, hid⟩

/-! ## Lives -/

/-- What an abstract life keeps of a transaction. -/
def Transaction.record (t : Transaction) : Record := ⟨t.trid, ↑t.resources, t.correlation⟩

@[simp] theorem Transaction.record_stage (t : Transaction) : t.record.stage = t.stage := (t.stage_eq).symm
@[simp] theorem Transaction.record_results (t : Transaction) : t.record.results = t.results := (t.results_eq).symm

/-- An instance has the id of its proxy. -/
def Named (s : State) : Prop := ∀ p ∈ s.resources, ∀ i ∈ p.instances, i.id = p.id

namespace World

/-- What instances are working on for a transaction. -/
def works (x : XID) (hs : List Handed) : List (Phase × Nat) :=
  (hs.filter fun h => h.request.trid.xid == x).map fun h => (h.request.phase, h.resource)

/-- What waits for an instance. -/
def waits (x : XID) (ps : List PendingRequest) : List (Phase × Nat) :=
  (ps.filter fun p => p.message.trid.xid == x).flatMap fun p => p.resources.map fun id => (p.message.phase, id)

theorem works_append (x : XID) (hs hs' : List Handed) : works x (hs ++ hs') = works x hs ++ works x hs' := by
  simp [works]

theorem waits_append (x : XID) (ps ps' : List PendingRequest) : waits x (ps ++ ps') = waits x ps ++ waits x ps' := by
  simp [waits]

theorem waits_cons (x : XID) (p : PendingRequest) (ps : List PendingRequest) :
    waits x (p :: ps) = waits x [p] ++ waits x ps := waits_append x [p] ps

/-- The requests that wait in the manager or that an instance is working on. -/
def unanswered (w : World) (x : XID) : Multiset (Phase × Nat) :=
  ↑(works x w.working) + ↑(waits x w.state.pendingRequests)

/-- The replies that were made, whether they have been sent or still wait. -/
def replies (w : World) : List (Nat × Reply) := w.delivered ++ w.dropped ++ w.state.persistentReplies

/-- The life of every transaction. -/
def lives (w : World) (x : XID) : Life where
  record := (w.state.transactions.find? fun t => t.trid.xid == x).map Transaction.record
  emitted := ↑((w.emitted.filter fun e => e.1.trid.xid == x).map fun e => (⟨e.1.phase, e.1.flags, e.2⟩ : Asked))
  unanswered := w.unanswered x
  replies := ↑(w.replies.filter fun m => m.2.trid.xid == x)
  logged := w.state.log.rows.any fun row => row.xid == x

/-- What the manager's data keep: an instance has the id of its proxy, a transaction is there once, as
is a resource in it, and no logged branch qualifier is empty. -/
structure Sound (w : World) : Prop where
  instances : Named w.state
  transactions : (w.state.transactions.map (·.trid.xid)).Nodup
  resources : ∀ t ∈ w.state.transactions, (t.resources.map (·.id)).Nodup
  rows : ∀ row ∈ w.state.log.rows, row.xid.bqual.isEmpty = false

/-! ## What a change of the state does to the lives -/

theorem find?_eraseP_self {x : XID} : ∀ {ts : List Transaction}, (ts.map (·.trid.xid)).Nodup →
    (ts.eraseP fun t => t.trid.xid == x).find? (fun t => t.trid.xid == x) = none
  | [], _ => rfl
  | t :: ts, h => by
    rw [List.map_cons, List.nodup_cons] at h
    by_cases ht : t.trid.xid = x
    · rw [List.eraseP_cons_of_pos (by simpa using ht), List.find?_eq_none]
      intro u hu hux
      exact h.1 (List.mem_map.2 ⟨u, hu, (by simpa using hux : u.trid.xid = x).trans ht.symm⟩)
    · rw [List.eraseP_cons_of_neg (by simpa using ht), List.find?_cons_of_neg (by simpa using ht)]
      exact find?_eraseP_self h.2

theorem find?_eraseP_of_ne {x y : XID} (hy : y ≠ x) : ∀ ts : List Transaction,
    (ts.eraseP fun t => t.trid.xid == x).find? (fun t => t.trid.xid == y) = ts.find? fun t => t.trid.xid == y
  | [] => rfl
  | t :: ts => by
    by_cases ht : t.trid.xid = x
    · rw [List.eraseP_cons_of_pos (by simpa using ht), List.find?_cons_of_neg (by simpa [ht] using Ne.symm hy)]
    · rw [List.eraseP_cons_of_neg (by simpa using ht), List.find?_cons, List.find?_cons, find?_eraseP_of_ne hy ts]

theorem exists_of_record {w : World} {x : XID} (h : (w.lives x).record.isSome) :
    ∃ t, w.state.transactions.find? (fun u => u.trid.xid == x) = some t := by
  unfold lives at h
  rw [Option.isSome_map] at h
  exact Option.isSome_iff_exists.1 h

theorem lives_setTransaction {w : World} {t : Transaction} (h : (w.lives t.trid.xid).record.isSome) :
    ({ w with state := w.state.setTransaction t } : World).lives =
      Function.update w.lives t.trid.xid ((w.lives t.trid.xid).set t.record) := by
  have hp : ∀ y, ((fun u : Transaction => u.trid.xid == y) ∘ fun u => if u.trid.xid = t.trid.xid then t else u) =
      fun u => u.trid.xid == y := by
    intro y
    funext u
    simp only [Function.comp_apply]
    split_ifs with hu
    · rw [hu]
    · rfl
  funext y
  by_cases hy : y = t.trid.xid
  · subst hy
    rw [Function.update_self]
    obtain ⟨u, hu⟩ := exists_of_record h
    have hux : u.trid.xid = t.trid.xid := by simpa using List.find?_some hu
    have : (w.state.transactions.map fun u => if u.trid.xid = t.trid.xid then t else u).find?
        (fun u => u.trid.xid == t.trid.xid) = some t := by
      rw [List.find?_map, hp, hu, Option.map_some, if_pos hux]
    unfold lives State.setTransaction Life.set
    simp only [this]
    rfl
  · rw [Function.update_of_ne hy]
    have : (w.state.transactions.map fun u => if u.trid.xid = t.trid.xid then t else u).find? (fun u => u.trid.xid == y) =
        w.state.transactions.find? fun u => u.trid.xid == y := by
      rw [List.find?_map, hp]
      cases hu : w.state.transactions.find? fun u => u.trid.xid == y with
      | none => rfl
      | some u =>
        have huy : u.trid.xid = y := by simpa using List.find?_some hu
        rw [Option.map_some, if_neg (huy ▸ hy)]
    unfold lives State.setTransaction
    simp only [this]
    rfl

theorem lives_eraseTransaction {w : World} (hw : w.Sound) (trid : ID) :
    ({ w with state := w.state.eraseTransaction trid } : World).lives =
      Function.update w.lives trid.xid (w.lives trid.xid).gone := by
  funext y
  by_cases hy : y = trid.xid
  · subst hy
    rw [Function.update_self]
    have : (w.state.transactions.eraseP fun t => t.trid.xid == trid.xid).find? (fun t => t.trid.xid == trid.xid) = none :=
      find?_eraseP_self hw.transactions
    unfold lives State.eraseTransaction Life.gone
    simp only [this]
    rfl
  · rw [Function.update_of_ne hy]
    have : (w.state.transactions.eraseP fun t => t.trid.xid == trid.xid).find? (fun t => t.trid.xid == y) =
        w.state.transactions.find? fun t => t.trid.xid == y := find?_eraseP_of_ne hy _
    unfold lives State.eraseTransaction
    simp only [this]
    rfl

/-- A transaction that is added has no resources. -/
theorem lives_ensure (w : World) (trid : ID) :
    ({ w with state := w.state.ensure trid } : World).lives =
      Function.update w.lives trid.xid ((w.lives trid.xid).set ((w.lives trid.xid).known trid)) := by
  unfold State.ensure
  cases hfind : w.state.find trid with
  | some t =>
    have hrecord : (w.lives trid.xid).record = some t.record := congrArg (Option.map Transaction.record) hfind
    simp only [Option.isSome_some, if_true]
    refine (Function.update_eq_self_iff.2 ?_).symm
    unfold Life.known Life.set
    rw [hrecord, Option.getD_some, ← hrecord]
  | none =>
    have hrecord : (w.lives trid.xid).record = none := congrArg (Option.map Transaction.record) hfind
    simp only [Option.isSome_none, Bool.false_eq_true, if_false]
    funext y
    by_cases hy : y = trid.xid
    · subst hy
      rw [Function.update_self]
      unfold Life.known
      rw [hrecord]
      have : (w.state.transactions ++ [Transaction.new trid]).find? (fun t => t.trid.xid == trid.xid) =
          some (Transaction.new trid) := by
        rw [List.find?_append, show w.state.transactions.find? (fun t => t.trid.xid == trid.xid) = none from hfind]
        simp [Transaction.new]
      unfold lives Life.set
      simp only [this]
      rfl
    · rw [Function.update_of_ne hy]
      have : (w.state.transactions ++ [Transaction.new trid]).find? (fun t => t.trid.xid == y) =
          w.state.transactions.find? fun t => t.trid.xid == y := by
        rw [List.find?_append]
        simp [Transaction.new, Ne.symm hy]
      unfold lives
      simp only [this]
      rfl

/-- A reply that is made belongs to its transaction, wherever it goes. -/
theorem lives_reply {w w' : World} {reply : Reply} {target : Process}
    (hstate : w'.state.transactions = w.state.transactions ∧ w'.state.pendingRequests = w.state.pendingRequests ∧
      w'.state.log.rows = w.state.log.rows) (hworking : w'.working = w.working) (hemitted : w'.emitted = w.emitted)
    (hreplies : w'.replies.Perm ((target.queue, reply) :: w.replies)) :
    w'.lives = Function.update w.lives reply.trid.xid ((w.lives reply.trid.xid).reply target reply) := by
  obtain ⟨h₁, h₂, h₃⟩ := hstate
  have hfilter : ∀ y, (↑(w'.replies.filter fun m => m.2.trid.xid == y) : Multiset (Nat × Reply)) =
      ↑(((target.queue, reply) :: w.replies).filter fun m => m.2.trid.xid == y) :=
    fun y => Multiset.coe_eq_coe.2 (hreplies.filter _)
  funext y
  by_cases hy : y = reply.trid.xid
  · subst hy
    rw [Function.update_self]
    unfold lives unanswered Life.reply
    simp only [h₁, h₂, h₃, hworking, hemitted, hfilter, List.filter_cons, beq_self_eq_true, if_true, Multiset.cons_coe]
  · rw [Function.update_of_ne hy]
    unfold lives unanswered
    simp only [h₁, h₂, h₃, hworking, hemitted, hfilter, List.filter_cons, beq_iff_eq, Ne.symm hy, if_false]

/-- What the lives do not depend on. -/
theorem lives_congr {w w' : World} (h₁ : w'.state.transactions = w.state.transactions)
    (h₂ : w'.state.log.rows = w.state.log.rows) (h₃ : w'.emitted = w.emitted)
    (h₄ : ∀ x, w'.unanswered x = w.unanswered x) (h₅ : w'.replies.Perm w.replies) : w'.lives = w.lives := by
  funext y
  have hfilter : (↑(w'.replies.filter fun m => m.2.trid.xid == y) : Multiset (Nat × Reply)) =
      ↑(w.replies.filter fun m => m.2.trid.xid == y) := Multiset.coe_eq_coe.2 (h₅.filter _)
  unfold lives
  simp only [h₁, h₂, h₃, h₄, hfilter]

end World

end Casual.Manager

/-
What the queue broker comes to when it gets a request or a reply: who has got what.
-/
import Casual.Queue.Broker

namespace Casual.Queue

open Casual.Common Casual.Communication Casual.Lib

namespace Broker

variable {env : Environment}

/-! ## Sending to groups -/

/-- A message has been sent to some processes. -/
def sending (s : Broker) (n : Nat) (l : List Process) (message : Sent) : Broker :=
  { s with attempts := n, sent := s.sent ++ l.map fun g => (g, message) }

theorem sending_sending (s : Broker) (m n : Nat) (l l' : List Process) (message : Sent) :
    (s.sending m l message).sending n l' message = s.sending n (l ++ l') message := by
  simp [sending]

section Send

variable {message : Sent} {s t : Broker} {receiver : Process}

theorem blockingSend_there (h : env.gone s.attempts receiver.queue = false) :
    blockingSend env receiver message s = .ok () (s.sending (s.attempts + 1) [receiver] message) := by
  unfold blockingSend
  rw [if_neg (by simp [h])]
  rfl

theorem blockingSend_gone (h : env.gone s.attempts receiver.queue = true) :
    blockingSend env receiver message s = .error .unavailable (s.sending (s.attempts + 1) [] message) := by
  unfold blockingSend
  rw [if_pos h, sending, List.map_nil, List.append_nil]

/-- An attempt is made for each of the groups; those that are not busy have got the message. -/
theorem partition_ok : ∀ {groups : List Process} {s t : Broker} {r : List Process × List Process},
    partition env message groups s = .ok r t →
      t = s.sending (s.attempts + groups.length) r.2 message ∧ (r.1 ++ r.2).Perm groups ∧
        ∀ g ∈ groups, ∃ n, s.attempts ≤ n ∧ env.gone n g.queue = false
  | [], s, t, r, h => by
    cases h
    refine ⟨by simp [sending], .nil, ?_⟩
    exact fun g hg => absurd hg List.not_mem_nil
  | group :: rest, s, t, r, h => by
    obtain ⟨sent, u, hsend, hrest⟩ := of_bind_ok h
    obtain ⟨⟨busy, done⟩, v, hpartition, hpure⟩ := of_bind_ok hrest
    obtain ⟨hn, hperm, hthere⟩ := partition_ok hpartition
    have hcount : s.attempts + 1 + rest.length = s.attempts + (group :: rest).length := by
      rw [List.length_cons]
      omega
    have hall : u.attempts = s.attempts + 1 → env.gone s.attempts group.queue = false →
        ∀ g ∈ group :: rest, ∃ n, s.attempts ≤ n ∧ env.gone n g.queue = false := by
      rintro hattempts hgroup g hg
      rcases List.mem_cons.1 hg with rfl | hg
      · exact ⟨_, le_rfl, hgroup⟩
      · obtain ⟨n, hn, hgone⟩ := hthere g hg
        exact ⟨n, by omega, hgone⟩
    unfold nonBlockingSend at hsend
    split_ifs at hsend with hgone hfull
    · cases hsend
      cases hpure
      refine ⟨?_, hperm.cons group, hall rfl (by simpa using hgone)⟩
      rw [hn, ← hcount]
      rfl
    · cases hsend
      cases hpure
      refine ⟨?_, List.perm_middle.trans (hperm.cons group), hall rfl (by simpa using hgone)⟩
      rw [hn, ← hcount]
      simp [sending]

/-- A group has not got the message. -/
theorem partition_error : ∀ {groups : List Process} {s t : Broker} {e : Exception},
    partition env message groups s = .error e t →
      ∃ n l g, t = s.sending n l message ∧ (g :: l).Subperm groups ∧
        s.attempts ≤ n ∧ n ≤ s.attempts + groups.length
  | [], s, t, e, h => by cases h
  | group :: rest, s, t, e, h => by
    rcases of_bind_error h with hsend | ⟨sent, u, hsend, hrest⟩
    · unfold nonBlockingSend at hsend
      split_ifs at hsend
      cases hsend
      refine ⟨_, [], group, by simp only [sending, List.map_nil, List.append_nil]; rfl, ?_, ?_, ?_⟩
      · exact List.singleton_subperm_iff.2 List.mem_cons_self
      · omega
      · rw [List.length_cons]
        omega
    · rcases of_bind_error hrest with hpartition | ⟨⟨busy, done⟩, v, -, hpure⟩
      · obtain ⟨n, l, g, rfl, hsub, hlow, hhigh⟩ := partition_error hpartition
        rw [List.length_cons]
        unfold nonBlockingSend at hsend
        split_ifs at hsend
        · cases hsend
          refine ⟨n, l, g, rfl, hsub.trans (List.sublist_cons_self _ _).subperm, ?_, ?_⟩ <;> dsimp only at * <;> omega
        · cases hsend
          refine ⟨n, group :: l, g, by simp [sending], ?_, ?_, ?_⟩
          · exact (List.Perm.swap group g l).subperm.trans ((List.subperm_cons group).2 hsub)
          · dsimp only at *
            omega
          · dsimp only at *
            omega
      · cases hpure

theorem forM_ok : ∀ {groups : List Process} {s t : Broker},
    (groups.forM fun group => blockingSend env group message) s = .ok () t →
      t = s.sending (s.attempts + groups.length) groups message
  | [], s, t, h => by
    cases h
    simp [sending]
  | group :: rest, s, t, h => by
    obtain ⟨_, u, hgroup, hrest⟩ := of_bind_ok h
    have hsend : blockingSend env group message s = .ok _ u := hgroup
    have ht := forM_ok hrest
    cases hgone : env.gone s.attempts group.queue with
    | true =>
      rw [blockingSend_gone hgone] at hsend
      cases hsend
    | false =>
      rw [blockingSend_there hgone] at hsend
      cases hsend
      rw [ht, sending_sending, List.singleton_append, List.length_cons]
      congr 1
      dsimp only [sending]
      omega

theorem forM_error : ∀ {groups : List Process} {s t : Broker} {e : Exception},
    (groups.forM fun group => blockingSend env group message) s = .error e t →
      ∃ n l g, t = s.sending n l message ∧ (g :: l).Subperm groups ∧
        s.attempts ≤ n ∧ n ≤ s.attempts + groups.length
  | [], s, t, e, h => by cases h
  | group :: rest, s, t, e, h => by
    rw [List.length_cons]
    rcases of_bind_error h with hgroup | ⟨_, u, hgroup, hrest⟩
    · have hsend : blockingSend env group message s = .error e t := hgroup
      cases hgone : env.gone s.attempts group.queue with
      | true =>
        rw [blockingSend_gone hgone] at hsend
        cases hsend
        exact ⟨_, [], group, rfl, List.singleton_subperm_iff.2 List.mem_cons_self, by omega, by omega⟩
      | false =>
        rw [blockingSend_there hgone] at hsend
        cases hsend
    · have hsend : blockingSend env group message s = .ok _ u := hgroup
      obtain ⟨n, l, g, rfl, hsub, hlow, hhigh⟩ := forM_error hrest
      cases hgone : env.gone s.attempts group.queue with
      | true =>
        rw [blockingSend_gone hgone] at hsend
        cases hsend
      | false =>
        rw [blockingSend_there hgone] at hsend
        cases hsend
        dsimp only [sending] at hlow hhigh
        refine ⟨n, group :: l, g, sending_sending .., ?_, by omega, by omega⟩
        exact (List.Perm.swap group g l).subperm.trans ((List.subperm_cons group).2 hsub)

/-- All groups have got the message, none of which was gone. -/
theorem send_ok {groups groups' : List Process} (h : send env groups message s = .ok groups' t) :
    ∃ n l, t = s.sending n l message ∧ l.Perm groups ∧ groups'.Perm groups ∧
      ∀ g ∈ groups, ∃ n, s.attempts ≤ n ∧ env.gone n g.queue = false := by
  obtain ⟨⟨busy, done⟩, u, hpartition, hrest⟩ := of_bind_ok h
  obtain ⟨rfl, hperm, hthere⟩ := partition_ok hpartition
  obtain ⟨_, v, hblocking, hpure⟩ := of_bind_ok hrest
  obtain rfl := forM_ok hblocking
  cases hpure
  exact ⟨_, done ++ busy, sending_sending .., List.perm_append_comm.trans hperm, hperm, hthere⟩

/-- One of the groups has not got the message; no more than two attempts have been made for each. -/
theorem send_error {groups : List Process} {e : Exception} (h : send env groups message s = .error e t) :
    ∃ n l g, t = s.sending n l message ∧ (g :: l).Subperm groups ∧
      s.attempts ≤ n ∧ n ≤ s.attempts + 2 * groups.length := by
  rcases of_bind_error h with hpartition | ⟨⟨busy, done⟩, u, hpartition, hrest⟩
  · obtain ⟨n, l, g, ht, hsub, hlow, hhigh⟩ := partition_error hpartition
    exact ⟨n, l, g, ht, hsub, hlow, by omega⟩
  · obtain ⟨rfl, hperm, -⟩ := partition_ok hpartition
    rcases of_bind_error hrest with hblocking | ⟨_, v, -, hpure⟩
    · obtain ⟨n, l, g, rfl, hsub, hlow, hhigh⟩ := forM_error hblocking
      have hbusy : busy.length ≤ groups.length := by
        rw [← hperm.length_eq, List.length_append]
        exact Nat.le_add_right _ _
      dsimp only [sending] at hlow hhigh
      refine ⟨n, done ++ l, g, sending_sending .., ?_, by omega, by omega⟩
      have hmiddle : (g :: (done ++ l)).Perm (done ++ g :: l) := List.perm_middle.symm
      refine hmiddle.subperm.trans (List.Subperm.trans ?_ (List.perm_append_comm.trans hperm).subperm)
      exact (List.subperm_append_left done).2 hsub
    · cases hpure

end Send

/-! ## Correlations -/

namespace Correlation

theorem foldl_replied : ∀ (l : List Request) (s : Stage),
    l.foldl (fun least r => if r.stage.rank < least.rank then r.stage else least) s = .replied ↔
      s = .replied ∧ ∀ r ∈ l, r.stage = .replied
  | [], s => by simp
  | r :: rest, s => by
    rw [List.foldl_cons, foldl_replied rest, List.forall_mem_cons, ← and_assoc]
    refine and_congr_left fun _ => ?_
    cases hr : r.stage <;> cases s <;> decide

/-- The least stage of some requests says that all have replied when each of them has. -/
theorem stage_eq_replied {c : Correlation} (h : c.requests ≠ []) :
    c.stage = .replied ↔ ∀ r ∈ c.requests, r.stage = .replied := by
  unfold stage
  split
  next hnil => exact absurd hnil h
  next first rest hcons => rw [hcons, List.forall_mem_cons, foldl_replied]

/-- Of processes that are different only one gets the stage. -/
theorem mark_map {id : Process} {stage : Stage} {f : Process → Stage} : ∀ {gs : List Process}, (gs.map (·.pid)).Nodup →
    mark id stage (gs.map fun g => ⟨g, f g⟩) = gs.map fun g => ⟨g, if g.pid = id.pid then stage else f g⟩
  | [], _ => rfl
  | g :: gs, h => by
    rw [List.map_cons, List.nodup_cons] at h
    rw [List.map_cons, List.map_cons, mark]
    split_ifs with hg
    · refine congrArg _ (List.map_congr_left fun g' hg' => ?_)
      rw [if_neg fun he => h.1 (List.mem_map.2 ⟨g', hg', he.trans hg.symm⟩)]
    · rw [mark_map h.2]

theorem invalidate_map {pid : Nat} {caller : Process} {k : Uuid} {f : Process → Stage} {gs : List Process} :
    invalidate pid ⟨caller, k, gs.map fun g => ⟨g, f g⟩⟩ = ⟨caller, k, gs.map fun g =>
      ⟨g, if g.pid = pid ∧ (f g).rank ≤ Stage.pending.rank then .error else f g⟩⟩ := by
  simp only [invalidate, List.map_map, Function.comp_def]
  congr 2
  funext g
  split_ifs <;> rfl

end Correlation

/-! ## What a request and a reply come to -/

section Specs

variable {kind : Kind} {s : Broker}

/-- A caller that is there is answered, or all groups have got its request. -/
theorem request_spec {m : ResourceRequest} (hcaller : ∀ n, s.attempts ≤ n →
    n ≤ s.attempts + 2 * ((s.involved m.trid.xid).getD []).length → env.gone n m.process.queue = false) :
    (s.involved m.trid.xid = none ∧ request env kind m s = .ok () (s.sending (s.attempts + 1) [m.process]
      (.reply kind ⟨m.correlation, env.self, m.trid, m.resource, XAER_NOTA⟩))) ∨
    ∃ groups, s.involved m.trid.xid = some groups ∧
      ((∃ n l groups', request env kind m s =
          .ok () (correlate m groups' (s.sending n l (.request kind { m with process := env.self }))) ∧
        l.Perm groups ∧ groups'.Perm groups ∧ ∀ g ∈ groups, ∃ n, s.attempts ≤ n ∧ env.gone n g.queue = false) ∨
      ∃ n l g, request env kind m s = .ok () ((s.sending n l (.request kind { m with process := env.self })).sending (n + 1)
          [m.process] (.reply kind ⟨m.correlation, env.self, m.trid, m.resource, XAER_RMFAIL⟩)) ∧
        (g :: l).Subperm groups) := by
  unfold request
  rw [bind_ok (show (get : M Broker) s = .ok s s from rfl)]
  cases hinvolved : s.involved m.trid.xid with
  | none => exact .inl ⟨rfl, blockingSend_there (hcaller _ le_rfl (Nat.le_add_right _ _))⟩
  | some groups =>
    refine .inr ⟨groups, rfl, ?_⟩
    cases hsend : send env groups (.request kind { m with process := env.self }) s with
    | ok groups' t =>
      obtain ⟨n, l, rfl, hl, hgroups', hthere⟩ := send_ok hsend
      exact .inl ⟨n, l, groups', tryCatch_ok (bind_ok hsend), hl, hgroups', hthere⟩
    | error e t =>
      obtain ⟨n, l, g, rfl, hsub, hlow, hhigh⟩ := send_error hsend
      have hthere := hcaller n hlow (by rw [hinvolved]; exact hhigh)
      exact .inr ⟨n, l, g, (tryCatch_error (bind_error hsend)).trans (blockingSend_there hthere), hsub⟩

theorem reply_none {m : ResourceReply} (h : s.correlation m.trid.xid = none) : reply env kind m s = .ok () s := by
  unfold reply
  rw [bind_ok (show (get : M Broker) s = .ok s s from rfl), h]
  rfl

/-- A correlation with the stage of a reply. -/
def Correlation.hears (c : Correlation) (m : ResourceReply) : Correlation :=
  c.setStage m.process (if m.state = XA_OK then .replied else .error)

theorem reply_pending {m : ResourceReply} {c : Correlation} (h : s.correlation m.trid.xid = some c)
    (hpending : (c.hears m).replied = false) :
    reply env kind m s = .ok () { s with correlation := Function.update s.correlation m.trid.xid (some (c.hears m)) } := by
  unfold reply
  rw [bind_ok (show (get : M Broker) s = .ok s s from rfl), h]
  dsimp only
  refine (bind_ok rfl).trans ?_
  rw [if_neg (by rw [Bool.not_eq_true]; exact hpending)]
  rfl

theorem reply_final {m : ResourceReply} {c : Correlation} (h : s.correlation m.trid.xid = some c)
    (hreplied : (c.hears m).replied = true) (hcaller : env.gone s.attempts c.caller.queue = false) :
    reply env kind m s = .ok () { s.sending (s.attempts + 1) [c.caller] (.reply kind (finalReply env (c.hears m) m)) with
      correlation := Function.update s.correlation m.trid.xid none } := by
  unfold reply
  rw [bind_ok (show (get : M Broker) s = .ok s s from rfl), h]
  dsimp only
  refine (bind_ok rfl).trans ?_
  rw [if_pos (by exact hreplied)]
  refine (bind_ok (blockingSend_there (by exact hcaller))).trans ?_
  simp only [setCorrelation, sending, Function.update_idem]
  rfl

end Specs

end Broker

end Casual.Queue

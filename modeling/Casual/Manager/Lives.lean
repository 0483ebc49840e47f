/-
Each message of the manager is a step of the life of every transaction: what the handlers do, one part
after the other, to the life they are about, and what they leave of the others.
-/
import Casual.Manager.Rejected

namespace Casual.Manager

open Casual.Common Casual.Communication Casual.Lib
open Casual.Common.Transaction (ID XID)

/-! ## One life is led on -/

/-- From `w` on, the life of `x` has become `l`, the others are related by `R` to what they were, and
no request waits to be sent persistently that did not. -/
structure Leads (R : Life → Life → Prop) (x : XID) (l : Life) (w w' : World) : Prop extends Makes R x w l w' where
  persistent : w'.state.persistentRequests = w.state.persistentRequests

instance : Std.Refl Unlogs := ⟨fun _ => .inl rfl⟩

theorem Unlogs.unlog {l l' : Life} (h : Unlogs l l') : Unlogs l l'.unlog := by
  rcases h with rfl | rfl
  · exact .inr rfl
  · exact .inr rfl

section

variable {R : Life → Life → Prop} {x : XID} {l : Life} {w w₁ : World}

theorem Leads.refl [Std.Refl R] (hw : w.Sound) : Leads R x (w.lives x) w w :=
  ⟨⟨rfl, fun _ _ => Std.Refl.refl _, hw, rfl⟩, rfl⟩

/-- What changes that life only. -/
theorem Leads.update {l' : Life} {w' : World} (h : Leads R x l w w₁) (hlives : w'.lives = Function.update w₁.lives x l')
    (hw : w'.Sound) (hr : w'.running = w₁.running)
    (hp : w'.state.persistentRequests = w₁.state.persistentRequests) : Leads R x l' w w' := by
  refine ⟨⟨by rw [hlives, Function.update_self], fun y hy => ?_, hw, hr.trans h.running⟩, hp.trans h.persistent⟩
  rw [hlives, Function.update_of_ne hy]
  exact h.others y hy

/-- What changes no life. -/
theorem Leads.same {w' : World} (h : Leads R x l w w₁) (hlives : w'.lives = w₁.lives) (hw : w'.Sound)
    (hr : w'.running = w₁.running) (hp : w'.state.persistentRequests = w₁.state.persistentRequests) : Leads R x l w w' :=
  ⟨⟨by rw [hlives, h.life], fun y hy => hlives ▸ h.others y hy, hw, hr.trans h.running⟩, hp.trans h.persistent⟩

theorem World.Sound.clear (hw : w.Sound) : Clear w := ⟨hw.transactions, hw.resources⟩

/-- The data are kept when the transactions are kept by what is done to them, and the rest stays. -/
theorem World.Sound.of_clear {w' : World} (hw : w.Sound) (hclear : Clear w') (hn : Named w.state → Named w'.state)
    (hl : w'.state.log = w.state.log) : w'.Sound :=
  ⟨hn hw.instances, hclear.transactions, hclear.resources, hl ▸ hw.rows⟩

theorem clear_after {f : State → State} (h : Clears (modifyState f)) (hw : Clear w) : Clear { w with state := f w.state } :=
  h w hw

/-! ## What is done to a transaction -/

theorem Leads.setTransaction (h : Leads R x l w w₁) {t : Transaction} (ht : t.trid.xid = x) (hrecord : l.record.isSome)
    (hnodup : (t.resources.map (·.id)).Nodup) :
    Leads R x (l.set t.record) w { w₁ with state := w₁.state.setTransaction t } := by
  subst ht
  refine h.update ?_ ?_ rfl rfl
  · rw [World.lives_setTransaction (by rw [h.life]; exact hrecord), h.life]
  · exact h.sound.of_clear (clear_after (clears_setTransaction hnodup) h.sound.clear) id rfl

theorem Leads.eraseTransaction (h : Leads R x l w w₁) {trid : ID} (ht : trid.xid = x) :
    Leads R x l.gone w { w₁ with state := w₁.state.eraseTransaction trid } := by
  subst ht
  refine h.update ?_ ?_ rfl rfl
  · rw [World.lives_eraseTransaction h.sound, h.life]
  · exact h.sound.of_clear (clear_after (clears_eraseTransaction trid) h.sound.clear) id rfl

theorem ensure_rest (trid : ID) (s : State) : (s.ensure trid).persistentRequests = s.persistentRequests ∧
    (s.ensure trid).log = s.log := by
  unfold State.ensure; split_ifs <;> exact ⟨rfl, rfl⟩

/-- The transaction of a request is there, if it has not been before. -/
theorem Leads.ensure (h : Leads R x l w w₁) {trid : ID} (ht : trid.xid = x) :
    Leads R x (l.set (l.known trid)) w { w₁ with state := w₁.state.ensure trid } := by
  subst ht
  refine h.update ?_ ?_ rfl (ensure_rest trid _).1
  · rw [World.lives_ensure, h.life]
  · refine h.sound.of_clear (clear_after (clears_ensure trid) h.sound.clear) (fun hn => ?_) (ensure_rest trid _).2
    unfold Named
    rw [resources_ensure]
    exact hn

theorem known_record (w : World) (trid : ID) : (w.lives trid.xid).known trid = (w.state.known trid).record := by
  unfold Life.known State.known State.find World.lives
  cases w.state.transactions.find? fun t => t.trid.xid == trid.xid <;> rfl

theorem known_xid (w : World) (trid : ID) : (w.state.known trid).trid.xid = trid.xid := by
  cases hfind : w.state.find trid with
  | none =>
    unfold State.known
    rw [hfind]
    rfl
  | some t =>
    rw [known_of_find hfind]
    unfold State.find at hfind
    simpa using List.find?_some hfind

/-- What a message with resources makes of its transaction. -/
theorem leads_involve [Std.Refl R] (env : Environment) (hw : w.Sound) (trid : ID) (ids : List Nat) :
    ∃ w', involve env trid ids w = .ok (involved env w.state (w.state.known trid) ids) w' ∧
      Leads R trid.xid ((w.lives trid.xid).set (involved env w.state (w.state.known trid) ids).record) w w' := by
  refine ⟨_, involve_eq env trid ids w, ?_⟩
  have hensure : Leads R trid.xid _ w _ := (Leads.refl hw).ensure rfl
  have hset := hensure.setTransaction (t := involved env w.state (w.state.known trid) ids) (known_xid w trid) rfl
    (involved_nodup env _ _ _)
  exact hset

/-! ## What is logged, and what is replied -/

theorem logged_append (rows : List Row) (row : Row) (y : XID) :
    (rows ++ [row]).any (fun row => row.xid == y) = (rows.any (fun row => row.xid == y) || row.xid == y) := by
  rw [List.any_append, List.any_cons, List.any_nil, Bool.or_false]

/-- The log takes a transaction, or it throws. -/
theorem leads_logPrepare {trid : ID} (ht : trid.xid = x) :
    Triple (Leads R x l w) (logPrepare trid) (fun _ => Leads R x { l with logged := true } w) fun _ => Leads R x l w := by
  subst ht
  intro w₁ h
  unfold logPrepare
  cases hlog : w₁.state.log.prepare trid with
  | none => exact h
  | some log =>
    unfold Log.prepare at hlog
    split_ifs at hlog with hrefused
    obtain rfl := Option.some.inj hlog
    rw [Bool.or_eq_true, not_or] at hrefused
    have hlives : ({ w₁ with state := { w₁.state with
        log := { w₁.state.log with rows := w₁.state.log.rows ++ [⟨trid.xid, trid.owner.pid⟩] } } } : World).lives =
        Function.update w₁.lives trid.xid { l with logged := true } := by
      funext y
      by_cases hy : y = trid.xid
      · subst hy
        rw [Function.update_self, ← h.life]
        unfold World.lives
        simp only [logged_append, beq_self_eq_true, Bool.or_true]
        rfl
      · rw [Function.update_of_ne hy]
        have hne : (trid.xid == y) = false := beq_eq_false_iff_ne.2 (Ne.symm hy)
        unfold World.lives
        simp only [logged_append, hne, Bool.or_false]
        rfl
    refine h.update hlives ⟨h.sound.instances, h.sound.transactions, h.sound.resources, ?_⟩ rfl rfl
    intro row hrow
    rcases List.mem_append.1 hrow with hrow | hrow
    · exact h.sound.rows row hrow
    · rw [List.mem_singleton.1 hrow]
      exact Bool.eq_false_iff.2 hrefused.1

/-- A transaction that is removed from the log is no longer there; the rows of others with its global part and branch
qualifier go with it. -/
theorem leads_logRemove {trid : ID} (ht : trid.xid = x) {E : Exception → World → Prop} :
    Triple (Leads Unlogs x l w) (logRemove trid) (fun _ => Leads Unlogs x l.unlog w) E := by
  subst ht
  intro w₁ h
  set w₂ : World := { w₁ with state := { w₁.state with log := w₁.state.log.remove trid } }
  have hlogged : ∀ y, w₂.lives y = w₁.lives y ∨ w₂.lives y = (w₁.lives y).unlog := by
    intro y
    by_cases hsame : (w₂.state.log.rows.any fun row => row.xid == y) = w₁.state.log.rows.any fun row => row.xid == y
    · exact .inl (congrArg (fun b => ({ w₁.lives y with logged := b } : Life)) hsame)
    · refine .inr (congrArg (fun b => ({ w₁.lives y with logged := b } : Life)) ?_)
      -- rows only go, so what is no longer as it was is false
      cases hany : w₂.state.log.rows.any fun row => row.xid == y with
      | false => rfl
      | true =>
        obtain ⟨row, hrow, hxid⟩ := List.any_eq_true.1 hany
        exact absurd (hany.trans (List.any_eq_true.2 ⟨row, List.mem_of_mem_filter hrow, hxid⟩).symm) hsame
  have hgone : (w₂.state.log.rows.any fun row => row.xid == trid.xid) = false := by
    rw [List.any_eq_false]
    intro row hrow hxid
    obtain ⟨hmem, hkey⟩ := List.mem_filter.1 hrow
    have hxid : row.xid = trid.xid := by simpa using hxid
    rw [← hxid, h.sound.rows row hmem] at hkey
    simp at hkey
  have hlife : w₂.lives trid.xid = l.unlog := by
    rw [← h.life]
    exact congrArg (fun b => ({ w₁.lives trid.xid with logged := b } : Life)) hgone
  refine ⟨⟨hlife, fun y hy => ?_, ⟨h.sound.instances, h.sound.transactions, h.sound.resources, ?_⟩, h.running⟩,
    h.persistent⟩
  · rcases hlogged y with hy' | hy'
    · exact hy' ▸ h.others y hy
    · exact hy' ▸ (h.others y hy).unlog
  · exact fun row hrow => h.sound.rows row (List.mem_of_mem_filter hrow)

theorem Leads.reply (h : Leads R x l w w₁) {reply : Reply} {target : Process} (hx : reply.trid.xid = x) {w' : World}
    (hstate : w'.state = { w₁.state with persistentReplies := w'.state.persistentReplies })
    (hworking : w'.working = w₁.working) (hemitted : w'.emitted = w₁.emitted) (hrunning : w'.running = w₁.running)
    (hreplies : w'.replies.Perm ((target.queue, reply) :: w₁.replies)) : Leads R x (l.reply target reply) w w' := by
  subst hx
  have hlives := @World.lives_reply w₁ w' reply target ⟨by rw [hstate], by rw [hstate], by rw [hstate]⟩ hworking hemitted
    hreplies
  refine h.update (by rw [hlives, h.life]) ?_ hrunning (by rw [hstate])
  exact h.sound.congr (by rw [hstate]; exact id) (by rw [hstate]) (by rw [hstate])

theorem leads_persistentReply {reply : Reply} {target : Process} (hx : reply.trid.xid = x) {E : Exception → World → Prop} :
    Triple (Leads R x l w) (persistentReply reply target) (fun _ => Leads R x (l.reply target reply) w) E := by
  intro w₁ h
  refine h.reply hx rfl rfl rfl rfl ?_
  show (w₁.delivered ++ w₁.dropped ++ (w₁.state.persistentReplies ++ [(target.queue, reply)])).Perm _
  rw [← List.append_assoc]
  exact List.perm_append_singleton _ _

/-- A reply is delivered, dropped or left to be tried again. -/
theorem leads_sendReply (env : Environment) {reply : Reply} {target : Process} (hx : reply.trid.xid = x)
    {E : Exception → World → Prop} :
    Triple (Leads R x l w) (sendReply env reply target) (fun _ => Leads R x (l.reply target reply) w) E := by
  intro w₁ h
  unfold sendReply
  cases hpush : env.push w₁.readings target.queue with
  | accepted =>
    have hsend : persistentSend env (target.queue, reply) w₁ = .ok true { w₁ with
        readings := w₁.readings + 1, delivered := w₁.delivered ++ [(target.queue, reply)] } := by
      unfold persistentSend; rw [hpush]
    rw [bind_ok hsend]
    refine h.reply hx rfl rfl rfl rfl ?_
    show (w₁.delivered ++ [(target.queue, reply)] ++ w₁.dropped ++ w₁.state.persistentReplies).Perm _
    unfold World.replies
    rw [List.append_assoc, List.append_assoc, List.singleton_append, List.append_assoc]
    exact List.perm_middle
  | gone =>
    have hsend : persistentSend env (target.queue, reply) w₁ = .ok true { w₁ with
        readings := w₁.readings + 1, dropped := w₁.dropped ++ [(target.queue, reply)] } := by
      unfold persistentSend; rw [hpush]
    rw [bind_ok hsend]
    refine h.reply hx rfl rfl rfl rfl ?_
    show (w₁.delivered ++ (w₁.dropped ++ [(target.queue, reply)]) ++ w₁.state.persistentReplies).Perm _
    unfold World.replies
    rw [← List.append_assoc w₁.delivered, List.append_assoc _ [_], List.singleton_append]
    exact List.perm_middle
  | full =>
    have hsend : persistentSend env (target.queue, reply) w₁ = .ok false { w₁ with readings := w₁.readings + 1 } := by
      unfold persistentSend; rw [hpush]
    rw [bind_ok hsend]
    have hread : Leads R x l w { w₁ with readings := w₁.readings + 1 } := h.same rfl (h.sound.congr id rfl rfl) rfl rfl
    exact leads_persistentReply hx (E := E) _ hread

/-! ## Asking resources -/

theorem record_mark (env : Environment) (t : Transaction) (p : Resource → Prop) [DecidablePred p] (newStage : Stage) :
    ({ t with resources := asked env (fun r => decide (p r)) newStage t.resources } : Transaction).record =
      t.record.mark p newStage := by
  have hfst : (↑(env.partition (fun r => decide (p r)) t.resources).1 : Multiset Resource) =
      (↑t.resources : Multiset Resource).filter p := by
    rw [Multiset.filter_coe]
    exact Multiset.coe_eq_coe.2 (env.partition_fst _ _)
  have hsnd : (↑(env.partition (fun r => decide (p r)) t.resources).2 : Multiset Resource) =
      (↑t.resources : Multiset Resource).filter fun r => ¬ p r := by
    rw [Multiset.filter_coe]
    refine Multiset.coe_eq_coe.2 ((env.partition_snd _ _).trans ?_)
    simp only [decide_not, List.Perm.refl]
  have hresources : (↑(asked env (fun r => decide (p r)) newStage t.resources) : Multiset Resource) =
      (↑t.resources : Multiset Resource).map fun u => if p u then { u with stage := newStage } else u := by
    unfold asked
    rw [← Multiset.coe_add, ← Multiset.map_coe, hfst, hsnd]
    conv_rhs => rw [← Multiset.filter_add_not p (↑t.resources : Multiset Resource), Multiset.map_add]
    congr 1
    · refine Multiset.map_congr rfl fun u hu => (if_pos (Multiset.of_mem_filter hu)).symm
    · refine (Multiset.map_id _).symm.trans (Multiset.map_congr rfl fun u hu => ?_)
      exact (if_neg (Multiset.mem_filter.1 hu).2).symm
  unfold Transaction.record Record.mark
  simp only [hresources]

theorem asked_coe (env : Environment) (t : Transaction) (p : Resource → Prop) [DecidablePred p] :
    (↑((env.partition (fun r => decide (p r)) t.resources).1.map (·.id)) : Multiset Nat) = t.record.asked p := by
  unfold Record.asked Transaction.record
  rw [← Multiset.map_coe, Multiset.filter_coe]
  exact congrArg _ (Multiset.coe_eq_coe.2 (env.partition_fst _ _))

/-- Resources are handed a request or it waits for them; when a queue is gone, those are handed it that came before. -/
theorem leads_sendRequest (env : Environment) (phase : Phase) {t : Transaction} (p : Resource → Prop) [DecidablePred p]
    (newStage : Stage) (flags : Nat) (ht : t.trid.xid = x) (hrecord : l.record.isSome)
    (hnodup : (t.resources.map (·.id)).Nodup) :
    Triple (Leads R x l w) (sendRequest env phase t (fun r => decide (p r)) newStage flags)
      (fun _ => Leads R x (l.ask t.record phase flags p newStage (t.record.asked p)) w)
      fun _ w' => ∃ kept ≤ t.record.asked p, Leads R x (l.ask t.record phase flags p newStage kept) w w' := by
  subst ht
  intro w₁ h
  set message : ResourceRequest := ⟨phase, t.trid, flags⟩
  set ids := (env.partition (fun r => decide (p r)) t.resources).1.map (·.id)
  have hids : (↑ids : Multiset Nat) = t.record.asked p := asked_coe env t p
  set t' : Transaction := { t with resources := asked env (fun r => decide (p r)) newStage t.resources }
  -- the resources are marked, and it is noted that they are asked
  have hset : Leads R t.trid.xid (l.set t'.record) w { w₁ with state := w₁.state.setTransaction t' } :=
    h.setTransaction rfl hrecord ((asked_ids env _ newStage t.resources).nodup_iff.2 hnodup)
  set w₂ : World := { w₁ with
    state := w₁.state.setTransaction t'
    emitted := w₁.emitted ++ ids.map fun id => (message, id) }
  have hw₂ : w₂.Sound := hset.sound.congr id rfl rfl
  have hrun : sendRequest env phase t (fun r => decide (p r)) newStage flags w₁ = (do
      let left ← resourceRequest env message ids
      if !left.isEmpty then
        modifyState fun s => { s with pendingRequests := s.pendingRequests ++ [⟨message, left⟩] } : M Unit) w₂ := rfl
  obtain ⟨given, rest, w₃, hands, hperm, hresult⟩ := resourceRequest_spec env message ids w₂ hw₂.instances
  obtain ⟨resources, hstate⟩ := hands.state
  obtain ⟨hs, hworking, -, hgiven, hrequests⟩ := hands.working
  have hworks : ∀ y, World.works y hs = if t.trid.xid = y then given.map fun id => (phase, id) else [] := by
    intro y
    unfold World.works
    split_ifs with hy
    · rw [List.filter_eq_self.2 fun g hg => by rw [hrequests g hg]; exact beq_iff_eq.2 hy, ← hgiven, List.map_map]
      refine List.map_congr_left fun g hg => ?_
      simp only [Function.comp_apply, hrequests g hg, message]
    · rw [List.filter_eq_nil_iff.2 fun g hg => by rw [hrequests g hg]; simpa using hy, List.map_nil]
  -- what the life is when `kept` of the resources have been handed the request or wait for it
  have hmade : ∀ (kept : List Nat) (w₄ : World), w₄.state.transactions = w₂.state.transactions →
      w₄.state.log = w₂.state.log → w₄.replies = w₂.replies → w₄.emitted = w₂.emitted → Named w₄.state →
      w₄.running = w₂.running → w₄.state.persistentRequests = w₂.state.persistentRequests →
      (∀ y, w₄.unanswered y = w₁.unanswered y +
        ↑(if t.trid.xid = y then kept.map fun id => (phase, id) else [])) →
      Leads R t.trid.xid (l.ask t.record phase flags p newStage ↑kept) w w₄ := by
    intro kept w₄ htransactions hlog hreplies hemitted hnamed hrunning hpersistent hunanswered
    refine hset.update ?_ ⟨hnamed, htransactions ▸ hw₂.transactions, htransactions ▸ hw₂.resources, hlog ▸ hw₂.rows⟩
      hrunning hpersistent
    funext y
    have hlives : w₄.lives y = { ({ w₁ with state := w₁.state.setTransaction t' } : World).lives y with
        emitted := (w₁.lives y).emitted + ↑(if t.trid.xid = y then ids.map fun id => (⟨phase, flags, id⟩ : Asked) else [])
        unanswered := (w₁.lives y).unanswered + ↑(if t.trid.xid = y then kept.map fun id => (phase, id) else []) } := by
      have hemits : (w₂.emitted.filter fun e => e.1.trid.xid == y).map (fun e => (⟨e.1.phase, e.1.flags, e.2⟩ : Asked)) =
          (w₁.emitted.filter fun e => e.1.trid.xid == y).map (fun e => (⟨e.1.phase, e.1.flags, e.2⟩ : Asked)) ++
            if t.trid.xid = y then ids.map fun id => (⟨phase, flags, id⟩ : Asked) else [] := by
        rw [show w₂.emitted = w₁.emitted ++ ids.map fun id => (message, id) from rfl, List.filter_append, List.map_append]
        congr 1
        split_ifs with hy
        · rw [List.filter_eq_self.2 fun e he => ?_, List.map_map]
          · rfl
          · obtain ⟨id, -, rfl⟩ := List.mem_map.1 he
            exact beq_iff_eq.2 hy
        · rw [List.filter_eq_nil_iff.2 fun e he => ?_, List.map_nil]
          obtain ⟨id, -, rfl⟩ := List.mem_map.1 he
          simpa using hy
      unfold World.lives
      simp only [htransactions, hlog, hreplies, hemitted, hunanswered, hemits, ← Multiset.coe_add]
      rfl
    by_cases hy : y = t.trid.xid
    · subst hy
      rw [Function.update_self, hlives, hset.life, h.life]
      simp only [if_true, ← Multiset.map_coe, hids]
      unfold Life.ask Life.set
      simp only [record_mark env t p newStage, t', Multiset.map_coe]
    · rw [Function.update_of_ne hy, hlives]
      simp only [Ne.symm hy, if_false, Multiset.coe_nil, add_zero]
      rfl
  have hpending : w₃.state.pendingRequests = w₁.state.pendingRequests := by rw [hstate]; rfl
  have hworking₃ : ∀ y, World.works y w₃.working = World.works y w₁.working ++ World.works y hs := by
    intro y
    rw [hworking, World.works_append]
  have hreplies₃ : w₃.replies = w₂.replies := by
    unfold World.replies
    rw [hands.delivered, hands.dropped, hstate]
  rw [hrun]
  rcases hresult with hok | ⟨e, herror⟩
  · rw [bind_ok hok, ← hids]
    have hkept : (↑ids : Multiset Nat) = ↑(given ++ rest) := Multiset.coe_eq_coe.2 hperm.symm
    rw [hkept]
    split_ifs with hleft
    · refine hmade _ _ (by rw [hstate]) (by rw [hstate]) hreplies₃ hands.emitted ?_ hands.running (by rw [hstate]) ?_
      · exact hands.named hw₂.instances
      · intro y
        show (↑(World.works y w₃.working) : Multiset (Phase × Nat)) +
          ↑(World.waits y (w₃.state.pendingRequests ++ [(⟨message, rest⟩ : PendingRequest)])) = _
        rw [hworking₃, hpending, World.waits_append, hworks]
        unfold World.unanswered
        by_cases hy : t.trid.xid = y
        · have hwaits : World.waits y [⟨message, rest⟩] = rest.map fun id => (phase, id) := by
            simp [World.waits, message, hy]
          rw [hwaits, if_pos hy, if_pos hy, List.map_append]
          simp only [← Multiset.coe_add]
          abel
        · have hwaits : World.waits y [⟨message, rest⟩] = [] := by
            simp [World.waits, message, hy]
          rw [hwaits, if_neg hy, if_neg hy, List.append_nil, List.append_nil, Multiset.coe_nil, add_zero]
    · have hnone : rest = [] := by simpa using hleft
      refine hmade _ _ (by rw [hstate]) (by rw [hstate]) hreplies₃ hands.emitted (hands.named hw₂.instances) hands.running
        (by rw [hstate]) ?_
      intro y
      unfold World.unanswered
      rw [hworking₃, hpending, hworks, hnone, List.append_nil, ← Multiset.coe_add]
      abel
  · rw [bind_error herror]
    refine ⟨↑given, ?_, hmade _ _ (by rw [hstate]) (by rw [hstate]) hreplies₃ hands.emitted (hands.named hw₂.instances)
      hands.running (by rw [hstate]) ?_⟩
    · rw [← hids, ← Multiset.coe_eq_coe.2 hperm, ← Multiset.coe_add]
      exact Multiset.le_add_right _ _
    · intro y
      unfold World.unanswered
      rw [hworking₃, hpending, hworks, ← Multiset.coe_add]
      abel

/-! ## What changes no life -/

/-- What programs leave that change no life. -/
structure Silent (w w' : World) : Prop where
  lives : w'.lives = w.lives
  sound : w.Sound → w'.Sound
  running : w'.running = w.running
  persistent : w'.state.persistentRequests = w.state.persistentRequests

instance : Std.Refl Silent := ⟨fun _ => ⟨rfl, id, rfl, rfl⟩⟩

instance : IsTrans World Silent := ⟨fun _ _ _ h h' =>
  ⟨h'.lives.trans h.lives, h'.sound ∘ h.sound, h'.running.trans h.running, h'.persistent.trans h.persistent⟩⟩

theorem Silent.leads {w' : World} (hs : Silent w₁ w') (h : Leads R x l w w₁) : Leads R x l w w' :=
  h.same hs.lives (hs.sound h.sound) hs.running hs.persistent

theorem leads_silent {α : Type} {y : M α} (hy : Moves Silent y) :
    Triple (Leads R x l w) y (fun _ => Leads R x l w) fun _ => Leads R x l w := by
  intro w₁ h
  have hs := hy.after w₁
  cases hrun : y w₁ with
  | ok a w' =>
    rw [hrun] at hs
    exact hs.leads h
  | error e w' =>
    rw [hrun] at hs
    exact hs.leads h

/-- The instances are not what lives are about, nor is what was handed to them before. -/
theorem Silent.of_instances {w' : World} {resources : List Proxy} (hstate : w'.state = { w.state with resources := resources })
    (hnamed : Named w.state → Named { w.state with resources := resources }) (hworking : w'.working = w.working)
    (hemitted : w'.emitted = w.emitted) (hreplies : w'.replies = w.replies) (hrunning : w'.running = w.running) :
    Silent w w' := by
  refine ⟨World.lives_congr (by rw [hstate]) (by rw [hstate]) hemitted (fun y => ?_) (by rw [hreplies]), fun hw => ?_, hrunning,
    by rw [hstate]⟩
  · unfold World.unanswered
    rw [hworking, hstate]
  · exact hw.congr (fun hn => by rw [hstate]; exact hnamed hn) (by rw [hstate]) (by rw [hstate])

theorem silent_push (env : Environment) (queue : Nat) : Moves Silent (push env queue) := by
  constructor
  intro w
  have hread : Silent w { w with readings := w.readings + 1 } := .of_instances rfl id rfl rfl rfl rfl
  rcases push_cases env queue w with h | h | h
  · rw [h]; exact hread
  · rw [h]; exact hread
  · rw [h]; exact hread

theorem silent_setInstance (rm pid : Nat) {f : Instance → Instance} (hf : ∀ i, (f i).id = i.id) :
    Moves Silent (modifyState (·.setInstance rm pid f)) :=
  ⟨fun _ => .of_instances rfl (fun hn => hn.setInstance rm pid hf) rfl rfl rfl rfl⟩

/-- A request that waited for an instance is handed to it. -/
theorem silent_take {request : PendingRequest} {i : Instance}
    (h : w.state.pendingRequests.find? (fun p => p.resources.contains i.id) = some request) :
    Silent w { w with
      handed := w.handed ++ [((⟨request.message, i.id, i.process.pid⟩ : Handed), w.state.log.durable)]
      working := w.working ++ [⟨request.message, i.id, i.process.pid⟩]
      state := { w.state with
        pendingRequests := taken i.id (request.resources.erase i.id) w.state.pendingRequests } } := by
  refine ⟨World.lives_congr rfl rfl rfl (fun y => ?_) (.refl _), fun hw => hw.congr id rfl rfl, rfl, rfl⟩
  unfold World.unanswered
  rw [World.works_append, ← Multiset.coe_add, add_assoc, Multiset.coe_add (World.works y [_])]
  exact congrArg _ (Multiset.coe_eq_coe.2 (waits_taken y i.id i.process.pid h))

theorem silent_done (env : Environment) (i : Instance) : Moves Silent (done env i) := by
  constructor
  intro w
  have hidle := (silent_setInstance i.id i.process.pid fun j => setState_id j .idle).after w
  unfold done
  have hget : (get : M World) w = .ok w w := rfl
  rw [bind_ok hget]
  set w₁ : World := { w with state := w.state.setInstance i.id i.process.pid (·.setState .idle) }
  have hset : modifyState (·.setInstance i.id i.process.pid (·.setState .idle)) w = .ok () w₁ := rfl
  rw [bind_ok hset]
  refine IsTrans.trans _ w₁ _ hidle ?_
  cases hfind : w.state.pendingRequests.find? fun p => p.resources.contains i.id with
  | none => exact Std.Refl.refl w₁
  | some request =>
    have hpushed := (silent_push env i.process.queue).after w₁
    rcases push_cases env i.process.queue w₁ with h | h | h
    · rw [h] at hpushed
      refine IsTrans.trans _ _ _ hpushed ?_
      dsimp only
      rw [bind_ok h, if_pos rfl]
      have hbusy := (silent_setInstance i.id i.process.pid fun j => setState_id j .busy).after
        { w₁ with readings := w₁.readings + 1 }
      exact IsTrans.trans _ _ _ hbusy (silent_take (w := { w₁ with
        readings := w₁.readings + 1
        state := w₁.state.setInstance i.id i.process.pid (·.setState .busy) }) (i := i) hfind)
    · rw [h] at hpushed
      dsimp only
      rw [bind_ok h]
      exact hpushed
    · rw [h] at hpushed
      dsimp only
      rw [bind_error h]
      exact hpushed

theorem silent_connect (env : Environment) (message : ConnectReply) : Moves Silent (connect env message) := by
  have hmessage : Moves Silent (do
      let s := (← get).state
      if !s.connected && s.resources.all fun p => p.instances.any Instance.running then
        let _ ← push env env.broker
        modifyState fun s => { s with connected := true } : M Unit) := by
    apply Moves.bind .get
    intro w
    refine .ite (.bind (silent_push env _) fun _ => ?_) (.pure _)
    exact ⟨fun _ => ⟨rfl, fun hw => hw.congr id rfl rfl, rfl, rfl⟩⟩
  unfold connect
  apply Moves.bind .get
  intro w
  cases w.state.getInstance message.resource message.process.pid with
  | none => exact hmessage
  | some i =>
    refine .ite ?_ ?_
    · refine .bind (silent_setInstance _ _ fun _ => rfl) fun _ => .bind (silent_done env _) fun _ => hmessage
    · exact .bind (silent_setInstance _ _ fun j => setState_id j _) fun _ => hmessage

theorem silent_flushReplies (env : Environment) : ∀ (ms : List (Nat × Reply)) (w : World),
    ∃ left out drop, flushReplies env ms w = .ok left { w with
      readings := w.readings + ms.length
      delivered := w.delivered ++ out
      dropped := w.dropped ++ drop } ∧ (out ++ drop ++ left).Perm ms
  | [], w => ⟨[], [], [], by simp [flushReplies, pure, EStateM.pure], .refl _⟩
  | m :: ms, w => by
    unfold flushReplies
    cases hpush : env.push w.readings m.1 with
    | accepted =>
      obtain ⟨left, out, drop, h, hperm⟩ :=
        silent_flushReplies env ms { w with readings := w.readings + 1, delivered := w.delivered ++ [m] }
      have hsend : persistentSend env m w = .ok true { w with readings := w.readings + 1, delivered := w.delivered ++ [m] } := by
        unfold persistentSend; rw [hpush]
      refine ⟨left, m :: out, drop, ?_, ?_⟩
      · rw [bind_ok hsend, if_pos rfl, h]
        simp only [List.append_assoc, List.singleton_append, List.length_cons, Nat.add_assoc, Nat.add_comm 1]
      · exact hperm.cons m
    | gone =>
      obtain ⟨left, out, drop, h, hperm⟩ :=
        silent_flushReplies env ms { w with readings := w.readings + 1, dropped := w.dropped ++ [m] }
      have hsend : persistentSend env m w = .ok true { w with readings := w.readings + 1, dropped := w.dropped ++ [m] } := by
        unfold persistentSend; rw [hpush]
      refine ⟨left, out, m :: drop, ?_, ?_⟩
      · rw [bind_ok hsend, if_pos rfl, h]
        simp only [List.append_assoc, List.singleton_append, List.length_cons, Nat.add_assoc, Nat.add_comm 1]
      · rw [List.append_assoc, List.cons_append]
        exact List.perm_middle.trans ((List.append_assoc _ _ _ ▸ hperm).cons m)
    | full =>
      obtain ⟨left, out, drop, h, hperm⟩ := silent_flushReplies env ms { w with readings := w.readings + 1 }
      have hsend : persistentSend env m w = .ok false { w with readings := w.readings + 1 } := by
        unfold persistentSend; rw [hpush]
      refine ⟨m :: left, out, drop, ?_, ?_⟩
      · rw [bind_ok hsend, if_neg Bool.false_ne_true, bind_ok h]
        simp only [List.length_cons, Nat.add_assoc, Nat.add_comm 1]
        rfl
      · exact List.perm_middle.trans (hperm.cons m)

/-- The end of a round changes no life; no request ever waits to be sent persistently. -/
theorem silent_write (env : Environment) (hp : w.state.persistentRequests = []) : Silent w (after (write env w)) := by
  unfold write
  have hget : (get : M World) w = .ok w w := rfl
  rw [bind_ok hget, bind_ok hget]
  split_ifs with hempty
  · obtain ⟨left, out, drop, h, hperm⟩ := silent_flushReplies env (env.order w.readings w.state.persistentReplies)
      { w with state := { w.state with log := w.state.log.writeCommit } }
    have hlog : modifyState (fun s => { s with log := s.log.writeCommit }) w =
      .ok () { w with state := { w.state with log := w.state.log.writeCommit } } := rfl
    rw [bind_ok hlog, bind_ok h, hp]
    refine ⟨World.lives_congr rfl rfl rfl (fun y => rfl) ?_, fun hw => ⟨hw.instances, hw.transactions, hw.resources, hw.rows⟩,
      rfl, hp.symm⟩
    show (w.delivered ++ out ++ (w.dropped ++ drop) ++ left).Perm (w.delivered ++ w.dropped ++ w.state.persistentReplies)
    have hmoved : (out ++ (w.dropped ++ (drop ++ left))).Perm (w.dropped ++ w.state.persistentReplies) := by
      refine (List.perm_append_comm_assoc _ _ _).trans (List.Perm.append_left _ ?_)
      rw [← List.append_assoc]
      exact hperm.trans (env.order_perm _ _)
    simp only [List.append_assoc]
    exact hmoved.append_left _
  · exact Std.Refl.refl w

/-! ## Replies from resources -/

theorem record_setResource {t : Transaction} (hnodup : (t.resources.map (·.id)).Nodup) {r r' : Resource}
    (hr : r ∈ t.resources) (hid : r'.id = r.id) : (t.setResource r').record = t.record.change r r' := by
  have hperm := List.perm_cons_erase hr
  have hrest : ∀ u ∈ t.resources.erase r, u.id ≠ r.id := by
    have hnodup' := (hperm.map (·.id)).nodup_iff.1 hnodup
    intro u hu hux
    exact (List.nodup_cons.1 hnodup').1 (List.mem_map.2 ⟨u, hu, hux⟩)
  have hresources : (↑(t.setResource r').resources : Multiset Resource) = r' ::ₘ (↑t.resources : Multiset Resource).erase r := by
    rw [Multiset.coe_erase, Multiset.cons_coe]
    refine Multiset.coe_eq_coe.2 ((hperm.map _).trans ?_)
    rw [List.map_cons, if_pos hid.symm]
    refine List.Perm.cons _ (List.Perm.of_eq ((List.map_congr_left fun u hu => ?_).trans (List.map_id _)))
    exact if_neg fun h => hrest u hu (h.trans hid)
  unfold Transaction.record Record.change
  simp only [hresources]
  rfl

section

variable {message : ResourceReply} {t : Transaction} {r : Resource} {l₀ : Life}

/-- The reply of a resource of a transaction, which is the one of a life. -/
structure Replies (message : ResourceReply) (t : Transaction) (r : Resource) (l₀ : Life) (x : XID) : Prop where
  trid : message.trid.xid = x
  known : t.trid.xid = x
  record : l₀.record = some t.record
  nodup : (t.resources.map (·.id)).Nodup
  mem : r ∈ t.resources
  resource : r.id = message.resource

theorem Replies.turns (h : Replies message t r l₀ x) {f : Resource → Resource} (hf : (f r).id = r.id) :
    l₀.Turns message f (t.setResource (f r)).record :=
  ⟨t.record, r, h.record, h.mem, h.resource, record_setResource h.nodup h.mem hf⟩

/-- How a handler of replies has led the life on: the reply is a step of it, when the transaction is removed as
the handler says. -/
def Turned (phase : Phase) (message : ResourceReply) (l₀ : Life) (x : XID) (w : World) (b : Bool) (w' : World) : Prop :=
  ∃ l', Leads Unlogs x l' w w' ∧ Life.Step l₀ (.reply phase message) (if b then l'.gone else l') .goes

/-- An exception that leaves a handler. -/
def Stopped (phase : Phase) (message : ResourceReply) (l₀ : Life) (x : XID) (w w' : World) : Prop :=
  ∃ l', Leads Unlogs x l' w w' ∧ Life.Step l₀ (.reply phase message) l' .stops

/-- The resource is changed first. -/
theorem leads_setResource (h : Replies message t r l₀ x) (r' : Resource) {phase : Phase} {E : Exception → World → Prop} :
    Triple (Leads Unlogs x (l₀.answered phase message) w) (modifyState (·.setTransaction (t.setResource r')))
      (fun _ => Leads Unlogs x ((l₀.answered phase message).set (t.setResource r').record) w) E := by
  intro w₁ hw
  refine hw.setTransaction h.known ?_ (setResource_ids h.nodup r')
  show l₀.record.isSome = true
  rw [h.record]
  rfl

theorem leads_basicPrepare (env : Environment) (h : Replies message t r l₀ x) :
    Triple (Leads Unlogs x (l₀.answered .prepare message) w) (basicPrepare env message t r)
      (Turned .prepare message l₀ x w) fun _ => Stopped .prepare message l₀ x w := by
  have hturns := h.turns (f := (·.vote message.state)) rfl
  set t' := t.setResource (r.vote message.state)
  have hnodup : (t'.resources.map (·.id)).Nodup := setResource_ids h.nodup _
  unfold basicPrepare
  refine Triple.bind (leads_setResource h (r.vote message.state)) fun _ => Triple.ite (fun hstage => ?_) fun hstage => ?_
  · have hstage' : t'.record.stage = .prepareReplied := (t'.record_stage).trans hstage
    split
    next hresults =>
      -- all have only read
      have hresults' : t'.record.results = .XA_RDONLY := (t'.record_results).trans hresults
      refine Triple.bind (leads_logRemove h.known) fun _ => Triple.bind (leads_sendReply env (by exact h.trid)) fun _ => ?_
      exact Triple.pure fun w' hw => ⟨_, hw, .prepareReadOnly hturns hstage' hresults'⟩
    next hresults =>
      have hresults' : t'.record.results = .XA_OK := (t'.record_results).trans hresults
      refine Triple.bind ((leads_logPrepare h.known).conseq (fun _ hw => hw) (fun _ _ hw => hw) fun _ w' hw =>
        ⟨_, hw, .prepareUnlogged hturns⟩) fun _ => ?_
      refine Triple.bind (leads_persistentReply (by exact h.trid)) fun _ => ?_
      refine Triple.bind ((leads_sendRequest env .commit (t := t') isOk .prepareRequested TMNOFLAGS (by exact h.known) rfl hnodup).conseq
        (fun _ hw => hw) (fun _ _ hw => hw) ?_) fun _ => Triple.pure fun w' hw => ⟨_, hw, ?_⟩
      · rintro e w' ⟨kept, hkept, hw⟩
        exact ⟨_, hw, .prepareCommits hturns hstage' hresults' nofun hkept nofun⟩
      · exact .prepareCommits hturns hstage' hresults' nofun le_rfl fun _ => rfl
    next hreadonly hok =>
      have hresults' : t'.record.results ≠ .XA_RDONLY ∧ t'.record.results ≠ .XA_OK := by
        rw [t'.record_results]
        exact ⟨hreadonly, hok⟩
      refine Triple.bind ((leads_sendRequest env .rollback (t := t') isPrepared .rollbackRequested TMNOFLAGS (by exact h.known) rfl hnodup).conseq
        (fun _ hw => hw) (fun _ _ hw => hw) ?_) fun _ => Triple.pure fun w' hw => ⟨_, hw, ?_⟩
      · rintro e w' ⟨kept, hkept, hw⟩
        exact ⟨_, hw, .prepareRollsBack hturns hstage' hresults' nofun hkept nofun⟩
      · exact .prepareRollsBack hturns hstage' hresults' nofun le_rfl fun _ => rfl
  · refine Triple.pure fun w' hw => ⟨_, hw, .prepareWaits hturns ?_⟩
    rw [t'.record_stage]
    exact hstage

theorem leads_basicCommitReply (env : Environment) (h : Replies message t r l₀ x) :
    Triple (Leads Unlogs x (l₀.answered .commit message) w) (basicCommitReply env message t r)
      (Turned .commit message l₀ x w) fun _ => Stopped .commit message l₀ x w := by
  have hturns := h.turns (f := commitReplied) rfl
  set t' := t.setResource (commitReplied r)
  unfold basicCommitReply
  refine Triple.bind (leads_setResource h (commitReplied r)) fun _ => Triple.ite (fun hstage => ?_) fun hstage => ?_
  · have hstage' : t'.record.stage = .commitReplied := (t'.record_stage).trans hstage
    split
    next hresults =>
      have hresults' : t'.record.results = .XA_OK := (t'.record_results).trans hresults
      have hdone : Triple (Leads Unlogs x (((l₀.answered .commit message).set t'.record).reply t'.trid.owner
          (.commit message.trid t'.correlation .commit Result.XA_OK.code)) w)
          (do
            logRemove message.trid
            return true) (Turned .commit message l₀ x w) fun _ => Stopped .commit message l₀ x w := by
        refine Triple.bind (leads_logRemove h.trid) fun _ => ?_
        exact Triple.pure fun w' hw => ⟨_, hw, .commitDone hturns hstage' hresults'⟩
      refine Triple.ite (fun _ => Triple.bind (leads_sendReply env (by exact h.trid)) fun _ => hdone)
        fun _ => Triple.bind (leads_persistentReply (by exact h.trid)) fun _ => hdone
    next result hresults =>
      have hresults' : t'.record.results ≠ .XA_OK := by
        rw [t'.record_results]
        exact hresults
      refine Triple.bind (leads_persistentReply (by exact h.trid)) fun _ => Triple.pure fun w' hw => ⟨_, hw, ?_⟩
      have hkept := Life.Step.commitKept hturns hstage' hresults'
      rw [t'.record_results] at hkept
      exact hkept
  · refine Triple.pure fun w' hw => ⟨_, hw, .commitWaits hturns ?_⟩
    rw [t'.record_stage]
    exact hstage

theorem leads_basicRollbackReply (env : Environment) (h : Replies message t r l₀ x) :
    Triple (Leads Unlogs x (l₀.answered .rollback message) w) (basicRollbackReply env message t r)
      (Turned .rollback message l₀ x w) fun _ => Stopped .rollback message l₀ x w := by
  have hturns := h.turns (f := rollbackReplied) rfl
  set t' := t.setResource (rollbackReplied r)
  unfold basicRollbackReply
  refine Triple.bind (leads_setResource h (rollbackReplied r)) fun _ => Triple.ite (fun hstage => ?_) fun hstage => ?_
  · have hstage' : t'.record.stage = .rollbackReplied := (t'.record_stage).trans hstage
    refine Triple.ite (fun hresults => ?_) fun hresults => ?_
    · have hresults' : rolledBackWell t'.record.results := by
        rw [t'.record_results]
        exact hresults
      refine Triple.bind (leads_sendReply env (by exact h.trid)) fun _ => Triple.bind (leads_logRemove h.trid) fun _ => ?_
      exact Triple.pure fun w' hw => ⟨_, hw, .rollbackDone hturns hstage' hresults'⟩
    · have hresults' : ¬ rolledBackWell t'.record.results := by
        rw [t'.record_results]
        exact hresults
      refine Triple.bind (leads_persistentReply (by exact h.trid)) fun _ => Triple.pure fun w' hw => ⟨_, hw, ?_⟩
      have hkept := Life.Step.rollbackKept hturns hstage' hresults'
      rw [t'.record_results] at hkept
      exact hkept
  · refine Triple.pure fun w' hw => ⟨_, hw, .rollbackWaits hturns ?_⟩
    rw [t'.record_stage]
    exact hstage

theorem leads_replyHandler (env : Environment) (phase : Phase) (h : Replies message t r l₀ x) :
    Triple (Leads Unlogs x (l₀.answered phase message) w) (replyHandler env phase message t r)
      (Turned phase message l₀ x w) fun _ => Stopped phase message l₀ x w := by
  cases phase with
  | prepare => exact leads_basicPrepare env h
  | commit => exact leads_basicCommitReply env h
  | rollback => exact leads_basicRollbackReply env h

end

/-- What a reply leads to, once it is known that its resource is no longer at work. -/
theorem leads_wrapper (env : Environment) (phase : Phase) {message : ResourceReply} {l₀ : Life} (hw : w.Sound)
    (hl : w.lives message.trid.xid = l₀.answered phase message) :
    Triple (fun v => v = w) (wrapper env (replyHandler env phase) message)
      (fun _ w' => ∃ l', Leads Unlogs message.trid.xid l' w w' ∧ Life.Step l₀ (.reply phase message) l' .goes)
      fun _ => Stopped phase message l₀ message.trid.xid w := by
  have hrefl : Leads Unlogs message.trid.xid (l₀.answered phase message) w w := hl ▸ Leads.refl hw
  unfold wrapper
  refine Triple.bind (Q := fun s v => s = w ∧ v = w) (fun v hv => ⟨hv, hv⟩) fun s => ?_
  apply Triple.of_forall
  rintro _ ⟨rfl, rfl⟩
  rename_i w
  -- an instance that is not known stops the pump, and so does a queue that is gone
  rcases w.state.getInstance message.resource message.process.pid with _ | i
  · refine Triple.bind (Q := fun _ _ => False) (Triple.throw ?_) fun _ _ h => h.elim
    rintro _ rfl
    exact ⟨_, hrefl, .lost⟩
  refine Triple.bind (Q := fun _ => Leads Unlogs message.trid.xid (l₀.answered phase message) w) ?_ fun _ => ?_
  · refine (leads_silent (silent_done env i)).conseq (fun v hv => hv ▸ hrefl) (fun _ _ h => h) ?_
    exact fun _ v hv => ⟨_, hv, .lost⟩
  refine Triple.bind (Q := fun s v => s = v ∧ Leads Unlogs message.trid.xid (l₀.answered phase message) w v)
    (fun v hv => ⟨rfl, hv⟩) fun v => ?_
  apply Triple.of_forall
  rintro _ ⟨rfl, hv⟩
  have hrecord : l₀.record = (v.state.find message.trid).map Transaction.record :=
    (congrArg Life.record hv.life).symm
  cases ht : v.state.find message.trid with
  | none =>
    rw [ht] at hrecord
    refine Triple.pure ?_
    rintro _ rfl
    exact ⟨_, hv, .stray fun r hr => by rw [hrecord] at hr; cases hr⟩
  | some t =>
    rw [ht, Option.map_some] at hrecord
    cases hr : t.resources.find? fun r => r.id == message.resource with
    | none =>
      simp only [hr]
      refine Triple.pure ?_
      rintro _ rfl
      refine ⟨_, hv, .stray fun r hr' hmem => ?_⟩
      obtain rfl := Option.some.inj (hrecord.symm.trans hr')
      obtain ⟨u, hu, hid⟩ := Multiset.mem_map.1 hmem
      exact List.find?_eq_none.1 hr u hu (beq_iff_eq.2 hid)
    | some r =>
      simp only [hr]
      have hmem := List.mem_of_find?_eq_some ht
      have htrid : t.trid.xid = message.trid.xid := by
        unfold State.find at ht
        simpa using List.find?_some ht
      have hreplies : Replies message t r l₀ message.trid.xid :=
        ⟨rfl, htrid, hrecord, hv.sound.resources t hmem, List.mem_of_find?_eq_some hr, by simpa using List.find?_some hr⟩
      refine Triple.bind ((leads_replyHandler env phase hreplies).conseq (fun u hu => hu ▸ hv) (fun _ _ h => h)
        fun _ _ h => h) fun b => Triple.ite (fun hb => ?_) fun hb => ?_
      · rintro u ⟨l', hu, hstep⟩
        rw [if_pos hb] at hstep
        exact ⟨_, hu.eraseTransaction rfl, hstep⟩
      · refine Triple.pure ?_
        rintro u ⟨l', hu, hstep⟩
        rw [if_neg hb] at hstep
        exact ⟨_, hu, hstep⟩

/-! ## Requests from owners -/

/-- The code an exception is replied with. -/
def refusal : Exception → Int
  | .user code => code
  | _ => Result.XAER_RMERR.code

theorem refusal_resourceRequest (env : Environment) (message : ResourceRequest) : ∀ ids : List Nat,
    Triple (fun _ => True) (resourceRequest env message ids) (fun _ _ => True) fun e _ => refusal e = Result.XAER_RMERR.code
  | [] => Triple.pure fun _ h => h
  | id :: rest => by
    have ih := refusal_resourceRequest env message rest
    have hleft : Triple (fun _ => True) (do return id :: (← resourceRequest env message rest) : M (List Nat))
        (fun _ _ => True) fun e _ => refusal e = Result.XAER_RMERR.code :=
      Triple.bind ih fun _ => Triple.pure fun _ h => h
    unfold resourceRequest
    refine Triple.bind (Q := fun _ _ => True) (fun _ h => h) fun w => ?_
    cases w.state.idleInstance id with
    | none => exact Triple.throw fun _ _ => rfl
    | some found =>
      cases found with
      | none => exact hleft
      | some i =>
        refine Triple.bind (Q := fun _ _ => True) ?_ fun b => Triple.ite (fun _ => ih) fun _ => hleft
        intro w _
        unfold instanceRequest
        rcases push_cases env i.process.queue w with h | h | h
        · rw [bind_ok h]; trivial
        · rw [bind_ok h]; trivial
        · rw [bind_error h]; rfl

theorem refusal_sendRequest (env : Environment) (phase : Phase) (t : Transaction) (filter : Resource → Bool)
    (newStage : Stage) (flags : Nat) : Triple (fun _ => True) (sendRequest env phase t filter newStage flags)
      (fun _ _ => True) fun e _ => refusal e = Result.XAER_RMERR.code := by
  unfold sendRequest
  rcases env.partition filter t.resources with ⟨resources, others⟩
  refine Triple.bind (Q := fun _ _ => True) (fun _ h => h) fun _ => ?_
  refine Triple.bind (Q := fun _ _ => True) (fun _ h => h) fun _ => ?_
  refine Triple.bind (refusal_resourceRequest env _ _) fun left => ?_
  exact Triple.ite (fun _ _ h => h) fun _ => Triple.pure fun _ h => h

section

variable {m : OwnerRequest}

/-- How the request of an owner has led the life on that it is about, when it is not refused. -/
def Granted (R : Life → Life → Prop) (s : Signal) (x : XID) (accepts : Prop) (w w' : World) : Prop :=
  ∃ l' n, Leads R x l' w w' ∧ Life.Step (w.lives x) s l' n ∧ n ≠ .stops ∧ (n = .accepts ↔ accepts)

/-- How it has, when it is refused: what is replied is part of the step. -/
def Refused (R : Life → Life → Prop) (s : Signal) (x : XID) (process : Process) (error : Int → Reply) (w : World) (e : Exception)
    (w' : World) : Prop :=
  ∃ l', Leads R x l' w w' ∧ Life.Step (w.lives x) s (l'.reply process (error (refusal e))) .goes

/-- The transaction with the resources of a request. -/
theorem joined_record (env : Environment) (w : World) (m : OwnerRequest) :
    ({ involved env w.state (w.state.known m.trid) m.resources with correlation := m.correlation } : Transaction).record =
      (w.lives m.trid.xid).joined m ↑(merged env w.state m) := by
  unfold Life.joined
  rw [known_record]
  rfl

theorem merged_joins (env : Environment) (w : World) (m : OwnerRequest) :
    Joins ((w.lives m.trid.xid).known m.trid).resources ↑(merged env w.state m) := by
  rw [known_record]
  exact involved_joins env w.state (w.state.known m.trid) m.resources

/-- Resources of the request are asked, which may be refused. -/
theorem leads_ask (env : Environment) {s : Signal} {accepts : Prop} {error : Int → Reply} {phase : Phase}
    {newStage : Stage} {flags : Nat} {n : Note} (hn : n ≠ .stops) (haccepts : n = .accepts ↔ accepts)
    (hasked : Life.Step (w.lives m.trid.xid) s ((w.lives m.trid.xid).ask ((w.lives m.trid.xid).joined m ↑(merged env w.state m))
      phase flags isInvolved newStage (((w.lives m.trid.xid).joined m ↑(merged env w.state m)).asked isInvolved)) n)
    (hfailed : ∀ kept ≤ ((w.lives m.trid.xid).joined m ↑(merged env w.state m)).asked isInvolved,
      Life.Step (w.lives m.trid.xid) s (((w.lives m.trid.xid).ask ((w.lives m.trid.xid).joined m ↑(merged env w.state m))
        phase flags isInvolved newStage kept).reply m.process (error Result.XAER_RMERR.code)) .goes) :
    Triple (Leads R m.trid.xid
        ((w.lives m.trid.xid).set (involved env w.state (w.state.known m.trid) m.resources).record) w)
      (sendRequest env phase { involved env w.state (w.state.known m.trid) m.resources with correlation := m.correlation }
        (fun r => decide (r.stage = .involved)) newStage flags)
      (fun _ => Granted R s m.trid.xid accepts w) (Refused R s m.trid.xid m.process error w) := by
  have hnodup := involved_nodup env w.state (w.state.known m.trid) m.resources
  set t : Transaction := { involved env w.state (w.state.known m.trid) m.resources with correlation := m.correlation }
  have hrecord : t.record = _ := joined_record env w m
  have hleads := leads_sendRequest (R := R) (x := m.trid.xid) (w := w) (t := t)
    (l := (w.lives m.trid.xid).set (involved env w.state (w.state.known m.trid) m.resources).record)
    env phase isInvolved newStage flags (known_xid w m.trid) rfl hnodup
  rw [hrecord] at hleads
  refine (hleads.and (refusal_sendRequest env phase t _ newStage flags)).conseq (fun _ h => ⟨h, trivial⟩) ?_ ?_
  · exact fun _ w' h => ⟨_, n, h.1, hasked, hn, haccepts⟩
  · rintro e w' ⟨⟨kept, hkept, h⟩, he⟩
    refine ⟨_, h, ?_⟩
    rw [he]
    exact hfailed kept hkept

theorem leads_basicCommit [Std.Refl R] (env : Environment) (hw : w.Sound) (m : OwnerRequest) :
    Triple (fun v => v = w) (basicCommit env m)
      (fun _ => Granted R (.commit m ↑(merged env w.state m)) m.trid.xid (2 ≤ (merged env w.state m).length) w)
      (Refused R (.commit m ↑(merged env w.state m)) m.trid.xid m.process
        (fun code => .commit m.trid m.correlation .error code) w) := by
  obtain ⟨w₁, hinvolve, hleads⟩ := leads_involve (R := R) env hw m.trid m.resources
  have hj := merged_joins env w m
  set t := involved env w.state (w.state.known m.trid) m.resources
  have hstage : t.stage = ((w.lives m.trid.xid).joined m ↑(merged env w.state m)).stage := by
    rw [← joined_record]
    exact (t.record_stage).symm
  have hset : ((w.lives m.trid.xid).set t.record) =
      (w.lives m.trid.xid).set { (w.lives m.trid.xid).known m.trid with resources := ↑(merged env w.state m) } := by
    rw [known_record]
    rfl
  have hlength : (↑(merged env w.state m) : Multiset Resource).card = t.resources.length := Multiset.coe_card _
  unfold basicCommit
  refine Triple.bind (Q := fun u v => u = t ∧ v = w₁) ?_ fun u => ?_
  · rintro _ rfl
    rw [hinvolve]
    exact ⟨rfl, rfl⟩
  apply Triple.of_forall
  rintro _ ⟨rfl, rfl⟩
  refine Triple.ite (fun hrefused => ?_) fun hstages => ?_
  · refine Triple.bind (Q := fun _ _ => False) (Triple.throw ?_) fun _ _ h => h.elim
    rintro _ rfl
    rw [hset] at hleads
    exact ⟨_, hleads, .commitRefused hj (by rw [← hstage]; exact hrefused)⟩
  have hs : ((w.lives m.trid.xid).joined m ↑(merged env w.state m)).stage = .involved ∨
      ((w.lives m.trid.xid).joined m ↑(merged env w.state m)).stage = .notInvolved := by
    rw [← hstage]
    by_contra h
    push Not at h
    exact hstages h
  rcases hresources : t.resources.length with _ | _ | length
  · -- there is no resource
    have hnil : merged env w.state m = [] := List.length_eq_zero_iff.1 hresources
    rw [hnil] at hj ⊢
    refine Triple.bind (Q := fun _ => Leads R m.trid.xid (w.lives m.trid.xid).gone w) ?_ fun _ => ?_
    · rintro _ rfl
      exact hleads.eraseTransaction rfl
    · refine (leads_sendReply env (by rfl)).conseq (fun _ h => h) (fun _ w' h => ?_) fun _ _ h => h
      exact ⟨_, .goes, h, .commitNone hj, nofun, nofun, fun h => absurd h (by decide)⟩
  · refine (leads_ask env (n := .goes) nofun ⟨nofun, fun h => ?_⟩ (.commitOne hj hs (hlength.trans hresources)) fun kept hkept =>
      .commitFails hj hs (.inl rfl) hkept).conseq (fun v hv => hv ▸ hleads) (fun _ _ h => h) fun _ _ h => h
    exact absurd (hresources ▸ h : 2 ≤ 0 + 1) (by decide)
  · have htwo : 2 ≤ t.resources.length := by omega
    exact (leads_ask env (n := .accepts) nofun ⟨fun _ => htwo, fun _ => rfl⟩ (.commitMany hj hs (hlength ▸ htwo))
      fun kept hkept => .commitFails hj hs (.inr rfl) hkept).conseq (fun v hv => hv ▸ hleads) (fun _ _ h => h) fun _ _ h => h

theorem leads_basicRollback [Std.Refl R] (env : Environment) (hw : w.Sound) (m : OwnerRequest) :
    Triple (fun v => v = w) (basicRollback env m)
      (fun _ => Granted R (.rollback m ↑(merged env w.state m)) m.trid.xid False w)
      (Refused R (.rollback m ↑(merged env w.state m)) m.trid.xid m.process
        (fun code => .rollback m.trid m.correlation .error code) w) := by
  obtain ⟨w₁, hinvolve, hleads⟩ := leads_involve (R := R) env hw m.trid m.resources
  have hj := merged_joins env w m
  set t := involved env w.state (w.state.known m.trid) m.resources
  unfold basicRollback
  refine Triple.bind (Q := fun u v => u = t ∧ v = w₁) ?_ fun u => ?_
  · rintro _ rfl
    rw [hinvolve]
    exact ⟨rfl, rfl⟩
  apply Triple.of_forall
  rintro _ ⟨rfl, rfl⟩
  refine Triple.ite (fun hempty => ?_) fun _ => ?_
  · have hnil : merged env w.state m = [] := List.isEmpty_iff.1 hempty
    rw [hnil] at hj ⊢
    refine Triple.bind (Q := fun _ => Leads R m.trid.xid (w.lives m.trid.xid).gone w) ?_ fun _ => ?_
    · rintro _ rfl
      exact hleads.eraseTransaction rfl
    · refine (leads_sendReply env (by rfl)).conseq (fun _ h => h) (fun _ w' h => ?_) fun _ _ h => h
      exact ⟨_, .goes, h, .rollbackNone hj, nofun, nofun, False.elim⟩
  · exact (leads_ask env (n := .goes) nofun ⟨nofun, False.elim⟩ (.rollbackAsks hj) fun kept hkept =>
      .rollbackFails hj hkept).conseq (fun v hv => hv ▸ hleads) (fun _ _ h => h) fun _ _ h => h

/-! ## Every event -/

theorem userReplyWrapper_error (env : Environment) {handler : OwnerRequest → M Unit} {error : OwnerRequest → Int → Reply}
    {e : Exception} {w' : World} (h : handler m w = .error e w') :
    userReplyWrapper env handler error m w = sendReply env (error m (refusal e)) m.process w' := by
  unfold userReplyWrapper
  rw [tryCatch_error h]
  cases e <;> rfl

/-- A request is answered at the latest by the wrapper. -/
theorem leads_userReplyWrapper (env : Environment) {s : Signal} {accepts : Prop} {handler : OwnerRequest → M Unit}
    {error : OwnerRequest → Int → Reply} (hx : ∀ code, (error m code).trid.xid = m.trid.xid)
    (h : Triple (fun v => v = w) (handler m) (fun _ => Granted R s m.trid.xid accepts w)
      (Refused R s m.trid.xid m.process (error m) w)) :
    Triple (fun v => v = w) (userReplyWrapper env handler error m)
      (fun _ w' => ∃ l' n, Leads R m.trid.xid l' w w' ∧ Life.Step (w.lives m.trid.xid) s l' n ∧ n ≠ .stops ∧
        (n = .accepts ↔ accepts ∧ throws (handler m w) = false)) fun _ _ => False := by
  have hhandler := h w rfl
  rintro _ rfl
  rename_i w
  cases hrun : handler m w with
  | ok a w' =>
    rw [hrun] at hhandler
    have hwrapper : userReplyWrapper env handler error m w = .ok a w' := tryCatch_ok hrun
    rw [hwrapper]
    obtain ⟨l', n, hleads, hstep, hn, haccepts⟩ := hhandler
    exact ⟨l', n, hleads, hstep, hn, by rw [haccepts]; exact (and_iff_left rfl).symm⟩
  | error e w' =>
    rw [hrun] at hhandler
    rw [userReplyWrapper_error env hrun]
    obtain ⟨l', hleads, hstep⟩ := hhandler
    have hsend := @leads_sendReply R m.trid.xid l' w env _ m.process (hx (refusal e)) (fun _ _ => False) w' hleads
    cases hreply : sendReply env (error m (refusal e)) m.process w' with
    | ok a w'' =>
      rw [hreply] at hsend
      exact ⟨_, .goes, hsend, hstep, nofun, nofun, fun h => nomatch h.2⟩
    | error e' w'' =>
      rw [hreply] at hsend
      exact hsend.elim

end

/-! ## The steps of the manager -/

theorem leads_rollback [Std.Refl R] (env : Environment) (hw : w.Sound) (m : OwnerRequest) :
    ∃ w', rollback env m w = .ok () w' ∧ ∃ l', Leads R m.trid.xid l' w w' ∧
      Life.Step (w.lives m.trid.xid) (.rollback m ↑(merged env w.state m)) l' .goes := by
  have hrollback : Triple (fun v => v = w) (rollback env m) _ _ :=
    leads_userReplyWrapper env (fun _ => rfl) (leads_basicRollback (R := R) env hw m)
  have h := hrollback w rfl
  cases hrun : rollback env m w with
  | ok a w' =>
    rw [hrun] at h
    obtain ⟨l', n, hleads, hstep, hn, haccepts⟩ := h
    refine ⟨w', rfl, l', hleads, ?_⟩
    cases n with
    | goes => exact hstep
    | accepts => exact (haccepts.1 rfl).1.elim
    | stops => exact absurd rfl hn
  | error e w' =>
    rw [hrun] at h
    exact h.elim

theorem leads_commit [Std.Refl R] (env : Environment) (hw : w.Sound) (m : OwnerRequest) :
    ∃ w', commit env m w = .ok () w' ∧ ∃ l' n, Leads R m.trid.xid l' w w' ∧
      Life.Step (w.lives m.trid.xid) (.commit m ↑(merged env w.state m)) l' n ∧ n ≠ .stops ∧
      (n = .accepts ↔ 2 ≤ (merged env w.state m).length ∧ throws (basicCommit env m w) = false) := by
  have hcommit : Triple (fun v => v = w) (commit env m) _ _ :=
    leads_userReplyWrapper env (fun _ => rfl) (leads_basicCommit (R := R) env hw m)
  have h := hcommit w rfl
  cases hrun : commit env m w with
  | ok a w' =>
    rw [hrun] at h
    exact ⟨w', rfl, h⟩
  | error e w' =>
    rw [hrun] at h
    exact h.elim

/-- Transactions are rolled back in turn, each once. -/
theorem leads_rollbacks (env : Environment) : ∀ (trids : List ID) {w : World}, w.Sound → (trids.map (·.xid)).Nodup →
    ∃ w', (trids.forM fun trid => rollback env ⟨0, env.process, trid, []⟩) w = .ok () w' ∧ w'.Sound ∧
      w'.running = w.running ∧ w'.state.persistentRequests = w.state.persistentRequests ∧
      (∀ x ∉ trids.map (·.xid), w'.lives x = w.lives x) ∧
      ∀ trid ∈ trids, ∃ rs, Life.Step (w.lives trid.xid) (.rollback ⟨0, env.process, trid, []⟩ rs) (w'.lives trid.xid) .goes
  | [], w, hw, _ => ⟨w, rfl, hw, rfl, rfl, fun _ _ => rfl, nofun⟩
  | trid :: trids, w, hw, hnodup => by
    obtain ⟨hnotMem, hnodup⟩ := List.nodup_cons.1 hnodup
    obtain ⟨w₁, hrun, l', hleads, hstep⟩ := leads_rollback (R := Eq) env hw ⟨0, env.process, trid, []⟩
    obtain ⟨w₂, hrest, hsound, hrunning, hpersistent, hothers, hsteps⟩ := leads_rollbacks env trids hleads.sound hnodup
    refine ⟨w₂, (bind_ok hrun).trans hrest, hsound, hrunning.trans hleads.running, hpersistent.trans hleads.persistent, ?_, ?_⟩
    · intro x hx
      rw [List.map_cons, List.mem_cons, not_or] at hx
      exact (hothers x hx.2).trans (hleads.others x hx.1).symm
    · intro u hu
      rcases List.mem_cons.1 hu with hu | hu
      · subst u
        refine ⟨↑(merged env w.state ⟨0, env.process, trid, []⟩), ?_⟩
        rw [hothers _ hnotMem, hleads.life]
        exact hstep
      · obtain ⟨rs, hu'⟩ := hsteps u hu
        have hne : u.xid ≠ trid.xid := by
          intro h
          have hmem : u.xid ∈ trids.map (·.xid) := List.mem_map_of_mem hu
          rw [h] at hmem
          exact hnotMem hmem
        rw [← hleads.others u.xid hne] at hu'
        exact ⟨rs, hu'⟩

/-- A resource that has answered is no longer at work. -/
theorem lives_answer {phase : Phase} {message : ResourceReply} (he : w.admits (.reply phase message)) :
    (w.answer (.reply phase message)).lives =
      Function.update w.lives message.trid.xid ((w.lives message.trid.xid).answered phase message) := by
  obtain ⟨-, h, hmem, hanswered⟩ := he
  obtain ⟨g, before, rest, -, hg, hworking, herase⟩ := List.exists_of_eraseP hmem hanswered
  obtain ⟨hphase, htrid, hresource, -⟩ := of_decide_eq_true hg
  have herased : (w.answer (.reply phase message)).working = before ++ rest := herase
  funext y
  by_cases hy : y = message.trid.xid
  · subst hy
    have hworks : World.works message.trid.xid [g] = [(phase, message.resource)] := by
      simp [World.works, htrid, hphase, hresource]
    have hunanswered : (w.answer (.reply phase message)).unanswered message.trid.xid =
        (w.unanswered message.trid.xid).erase (phase, message.resource) := by
      unfold World.unanswered
      rw [herased, hworking, List.append_cons, World.works_append, World.works_append, World.works_append, hworks]
      simp only [← Multiset.coe_add, Multiset.coe_singleton]
      rw [add_comm (_ : Multiset (Phase × Nat)) {(phase, message.resource)}, Multiset.singleton_add, Multiset.cons_add,
        Multiset.cons_add, Multiset.erase_cons_head]
      rfl
    rw [Function.update_self]
    exact congrArg (fun u => ({ w.lives message.trid.xid with unanswered := u } : Life)) hunanswered
  · rw [Function.update_of_ne hy]
    have hne : (g.request.trid.xid == y) = false := beq_eq_false_iff_ne.2 (by rw [htrid]; exact Ne.symm hy)
    have hworks : World.works y [g] = [] := by simp [World.works, hne]
    refine congrArg (fun u => ({ w.lives y with unanswered := u } : Life)) ?_
    show (w.answer (.reply phase message)).unanswered y = w.unanswered y
    unfold World.unanswered
    rw [herased, hworking, List.append_cons, World.works_append, World.works_append, World.works_append, hworks,
      List.append_nil]
    rfl

/-- What an event is for a transaction. -/
def World.Signals (env : Environment) (w : World) (x : XID) (e : Event) (s : Signal) : Prop :=
  match e with
  | .involved m =>
    s = if m.trid.xid = x then .involved m.trid ↑(involved env w.state (w.state.known m.trid) m.resources).resources else .other
  | .commit m => s = if m.trid.xid = x then .commit m ↑(merged env w.state m) else .other
  | .rollback m => s = if m.trid.xid = x then .rollback m ↑(merged env w.state m) else .other
  | .exit pid =>
    (∃ t ∈ w.state.transactions, t.trid.xid = x ∧ t.trid.owner.pid = pid ∧
      ∃ rs, s = .rollback ⟨0, env.process, t.trid, []⟩ rs) ∨
    (∀ t ∈ w.state.transactions, t.trid.xid = x → t.trid.owner.pid ≠ pid) ∧ s = .other
  | .reply phase m => s = if m.trid.xid = x then .reply phase m else .other
  | .connect _ | .write => s = .other

/-- A request to commit a transaction of two or more resources, all of which could be asked to prepare. -/
def Accepted (env : Environment) (x : XID) (w : World) : Event → Prop
  | .commit m => m.trid.xid = x ∧ 2 ≤ (merged env w.state m).length ∧ throws (basicCommit env m w) = false
  | _ => False

/-- What an event has made of the lives. -/
structure Lived (env : Environment) (w : World) (e : Event) (w' : World) : Prop where
  sound : w'.Sound
  persistent : w'.state.persistentRequests = []
  step : ∀ x, ∃ s n, w.Signals env x e s ∧ Life.Step (w.lives x) s (w'.lives x) n ∧ (n = .stops ↔ w'.running = false) ∧
    (n = .accepts ↔ Accepted env x w e)

theorem Unlogs.step {l l' : Life} (h : Unlogs l l') {n : Note} (hn : n ≠ .accepts) : Life.Step l .other l' n := by
  rcases h with rfl | rfl
  · exact .other hn
  · exact .unlogged hn

/-- An exception that no handler catches ends the pump. -/
def World.stop (w : World) : World := { w with state := { w.state with log := w.state.log.writeCommit }, running := false }

theorem stop_lives (w : World) : w.stop.lives = w.lives := rfl

theorem World.Sound.stop (hw : w.Sound) : w.stop.Sound := ⟨hw.instances, hw.transactions, hw.resources, hw.rows⟩

theorem step_ok (env : Environment) {e : Event} (w' : World) (h : handle env e (w.answer e) = .ok () w') : w.step env e = w' := by
  unfold World.step
  rw [h]

theorem step_error (env : Environment) {e : Event} {ex : Exception} (w' : World)
    (h : handle env e (w.answer e) = .error ex w') : w.step env e = w'.stop := by
  unfold World.step
  rw [h]
  rfl

/-- A message of one transaction: of the others, at most what is logged is removed. -/
theorem lived_one {env : Environment} {e : Event} {x : XID} {w' : World} {s : Signal} {n : Note} (hsound : w'.Sound)
    (hp : w'.state.persistentRequests = []) (hstep : Life.Step (w.lives x) s (w'.lives x) n)
    (hothers : ∀ y ≠ x, Unlogs (w.lives y) (w'.lives y)) (hs : w.Signals env x e s)
    (hother : ∀ y ≠ x, w.Signals env y e .other) (hstops : n = .stops ↔ w'.running = false)
    (haccepts : n = .accepts ↔ Accepted env x w e) (hnone : ∀ y ≠ x, ¬ Accepted env y w e) : Lived env w e w' := by
  refine ⟨hsound, hp, fun y => ?_⟩
  by_cases hy : y = x
  · subst y
    exact ⟨s, n, hs, hstep, hstops, haccepts⟩
  · cases hr : w'.running with
    | true => exact ⟨_, .goes, hother y hy, (hothers y hy).step nofun, by simp, ⟨nofun, fun h => absurd h (hnone y hy)⟩⟩
    | false => exact ⟨_, .stops, hother y hy, (hothers y hy).step nofun, by simp, ⟨nofun, fun h => absurd h (hnone y hy)⟩⟩

/-- A message of no transaction. -/
theorem lived_none {env : Environment} {e : Event} {w' : World} (hsound : w'.Sound) (hp : w'.state.persistentRequests = [])
    (hlives : w'.lives = w.lives) (hother : ∀ x, w.Signals env x e .other) (hnone : ∀ x, ¬ Accepted env x w e) :
    Lived env w e w' := by
  refine ⟨hsound, hp, fun x => ?_⟩
  rw [hlives]
  cases hr : w'.running with
  | true => exact ⟨_, .goes, hother x, .other nofun, by simp, ⟨nofun, fun h => absurd h (hnone x)⟩⟩
  | false => exact ⟨_, .stops, hother x, .other nofun, by simp, ⟨nofun, fun h => absurd h (hnone x)⟩⟩

theorem lived_silent {env : Environment} {e : Event} (hw : w.Sound) (hp : w.state.persistentRequests = [])
    (hanswer : w.answer e = w) (hs : Silent w (after (handle env e w))) (hother : ∀ x, w.Signals env x e .other)
    (hnone : ∀ x, ¬ Accepted env x w e) : Lived env w e (w.step env e) := by
  cases hrun : handle env e w with
  | ok a w' =>
    rw [hrun] at hs
    rw [step_ok env w' (hanswer.symm ▸ hrun)]
    exact lived_none (hs.sound hw) (hs.persistent.trans hp) hs.lives hother hnone
  | error ex w' =>
    rw [hrun] at hs
    rw [step_error env w' (hanswer.symm ▸ hrun)]
    exact lived_none (hs.sound hw).stop (hs.persistent.trans hp) hs.lives hother hnone

/-- The transactions a process has left are rolled back. -/
theorem lived_exit {env : Environment} (hw : w.Sound) (hp : w.state.persistentRequests = []) (hr : w.running = true)
    (pid : Nat) : Lived env w (.exit pid) (w.step env (.exit pid)) := by
  set left := w.state.transactions.filter fun t => t.trid.owner.pid == pid with hleft
  have hnodup : ((left.map (·.trid)).map (·.xid)).Nodup := by
    rw [List.map_map]
    exact hw.transactions.sublist ((List.filter_sublist).map _)
  obtain ⟨w', hrun, hsound, hrunning, hpersistent, hothers, hsteps⟩ := leads_rollbacks env _ hw hnodup
  rw [step_ok env w' (by exact hrun)]
  refine ⟨hsound, hpersistent.trans hp, fun x => ?_⟩
  have hgoes : Note.goes = .stops ↔ w'.running = false := by simp [hrunning, hr]
  by_cases hx : ∃ t ∈ left, t.trid.xid = x
  · obtain ⟨t, ht, rfl⟩ := hx
    obtain ⟨hmem, hpid⟩ := List.mem_filter.1 ht
    obtain ⟨rs, hstep⟩ := hsteps t.trid (List.mem_map_of_mem ht)
    exact ⟨_, .goes, .inl ⟨t, hmem, rfl, by simpa using hpid, rs, rfl⟩, hstep, hgoes, nofun, False.elim⟩
  · push Not at hx
    rw [hothers x (by simpa using hx)]
    refine ⟨_, .goes, .inr ⟨fun t ht htx hpid => hx t ?_ htx, rfl⟩, .other nofun, hgoes, nofun, False.elim⟩
    exact List.mem_filter.2 ⟨ht, by simpa using hpid⟩

/-- A reply is a step of its transaction, also when it is one no handler gets or when a handler throws. -/
theorem lived_reply {env : Environment} (hw : w.Sound) (hp : w.state.persistentRequests = []) {phase : Phase}
    {message : ResourceReply} (he : w.admits (.reply phase message)) :
    Lived env w (.reply phase message) (w.step env (.reply phase message)) := by
  have hlives := lives_answer he
  have hanswered : (w.answer (.reply phase message)).lives message.trid.xid =
      (w.lives message.trid.xid).answered phase message := by
    rw [hlives, Function.update_self]
  have hsound : (w.answer (.reply phase message)).Sound := ⟨hw.instances, hw.transactions, hw.resources, hw.rows⟩
  have h := leads_wrapper env phase hsound hanswered _ rfl
  have hother : ∀ y ≠ message.trid.xid, w.Signals env y (.reply phase message) .other := fun y hy =>
    (if_neg (Ne.symm hy)).symm
  have hself : w.Signals env message.trid.xid (.reply phase message) (.reply phase message) := (if_pos rfl).symm
  have hothers : ∀ {l' : Life} {w' : World}, Leads Unlogs message.trid.xid l' (w.answer (.reply phase message)) w' →
      ∀ y ≠ message.trid.xid, Unlogs (w.lives y) (w'.lives y) := by
    intro l' w' h y hy
    have := h.others y hy
    rwa [hlives, Function.update_of_ne hy] at this
  cases hrun : wrapper env (replyHandler env phase) message (w.answer (.reply phase message)) with
  | ok a w' =>
    rw [hrun] at h
    obtain ⟨l', hleads, hstep⟩ := h
    rw [step_ok env w' (by exact hrun)]
    have hrunning : w'.running = true := hleads.running.trans he.1
    rw [← hleads.life] at hstep
    exact lived_one hleads.sound (hleads.persistent.trans hp) hstep (hothers hleads) hself hother
      (by simp [hrunning]) ⟨nofun, False.elim⟩ fun _ _ => id
  | error ex w' =>
    rw [hrun] at h
    obtain ⟨l', hleads, hstep⟩ := h
    rw [step_error env w' (by exact hrun)]
    rw [← hleads.life] at hstep
    have hrest : ∀ y ≠ message.trid.xid, Unlogs (w.lives y) (w'.stop.lives y) := by
      rw [stop_lives]
      exact hothers hleads
    exact lived_one hleads.sound.stop (hleads.persistent.trans hp) hstep hrest hself hother
      ⟨fun _ => rfl, fun _ => rfl⟩ ⟨nofun, False.elim⟩ fun _ _ => id

/-- Every event is, for each transaction, a step of its life. -/
theorem lived_step (env : Environment) (hw : w.Sound) (hp : w.state.persistentRequests = []) {e : Event} (he : w.admits e) :
    Lived env w e (w.step env e) := by
  have hr : w.running = true := he.1
  cases e with
  | involved m =>
    obtain ⟨w', hrun, hleads⟩ := leads_involve (R := Unlogs) env hw m.trid m.resources
    rw [step_ok env w' (by exact bind_ok hrun)]
    refine lived_one hleads.sound (hleads.persistent.trans hp) (n := .goes) ?_ hleads.others (if_pos rfl).symm
      (fun y hy => (if_neg (Ne.symm hy)).symm) (by simp [hleads.running, hr]) ⟨nofun, False.elim⟩ fun _ _ => id
    have hj : Joins ((w.lives m.trid.xid).known m.trid).resources
        ↑(involved env w.state (w.state.known m.trid) m.resources).resources := by
      rw [known_record]
      exact involved_joins env w.state (w.state.known m.trid) m.resources
    have hstep := Life.Step.involved hj
    rw [known_record] at hstep
    rw [hleads.life]
    exact hstep
  | commit m =>
    obtain ⟨w', hrun, l', n, hleads, hstep, hn, haccepts⟩ := leads_commit (R := Unlogs) env hw m
    rw [step_ok env w' (by exact hrun)]
    rw [← hleads.life] at hstep
    refine lived_one hleads.sound (hleads.persistent.trans hp) hstep hleads.others (if_pos rfl).symm
      (fun y hy => (if_neg (Ne.symm hy)).symm) ?_ ?_ fun y hy h => hy h.1.symm
    · exact ⟨fun h => absurd h hn, fun h => by rw [hleads.running, hr] at h; cases h⟩
    · exact haccepts.trans ⟨fun h => ⟨rfl, h⟩, fun h => h.2⟩
  | rollback m =>
    obtain ⟨w', hrun, l', hleads, hstep⟩ := leads_rollback (R := Unlogs) env hw m
    rw [step_ok env w' (by exact hrun)]
    rw [← hleads.life] at hstep
    exact lived_one hleads.sound (hleads.persistent.trans hp) hstep hleads.others (if_pos rfl).symm
      (fun y hy => (if_neg (Ne.symm hy)).symm) (by simp [hleads.running, hr]) ⟨nofun, False.elim⟩ fun _ _ => id
  | exit pid => exact lived_exit hw hp hr pid
  | connect m => exact lived_silent hw hp rfl ((silent_connect env m).after w) (fun _ => rfl) fun _ => id
  | reply phase m => exact lived_reply hw hp he
  | write => exact lived_silent hw hp rfl (silent_write env hp) (fun _ => rfl) fun _ => id

end

/-! ## Whole runs -/

/-- A reply is one to a request that is unanswered; it concerns the transaction it names. -/
def Life.Heeds (x : XID) (l : Life) : Signal → Prop
  | .reply phase m => m.trid.xid = x ∧ (phase, m.resource) ∈ l.unanswered
  | _ => True

/-- The life of `x` is led from `l` to `l'` by what happens to it. -/
inductive Life.Run (x : XID) (l : Life) : List (Signal × Note) → Life → Prop
  | nil : Run x l [] l
  | snoc {ss : List (Signal × Note)} {l' l'' : Life} {s : Signal} {n : Note} :
      Run x l ss l' → l'.Heeds x s → Life.Step l' s l'' n → Run x l (ss ++ [(s, n)]) l''

/-- What the events of a run are for a transaction, and how each of them ends. -/
inductive Signalled (env : Environment) (x : XID) (w : World) : List Event → List (Signal × Note) → World → Prop
  | nil : Signalled env x w [] [] w
  | snoc {es : List Event} {ss : List (Signal × Note)} {w' : World} {e : Event} {s : Signal} {n : Note} :
      Signalled env x w es ss w' → w'.Signals env x e s → (n = .stops ↔ (w'.step env e).running = false) →
      (n = .accepts ↔ Accepted env x w' e) → Signalled env x w (es ++ [e]) (ss ++ [(s, n)]) (w'.step env e)

theorem kept_of_reachable {env : Environment} {w : World} (h : (manager env).Reachable w) :
    w.Sound ∧ w.state.persistentRequests = [] := by
  refine h.invariant (I := fun w => w.Sound ∧ w.state.persistentRequests = []) ?_ fun w e hw he => ?_
  · rintro _ ⟨resources, log, hstarted, rfl⟩
    exact ⟨⟨fun p hp i hi => (hstarted.instances p hp i hi).1, List.nodup_nil, nofun, hstarted.rows⟩, rfl⟩
  · have hlived := lived_step env hw.1 hw.2 he
    exact ⟨hlived.sound, hlived.persistent⟩

/-- What is answered has been asked. -/
theorem heeds_of_admits {env : Environment} {w : World} {e : Event} (he : w.admits e) {x : XID} {s : Signal}
    (hs : w.Signals env x e s) : (w.lives x).Heeds x s := by
  cases e with
  | reply phase m =>
    obtain ⟨-, h, hmem, hanswered⟩ := he
    obtain ⟨hphase, htrid, hresource, -⟩ := of_decide_eq_true hanswered
    by_cases hx : m.trid.xid = x
    · rw [show s = .reply phase m from hs.trans (if_pos hx)]
      refine ⟨hx, ?_⟩
      have hwork : (phase, m.resource) ∈ World.works x w.working := by
        refine List.mem_map.2 ⟨h, List.mem_filter.2 ⟨hmem, ?_⟩, by rw [hphase, hresource]⟩
        rw [htrid, hx]
        exact beq_self_eq_true x
      exact Multiset.mem_add.2 (.inl hwork)
    · rw [show s = .other from hs.trans (if_neg hx)]
      trivial
  | involved m =>
    change s = if m.trid.xid = x then _ else _ at hs
    split_ifs at hs <;> rw [hs] <;> trivial
  | commit m =>
    change s = if m.trid.xid = x then _ else _ at hs
    split_ifs at hs <;> rw [hs] <;> trivial
  | rollback m =>
    change s = if m.trid.xid = x then _ else _ at hs
    split_ifs at hs <;> rw [hs] <;> trivial
  | exit pid =>
    rcases hs with ⟨t, -, -, -, rs, rfl⟩ | ⟨-, rfl⟩ <;> trivial
  | connect m => rw [show s = .other from hs]; trivial
  | write => rw [show s = .other from hs]; trivial

/-- A run of the manager is a run of each life. -/
theorem run_lives {env : Environment} {w w' : World} {es : List Event} (h : (manager env).Reachable w)
    (hrun : (manager env).Run w es w') (x : XID) :
    ∃ ss, Signalled env x w es ss w' ∧ (w.lives x).Run x ss (w'.lives x) := by
  induction hrun with
  | nil => exact ⟨[], .nil, .nil⟩
  | snoc hprevious he ih =>
    obtain ⟨ss, hsignalled, hlives⟩ := ih
    obtain ⟨t, es, ht, hr⟩ := h
    obtain ⟨hsound, hp⟩ := kept_of_reachable ⟨t, es ++ _, ht, hr.append hprevious⟩
    obtain ⟨s, n, hs, hstep, hstops, haccepts⟩ := (lived_step env hsound hp he).step x
    exact ⟨_, .snoc hsignalled hs hstops haccepts, .snoc hlives (heeds_of_admits he hs) hstep⟩

/-- What a transaction goes through in a run of the manager, from the start on, is a run of its life: it is
not known at first, and every message leads it one step on. -/
theorem manager_refines_lives {env : Environment} {resources : List Proxy} {log : List Row} (h : Started resources log)
    {es : List Event} {w : World} (hrun : (manager env).Run (World.start resources log) es w) (x : XID) :
    ∃ ss, Signalled env x (World.start resources log) es ss w ∧
      Life.Run x ⟨none, 0, 0, 0, log.any fun row => row.xid == x⟩ ss (w.lives x) :=
  run_lives (.of_init ⟨resources, log, h, rfl⟩) hrun x

theorem twoProxies_refines : ∃ ss, Signalled neverFull someID.xid (World.start twoProxies []) (prepared ++ committed) ss
      ((prepared ++ committed).foldl (manager neverFull).step (World.start twoProxies [])) ∧
    Life.Run someID.xid ⟨none, 0, 0, 0, false⟩ ss
      (((prepared ++ committed).foldl (manager neverFull).step (World.start twoProxies [])).lives someID.xid) :=
  manager_refines_lives twoProxies_started (Machine.Run.foldl (.nil _) (by decide +kernel)) someID.xid

end Casual.Manager

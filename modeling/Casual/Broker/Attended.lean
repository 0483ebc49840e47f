/-
Runs of the broker with its pump: each lookup of a process is answered once, or waits as long as nobody holds the
identity.
-/
import Casual.Broker.Singletons

namespace Casual.Broker

open Casual.Common Casual.Communication Casual.Lib State

/-! ## The pump -/

namespace State

section

variable (env : Environment)

/-- Each target has got the reply, is left, or is gone. -/
theorem pendingSend_kept (reply : Reply) : ∀ (targets : List Nat) (s : State), ∃ (left out : List Nat) (n : Nat),
    pendingSend env reply targets s = .ok left { s with
      sent := s.sent ++ out.map fun queue => (queue, reply)
      readings := n } ∧
    (∀ queue ∈ out ++ left, queue ∈ targets) ∧
    ∀ queue, (∀ n, env.gone n queue = false) → (out ++ left).count queue = targets.count queue
  | [], s => ⟨[], [], s.readings, by simp [pendingSend, pure, EStateM.pure], fun _ hq => hq, fun _ _ => rfl⟩
  | queue :: targets, s => by
    have hread : reading s = .ok s.readings { s with readings := s.readings + 1 } := rfl
    unfold pendingSend
    rw [bind_ok hread]
    by_cases hgone : env.gone s.readings queue = true
    · obtain ⟨left, out, n, h, hmem, hcount⟩ := pendingSend_kept reply targets { s with readings := s.readings + 1 }
      refine ⟨left, out, n, ?_, fun q hq => List.mem_cons_of_mem _ (hmem q hq), fun q hq => ?_⟩
      · rw [if_pos hgone, h]
      · have hne : queue ≠ q := by
          rintro rfl
          cases hgone.symm.trans (hq _)
        rw [hcount q hq, List.count_cons_of_ne hne]
    · by_cases hfull : env.full s.readings queue = true
      · obtain ⟨left, out, n, h, hmem, hcount⟩ := pendingSend_kept reply targets { s with readings := s.readings + 1 }
        have hperm : (out ++ queue :: left).Perm (queue :: (out ++ left)) := List.perm_middle
        have hcons : ∀ q ∈ queue :: (out ++ left), q ∈ queue :: targets := fun q hq =>
          (List.mem_cons.1 hq).elim (fun h => h ▸ List.mem_cons_self) fun h => List.mem_cons_of_mem _ (hmem q h)
        refine ⟨queue :: left, out, n, ?_, ?_, fun q hq => ?_⟩
        · rw [if_neg hgone, if_pos hfull, bind_ok h]
          rfl
        · exact fun q hq => hcons q (hperm.mem_iff.1 hq)
        · rw [hperm.count_eq, List.count_cons, List.count_cons, hcount q hq]
      · obtain ⟨left, out, n, h, hmem, hcount⟩ :=
          pendingSend_kept reply targets (push queue reply { s with readings := s.readings + 1 })
        have hpush : (modify (push queue reply) : M Unit) { s with readings := s.readings + 1 } =
          .ok () (push queue reply { s with readings := s.readings + 1 }) := rfl
        have hcons : ∀ q ∈ queue :: (out ++ left), q ∈ queue :: targets := fun q hq =>
          (List.mem_cons.1 hq).elim (fun h => h ▸ List.mem_cons_self) fun h => List.mem_cons_of_mem _ (hmem q h)
        refine ⟨left, queue :: out, n, ?_, hcons, fun q hq => ?_⟩
        · rw [if_neg hgone, if_neg hfull, bind_ok hpush, h]
          simp only [push, List.map_cons, List.append_assoc, List.singleton_append]
        · rw [List.cons_append, List.count_cons, List.count_cons, hcount q hq]

theorem count_map_pair (targets : List Nat) (reply : Reply) (x : Nat × Reply) :
    (targets.map fun queue => (queue, reply)).count x = if x.2 = reply then targets.count x.1 else 0 := by
  obtain ⟨queue, other⟩ := x
  induction targets with
  | nil => simp
  | cons q targets ih =>
    rw [List.map_cons, List.count_cons, ih, List.count_cons]
    by_cases heq : other = reply
    · subst heq
      simp
    · simp [heq, Ne.symm heq]

/-- Nothing is added to what is outgoing, and nothing lost for a queue that is there. -/
theorem sendReplies_kept : ∀ (order : List (List Nat × Reply)) (s : State),
    ∃ (remain : List (List Nat × Reply)) (out : List (Nat × Reply)) (n : Nat),
      sendReplies env order s = .ok remain { s with sent := s.sent ++ out, readings := n } ∧
      (∀ x ∈ out ++ flatten remain, x ∈ flatten order) ∧
      ∀ x, (∀ n, env.gone n x.1 = false) → (out ++ flatten remain).count x = (flatten order).count x
  | [], s => ⟨[], [], s.readings, by simp [sendReplies, pure, EStateM.pure], nofun, fun _ _ => rfl⟩
  | entry :: order, s => by
    obtain ⟨left, sent, m, hsend, hmem, hcount⟩ := pendingSend_kept env entry.2 entry.1 s
    obtain ⟨remain, out, n, hrest, hmem', hcount'⟩ := sendReplies_kept order { s with
      sent := s.sent ++ sent.map fun queue => (queue, entry.2), readings := m }
    -- those that are left are kept with their reply
    have hflatten : flatten (if left.isEmpty then remain else (left, entry.2) :: remain) =
        (left.map fun queue => (queue, entry.2)) ++ flatten remain := by
      cases left <;> rfl
    have hperm : ((sent.map fun queue => (queue, entry.2)) ++ out ++
        ((left.map fun queue => (queue, entry.2)) ++ flatten remain)).Perm
          (((sent ++ left).map fun queue => (queue, entry.2)) ++ (out ++ flatten remain)) := by
      rw [List.map_append, List.append_assoc, List.append_assoc]
      refine List.Perm.append_left _ ?_
      rw [← List.append_assoc, ← List.append_assoc]
      exact List.perm_append_comm.append_right _
    refine ⟨if left.isEmpty then remain else (left, entry.2) :: remain,
      (sent.map fun queue => (queue, entry.2)) ++ out, n, ?_, fun x hx => ?_, fun x hx => ?_⟩
    · unfold sendReplies
      rw [bind_ok hsend, bind_ok hrest, ← List.append_assoc]
      rfl
    · rw [hflatten, hperm.mem_iff] at hx
      rcases List.mem_append.1 hx with hx | hx
      · obtain ⟨queue, hqueue, rfl⟩ := List.mem_map.1 hx
        exact List.mem_append_left _ (List.mem_map_of_mem (hmem queue hqueue))
      · exact List.mem_append_right _ (hmem' x hx)
    · have hcons : flatten (entry :: order) = (entry.1.map fun queue => (queue, entry.2)) ++ flatten order := rfl
      rw [hflatten, hperm.count_eq, List.count_append, hcount' x hx, count_map_pair, hcount x.1 hx, hcons,
        List.count_append, count_map_pair]

/-- The pump has tried: what is outgoing is as before, but for queues that are gone. -/
structure Pumped (s t : State) : Prop where
  singletons : t.singletons = s.singletons
  processLookup : t.processLookup = s.processLookup
  running : t.running = s.running
  links : t.services = s.services ∧ t.instances = s.instances ∧ t.servers = s.servers
  subset : ∀ x ∈ t.outgoing, x ∈ s.outgoing
  count : ∀ x, (∀ n, env.gone n x.1 = false) → t.outgoing.count x = s.outgoing.count x

theorem pumped_pumpReplies {order : List (List Nat × Reply)} {s : State} (h : order.Perm s.replies) :
    Pumped env s (after (pumpReplies env order s)) := by
  obtain ⟨remain, out, n, hsend, hmem, hcount⟩ := sendReplies_kept env order { s with replies := [] }
  have hfirst : (modify fun s => { s with replies := [] } : M Unit) s = .ok () { s with replies := [] } := rfl
  have hrun : pumpReplies env order s = .ok () { s with sent := s.sent ++ out, replies := remain, readings := n } := by
    unfold pumpReplies
    rw [bind_ok hfirst, bind_ok hsend]
    rfl
  have hflatten : (flatten order).Perm (flatten s.replies) := h.flatMap_right _
  rw [hrun, after_ok]
  refine ⟨rfl, rfl, rfl, ⟨rfl, rfl, rfl⟩, fun x hx => ?_, fun x hx => ?_⟩
  · unfold outgoing at hx ⊢
    rw [List.append_assoc] at hx
    rcases List.mem_append.1 hx with hx | hx
    · exact List.mem_append_left _ hx
    · exact List.mem_append_right _ (hflatten.mem_iff.1 (hmem x hx))
  · unfold outgoing
    rw [List.append_assoc, List.count_append, hcount x hx, hflatten.count_eq, ← List.count_append]

end

/-! ## Counting -/

theorem isAnswer_of_isAnswered {k : Key} {x : Nat × Reply} (h : k.isAnswered x = true) :
    isAnswer x = true ∧ x.1 = k.queue := by
  obtain ⟨queue, reply⟩ := x
  unfold Key.isAnswered at h
  cases reply with
  | process correlation identification process =>
    rw [beq_iff_eq.1 h]
    exact ⟨rfl, rfl⟩
  | _ => cases h

/-- Answers to one lookup are counted among all answers. -/
theorem countP_answers (k : Key) (l : List (Nat × Reply)) :
    l.countP k.isAnswered = (l.filter isAnswer).countP k.isAnswered := by
  rw [List.countP_filter]
  apply List.countP_congr
  intro x _
  rw [Bool.and_eq_true]
  exact ⟨fun h => ⟨h, (isAnswer_of_isAnswered h).1⟩, And.left⟩

theorem isAnswered_answerTo (k : Key) (l : ProcessLookup) (process : Process) :
    k.isAnswered (answerTo l process) = decide (.of l = k) := by
  rw [Bool.eq_iff_iff, decide_eq_true_iff]
  exact beq_iff_eq.trans eq_comm

/-- A lookup that is handled is answered or waits. -/
theorem countP_told (singletons : List (Uuid × Process)) (k : Key) : ∀ ls : List ProcessLookup,
    (told singletons ls).countP k.isAnswered +
      (ls.filter fun l => (response singletons l).isNone).countP (fun l => .of l = k) = ls.countP fun l => .of l = k
  | [] => rfl
  | l :: ls => by
    have ih := countP_told singletons k ls
    unfold told at ih ⊢
    cases hresponse : response singletons l with
    | some process =>
      rw [List.filterMap_cons_some (by rw [hresponse]; rfl), List.countP_cons, isAnswered_answerTo, List.countP_cons,
        List.filter_cons_of_neg (by rw [hresponse]; exact Bool.false_ne_true)]
      omega
    | none =>
      rw [List.filterMap_cons_none (by rw [hresponse]; rfl), List.filter_cons_of_pos (by rw [hresponse]; rfl),
        List.countP_cons, List.countP_cons]
      omega

/-- Who is told holds the identity, or nobody is. -/
theorem response_eq_some {singletons : List (Uuid × Process)} {l : ProcessLookup} {process : Process}
    (h : response singletons l = some process) :
    (l.identification, process) ∈ singletons ∨ process = nullProcess ∧ l.wait = false := by
  unfold response at h
  cases hfind : singletons.find? fun entry => entry.1 == l.identification with
  | some found =>
    rw [hfind] at h
    have hid : found.1 = l.identification := by simpa using List.find?_some hfind
    rw [← Option.some.inj h, ← hid]
    exact .inl (List.mem_of_find?_eq_some hfind)
  | none =>
    rw [hfind] at h
    dsimp only at h
    split_ifs at h with hwait
    exact .inr ⟨(Option.some.inj h).symm, Bool.not_eq_true _ ▸ hwait⟩

theorem response_isNone {singletons : List (Uuid × Process)} {l : ProcessLookup} (h : (response singletons l).isNone = true) :
    l.wait = true ∧ l.identification ∉ singletons.map Prod.fst := by
  unfold response at h
  cases hfind : singletons.find? fun entry => entry.1 == l.identification with
  | some found =>
    rw [hfind] at h
    cases h
  | none =>
    rw [hfind] at h
    dsimp only at h
    split_ifs at h with hwait
    · refine ⟨hwait, fun hmem => ?_⟩
      have hsome := mem_singletons.1 hmem
      rw [hfind] at hsome
      cases hsome
    · cases h

theorem perm_insertSingleton (identification : Uuid) (process : Process) : ∀ singletons : List (Uuid × Process),
    (insertSingleton identification process singletons).Perm ((identification, process) :: singletons)
  | [] => .refl _
  | entry :: rest => by
    unfold insertSingleton
    split_ifs
    · exact .refl _
    · exact ((perm_insertSingleton identification process rest).cons entry).trans (.swap ..)

/-- What the pump has done leaves as many answers for a queue that is there. -/
theorem Pumped.countP {env : Environment} {s t : State} (h : Pumped env s t) {k : Key} (hk : ∀ n, env.gone n k.queue = false) :
    t.outgoing.countP k.isAnswered = s.outgoing.countP k.isAnswered := by
  have hperm : (t.outgoing.filter k.isAnswered).Perm (s.outgoing.filter k.isAnswered) := by
    rw [List.perm_iff_count]
    intro x
    by_cases hx : k.isAnswered x = true
    · rw [List.count_filter hx, List.count_filter hx, h.count x]
      rw [(isAnswer_of_isAnswered hx).2]
      exact hk
    · rw [List.count_eq_zero_of_not_mem fun hmem => hx (List.mem_filter.1 hmem).2,
        List.count_eq_zero_of_not_mem fun hmem => hx (List.mem_filter.1 hmem).2]
  rw [List.countP_eq_length_filter, List.countP_eq_length_filter, hperm.length_eq]

end State

/-! ## What each step keeps -/

namespace Sought

/-- A state that is right for what was asked, and refers to what there is. -/
structure Kept (s : State) (asked : List ProcessLookup) (granted : List (Uuid × Process)) (lost : Nat → Prop) : Prop where
  running : s.running = true
  single : (s.singletons.map Prod.fst).Nodup
  waiting : ∀ l ∈ s.processLookup, l.wait = true ∧ l.identification ∉ s.singletons.map Prod.fst
  once : ∀ k : Key, ¬ lost k.queue →
    s.outgoing.countP k.isAnswered + s.processLookup.countP (fun l => .of l = k) = asked.countP fun l => .of l = k
  named : ∀ x ∈ s.outgoing.filter isAnswer, ∀ correlation identification process,
    x.2 = .process correlation identification process → (identification, process) ∈ granted ∨
      process = nullProcess ∧ ∃ l ∈ asked, l.wait = false ∧ .of l = (⟨x.1, correlation, identification⟩ : Key)

variable {s t : State} {asked : List ProcessLookup} {granted granted' : List (Uuid × Process)} {lost lost' : Nat → Prop}

theorem Kept.mono (h : Kept s asked granted lost) (hgranted : ∀ x ∈ granted, x ∈ granted')
    (hlost : ∀ queue, lost queue → lost' queue) : Kept s asked granted' lost' := by
  refine ⟨h.running, h.single, h.waiting, fun k hk => h.once k fun hl => hk (hlost _ hl), ?_⟩
  exact fun x hx c i p heq => (h.named x hx c i p heq).imp_left (hgranted _)

/-- Answers and lookups that wait stay, and perhaps a holder is gone. -/
theorem Kept.fewer (h : Kept s asked granted lost) (hst : Fewer s t) : Kept t asked granted lost := by
  have hsublist : (t.singletons.map Prod.fst).Sublist (s.singletons.map Prod.fst) := hst.singletons.map _
  refine ⟨hst.running.trans h.running, h.single.sublist hsublist, ?_, fun k hk => ?_, fun x hx => ?_⟩
  · rw [hst.processLookup]
    exact fun l hl => ⟨(h.waiting l hl).1, fun hmem => (h.waiting l hl).2 (hsublist.subset hmem)⟩
  · rw [countP_answers, hst.answers.countP_eq, ← countP_answers, hst.processLookup]
    exact h.once k hk
  · exact h.named x (hst.answers.mem_iff.1 hx)

/-- Lookups are handled: those that come now, or those that have waited. -/
theorem Kept.served {ls more : List ProcessLookup} {u : State} (h : Kept s asked granted lost) (hserved : Served ls u t)
    (hrunning : u.running = s.running) (hout : u.outgoing = s.outgoing) (hsingle : (u.singletons.map Prod.fst).Nodup)
    (hwaiting : ∀ l ∈ u.processLookup, l.wait = true ∧ l.identification ∉ u.singletons.map Prod.fst)
    (hcount : ∀ k : Key, u.processLookup.countP (fun l => .of l = k) + ls.countP (fun l => .of l = k) =
      s.processLookup.countP (fun l => .of l = k) + more.countP fun l => .of l = k)
    (hdirect : ∀ l ∈ ls, l.wait = false → l ∈ more) :
    Kept t (asked ++ more) (granted ++ t.singletons) lost := by
  refine ⟨?_, ?_, fun l hl => ?_, fun k hk => ?_, fun x hx correlation identification process hprocess => ?_⟩
  · rw [hserved.running, hrunning]
    exact h.running
  · rw [hserved.singletons]
    exact hsingle
  · rw [hserved.processLookup] at hl
    rw [hserved.singletons]
    rcases List.mem_append.1 hl with hl | hl
    · exact hwaiting l hl
    · exact response_isNone (List.mem_filter.1 hl).2
  · have honce := h.once k hk
    have htold := countP_told u.singletons k ls
    have hk := hcount k
    rw [countP_answers, hserved.answers.countP_eq, List.countP_append, ← countP_answers, hout, hserved.processLookup,
      List.countP_append, List.countP_append]
    omega
  · rw [hserved.answers.mem_iff, hout] at hx
    rcases List.mem_append.1 hx with hx | hx
    · obtain ⟨l, hl, hresponse⟩ := List.mem_filterMap.1 hx
      obtain ⟨holder, hholder, rfl⟩ := Option.map_eq_some_iff.1 hresponse
      cases hprocess
      rcases response_eq_some hholder with hmem | ⟨hnull, hwait⟩
      · refine .inl (List.mem_append_right _ ?_)
        rw [hserved.singletons]
        exact hmem
      · exact .inr ⟨hnull, l, List.mem_append_right _ (hdirect l hl hwait), hwait, rfl⟩
    · rcases h.named x hx correlation identification process hprocess with hmem | ⟨hnull, l, hl, hwait⟩
      · exact .inl (List.mem_append_left _ hmem)
      · exact .inr ⟨hnull, l, List.mem_append_left _ hl, hwait⟩

/-- A lookup is answered, or waits. -/
theorem Kept.looked (h : Kept s asked granted lost) {l : ProcessLookup} (hserved : Served [l] s t) :
    Kept t (asked ++ [l]) (granted ++ t.singletons) lost :=
  h.served hserved rfl rfl h.single h.waiting (fun _ => rfl) fun _ hl _ => hl

/-- A process has connected. -/
theorem Kept.connected (h : Kept s asked granted lost) {message : ConnectRequest} (hconnected : Connected message s t) :
    Kept t asked (granted ++ t.singletons) lost := by
  rcases hconnected with haside | ⟨⟨-, -, hnew⟩, u, hserved, haside⟩
  · exact (h.fewer haside.fewer).mono (fun x hx => List.mem_append_left _ hx) fun _ hl => hl
  · have hperm : ((s.granting message).singletons.map Prod.fst).Perm
        (message.identification :: s.singletons.map Prod.fst) :=
      (perm_insertSingleton message.identification message.process s.singletons).map Prod.fst
    have hsingle : ((s.granting message).singletons.map Prod.fst).Nodup :=
      hperm.nodup_iff.2 (List.nodup_cons.2 ⟨hnew, h.single⟩)
    have hkept := @Kept.served _ _ _ _ _ _ [] _ h hserved rfl rfl hsingle nofun (fun k => ?_) fun l hl hwait => ?_
    · rw [List.append_nil] at hkept
      rw [haside.singletons]
      exact hkept.fewer haside.fewer
    · exact Nat.add_comm ..
    · rw [(h.waiting l hl).1] at hwait
      cases hwait

theorem Kept.pumped (h : Kept s asked granted lost) {env : Environment} (hst : Pumped env s t) :
    Kept t asked granted fun queue => lost queue ∨ ∃ n, env.gone n queue = true := by
  refine ⟨hst.running.trans h.running, hst.singletons ▸ h.single, ?_, fun k hk => ?_, fun x hx => ?_⟩
  · rw [hst.singletons, hst.processLookup]
    exact h.waiting
  · have hthere : ∀ n, env.gone n k.queue = false := fun n => by
      rw [Bool.eq_false_iff]
      exact fun hgone => hk (.inr ⟨n, hgone⟩)
    rw [hst.countP hthere, hst.processLookup]
    exact h.once k fun hl => hk (.inl hl)
  · obtain ⟨hmem, hanswer⟩ := List.mem_filter.1 hx
    exact h.named x (List.mem_filter.2 ⟨hst.subset x hmem, hanswer⟩)

/-! ## Every run -/

/-- What else the broker does has to do with no identity. -/
theorem elsewhere_act (env : Environment) : ∀ a : Action, (∀ message, a ≠ .message (.connect message)) →
    (∀ message, a ≠ .message (.lookupProcess message)) → (∀ pid reason, a ≠ .message (.dead pid reason)) →
    Moves Elsewhere (State.act env a)
  | .connectBroker id process services, _, _, _ => elsewhere_connectBroker id process services
  | .boot id, _, _, _ => elsewhere_bootOne env id
  | .message e, hconnect, hlookup, hdead => by
    cases e with
    | connect message => exact absurd rfl (hconnect message)
    | advertise pid services => exact elsewhere_catchMissing (elsewhere_addServices _ _) (.pure _)
    | unadvertise pid services => exact elsewhere_catchMissing (elsewhere_removeServices _ _) (.pure _)
    | lookup message => exact elsewhere_serviceLookup env message
    | ack pid => exact elsewhere_ack env pid
    | dead pid reason => exact absurd rfl (hdead pid reason)
    | update name instances => exact elsewhere_serviceUpdateInstances env name instances
    | registration process => exact elsewhere_modify fun _ => rfl
    | lookupProcess message => exact absurd rfl (hlookup message)
    | ready pid => exact .bind (elsewhere_getInstance _) fun _ => elsewhere_modify fun _ => rfl

theorem perform_eq {env : Environment} {a : Action} {s t : State} (h : State.act env a s = .ok () t) :
    s.perform (env, a) = t := by
  unfold State.perform
  rw [h]

variable {w : Sought}

theorem kept_perform (hlinked : w.state.Linked) (hhosted : w.state.Hosted)
    (h : Kept w.state w.asked w.granted w.lost) {x : Doing} (hadmits : w.Admits x) (hsound : w.Sound x) :
    Kept (perform w.state x) (w.asked ++ x.asks) (w.granted ++ (perform w.state x).singletons)
      fun queue => w.lost queue ∨ ∃ n, x.environment.gone n queue = true := by
  have hx := hadmits h.running
  have hgranted : ∀ t : State, ∀ y ∈ w.granted, y ∈ w.granted ++ t.singletons := fun t y hy => List.mem_append_left _ hy
  cases x with
  | connect env caller message =>
    obtain ⟨t, ht, hconnected⟩ := connects_spec hsound
    have hperform : perform w.state (.connect env caller message) = t := by
      change ended _ = t
      rw [ht]
      rfl
    rw [hperform, show (Doing.connect env caller message).asks = [] from rfl, List.append_nil]
    exact (h.connected hconnected).mono (fun _ hy => hy) fun _ hl => .inl hl
  | replies env order =>
    have hpumped := h.pumped (pumped_pumpReplies env hx)
    rw [show (Doing.replies env order).asks = [] from rfl, List.append_nil]
    exact hpumped.mono (hgranted _) fun _ hl => hl
  | act env a =>
    obtain ⟨-, hkind⟩ := hx
    have haside : (∀ message, a ≠ .message (.connect message)) → (∀ message, a ≠ .message (.lookupProcess message)) →
        (∀ pid reason, a ≠ .message (.dead pid reason)) → throws (State.act env a w.state) = false →
        Kept (perform w.state (.act env a)) w.asked (w.granted ++ (perform w.state (.act env a)).singletons)
          fun queue => w.lost queue ∨ ∃ n, env.gone n queue = true := by
      intro hconnect hlookup hdead hreturns
      obtain ⟨_, t, ht⟩ := exists_of_returns hreturns
      have hafter := (elsewhere_act env a hconnect hlookup hdead).after w.state
      rw [ht] at hafter
      have hperform : perform w.state (.act env a) = t := perform_eq ht
      rw [hperform]
      exact (h.fewer hafter.fewer).mono (hgranted t) fun _ hl => .inl hl
    have hnothing : ∀ {l : List (Uuid × Process)} {lost : Nat → Prop},
        Kept (perform w.state (.act env a)) w.asked l lost → (Doing.act env a).asks = [] →
        Kept (perform w.state (.act env a)) (w.asked ++ (Doing.act env a).asks) l lost := by
      intro l lost hkept hasks
      rwa [hasks, List.append_nil]
    cases a with
    | connectBroker id process services => exact hnothing (haside nofun nofun nofun hkind) rfl
    | boot id => exact hnothing (haside nofun nofun nofun hkind) rfl
    | message e =>
      cases e with
      | connect message =>
        obtain ⟨t, ht, hconnected⟩ := connectServer_spec hsound
        have hperform : perform w.state (.act env (.message (.connect message))) = t := perform_eq ht
        apply hnothing
        · rw [hperform]
          exact (h.connected hconnected).mono (fun _ hy => hy) fun _ hl => .inl hl
        · rfl
      | lookupProcess message =>
        obtain ⟨_, t, ht, hserved⟩ := (decides_lookupProcess env message w.state).returns hsound
        have hperform : perform w.state (.act env (.message (.lookupProcess message))) = t := perform_eq ht
        rw [hperform]
        exact (h.looked hserved).mono (fun _ hy => hy) fun _ hl => .inl hl
      | dead pid reason =>
        obtain ⟨t, ht, hfewer⟩ : ∃ t, deadEvent env pid reason w.state = .ok () t ∧ Fewer w.state t := by
          cases hreason : reason.deceased with
          | true => exact deadEvent_spec env hlinked hhosted hreason (hsound hreason)
          | false => exact ⟨w.state, deadEvent_alive _ hreason, Elsewhere.fewer (Std.Refl.refl _)⟩
        have hperform : perform w.state (.act env (.message (.dead pid reason))) = t := perform_eq ht
        apply hnothing
        · rw [hperform]
          exact (h.fewer hfewer).mono (hgranted t) fun _ hl => .inl hl
        · rfl
      | advertise pid services => exact hnothing (haside nofun nofun nofun hkind) rfl
      | unadvertise pid services => exact hnothing (haside nofun nofun nofun hkind) rfl
      | lookup message => exact hnothing (haside nofun nofun nofun hkind) rfl
      | ack pid => exact hnothing (haside nofun nofun nofun hkind) rfl
      | update name instances => exact hnothing (haside nofun nofun nofun hkind) rfl
      | registration process => exact hnothing (haside nofun nofun nofun hkind) rfl
      | ready pid => exact hnothing (haside nofun nofun nofun hkind) rfl

theorem kept_step (hlinked : w.state.Linked) (hhosted : w.state.Hosted)
    (h : Kept w.state w.asked w.granted w.lost) {x : Doing} (hadmits : w.Admits x) (hsound : w.Sound x) :
    Kept (w.step x).state (w.step x).asked (w.step x).granted (w.step x).lost := by
  have hperform := kept_perform hlinked hhosted h hadmits hsound
  unfold step
  rw [if_pos h.running]
  exact hperform

theorem still_connects (env : Environment) (message : ConnectRequest) (caller : Connecting) :
    Moves Still (caller.program env message) := by
  have hconnect := still_connect env message
  cases caller with
  | monitor =>
    refine .bind hconnect fun _ => .ite (still_modify fun s => ?_) (.pure _)
    split_ifs
    · exact .of_same rfl rfl rfl le_rfl
    · exact .of_same rfl rfl rfl le_rfl
  | manager => exact .bind hconnect fun _ => .ite (still_blockingSend env _ _) (.pure _)
  | client =>
    refine still_catchMissing (.bind (still_getInstance _) fun _ => ?_) (still_blockingSend env _ _)
    exact .bind hconnect fun _ => .pure _
  | forward => exact .bind hconnect fun _ => .ite (still_modify fun _ => .of_same rfl rfl rfl le_rfl) (.pure _)

theorem referenced_step (hlinked : w.state.Linked) (hhosted : w.state.Hosted) {x : Doing} (hadmits : w.Admits x) :
    (w.step x).state.Linked ∧ (w.step x).state.Hosted := by
  unfold step
  split_ifs with hrunning
  · have hx := hadmits hrunning
    cases x with
    | connect env caller message =>
      have hstill := (still_connects env message caller).after w.state
      have hhosted' := hstill.hosted hhosted
      change (ended (caller.program env message w.state)).Linked ∧ (ended (caller.program env message w.state)).Hosted
      cases hr : caller.program env message w.state with
      | ok a t =>
        rw [hr] at hstill hhosted'
        exact ⟨hlinked.congr hstill.hosts hstill.offers, hhosted'⟩
      | error e t =>
        rw [hr] at hstill hhosted'
        exact ⟨hlinked.congr hstill.hosts hstill.offers, hhosted'.ids, hhosted'.resident, hhosted'.once⟩
    | replies env order =>
      obtain ⟨hservices, hinstances, hservers⟩ := (pumped_pumpReplies env hx).links
      have hhosts : (after (pumpReplies env order w.state)).hosts = w.state.hosts := by
        unfold State.hosts
        rw [hservices]
      have hoffers : (after (pumpReplies env order w.state)).offers = w.state.offers := by
        unfold State.offers
        rw [hinstances]
      refine ⟨hlinked.congr hhosts hoffers, ?_⟩
      have hsame : Still w.state { after (pumpReplies env order w.state) with readings := w.state.readings } :=
        .of_same hservices hinstances hservers le_rfl
      have := hsame.hosted hhosted
      exact ⟨this.ids, this.resident, this.once⟩
    | act env a => exact perform_referenced hlinked hhosted hx.1
  · exact ⟨hlinked, hhosted⟩

/-- Unless somebody who is to be told something right away is gone, each lookup is answered once, as soon as
somebody holds the identity, and the identities are held by one process each. -/
theorem lookups_attended (h : (machine.restrict Sound).Reachable w) : w.Attended := by
  have hinvariant := h.invariant
    (I := fun w => w.state.Linked ∧ w.state.Hosted ∧ Kept w.state w.asked w.granted w.lost) ?_ ?_
  · obtain ⟨-, -, hkept⟩ := hinvariant
    refine ⟨hkept.running, hkept.single, hkept.waiting, hkept.once, ?_, refuses_of_single hkept.single⟩
    intro x hx correlation identification process hprocess
    refine hkept.named x (List.mem_filter.2 ⟨hx, ?_⟩) correlation identification process hprocess
    unfold isAnswer
    rw [hprocess]
  · rintro v ⟨hinit, hsingletons, hlookup, hsent, hreplies, hasked, hgranted, hlost⟩
    obtain ⟨hlinked, hhosted⟩ := referenced_of_reachable (.of_init hinit)
    obtain ⟨-, -, -, -, hrunning⟩ := hinit
    have hout : v.state.outgoing = [] := by
      unfold outgoing
      rw [hsent, hreplies]
      rfl
    refine ⟨hlinked, hhosted, hrunning, ?_, ?_, fun k _ => ?_, ?_⟩
    · rw [hsingletons]
      exact List.nodup_nil
    · rw [hlookup]
      exact nofun
    · rw [hout, hlookup, hasked]
      rfl
    · rw [hout]
      exact nofun
  · rintro v x ⟨hlinked, hhosted, hkept⟩ ⟨hadmits, hsound⟩
    obtain ⟨hlinked', hhosted'⟩ := referenced_step hlinked hhosted hadmits
    exact ⟨hlinked', hhosted', kept_step hlinked hhosted hkept hadmits hsound⟩

instance decidableReaches (env : Environment) (singletons : List (Uuid × Process)) :
    ∀ (ls : List ProcessLookup) (n : Nat), Decidable (Reaches env singletons ls n)
  | [], _ => .isTrue trivial
  | l :: ls, n =>
    have := decidableReaches env singletons ls (n + 1)
    have := decidableReaches env singletons ls n
    inferInstanceAs (Decidable (if (response singletons l).isSome then
      env.gone n l.process.queue = false ∧ Reaches env singletons ls (n + 1) else Reaches env singletons ls n))

instance (env : Environment) (s : State) (message : ConnectRequest) : Decidable (Connects env s message) :=
  inferInstanceAs (Decidable ((s.instances message.process.pid).isSome →
    if Registers s message then
      Reaches env (insertSingleton message.identification message.process s.singletons) s.processLookup s.readings ∧
        env.gone (s.readings + reached (insertSingleton message.identification message.process s.singletons) s.processLookup)
          message.process.queue = false
    else env.gone s.readings message.process.queue = false))

/-- A broker that has not done anything yet. -/
def initial : Sought := ⟨configured 1, [], [], fun _ => False⟩

theorem initial_init : machine.init initial := by
  have hids : ((configured 1).servers.map (·.id)).Nodup := List.nodup_singleton _
  have hempty : ∀ server ∈ (configured 1).servers, server.instances = [] := by
    intro server hserver
    rw [List.mem_singleton.1 hserver]
  exact ⟨⟨fun _ => rfl, fun _ => rfl, hids, hempty, rfl⟩, rfl, rfl, rfl, rfl, rfl, rfl, rfl⟩

/-- Processes wait for the identities of a server and of a transaction manager. Both connect, the forward cache tries to
with that of the manager, and the server dies. -/
def awaited : List Doing :=
  [.act (starting (some 1) 0) (.boot 1), .act (starting none 0) (.message (.lookupProcess ⟨11, 7, ⟨5, 5⟩, true⟩)),
    .act (starting none 0) (.message (.lookupProcess ⟨12, 8, ⟨5, 5⟩, true⟩)),
    .connect (starting none 0) .manager ⟨13, ⟨9, 9⟩, 8, []⟩,
    .act (starting none 0) (.message (.connect ⟨14, ⟨1, 1⟩, 7, []⟩)),
    .connect (starting none 0) .forward ⟨15, ⟨1, 1⟩, 8, []⟩, .act (starting none 0) (.message (.dead 1 .core))]

theorem awaited_attended : (awaited.foldl (machine.restrict Sound).step initial).Attended := by
  apply lookups_attended
  have hinit : (machine.restrict Sound).init initial := initial_init
  apply Machine.Reachable.foldl (.of_init hinit)
  have hthere : ∀ queue n, (starting none 0).gone n queue = false := fun _ _ => rfl
  refine ⟨⟨fun _ => ⟨admitted_boot rfl rfl, by decide⟩, trivial⟩,
    ⟨fun _ => ⟨admitted_message _ _ (by decide), trivial⟩, ?_⟩, ⟨fun _ => ⟨admitted_message _ _ (by decide), trivial⟩, ?_⟩,
    ⟨fun _ => trivial, hthere 9, fun _ _ => ?_, fun _ => ?_⟩,
    ⟨fun _ => ⟨admitted_message _ _ (by decide), trivial⟩, ?_⟩,
    ⟨fun _ => trivial, hthere 1, fun _ => ?_, fun _ _ => ?_⟩,
    ⟨fun _ => ⟨admitted_message _ _ (by decide), trivial⟩, fun _ => ⟨_, rfl, nofun⟩⟩, trivial⟩
  · show Reaches _ _ _ _
    decide
  · show Reaches _ _ _ _
    decide
  · decide
  · exact fun h => absurd h (by decide)
  · show Connects _ _ _
    decide
  · exact fun h => absurd h (by decide)
  · decide

/-- A queue is gone. -/
def without (queue : Nat) : Environment := ⟨fun _ other => other == queue, fun _ _ => false, fun _ => none⟩

/-- Two processes wait for the identity, the first of which is gone when the server connects with it. -/
def abandoned : List Doing :=
  [.act (starting (some 1) 0) (.boot 1), .act (starting none 0) (.message (.lookupProcess ⟨11, 7, ⟨5, 20⟩, true⟩)),
    .act (starting none 0) (.message (.lookupProcess ⟨12, 7, ⟨6, 10⟩, true⟩)),
    .act (without 20) (.message (.connect ⟨13, ⟨1, 1⟩, 7, []⟩))]

/-- The other one is there, has not been answered and waits no more. -/
theorem abandoned_lost : ∃ w, machine.Reachable w ∧ (⟨12, 7, ⟨6, 10⟩, true⟩ : ProcessLookup) ∈ w.asked ∧ ¬ w.lost 10 ∧
    w.state.processLookup = [] ∧ w.state.outgoing = [] ∧ w.state.running = false ∧ ¬ w.Attended := by
  have hreach : machine.Reachable (abandoned.foldl machine.step initial) := by
    apply Machine.Reachable.foldl (.of_init initial_init)
    refine ⟨fun _ => ⟨admitted_boot rfl rfl, by decide⟩, fun _ => ⟨admitted_message _ _ (by decide), trivial⟩,
      fun _ => ⟨admitted_message _ _ (by decide), trivial⟩, fun _ => ⟨⟨by decide, nofun, nofun⟩, trivial⟩, trivial⟩
  have hrunning : (abandoned.foldl machine.step initial).state.running = false := by decide
  refine ⟨_, hreach, by decide, ?_, by decide, by decide, hrunning, fun h => ?_⟩
  · rintro ((((h | ⟨n, h⟩) | ⟨n, h⟩) | ⟨n, h⟩) | ⟨n, h⟩) <;> cases h
  · exact absurd (hrunning.symm.trans h.running) nofun

end Sought

end Casual.Broker

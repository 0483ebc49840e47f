/-
Commit and rollback through the queue broker: when all groups have replied or died, the caller has been
answered, once.
-/
import Casual.Queue.Rounds
import Casual.Queue.Statistics

namespace Casual.Queue

open Casual.Common Casual.Communication Casual.Lib

namespace Broker

namespace Rounds

variable {env : Environment} {w w' : Rounds} {r : Round}

/-! ### A request -/

/-- The round of a request that comes. -/
def opened (env : Environment) (w : Rounds) (kind : Kind) (m : ResourceRequest) : Round :=
  ⟨kind, m, (w.broker.involved m.trid.xid).getD [], w.dead.map fun pid => (env.process pid, false)⟩

theorem opened_unheard (kind : Kind) (m : ResourceRequest) (g : Process) : (g, true) ∉ (opened env w kind m).heard := by
  intro h
  obtain ⟨pid, -, hpid⟩ := List.mem_map.1 h
  injection hpid with _ hok
  cases hok

section Request

variable {kind : Kind} {m : ResourceRequest}

/-- No request for the transaction waits. -/
theorem Waits.elim {groups : List Process} (hinvolved : w.broker.involved m.trid.xid = some groups) (h : Waits env w r)
    (horderly : Orderly env w (.request kind m)) (hr : r ∈ w.rounds) : r.request.trid.xid ≠ m.trid.xid := by
  intro hx
  refine h.unsettled (Round.settled_iff.2 fun g hg => h.known g hg ?_)
  exact (horderly.2 groups hinvolved).2 r hr hx g hg (h.sent g hg)

theorem Kept.fresh (h : Kept env w) (hnew : ∀ r ∈ w.rounds, r.request.correlation ≠ m.correlation) :
    w.replies m.correlation = [] ∧ (∀ g q, (g, Sent.request kind q) ∈ w.broker.sent → q.correlation ≠ m.correlation) ∧
      ∀ g, (g, m.correlation) ∉ w.answered := by
  refine ⟨List.filter_eq_nil_iff.2 ?_, ?_, ?_⟩
  · rintro ⟨g, x⟩ hx
    cases x with
    | reply k a =>
      obtain ⟨r, hr, hk⟩ := h.replied g k a hx
      have hne : a.correlation ≠ m.correlation := hk ▸ hnew r hr
      simpa [Sent.answers] using hne
    | _ => exact Bool.false_ne_true
  · rintro g q hq
    obtain ⟨r, hr, -, hforwarded⟩ := h.sent g kind q hq
    unfold Round.forwarded at hforwarded
    injection hforwarded with _ hq
    exact hq ▸ hnew r hr
  · rintro g hg
    obtain ⟨r, hr, hk⟩ := h.answered _ hg
    exact hnew r hr hk

/-- The requests that have come before are not touched. -/
theorem Kept.opens (h : Kept env w) (hnew : ∀ r ∈ w.rounds, r.request.correlation ≠ m.correlation)
    {s : Broker} {l : List (Process × Sent)} (hrunning : s.running = true)
    (hsent : s.sent = w.broker.sent ++ l)
    (hl : ∀ x ∈ l, x.1 ∈ (opened env w kind m).groups ∧ x.2 = (opened env w kind m).forwarded env ∨
      ∃ a, x.2 = .reply kind a ∧ a.correlation = m.correlation)
    (hother : ∀ x ≠ m.trid.xid, s.correlation x = w.broker.correlation x)
    (hwaiting : ∀ r ∈ w.rounds, Waits env w r → r.request.trid.xid = m.trid.xid →
      s.correlation m.trid.xid = w.broker.correlation m.trid.xid ∧ ∀ g, (g, (opened env w kind m).forwarded env) ∉ s.sent)
    (hown : ∀ c, s.correlation m.trid.xid = some c → c.replyCorrelation = m.correlation ∨ w.broker.correlation m.trid.xid = some c)
    (hinvolved : ∀ x gs, s.involved x = some gs → w.broker.involved x = some gs)
    (hround : Waits env { w with broker := s, rounds := w.rounds ++ [opened env w kind m] } (opened env w kind m) ∨
      Done env { w with broker := s, rounds := w.rounds ++ [opened env w kind m] } (opened env w kind m)) :
    Kept env { w with broker := s, rounds := w.rounds ++ [opened env w kind m] } := by
  have hreplies : ∀ r ∈ w.rounds, ({ w with broker := s, rounds := w.rounds ++ [opened env w kind m] } : Rounds).replies
      r.request.correlation = w.replies r.request.correlation := by
    rintro r hr
    rw [replies_append hsent, List.filter_eq_nil_iff.2, List.append_nil]
    rintro x hx
    rcases hl x hx with ⟨-, hforwarded⟩ | ⟨a, ha, hk⟩
    · rw [hforwarded]
      exact Bool.false_ne_true
    · rw [ha, Sent.answers, hk, beq_iff_eq]
      exact fun he => hnew r hr he.symm
  have hold : ∀ r ∈ w.rounds, ∀ g, (g, r.forwarded env) ∈ s.sent → (g, r.forwarded env) ∈ w.broker.sent := by
    rintro r hr g hx
    rw [hsent, List.mem_append] at hx
    refine hx.resolve_right fun hx => ?_
    rcases hl _ hx with ⟨-, hforwarded⟩ | ⟨a, ha, -⟩
    · exact hnew r hr (forwarded_inj hforwarded)
    · cases ha
  refine ⟨hrunning, ?_, ?_, ?_, fun x gs hgs => h.involved x gs (hinvolved x gs hgs), ?_, ?_, ?_, ?_⟩
  · rw [List.map_append, List.nodup_append]
    refine ⟨h.distinct, List.nodup_singleton _, ?_⟩
    rintro k hk _ hm rfl
    obtain ⟨r, hr, rfl⟩ := List.mem_map.1 hk
    exact hnew r hr (List.mem_singleton.1 hm)
  · rintro r hr
    rcases List.mem_append.1 hr with hr | hr
    · rcases h.rounds r hr with hwaits | hdone
      · refine .inl (hwaits.of ?_ (hreplies r hr) ?_ rfl (fun _ => Iff.rfl) fun r' hr' hx' hk g hg hforwarded => ?_)
        · by_cases hx : r.request.trid.xid = m.trid.xid
          · rw [hx]
            exact (hwaiting r hr hwaits hx).1
          · exact hother _ hx
        · exact fun x hx => hsent ▸ List.mem_append_left _ hx
        · rcases List.mem_append.1 hr' with hr' | hr'
          · exact hwaits.alone r' hr' hx' hk g hg (hold r' hr' g hforwarded)
          · rw [List.mem_singleton.1 hr'] at hx' hforwarded
            exact absurd hforwarded ((hwaiting r hr hwaits hx'.symm).2 g)
      · refine .inr (hdone.of (fun c hc => ?_) (hreplies r hr) (hold r hr))
        by_cases hx : r.request.trid.xid = m.trid.xid
        · dsimp only at hc
          rw [hx] at hc
          rcases hown c hc with hk | hc
          · exact hk ▸ fun he => hnew r hr he.symm
          · exact hdone.removed c (hx ▸ hc)
        · exact hdone.removed c ((hother _ hx).symm.trans hc)
    · rw [List.mem_singleton.1 hr]
      exact hround
  · rintro x c hc
    by_cases hx : x = m.trid.xid
    · subst hx
      rcases hown c hc with hk | hc
      · exact ⟨_, List.mem_append_right _ (List.mem_singleton_self _), rfl, hk.symm⟩
      · obtain ⟨r, hr, he⟩ := h.entries _ c hc
        exact ⟨r, List.mem_append_left _ hr, he⟩
    · obtain ⟨r, hr, he⟩ := h.entries x c ((hother x hx).symm.trans hc)
      exact ⟨r, List.mem_append_left _ hr, he⟩
  · rintro r hr
    rcases List.mem_append.1 hr with hr | hr
    · exact h.groups r hr
    · rw [List.mem_singleton.1 hr]
      unfold opened
      cases hgs : w.broker.involved m.trid.xid with
      | none => exact ⟨.nil, fun g hg => absurd hg List.not_mem_nil⟩
      | some gs => exact (h.involved _ gs hgs).2
  · rintro g k q hq
    dsimp only at hq
    rw [hsent, List.mem_append] at hq
    rcases hq with hq | hq
    · obtain ⟨r, hr, he⟩ := h.sent g k q hq
      exact ⟨r, List.mem_append_left _ hr, he⟩
    · rcases hl _ hq with he | ⟨a, ha, -⟩
      · exact ⟨_, List.mem_append_right _ (List.mem_singleton_self _), he⟩
      · cases ha
  · rintro g k a ha
    dsimp only at ha
    rw [hsent, List.mem_append] at ha
    rcases ha with ha | ha
    · obtain ⟨r, hr, he⟩ := h.replied g k a ha
      exact ⟨r, List.mem_append_left _ hr, he⟩
    · rcases hl _ ha with ⟨-, hforwarded⟩ | ⟨a, he, hk⟩
      · cases hforwarded
      · cases he
        exact ⟨_, List.mem_append_right _ (List.mem_singleton_self _), hk.symm⟩
  · rintro x hx
    obtain ⟨r, hr, he⟩ := h.answered x hx
    exact ⟨r, List.mem_append_left _ hr, he⟩

theorem pump_ok (h : Kept env w) {e : Event} {s : Broker} (hs : handle env e w.broker = .ok () s) : pump env w.broker e = s := by
  unfold pump Broker.step
  rw [if_pos h.running, hs]

theorem step_request (h : Kept env w) {s : Broker} (hs : Broker.request env kind m w.broker = .ok () s) :
    w.step env (.request kind m) = { w with broker := s, rounds := w.rounds ++ [opened env w kind m] } := by
  have hpump : pump env w.broker (.request kind m) = s := pump_ok h hs
  unfold step
  simp only [hpump]
  rfl

theorem Kept.request (h : Kept env w) (hnew : ∀ r ∈ w.rounds, r.request.correlation ≠ m.correlation)
    (horderly : Orderly env w (.request kind m)) : Kept env (w.step env (.request kind m)) := by
  obtain ⟨hnone, hfresh, hunanswered⟩ := @Kept.fresh _ _ kind m h hnew
  have hempty : ∀ {groups}, w.broker.involved m.trid.xid = some groups → w.broker.correlation m.trid.xid = none := by
    rintro groups hinvolved
    by_contra hc
    obtain ⟨c, hc⟩ := Option.ne_none_iff_exists'.1 hc
    obtain ⟨r, hr, hx, -, hwaits⟩ := h.waits_of_entry hc
    exact hwaits.elim hinvolved horderly hr hx
  have hremoved : ∀ c ∈ w.broker.correlation m.trid.xid, c.replyCorrelation ≠ m.correlation := by
    rintro c hc
    obtain ⟨r, hr, -, hk⟩ := h.entries _ c hc
    exact hk ▸ hnew r hr
  -- what has been answered at once
  have hanswered : ∀ {l : List (Process × Sent)} {a : ResourceReply}, a.correlation = m.correlation →
      (∀ x ∈ l, x.2 = (opened env w kind m).forwarded env) →
        (w.broker.sent ++ (l ++ [(m.process, Sent.reply kind a)])).filter (fun x => x.2.answers m.correlation) =
          [(m.process, Sent.reply kind a)] := by
    rintro l a ha hl
    have hforwarded : l.filter (fun x => x.2.answers m.correlation) = [] := by
      refine List.filter_eq_nil_iff.2 fun x hx => ?_
      rw [hl x hx]
      exact Bool.false_ne_true
    have hsent : w.broker.sent.filter (fun x => x.2.answers m.correlation) = [] := hnone
    rw [List.filter_append, List.filter_append, hsent, hforwarded, List.nil_append, List.nil_append]
    exact List.filter_eq_self.2 fun x hx => by rw [List.mem_singleton.1 hx]; exact beq_iff_eq.2 ha
  rcases @request_spec env kind w.broker m horderly.1 with
    ⟨hinvolved, hs⟩ | ⟨groups, hinvolved, ⟨n, l, groups', hs, hl, hgroups', hthere⟩ | ⟨n, l, g, hs, hsub⟩⟩
  · rw [step_request h hs]
    refine h.opens hnew h.running rfl ?_ (fun _ _ => rfl) ?_ (fun _ => .inr) (fun _ _ => id)
      (.inr ⟨⟨⟨m.correlation, env.self, m.trid, m.resource, XAER_NOTA⟩, ?_, ?_⟩, ?_⟩)
    · rintro x hx
      rw [List.mem_singleton.1 hx]
      exact .inr ⟨_, rfl, rfl⟩
    · refine fun _ _ _ _ => ⟨rfl, fun g hg => ?_⟩
      rcases List.mem_append.1 hg with hg | hg
      · exact hfresh g _ hg rfl
      · cases List.mem_singleton.1 hg
    · exact hanswered (l := []) rfl fun x hx => absurd hx List.not_mem_nil
    · exact .inl (by unfold opened; rw [hinvolved]; rfl)
    · exact hremoved
  · rw [step_request h hs]
    have hgroups : (opened env w kind m).groups = groups := by unfold opened; rw [hinvolved]; rfl
    have hno : ∀ {P : Prop}, ∀ r ∈ w.rounds, Waits env w r → r.request.trid.xid = m.trid.xid → P :=
      fun r hr hwaits hx => absurd hx (hwaits.elim hinvolved horderly hr)
    obtain ⟨hne, -, hprocess⟩ := h.involved _ _ hinvolved
    -- a group that is there has not died
    have halive : ∀ g ∈ groups, g.pid ∉ w.dead := by
      rintro g hg hdead
      obtain ⟨n, hlater, hn⟩ := hthere g hg
      rw [(horderly.2 groups hinvolved).1 g hg hdead n hlater] at hn
      cases hn
    have hpending : ∀ g ∈ groups, (opened env w kind m).stageOf g = .pending := by
      rintro g hg
      unfold Round.stageOf
      rw [if_neg (opened_unheard kind m g), if_neg fun hheard => ?_]
      obtain ⟨pid, hpid, he⟩ := List.mem_map.1 hheard
      obtain rfl : env.process pid = g := (Prod.mk.inj he).1
      exact halive _ hg hpid
    have hcorrelation : (correlate m groups' (w.broker.sending n l (.request kind { m with process := env.self }))).correlation
        m.trid.xid = some (.ofGroups m.process m.correlation groups') := by
      simp only [correlate, sending, Function.update_self, hempty hinvolved, Option.getD_none]
    refine h.opens hnew h.running rfl ?_ (fun x hx => Function.update_of_ne hx ..) hno ?_ ?_ (.inl ⟨?_, ?_, ?_, ?_, ?_, ?_, ?_⟩)
    · rintro x hx
      obtain ⟨g, hg, rfl⟩ := List.mem_map.1 hx
      exact .inl ⟨hgroups ▸ hl.subset hg, rfl⟩
    · rintro c hc
      rw [hcorrelation] at hc
      cases hc
      exact .inl rfl
    · rintro x gs hgs
      have hx : x ≠ m.trid.xid := by
        rintro rfl
        simp only [correlate, Function.update_self] at hgs
        cases hgs
      simp only [correlate, Function.update_of_ne hx] at hgs
      exact hgs
    · refine ⟨groups', hgroups ▸ hgroups', hcorrelation.trans ?_⟩
      unfold Correlation.ofGroups
      refine congrArg some (congrArg _ (List.map_congr_left fun g hg => ?_))
      rw [hpending g (hgroups'.subset hg)]
    · rw [Round.settled_iff, hgroups]
      obtain ⟨g, hg⟩ := List.exists_mem_of_ne_nil _ hne
      exact fun hsettled => hsettled g hg (hpending g hg)
    · rw [replies_append (w := w) rfl, List.filter_eq_nil_iff.2, List.append_nil]
      · exact hnone
      · rintro x hx
        obtain ⟨g, -, rfl⟩ := List.mem_map.1 hx
        exact Bool.false_ne_true
    · rintro g hg
      rw [hgroups] at hg
      exact List.mem_append_right _ (List.mem_map.2 ⟨g, hl.symm.subset hg, rfl⟩)
    · rintro g hg (hdead | hanswer)
      · exact absurd hdead (halive g (hgroups ▸ hg))
      · exact absurd hanswer (hunanswered g)
    · exact fun g hg => absurd hg (opened_unheard kind m g)
    · rintro r' hr' hx hk g hg hforwarded
      rw [hgroups] at hg
      rcases List.mem_append.1 hr' with hr' | hr'
      · rcases List.mem_append.1 hforwarded with hforwarded | hforwarded
        · exact ((horderly.2 groups hinvolved).2 r' hr' hx g (h.mem_groups hr' hforwarded) hforwarded).resolve_left (halive g hg)
        · obtain ⟨g', -, he⟩ := List.mem_map.1 hforwarded
          exact absurd (forwarded_inj (r := opened env w kind m) (Prod.mk.inj he).2).symm hk
      · rw [List.mem_singleton.1 hr'] at hk
        exact absurd rfl hk
  · rw [step_request h hs]
    have hgroups : (opened env w kind m).groups = groups := by unfold opened; rw [hinvolved]; rfl
    have hno : ∀ {P : Prop}, ∀ r ∈ w.rounds, Waits env w r → r.request.trid.xid = m.trid.xid → P :=
      fun r hr hwaits hx => absurd hx (hwaits.elim hinvolved horderly hr)
    obtain ⟨-, hnodup, -⟩ := h.involved _ _ hinvolved
    have hsent : ((w.broker.sending n l (.request kind { m with process := env.self })).sending (n + 1) [m.process]
        (.reply kind ⟨m.correlation, env.self, m.trid, m.resource, XAER_RMFAIL⟩)).sent = w.broker.sent ++
          (l.map (fun g => (g, (opened env w kind m).forwarded env)) ++
            [(m.process, .reply kind ⟨m.correlation, env.self, m.trid, m.resource, XAER_RMFAIL⟩)]) := List.append_assoc ..
    refine h.opens hnew h.running hsent ?_ (fun _ _ => rfl) hno (fun _ => .inr) (fun _ _ => id)
      (.inr ⟨⟨⟨m.correlation, env.self, m.trid, m.resource, XAER_RMFAIL⟩, ?_, ?_⟩, ?_⟩)
    · rintro x hx
      rcases List.mem_append.1 hx with hx | hx
      · obtain ⟨g', hg', rfl⟩ := List.mem_map.1 hx
        exact .inl ⟨hgroups ▸ hsub.subset (List.mem_cons_of_mem _ hg'), rfl⟩
      · rw [List.mem_singleton.1 hx]
        exact .inr ⟨_, rfl, rfl⟩
    · unfold replies
      dsimp only
      rw [hsent]
      refine hanswered rfl fun x hx => ?_
      obtain ⟨g', -, rfl⟩ := List.mem_map.1 hx
      rfl
    · refine .inr (.inr ⟨(by decide : XAER_RMFAIL ≠ XA_OK), g, hgroups ▸ hsub.subset List.mem_cons_self, opened_unheard kind m g, ?_⟩)
      -- the group that has not got the request has not got it before
      dsimp only
      rw [hsent, List.mem_append, List.mem_append]
      rintro (hx | hx | hx)
      · exact hfresh _ _ hx rfl
      · obtain ⟨g', hg', he⟩ := List.mem_map.1 hx
        obtain rfl : g' = g := (Prod.mk.inj he).1
        obtain ⟨l', hperm, hsublist⟩ := hsub
        exact (List.nodup_cons.1 (hperm.nodup_iff.1 (hsublist.nodup hnodup))).1 hg'
      · cases List.mem_singleton.1 hx
    · exact hremoved

end Request

/-! ### What is heard of a group -/

/-- The same requests, of which more has been heard. -/
structure Hears (f : Round → Round) : Prop where
  request : ∀ r, (f r).request = r.request
  groups : ∀ r, (f r).groups = r.groups
  kind : ∀ r, (f r).kind = r.kind

theorem Hears.forwarded {f : Round → Round} (h : Hears f) (r : Round) : (f r).forwarded env = r.forwarded env := by
  simp only [Round.forwarded, h.kind, h.request]

theorem Kept.hears (h : Kept env w) {s : Broker} {f : Round → Round} {dead : List Nat} {answered : List (Process × Uuid)}
    (hf : Hears f) (hrunning : s.running = true) (hinvolved : s.involved = w.broker.involved) {l : List (Process × Sent)}
    (hsent : s.sent = w.broker.sent ++ l)
    (hl : ∀ x ∈ l, ∃ r ∈ w.rounds, ∃ a, x.2 = .reply r.kind a ∧ a.correlation = r.request.correlation)
    (hentries : ∀ x c, s.correlation x = some c →
      ∃ c', w.broker.correlation x = some c' ∧ c'.replyCorrelation = c.replyCorrelation)
    (hanswered : ∀ x ∈ answered, ∃ r ∈ w.rounds, r.request.correlation = x.2)
    (hrounds : ∀ r ∈ w.rounds, Waits env ⟨s, w.rounds.map f, dead, answered⟩ (f r) ∨
      Done env ⟨s, w.rounds.map f, dead, answered⟩ (f r)) : Kept env ⟨s, w.rounds.map f, dead, answered⟩ := by
  have hmem : ∀ {P : Round → Prop}, (∃ r ∈ w.rounds, P (f r)) → ∃ r ∈ w.rounds.map f, P r :=
    fun ⟨r, hr, hP⟩ => ⟨f r, List.mem_map_of_mem hr, hP⟩
  have hold : ∀ {g k q}, (g, Sent.request k q) ∈ s.sent → (g, Sent.request k q) ∈ w.broker.sent := by
    rintro g k q hq
    rw [hsent, List.mem_append] at hq
    refine hq.resolve_right fun hq => ?_
    obtain ⟨r, -, a, ha, -⟩ := hl _ hq
    cases ha
  refine ⟨hrunning, ?_, ?_, ?_, ?_, ?_, ?_, ?_, ?_⟩
  · rw [List.map_map, List.map_congr_left fun r _ => ?_]
    · exact h.distinct
    · exact congrArg _ (hf.request r)
  · rintro _ hmap
    obtain ⟨r, hr, rfl⟩ := List.mem_map.1 hmap
    exact hrounds r hr
  · rintro x c hc
    obtain ⟨c', hc', hk⟩ := hentries x c hc
    obtain ⟨r, hr, hx, he⟩ := h.entries x c' hc'
    refine hmem ⟨r, hr, ?_⟩
    rw [hf.request]
    exact ⟨hx, he.trans hk⟩
  · exact fun x gs hgs => h.involved x gs (hinvolved ▸ hgs)
  · rintro _ hmap
    obtain ⟨r, hr, rfl⟩ := List.mem_map.1 hmap
    rw [hf.groups]
    exact h.groups r hr
  · rintro g k q hq
    obtain ⟨r, hr, hg, he⟩ := h.sent g k q (hold hq)
    refine hmem ⟨r, hr, ?_⟩
    rw [hf.groups, hf.forwarded]
    exact ⟨hg, he⟩
  · rintro g k m hm
    have hknown : ∃ r ∈ w.rounds, r.request.correlation = m.correlation := by
      dsimp only at hm
      rw [hsent, List.mem_append] at hm
      rcases hm with hm | hm
      · exact h.replied g k m hm
      · obtain ⟨r, hr, a, ha, hk⟩ := hl _ hm
        cases ha
        exact ⟨r, hr, hk.symm⟩
    obtain ⟨r, hr, hk⟩ := hknown
    exact hmem ⟨r, hr, by rw [hf.request]; exact hk⟩
  · rintro x hx
    obtain ⟨r, hr, hk⟩ := hanswered x hx
    exact hmem ⟨r, hr, by rw [hf.request]; exact hk⟩

/-- What else is heard in a round that is done does not change what has come of it. -/
theorem Done.hears (h : Done env w r) {s : Broker} {rounds : List Round} {dead : List Nat} {answered : List (Process × Uuid)}
    {g : Process} {ok : Bool} (hok : ok = true → (g, r.forwarded env) ∈ w.broker.sent)
    (hremoved : ∀ c ∈ s.correlation r.request.trid.xid, c.replyCorrelation ≠ r.request.correlation)
    (hreplies : s.sent = w.broker.sent) : Done env ⟨s, rounds, dead, answered⟩ (r.hears g ok) := by
  obtain ⟨m, hm, hstate⟩ := h.reply
  refine ⟨⟨m, ?_, ?_⟩, ?_⟩
  · rw [Round.hears_request, Round.hears_kind, ← hm]
    unfold replies
    rw [hreplies]
  · rw [Round.hears_groups, Round.hears_forwarded]
    rcases hstate with hnil | ⟨hsettled, hagreed⟩ | ⟨hne, g', hg', hheard, hnot⟩
    · exact .inl hnil
    · refine .inr (.inl ?_)
      rw [Round.hears_of_settled hsettled]
      exact ⟨hsettled, hagreed⟩
    · refine .inr (.inr ⟨hne, g', hg', fun hx => ?_, hreplies ▸ hnot⟩)
      rcases Round.mem_hears hx with hx | ⟨rfl, htrue⟩
      · exact hheard hx
      · exact hnot (hok htrue)
  · rw [Round.hears_request]
    exact hremoved

/-- The handle of a process that is one of the groups. -/
theorem pid_eq_iff {g : Process} (hg : g = env.process g.pid) {pid : Nat} : g.pid = pid ↔ g = env.process pid := by
  constructor
  · rintro rfl
    exact hg
  · rintro rfl
    rfl

/-! ### A death -/

theorem Kept.exit (h : Kept env w) {pid : Nat} (horderly : Orderly env w (.exit pid)) :
    Kept env (w.step env (.exit pid)) := by
  have hpump : pump env w.broker (.exit pid) = after (Broker.exit pid w.broker) := pump_ok h rfl
  unfold step
  simp only [hpump]
  have hf : Hears fun r => r.hears (env.process pid) false :=
    ⟨fun _ => Round.hears_request, fun _ => Round.hears_groups, fun _ => Round.hears_kind⟩
  refine h.hears hf h.running rfl (List.append_nil _).symm (fun x hx => absurd hx List.not_mem_nil) ?_ h.answered ?_
  · rintro x c hc
    obtain ⟨c', hc', rfl⟩ := Option.map_eq_some_iff.1 hc
    exact ⟨c', hc', rfl⟩
  · rintro r hr
    rcases h.rounds r hr with hwaits | hdone
    · obtain ⟨gs, hgs, hentry⟩ := hwaits.entry
      have hprocess : ∀ g ∈ gs, g = env.process g.pid := fun g hg => (h.groups r hr).2 g (hgs.subset hg)
      -- some other group has to reply
      have hother : ∃ g ∈ r.groups, g.pid ≠ pid ∧ r.stageOf g = .pending := by
        have hunheard : ∃ g ∈ r.groups, r.stageOf g = .pending := by
          by_contra hnone
          exact hwaits.unsettled (Round.settled_iff.2 fun g hg hpending => hnone ⟨g, hg, hpending⟩)
        obtain ⟨g, hg, hpending⟩ := hunheard
        by_cases hpid : g.pid = pid
        · obtain ⟨q, hq, hne, hstage⟩ := horderly _ _ hentry ⟨_, List.mem_map_of_mem (hgs.symm.subset hg), hpid, hpending⟩
          obtain ⟨g', hg', rfl⟩ := List.mem_map.1 hq
          exact ⟨g', hgs.subset hg', hne, hstage⟩
        · exact ⟨g, hg, hpid, hpending⟩
      refine .inl ⟨⟨gs, ?_, ?_⟩, ?_, ?_, ?_, ?_, ?_, ?_⟩
      · rw [Round.hears_groups]
        exact hgs
      · rw [Round.hears_request]
        refine (congrArg (Option.map _) hentry).trans ?_
        rw [Option.map_some, Correlation.invalidate_map]
        refine congrArg some (congrArg _ (List.map_congr_left fun g hg => ?_))
        rw [Round.stageOf_dies hwaits.unsettled]
        simp only [pid_eq_iff (hprocess g hg)]
      · rw [Round.settled_iff, Round.hears_groups]
        obtain ⟨g, hg, hpid, hpending⟩ := hother
        refine fun hsettled => hsettled g hg ?_
        rw [Round.stageOf_dies hwaits.unsettled, if_neg fun he : g = env.process pid ∧ _ => hpid (he.1 ▸ rfl)]
        exact hpending
      · rw [Round.hears_request]
        exact hwaits.replies
      · rw [Round.hears_groups, Round.hears_forwarded]
        exact hwaits.sent
      · rw [Round.hears_groups, Round.hears_request]
        rintro g hg hknown
        rw [Round.stageOf_dies hwaits.unsettled]
        split_ifs with hdies
        · exact nofun
        · intro hpending
          rcases hknown with hdead | hanswer
          · rcases List.mem_cons.1 hdead with hpid | hdead
            · refine hdies ⟨(pid_eq_iff ((h.groups r hr).2 g hg)).1 hpid, ?_⟩
              rw [hpending]
            · exact hwaits.known g hg (.inl hdead) hpending
          · exact hwaits.known g hg (.inr hanswer) hpending
      · rw [Round.hears_request]
        rintro g hg
        refine hwaits.told g ((Round.mem_hears hg).resolve_right ?_)
        rintro ⟨-, hfalse⟩
        cases hfalse
      · rw [Round.hears_groups, Round.hears_request]
        rintro _ hmap
        obtain ⟨r', hr', rfl⟩ := List.mem_map.1 hmap
        rw [Round.hears_request, Round.hears_forwarded]
        exact hwaits.alone r' hr'
    · refine .inr (hdone.hears nofun ?_ rfl)
      rintro c hc
      obtain ⟨c', hc', rfl⟩ := Option.map_eq_some_iff.1 hc
      exact hdone.removed c' hc'

/-! ### A reply -/

section Reply

variable {kind : Kind} {m : ResourceReply}

/-- The round a reply is for hears of the group. -/
def hear (m : ResourceReply) (r : Round) : Round :=
  if r.request.correlation = m.correlation then r.hears m.process (m.state == XA_OK) else r

theorem hear_hears : Hears (hear m) := by
  refine ⟨fun r => ?_, fun r => ?_, fun r => ?_⟩ <;> unfold hear <;> split_ifs <;> simp

theorem hear_own (h : r.request.correlation = m.correlation) : hear m r = r.hears m.process (m.state == XA_OK) := if_pos h

theorem hear_other (h : r.request.correlation ≠ m.correlation) : hear m r = r := if_neg h

theorem step_reply (h : Kept env w) {s : Broker} (hs : Broker.reply env kind m w.broker = .ok () s) :
    w.step env (.reply kind m) = ⟨s, w.rounds.map (hear m), w.dead, (m.process, m.correlation) :: w.answered⟩ := by
  have hpump : pump env w.broker (.reply kind m) = s := pump_ok h hs
  unfold step
  simp only [hpump]
  rfl

/-- The request that a group replies to. -/
theorem Kept.replying (h : Kept env w) (ha : admits env w (.reply kind m)) : ∃ r ∈ w.rounds,
    m.process ∈ r.groups ∧ r.request.correlation = m.correlation ∧ r.request.trid = m.trid ∧ r.kind = kind ∧
      (m.process, r.forwarded env) ∈ w.broker.sent := by
  obtain ⟨⟨q, hq, hcorrelation, htrid⟩, -⟩ := ha
  obtain ⟨r, hr, hg, he⟩ := h.sent _ _ _ hq
  have hsent := hq
  rw [he] at hsent
  unfold Round.forwarded at he
  injection he with hkind he
  subst he
  exact ⟨r, hr, hg, hcorrelation, htrid, hkind.symm, hsent⟩

section Other

variable {s : Broker} {l : List (Process × Sent)} {rounds : List Round} {dead : List Nat} {answered : List (Process × Uuid)}

/-- What a reply brings about is about its own request. -/
theorem replies_other (hsent : s.sent = w.broker.sent ++ l)
    (hl : ∀ x ∈ l, ∃ a, x.2 = .reply kind a ∧ a.correlation = m.correlation) {k : Uuid} (hk : k ≠ m.correlation) :
    (⟨s, rounds, dead, answered⟩ : Rounds).replies k = w.replies k := by
  rw [replies_append (w := w) hsent, List.filter_eq_nil_iff.2, List.append_nil]
  rintro x hx
  obtain ⟨a, ha, hka⟩ := hl x hx
  rw [ha, Sent.answers, hka, beq_iff_eq]
  exact fun he => hk he.symm

theorem forwarded_old (hsent : s.sent = w.broker.sent ++ l)
    (hl : ∀ x ∈ l, ∃ a, x.2 = .reply kind a ∧ a.correlation = m.correlation) {g : Process}
    (hg : (g, r.forwarded env) ∈ s.sent) : (g, r.forwarded env) ∈ w.broker.sent := by
  rw [hsent, List.mem_append] at hg
  refine hg.resolve_right fun hg => ?_
  obtain ⟨a, ha, -⟩ := hl _ hg
  cases ha

/-- Another round is as it was. -/
theorem other_of_hear (h : Waits env w r ∨ Done env w r) (hk : r.request.correlation ≠ m.correlation)
    (hsent : s.sent = w.broker.sent ++ l) (hl : ∀ x ∈ l, ∃ a, x.2 = .reply kind a ∧ a.correlation = m.correlation)
    (hentry : Waits env w r → s.correlation r.request.trid.xid = w.broker.correlation r.request.trid.xid)
    (hremoved : ∀ c, s.correlation r.request.trid.xid = some c → c.replyCorrelation = m.correlation ∨
      w.broker.correlation r.request.trid.xid = some c) :
    Waits env ⟨s, w.rounds.map (hear m), w.dead, (m.process, m.correlation) :: w.answered⟩ (hear m r) ∨
      Done env ⟨s, w.rounds.map (hear m), w.dead, (m.process, m.correlation) :: w.answered⟩ (hear m r) := by
  rw [hear_other hk]
  refine h.imp (fun hwaits => ?_) fun hdone => ?_
  · refine hwaits.of (hentry hwaits) (replies_other hsent hl hk) (fun x hx => hsent ▸ List.mem_append_left _ hx) rfl ?_ ?_
    · intro g
      rw [List.mem_cons, or_iff_right]
      exact fun he => hk (Prod.mk.inj he).2
    · rintro _ hmap
      obtain ⟨r', hr', rfl⟩ := List.mem_map.1 hmap
      rw [hear_hears.request, hear_hears.forwarded]
      rintro hx hne g hg hforwarded
      exact List.mem_cons_of_mem _ (hwaits.alone r' hr' hx hne g hg (forwarded_old hsent hl hforwarded))
  · refine hdone.of (fun c hc => ?_) (replies_other hsent hl hk) fun g => forwarded_old hsent hl
    rcases hremoved c hc with hown | hold
    · exact hown ▸ hk.symm
    · exact hdone.removed c hold

end Other

theorem nodup_pids {groups gs : List Process} (hgs : gs.Perm groups) (hnodup : groups.Nodup)
    (hprocess : ∀ g ∈ groups, g = env.process g.pid) : (gs.map (·.pid)).Nodup := by
  refine (hgs.symm.nodup hnodup).map_on fun g hg g' hg' he => ?_
  rw [hprocess g (hgs.subset hg), hprocess g' (hgs.subset hg'), he]

/-- The entry of a request that waits hears what the round hears. -/
theorem hears_entry (hwaits : Waits env w r) (hk : r.request.correlation = m.correlation)
    (hnew : (m.process, m.correlation) ∉ w.answered) (hprocess : ∀ g ∈ r.groups, g = env.process g.pid)
    (hnodup : r.groups.Nodup) (hg : m.process ∈ r.groups) : ∃ gs : List Process, gs.Perm r.groups ∧ ∃ c,
      w.broker.correlation r.request.trid.xid = some c ∧ c.caller = r.request.process ∧
      c.hears m = ⟨r.request.process, r.request.correlation, gs.map fun g => ⟨g, (hear m r).stageOf g⟩⟩ := by
  obtain ⟨gs, hgs, hentry⟩ := hwaits.entry
  refine ⟨gs, hgs, _, hentry, rfl, ?_⟩
  have htold : (m.process, true) ∉ r.heard := fun htrue => hnew (hk ▸ hwaits.told _ htrue)
  unfold Correlation.hears Correlation.setStage
  rw [Correlation.mark_map (nodup_pids hgs hnodup hprocess), hear_own hk]
  refine congrArg _ (List.map_congr_left fun g hg' => ?_)
  rw [Round.stageOf_hears hwaits.unsettled htold]
  have hpid : g.pid = m.process.pid ↔ g = m.process := by
    rw [pid_eq_iff (hprocess g (hgs.subset hg')), ← hprocess m.process hg]
  simp only [hpid, beq_iff_eq]

theorem replied_iff {gs : List Process} (hgs : gs.Perm r.groups) {c : Correlation}
    (hc : c.requests = gs.map fun g => ⟨g, r.stageOf g⟩) : c.replied = true ↔ r.Settled := by
  unfold Correlation.replied
  rw [hc, List.all_map, List.all_eq_true, Round.settled_iff]
  simp only [Function.comp_apply, decide_eq_true_eq, Round.rank_stageOf, hgs.mem_iff]

theorem stage_iff {gs : List Process} (hgs : gs.Perm r.groups) {c : Correlation}
    (hc : c.requests = gs.map fun g => ⟨g, r.stageOf g⟩) (hne : r.groups ≠ []) : c.stage = .replied ↔ r.Agreed := by
  have hrequests : c.requests ≠ [] := by
    rw [hc, ne_eq, List.map_eq_nil_iff]
    exact fun hnil => hne (List.perm_nil.1 (hnil ▸ hgs.symm))
  rw [Correlation.stage_eq_replied hrequests, hc, Round.agreed_iff, List.forall_mem_map]
  simp only [hgs.mem_iff]

/-- The entry for the transaction may change, and the caller may be answered. -/
theorem Kept.replies (h : Kept env w) (hr : r ∈ w.rounds) (hk : r.request.correlation = m.correlation) (hkind : r.kind = kind)
    {s : Broker} {entry : Option Correlation} {l : List (Process × Sent)} (hrunning : s.running = true)
    (hinvolved : s.involved = w.broker.involved)
    (hcorrelation : s.correlation = Function.update w.broker.correlation m.trid.xid entry)
    (hown : ∀ c, entry = some c → c.replyCorrelation = m.correlation ∨ w.broker.correlation m.trid.xid = some c)
    (hentry : ∀ r' ∈ w.rounds, r' ≠ r → Waits env w r' → r'.request.trid.xid = m.trid.xid →
      entry = w.broker.correlation m.trid.xid)
    (hremoved : ∀ c, w.broker.correlation m.trid.xid = some c → ∀ c', entry = some c' → c'.replyCorrelation = c.replyCorrelation)
    (hnone : w.broker.correlation m.trid.xid = none → entry = none)
    (hsent : s.sent = w.broker.sent ++ l) (hl : ∀ x ∈ l, ∃ a, x.2 = .reply kind a ∧ a.correlation = m.correlation)
    (hround : Waits env ⟨s, w.rounds.map (hear m), w.dead, (m.process, m.correlation) :: w.answered⟩ (hear m r) ∨
      Done env ⟨s, w.rounds.map (hear m), w.dead, (m.process, m.correlation) :: w.answered⟩ (hear m r)) :
    Kept env ⟨s, w.rounds.map (hear m), w.dead, (m.process, m.correlation) :: w.answered⟩ := by
  refine h.hears hear_hears hrunning hinvolved hsent ?_ ?_ ?_ ?_
  · rintro x hx
    obtain ⟨a, ha, hka⟩ := hl x hx
    exact ⟨r, hr, a, hkind ▸ ha, hka.trans hk.symm⟩
  · rintro x c' hc'
    rw [hcorrelation] at hc'
    by_cases hxm : x = m.trid.xid
    · subst hxm
      rw [Function.update_self] at hc'
      cases hc : w.broker.correlation m.trid.xid with
      | none =>
        rw [hnone hc] at hc'
        cases hc'
      | some c => exact ⟨c, rfl, (hremoved c hc c' hc').symm⟩
    · rw [Function.update_of_ne hxm] at hc'
      exact ⟨c', hc', rfl⟩
  · rintro x hx
    rcases List.mem_cons.1 hx with rfl | hx
    · exact ⟨r, hr, hk⟩
    · exact h.answered x hx
  · rintro r' hr'
    by_cases he : r' = r
    · exact he ▸ hround
    · have hk' : r'.request.correlation ≠ m.correlation :=
        fun hk' => he (h.eq_of_correlation hr' hr (hk'.trans hk.symm))
      refine other_of_hear (h.rounds r' hr') hk' hsent hl (fun hwaits => ?_) fun c hc => ?_
      · rw [hcorrelation]
        by_cases hxm : r'.request.trid.xid = m.trid.xid
        · rw [hxm, Function.update_self]
          exact hentry r' hr' he hwaits hxm
        · exact Function.update_of_ne hxm ..
      · rw [hcorrelation] at hc
        by_cases hxm : r'.request.trid.xid = m.trid.xid
        · rw [hxm, Function.update_self] at hc
          rw [hxm]
          exact hown c hc
        · rw [Function.update_of_ne hxm] at hc
          exact .inr hc

/-- The request waits on, or its caller is answered. -/
theorem Kept.reply_waits (h : Kept env w) (ha : admits env w (.reply kind m))
    (horderly : Orderly env w (.reply kind m)) (hr : r ∈ w.rounds) (hg : m.process ∈ r.groups)
    (hk : r.request.correlation = m.correlation) (htrid : r.request.trid = m.trid) (hkind : r.kind = kind)
    (hwaits : Waits env w r) : Kept env (w.step env (.reply kind m)) := by
  obtain ⟨gs, hgs, c, hentry, hcaller, hears⟩ := hears_entry hwaits hk ha.2 (h.groups r hr).2 (h.groups r hr).1 hg
  rw [← (hear_hears (m := m)).groups r] at hgs
  rw [htrid] at hentry
  have hrequests : (c.hears m).requests = gs.map fun g => ⟨g, (hear m r).stageOf g⟩ := by rw [hears]
  have hcorrelation : (c.hears m).replyCorrelation = m.correlation := by
    rw [hears]
    exact hk
  -- the other requests that wait are for other transactions
  have hentries : ∀ {entry : Option Correlation}, ∀ r' ∈ w.rounds, r' ≠ r → Waits env w r' →
      r'.request.trid.xid = m.trid.xid → entry = w.broker.correlation m.trid.xid := by
    rintro entry r' hr' hne hwaits' he
    rw [← htrid] at he
    exact absurd (h.eq_of_correlation hr' hr (hwaits'.unique hwaits he)) hne
  by_cases hsettled : (hear m r).Settled
  · have hreplied := (replied_iff hgs hrequests).2 hsettled
    have hs := @reply_final env kind _ _ _ hentry hreplied (horderly c hentry hreplied)
    have hl : ∀ x ∈ [(c.caller, Sent.reply kind (finalReply env (c.hears m) m))],
        ∃ a, x.2 = .reply kind a ∧ a.correlation = m.correlation := by
      rintro x hx
      rw [List.mem_singleton.1 hx]
      exact ⟨_, rfl, hcorrelation⟩
    have hstate : (finalReply env (c.hears m) m).state = XA_OK ↔ (hear m r).Agreed := by
      rw [← stage_iff hgs hrequests ((hear_hears (m := m)).groups r ▸ List.ne_nil_of_mem hg)]
      unfold finalReply
      dsimp only
      split_ifs with hstage
      · exact iff_of_true rfl hstage
      · exact iff_of_false (by decide) hstage
    rw [step_reply h hs]
    refine h.replies hr hk hkind h.running rfl rfl nofun hentries (fun _ _ => nofun) (fun _ => rfl) rfl hl (.inr ⟨?_, ?_⟩)
    · refine ⟨finalReply env (c.hears m) m, ?_, .inr (.inl ⟨hsettled, hstate⟩)⟩
      rw [replies_append (w := w) rfl, hear_hears.request, hear_hears.kind, hwaits.replies, hcaller, hkind]
      refine List.filter_eq_self.2 fun x hx => ?_
      rw [List.mem_singleton.1 hx]
      exact beq_iff_eq.2 (hcorrelation.trans hk.symm)
    · rw [hear_hears.request, htrid]
      rintro c' hc'
      have hgone : Function.update w.broker.correlation m.trid.xid none m.trid.xid = some c' := hc'
      rw [Function.update_self] at hgone
      cases hgone
  · have hs := @reply_pending env kind _ _ _ hentry
      (Bool.eq_false_iff.2 fun htrue => hsettled ((replied_iff hgs hrequests).1 htrue))
    have hreplied : ∀ c', some (c.hears m) = some c' → c'.replyCorrelation = m.correlation := by
      rintro c' hc'
      rw [← Option.some.inj hc']
      exact hcorrelation
    have hold : c.replyCorrelation = m.correlation := hcorrelation
    rw [step_reply h hs]
    refine h.replies hr hk hkind h.running rfl rfl (fun c' hc' => .inl (hreplied c' hc')) hentries ?_ ?_
      (List.append_nil _).symm (fun x hx => absurd hx List.not_mem_nil) (.inl ⟨⟨gs, hgs, ?_⟩, hsettled, ?_, ?_, ?_, ?_, ?_⟩)
    · rintro c₀ hc₀ c' hc'
      rw [hentry] at hc₀
      rw [hreplied c' hc', ← Option.some.inj hc₀, hold]
    · rintro hnone
      rw [hnone] at hentry
      cases hentry
    · rw [hear_hears.request, htrid]
      dsimp only
      rw [Function.update_self, hears]
    · rw [hear_hears.request]
      exact hwaits.replies
    · rw [hear_hears.groups, hear_hears.forwarded]
      exact hwaits.sent
    · rw [hear_hears.groups, hear_hears.request, hear_own hk]
      have htold : (m.process, true) ∉ r.heard := fun htrue => ha.2 (hk ▸ hwaits.told _ htrue)
      rintro g hg' hknown
      rw [Round.stageOf_hears hwaits.unsettled htold]
      split_ifs with hgm
      · exact nofun
      · exact nofun
      · refine hwaits.known g hg' (hknown.imp_right fun hx => ?_)
        rcases List.mem_cons.1 hx with he | hx
        · exact absurd (Prod.mk.inj he).1 hgm
        · exact hx
    · rw [hear_hears.request, hear_own hk]
      rintro g hg'
      rcases Round.mem_hears hg' with hold' | ⟨rfl, -⟩
      · exact List.mem_cons_of_mem _ (hwaits.told g hold')
      · exact hk ▸ List.mem_cons_self
    · rintro _ hmap
      obtain ⟨r', hr', rfl⟩ := List.mem_map.1 hmap
      rw [hear_hears.groups, hear_hears.request, hear_hears.request, hear_hears.forwarded]
      exact fun hx hne g hg' hforwarded => List.mem_cons_of_mem _ (hwaits.alone r' hr' hx hne g hg' hforwarded)

/-- A reply to a request that has been answered. -/
theorem Kept.reply_done (h : Kept env w) (ha : admits env w (.reply kind m)) (hr : r ∈ w.rounds) (hmem : m.process ∈ r.groups)
    (hk : r.request.correlation = m.correlation) (htrid : r.request.trid = m.trid) (hkind : r.kind = kind)
    (hforwarded : (m.process, r.forwarded env) ∈ w.broker.sent)
    (hdone : Done env w r) : Kept env (w.step env (.reply kind m)) := by
  have hround : ∀ {s : Broker}, s.sent = w.broker.sent → s.correlation = w.broker.correlation →
      Done env ⟨s, w.rounds.map (hear m), w.dead, (m.process, m.correlation) :: w.answered⟩ (hear m r) := by
    rintro s hsent hcorrelation
    rw [hear_own hk]
    exact hdone.hears (fun _ => hforwarded) (hcorrelation ▸ hdone.removed) hsent
  have hkept : ∀ {s : Broker}, s.running = true → s.involved = w.broker.involved → s.sent = w.broker.sent →
      s.correlation = w.broker.correlation →
        Kept env ⟨s, w.rounds.map (hear m), w.dead, (m.process, m.correlation) :: w.answered⟩ := by
    rintro s hrunning hinvolved hsent hcorrelation
    refine h.replies hr hk hkind hrunning hinvolved (hcorrelation.trans (Function.update_eq_self _ _).symm) (fun _ => .inr)
      (fun _ _ _ _ _ => rfl) ?_ id (hsent.trans (List.append_nil _).symm) (fun x hx => absurd hx List.not_mem_nil)
      (.inr (hround hsent hcorrelation))
    rintro c hc c' hc'
    rw [hc] at hc'
    cases hc'
    rfl
  cases hentry : w.broker.correlation m.trid.xid with
  | none =>
    rw [step_reply h (reply_none hentry)]
    exact hkept h.running rfl rfl rfl
  | some c =>
    -- the entry is of a request that is not for this group
    obtain ⟨r', hr', hx, hkc, hwaits⟩ := h.waits_of_entry hentry
    have hne : r.request.correlation ≠ r'.request.correlation := by
      rw [hkc]
      exact fun he => hdone.removed c (htrid ▸ hentry) he.symm
    have hg : m.process ∉ r'.groups := by
      intro hg
      refine ha.2 (hk ▸ hwaits.alone r hr ?_ hne m.process hg hforwarded)
      rw [hx, htrid]
    obtain ⟨gs, hgs, hc⟩ := hwaits.entry
    rw [hx, hentry] at hc
    cases hc
    have hears : Correlation.hears ⟨r'.request.process, r'.request.correlation, gs.map fun g => ⟨g, r'.stageOf g⟩⟩ m =
        ⟨r'.request.process, r'.request.correlation, gs.map fun g => ⟨g, r'.stageOf g⟩⟩ := by
      obtain ⟨hnodup, hprocess⟩ := h.groups r' hr'
      unfold Correlation.hears Correlation.setStage
      rw [Correlation.mark_map (nodup_pids hgs hnodup hprocess)]
      refine congrArg _ (List.map_congr_left fun g hg' => ?_)
      rw [if_neg fun hpid => ?_]
      rw [pid_eq_iff (hprocess g (hgs.subset hg')), ← (h.groups r hr).2 m.process hmem] at hpid
      exact hg (hpid ▸ hgs.subset hg')
    have hpending := @reply_pending env kind _ _ _ hentry (by
      rw [hears]
      exact Bool.eq_false_iff.2 fun htrue => hwaits.unsettled ((replied_iff hgs rfl).1 htrue))
    rw [hears, ← hentry, Function.update_eq_self] at hpending
    rw [step_reply h hpending]
    exact hkept h.running rfl rfl rfl

theorem Kept.reply (h : Kept env w) (ha : admits env w (.reply kind m)) (horderly : Orderly env w (.reply kind m)) :
    Kept env (w.step env (.reply kind m)) := by
  obtain ⟨r, hr, hg, hk, htrid, hkind, hforwarded⟩ := h.replying ha
  rcases h.rounds r hr with hwaits | hdone
  · exact h.reply_waits ha horderly hr hg hk htrid hkind hwaits
  · exact h.reply_done ha hr hg hk htrid hkind hforwarded hdone

end Reply

/-! ### Runs -/

theorem kept_start (groups : List Group) (queues : List (String × LookupReply)) :
    Kept env ⟨start groups queues, [], [], []⟩ := by
  refine ⟨rfl, .nil, ?_, ?_, ?_, ?_, ?_, ?_, ?_⟩
  · exact fun r hr => absurd hr List.not_mem_nil
  · exact nofun
  · exact nofun
  · exact fun r hr => absurd hr List.not_mem_nil
  · exact fun _ _ _ hx => absurd hx List.not_mem_nil
  · exact fun _ _ _ hx => absurd hx List.not_mem_nil
  · exact fun _ hx => absurd hx List.not_mem_nil

theorem Kept.involves (h : Kept env w) {process : Process} {trid : Transaction.ID} (ha : process = env.process process.pid) :
    Kept env (w.step env (.involved process trid)) := by
  have hpump : pump env w.broker (.involved process trid) = after (groupInvolved process trid w.broker) := pump_ok h rfl
  unfold step
  simp only [hpump]
  refine h.frame h.running rfl ⟨[], (List.append_nil _).symm, fun x hx => absurd hx List.not_mem_nil⟩ ?_
  rintro x gs hgs
  have hupdate : Function.update w.broker.involved trid.xid (some (if process ∈ (w.broker.involved trid.xid).getD [] then
      (w.broker.involved trid.xid).getD [] else (w.broker.involved trid.xid).getD [] ++ [process])) x = some gs := hgs
  by_cases hx : x = trid.xid
  · subst hx
    rw [Function.update_self] at hupdate
    have hbefore : ((w.broker.involved trid.xid).getD []).Nodup ∧
        ∀ g ∈ (w.broker.involved trid.xid).getD [], g = env.process g.pid := by
      cases hinvolved : w.broker.involved trid.xid with
      | none => exact ⟨.nil, fun g hg => absurd hg List.not_mem_nil⟩
      | some gs => exact (h.involved _ gs hinvolved).2
    obtain ⟨hnodup, hprocess⟩ := hbefore
    split_ifs at hupdate with hmem
    · obtain rfl := Option.some.inj hupdate
      exact ⟨List.ne_nil_of_mem hmem, hnodup, hprocess⟩
    · obtain rfl := Option.some.inj hupdate
      refine ⟨by simp, List.nodup_append.2 ⟨hnodup, List.nodup_singleton _, ?_⟩, ?_⟩
      · rintro g hg _ hp rfl
        exact hmem (List.mem_singleton.1 hp ▸ hg)
      · rintro g hg
        rcases List.mem_append.1 hg with hg | hg
        · exact hprocess g hg
        · rw [List.mem_singleton.1 hg]
          exact ha
  · rw [Function.update_of_ne hx] at hupdate
    exact h.involved x gs hupdate

theorem Kept.looks_up (h : Kept env w) {process : Process} {name : String}
    (hthere : env.gone w.broker.attempts process.queue = false) : Kept env (w.step env (.lookup process name)) := by
  have hs : ∃ reply, lookupRequest env process name w.broker =
      .ok () (w.broker.sending (w.broker.attempts + 1) [process] (.lookup reply)) := by
    unfold lookupRequest
    cases w.broker.queues.find? fun q => q.1 == name with
    | none => exact ⟨_, blockingSend_there hthere⟩
    | some found => exact ⟨_, blockingSend_there hthere⟩
  obtain ⟨reply, hs⟩ := hs
  have hpump : pump env w.broker (.lookup process name) = _ := pump_ok h hs
  unfold step
  simp only [hpump]
  refine h.frame h.running rfl ⟨_, rfl, fun x hx => ?_⟩ h.involved
  obtain ⟨g, -, rfl⟩ := List.mem_map.1 hx
  exact ⟨reply, rfl⟩

theorem Kept.step (h : Kept env w) {e : Event} (ha : admits env w e) (horderly : Orderly env w e) : Kept env (w.step env e) := by
  cases e with
  | exit pid => exact h.exit horderly
  | connect process queues =>
    have hpump : pump env w.broker (.connect process queues) = after (connectRequest process queues w.broker) := pump_ok h rfl
    unfold Rounds.step
    simp only [hpump]
    exact h.frame h.running rfl ⟨[], (List.append_nil _).symm, fun x hx => absurd hx List.not_mem_nil⟩ h.involved
  | lookup process name => exact h.looks_up horderly
  | involved process trid => exact h.involves ha
  | request kind m => exact h.request ha horderly
  | reply kind m => exact h.reply ha horderly

theorem Kept.all_answered (h : Kept env w) : Answered w := by
  rintro r hr hsettled
  have hdone := (h.rounds r hr).resolve_left fun hwaits => hwaits.unsettled hsettled
  obtain ⟨m, hm, hstate⟩ := hdone.reply
  refine ⟨⟨m, hm, fun hne => ?_⟩, hdone.removed⟩
  rcases hstate with hnil | ⟨-, hagreed⟩ | ⟨hfailed, g, hg, hheard, -⟩
  · exact absurd hnil hne
  · exact hagreed
  · exact iff_of_false hfailed fun hagreed => hheard (hagreed g hg)

/-- In every orderly run, a request whose groups have all replied or died has been answered, once. -/
theorem answered_of_reachable (h : ((serving env).restrict (Orderly env)).Reachable w) : Answered w := by
  suffices hkept : Kept env w from hkept.all_answered
  apply h.invariant (I := Kept env)
  · rintro w ⟨groups, queues, rfl⟩
    exact kept_start groups queues
  · rintro w e hkept ⟨ha, horderly⟩
    exact hkept.step ha horderly

/-! ### A group that dies, and the last group that dies -/

/-- A broker with the queue 5 to which every queue takes what is sent. -/
def someEnvironment : Environment := ⟨⟨5, 5⟩, id, fun _ _ => false, fun _ _ => false⟩

/-- A broker that has just started. -/
def someRounds : Rounds := ⟨start [] [], [], [], []⟩

/-- A caller commits. -/
def someRequest : ResourceRequest := ⟨1, ⟨9, 9⟩, Database.someID, 3, 0⟩

/-- A group replies that it has committed. -/
def someReply (pid : Nat) : ResourceReply := ⟨1, ⟨pid, pid⟩, Database.someID, 0, XA_OK⟩

/-- The queue of the second group is removed after three attempts to send something. -/
def oneRemoved : Environment := { someEnvironment with gone := fun n queue => queue == 2 && Nat.ble 3 n }

/-- Another transaction. -/
def laterID : Transaction.ID := ⟨⟨1, [3], [9], by decide⟩, ⟨9, 9⟩⟩

/-- Its caller commits. -/
def laterRequest : ResourceRequest := ⟨2, ⟨9, 9⟩, laterID, 3, 0⟩

/-- Two groups are involved and reply, the second one dies, and the next transaction that it is involved in
comes to its end. -/
def oneDies : List Event :=
  [.involved ⟨1, 1⟩ Database.someID, .involved ⟨2, 2⟩ Database.someID, .involved ⟨2, 2⟩ laterID,
    .request .commit someRequest, .reply .commit (someReply 2), .reply .commit (someReply 1), .exit 2,
    .request .commit laterRequest]

theorem oneDies_answered : Answered (oneDies.foldl (serving oneRemoved).step someRounds) := by
  apply @answered_of_reachable oneRemoved
  refine .foldl (M := (serving oneRemoved).restrict _) (.of_init ⟨[], [], rfl⟩) ?_
  refine ⟨⟨rfl, trivial⟩, ⟨rfl, trivial⟩, ⟨rfl, trivial⟩, ⟨fun _ hr => absurd hr List.not_mem_nil, fun _ _ _ => rfl, ?_⟩,
    ⟨⟨?_, ?_⟩, ?_⟩, ⟨⟨?_, ?_⟩, ?_⟩, ⟨trivial, ?_⟩, ⟨?_, fun _ _ _ => rfl, ?_⟩, trivial⟩
  · exact fun _ _ => ⟨fun _ _ hdead => absurd hdead List.not_mem_nil, fun _ hr => absurd hr List.not_mem_nil⟩
  · exact ⟨{ someRequest with process := ⟨5, 5⟩ }, by decide +kernel, rfl, rfl⟩
  · decide +kernel
  · rintro c hc -
    obtain rfl := Option.some.inj hc
    rfl
  · exact ⟨{ someRequest with process := ⟨5, 5⟩ }, by decide +kernel, rfl, rfl⟩
  · decide +kernel
  · rintro c hc -
    obtain rfl := Option.some.inj hc
    rfl
  · rintro x c hc
    -- the only entry there was has been removed
    by_cases hx : x = Database.someID.xid
    · subst hx
      cases hc
    · have hupdates : Function.update (Function.update (Function.update (Function.update (fun _ => none)
          Database.someID.xid _) Database.someID.xid _) Database.someID.xid _) Database.someID.xid none x = some c := hc
      simp only [Function.update_of_ne hx] at hupdates
      cases hupdates
  · rintro r hr
    rw [List.mem_singleton.1 hr]
    decide
  · rintro groups hgroups
    obtain rfl := Option.some.inj hgroups
    refine ⟨?_, ?_⟩
    · rintro g hg - n hn
      rw [List.mem_singleton.1 hg]
      exact Nat.ble_eq_true_of_le hn
    · rintro r hr hx
      rw [List.mem_singleton.1 hr] at hx
      exact absurd hx (by decide)

/-- The only group dies, and nobody answers the caller. -/
theorem groupDies_unanswered : ∃ w, (serving someEnvironment).Reachable w ∧ ¬ Answered w := by
  have hreachable : (serving someEnvironment).Reachable
      ([.involved ⟨1, 1⟩ Database.someID, .request .commit someRequest, .exit 1].foldl (serving someEnvironment).step someRounds) :=
    .foldl (.of_init ⟨[], [], rfl⟩) ⟨rfl, fun _ hr => absurd hr List.not_mem_nil, trivial, trivial⟩
  refine ⟨_, hreachable, fun h => ?_⟩
  obtain ⟨⟨m, hm, -⟩, -⟩ := h ⟨.commit, someRequest, [⟨1, 1⟩], [(⟨1, 1⟩, false)]⟩ (by decide +kernel) (by decide)
  have hnone : Rounds.replies ([.involved ⟨1, 1⟩ Database.someID, .request .commit someRequest, .exit 1].foldl
      (serving someEnvironment).step someRounds) someRequest.correlation = [] := by
    decide +kernel
  rw [hnone] at hm
  cases hm

end Rounds

end Broker

end Casual.Queue

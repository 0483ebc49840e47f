/-
How a transaction ends, whatever the order in which its resources answer: nothing but the results they
have voted decides it.
-/
import Casual.Manager.Lives

namespace Casual.Manager

open Casual.Common Casual.Communication Casual.Lib
open Casual.Common.Transaction (ID XID)

/-! ## Gathering answers -/

/-- The stage of a resource that has answered. -/
def repliedStage : Phase → Stage
  | .prepare => .prepareReplied
  | .commit => .commitReplied
  | .rollback => .rollbackReplied

/-- Of the resources of a transaction, those that wait have been asked and are to answer; the others have
answered, or are no longer involved. -/
structure Gathering (phase : Phase) (trid : ID) (correlation : Uuid) (answered waiting : Multiset Resource) (l : Life) :
    Prop where
  record : l.record = some ⟨trid, answered + waiting, correlation⟩
  nodup : ((answered + waiting).map (·.id)).Nodup
  waits : ∀ u ∈ waiting, u.stage < repliedStage phase
  answers : ∀ u ∈ answered, u.stage = repliedStage phase ∨ u.stage = .notInvolved
  unanswered : l.unanswered = waiting.map fun u => (phase, u.id)

namespace Gathering

variable {phase : Phase} {trid : ID} {correlation : Uuid} {answered waiting : Multiset Resource} {l : Life} {x : XID}

/-- Only a resource that waits can answer. -/
theorem heeds (h : Gathering phase trid correlation answered waiting l) {phase' : Phase} {m : ResourceReply}
    (hheeds : l.Heeds x (.reply phase' m)) :
    phase' = phase ∧ ∃ u waiting', waiting = u ::ₘ waiting' ∧ u.id = m.resource := by
  have hmem := hheeds.2
  rw [h.unanswered, Multiset.mem_map] at hmem
  obtain ⟨u, hu, heq⟩ := hmem
  obtain ⟨rfl, hid⟩ := Prod.mk.inj heq
  exact ⟨rfl, u, waiting.erase u, (Multiset.cons_erase hu).symm, hid⟩

theorem mem_record {u : Resource} {waiting' : Multiset Resource} {m : ResourceReply}
    (h : Gathering phase trid correlation answered (u ::ₘ waiting') l) (hid : u.id = m.resource) :
    ¬ ∀ r, l.record = some r → m.resource ∉ r.resources.map (·.id) := by
  intro hnone
  refine hnone _ h.record ?_
  rw [← hid]
  exact Multiset.mem_map_of_mem _ (Multiset.mem_add.2 (.inr (Multiset.mem_cons_self _ _)))

/-- What its answer makes of the transaction. -/
theorem turned {u : Resource} {waiting' : Multiset Resource} {m : ResourceReply} {f : Resource → Resource} {r : Record}
    (h : Gathering phase trid correlation answered (u ::ₘ waiting') l) (hid : u.id = m.resource) (hturns : l.Turns m f r) :
    r = ⟨trid, (f u ::ₘ answered) + waiting', correlation⟩ := by
  obtain ⟨r₀, v, hr₀, hv, hvid, rfl⟩ := hturns
  obtain rfl := Option.some.inj (h.record.symm.trans hr₀)
  have hu : u ∈ answered + u ::ₘ waiting' := Multiset.mem_add.2 (.inr (Multiset.mem_cons_self _ _))
  obtain rfl : v = u := Multiset.inj_on_of_nodup_map h.nodup v hv u hu (hvid.trans hid.symm)
  unfold Record.change
  simp only [Multiset.add_cons, Multiset.erase_cons_head, Multiset.cons_add]

/-- A resource has answered. -/
theorem next {u : Resource} {waiting' : Multiset Resource} {m : ResourceReply} {f : Resource → Resource} {l' : Life}
    (h : Gathering phase trid correlation answered (u ::ₘ waiting') l) (hid : u.id = m.resource) (hf : (f u).id = u.id)
    (hstage : (f u).stage = repliedStage phase ∨ (f u).stage = .notInvolved)
    (hrecord : l'.record = some ⟨trid, (f u ::ₘ answered) + waiting', correlation⟩)
    (hunanswered : l'.unanswered = (l.answered phase m).unanswered) :
    Gathering phase trid correlation (f u ::ₘ answered) waiting' l' := by
  refine ⟨hrecord, ?_, fun v hv => h.waits v (Multiset.mem_cons_of_mem hv), fun v hv => ?_, ?_⟩
  · have := h.nodup
    simp only [Multiset.add_cons, Multiset.cons_add, Multiset.map_cons] at this ⊢
    rwa [hf]
  · rcases Multiset.mem_cons.1 hv with rfl | hv
    · exact hstage
    · exact h.answers v hv
  · rw [hunanswered]
    unfold Life.answered
    simp only [h.unanswered, Multiset.map_cons, hid, Multiset.erase_cons_head]

/-- As long as one waits the transaction does not get to the next stage. -/
theorem stage_ne (h : Gathering phase trid correlation answered waiting l) (hw : waiting ≠ 0) :
    (⟨trid, answered + waiting, correlation⟩ : Record).stage ≠ repliedStage phase := by
  intro hstage
  obtain ⟨u, hu⟩ := Multiset.exists_mem_of_ne_zero hw
  have hle := Record.le_stage.1 hstage.ge u (Multiset.mem_add.2 (.inr hu))
  exact absurd (h.waits u hu) (not_lt.2 hle)

/-- When all have answered it gets there, unless none is involved any longer. -/
theorem stage_eq (h : Gathering phase trid correlation answered 0 l) :
    (⟨trid, answered + 0, correlation⟩ : Record).stage = repliedStage phase ↔ ∃ u ∈ answered, u.stage = repliedStage phase := by
  have hne : (repliedStage phase) ≠ .notInvolved := by cases phase <;> decide
  rw [add_zero]
  constructor
  · intro hstage
    obtain ⟨u, hu, hus⟩ := Record.exists_stage (r := ⟨trid, answered, correlation⟩) (hstage ▸ hne)
    exact ⟨u, hu, hus.trans hstage⟩
  · rintro ⟨u, hu, hus⟩
    refine le_antisymm (hus ▸ Record.le_stage.1 le_rfl u hu) (Record.le_stage.2 fun v hv => ?_)
    rcases h.answers v hv with hs | hs
    · exact hs.ge
    · exact hs ▸ le_top

end Gathering

/-! ## The last round -/

/-- The result that is reported when all have answered. -/
def reported (phase : Phase) (r : Result) : Result :=
  if phase = .rollback ∧ (r = .XA_OK ∨ r = .XAER_NOTA ∨ r = .XA_RDONLY) then .XA_OK else r

/-- The reply that ends a commit or a rollback. -/
def lastReply (phase : Phase) (trid : ID) (correlation : Uuid) (r : Result) : Reply :=
  match phase with
  | .rollback => .rollback trid correlation .rollback r.code
  | .prepare | .commit => .commit trid correlation .commit r.code

/-- A transaction of which all resources have answered in the last round: one reply has been made, and it
is known no longer if that is `XA_OK`. -/
structure Ended (phase : Phase) (trid : ID) (correlation : Uuid) (verdict : Result) (l l' : Life) : Prop where
  unanswered : l'.unanswered = 0
  emitted : l'.emitted = l.emitted
  replies : ∃ t : ID, t.xid = trid.xid ∧
    l'.replies = (trid.owner.queue, lastReply phase t correlation (reported phase verdict)) ::ₘ l.replies
  record : l'.record = none ↔ reported phase verdict = .XA_OK
  logged : reported phase verdict = .XA_OK → l'.logged = false

/-- How far it is: `l` is its life when the resources had been asked. -/
inductive Ending (phase : Phase) (trid : ID) (correlation : Uuid) (verdict : Result) (l : Life) : Life → Prop
  | asking {answered waiting : Multiset Resource} {l' : Life} (hw : waiting ≠ 0)
      (hg : Gathering phase trid correlation answered waiting l')
      (hresults : (⟨trid, answered + waiting, correlation⟩ : Record).results = verdict)
      (hemitted : l'.emitted = l.emitted) (hreplies : l'.replies = l.replies) : Ending phase trid correlation verdict l l'
  | ended {l' : Life} (h : Ended phase trid correlation verdict l l') : Ending phase trid correlation verdict l l'

/-- What happens to a transaction nobody asks for anything. -/
def Signal.quiet : Signal → Prop
  | .reply _ _ | .other => True
  | _ => False

section

variable {phase : Phase} {trid : ID} {correlation : Uuid} {verdict : Result} {l l' l'' : Life}

theorem results_change (f : Resource → Resource) {u : Resource} (hf : (f u).result = u.result)
    (answered waiting : Multiset Resource) :
    (⟨trid, (f u ::ₘ answered) + waiting, correlation⟩ : Record).results =
      (⟨trid, answered + u ::ₘ waiting, correlation⟩ : Record).results := by
  unfold Record.results
  simp only [Multiset.add_cons, Multiset.cons_add, Multiset.map_cons, hf]

/-- An answer in the last round, of a resource that has been waited for. -/
theorem Ending.answer {answered waiting : Multiset Resource} {u : Resource} {m : ResourceReply}
    {f : Resource → Resource} {r : Record} (hg : Gathering phase trid correlation answered (u ::ₘ waiting) l')
    (hid : u.id = m.resource) (hf : f u = { u with stage := repliedStage phase }) (hturns : l'.Turns m f r)
    (hresults : (⟨trid, answered + u ::ₘ waiting, correlation⟩ : Record).results = verdict)
    (hemitted : l'.emitted = l.emitted) (hreplies : l'.replies = l.replies) (hx : m.trid.xid = trid.xid) :
    (r.stage ≠ repliedStage phase → Ending phase trid correlation verdict l ((l'.answered phase m).set r)) ∧
    (r.stage = repliedStage phase → ∀ l'', l''.unanswered = (l'.answered phase m).unanswered → l''.emitted = l'.emitted →
      l''.replies = (r.trid.owner.queue, lastReply phase m.trid r.correlation (reported phase r.results)) ::ₘ l'.replies →
      (l''.record = none ↔ reported phase r.results = .XA_OK) → (reported phase r.results = .XA_OK → l''.logged = false) →
      Ending phase trid correlation verdict l l'') := by
  have hr := hg.turned hid hturns
  have hnext : Gathering phase trid correlation (f u ::ₘ answered) waiting ((l'.answered phase m).set r) :=
    hg.next hid (by rw [hf]) (.inl (by rw [hf])) (congrArg some hr) rfl
  have hresults' : r.results = verdict := by
    rw [hr, results_change f (by rw [hf]), hresults]
  by_cases hw : waiting = 0
  · subst hw
    have hstage : r.stage = repliedStage phase := by
      rw [hr, hnext.stage_eq]
      exact ⟨f u, Multiset.mem_cons_self _ _, by rw [hf]⟩
    refine ⟨fun h => absurd hstage h, fun _ l'' hunanswered hemitted' hreplies' hrecord hlogged => .ended ?_⟩
    refine ⟨?_, hemitted'.trans hemitted, ⟨m.trid, hx, ?_⟩, hresults' ▸ hrecord, hresults' ▸ hlogged⟩
    · rw [hunanswered]
      exact hnext.unanswered
    · rw [hreplies', hresults', hreplies, hr]
  · refine ⟨fun _ => .asking hw hnext (hr ▸ hresults') hemitted hreplies, fun h => ?_⟩
    rw [hr] at h
    exact absurd h (hnext.stage_ne hw)

/-- The life that what others do may lead to. -/
theorem Ending.other (h : Ending phase trid correlation verdict l l') {n : Note} (hstep : Life.Step l' .other l'' n) :
    Ending phase trid correlation verdict l l'' := by
  cases hstep with
  | other _ => exact h
  | unlogged _ =>
    cases h with
    | asking hw hg hresults hemitted hreplies =>
      exact .asking hw ⟨hg.record, hg.nodup, hg.waits, hg.answers, hg.unanswered⟩ hresults hemitted hreplies
    | ended h => exact .ended ⟨h.unanswered, h.emitted, h.replies, h.record, fun _ => rfl⟩

theorem Ending.step (hphase : phase ≠ .prepare) (h : Ending phase trid correlation verdict l l') {s : Signal} {n : Note}
    (hheeds : l'.Heeds trid.xid s) (hquiet : s.quiet) (hstep : Life.Step l' s l'' n) (hn : n ≠ .stops) :
    Ending phase trid correlation verdict l l'' := by
  cases s with
  | involved _ _ => exact hquiet.elim
  | commit _ _ => exact hquiet.elim
  | rollback _ _ => exact hquiet.elim
  | other => exact h.other hstep
  | reply phase' m =>
    cases h with
    | ended h =>
      have hmem := hheeds.2
      rw [h.unanswered] at hmem
      exact absurd hmem (Multiset.notMem_zero _)
    | asking hw hg hresults hemitted hreplies =>
      obtain ⟨rfl, u, waiting, rfl, hid⟩ := hg.heeds hheeds
      cases hstep with
      | lost => exact absurd rfl hn
      | stray hnone => exact absurd hnone (hg.mem_record hid)
      | prepareWaits => exact absurd rfl hphase
      | prepareReadOnly => exact absurd rfl hphase
      | prepareCommits => exact absurd rfl hphase
      | prepareUnlogged => exact absurd rfl hphase
      | prepareRollsBack => exact absurd rfl hphase
      | commitWaits hturns hs => exact (Ending.answer hg hid rfl hturns hresults hemitted hreplies hheeds.1).1 hs
      | commitDone hturns hs hres =>
        refine (Ending.answer hg hid rfl hturns hresults hemitted hreplies hheeds.1).2 hs _ rfl rfl ?_ ?_ fun _ => rfl
        · rw [hres]
          rfl
        · rw [hres]
          exact iff_of_true rfl rfl
      | commitKept hturns hs hres =>
        refine (Ending.answer hg hid rfl hturns hresults hemitted hreplies hheeds.1).2 hs _ rfl rfl rfl ?_
          fun h => absurd h hres
        exact iff_of_false nofun hres
      | rollbackWaits hturns hs => exact (Ending.answer hg hid rfl hturns hresults hemitted hreplies hheeds.1).1 hs
      | rollbackDone hturns hs hres =>
        have hreported : reported .rollback _ = .XA_OK := if_pos ⟨rfl, hres⟩
        refine (Ending.answer hg hid rfl hturns hresults hemitted hreplies hheeds.1).2 hs _ rfl rfl ?_ ?_
          fun _ => rfl
        · rw [hreported]
          rfl
        · exact iff_of_true rfl hreported
      | @rollbackKept _ r hturns hs hres =>
        have hreported : reported .rollback r.results = r.results := if_neg fun h => hres h.2
        refine (Ending.answer hg hid rfl hturns hresults hemitted hreplies hheeds.1).2 hs _ rfl rfl ?_ ?_
          fun h => absurd (hreported ▸ h) fun h => hres (.inl h)
        · rw [hreported]
          rfl
        · rw [hreported]
          exact iff_of_false nofun fun h => hres (.inl h)

end

/-! ## The first round -/

/-- A resource that has voted. -/
def voter (v : Nat × Result) : Resource := ⟨v.1, if v.2 = .XA_RDONLY then .notInvolved else .prepareReplied, v.2⟩

/-- The most severe of the votes. -/
def worst (votes : Multiset (Nat × Result)) : Result := (votes.map Prod.snd).inf

/-- The resources that have not only read. -/
def remaining (votes : Multiset (Nat × Result)) : Multiset Nat := (votes.filter fun v => v.2 ≠ .XA_RDONLY).map Prod.fst

theorem le_worst {votes : Multiset (Nat × Result)} {r : Result} : r ≤ worst votes ↔ ∀ v ∈ votes, r ≤ v.2 := by
  unfold worst; rw [Multiset.le_inf, Multiset.forall_mem_map_iff]

theorem worst_le {votes : Multiset (Nat × Result)} {v : Nat × Result} (hv : v ∈ votes) : worst votes ≤ v.2 :=
  le_worst.1 le_rfl v hv

/-- All have only read when that is the most severe vote. -/
theorem worst_readOnly {votes : Multiset (Nat × Result)} :
    worst votes = .XA_RDONLY ↔ ∀ v ∈ votes, v.2 = .XA_RDONLY := by
  constructor
  · exact fun h v hv => top_le_iff.1 (h.ge.trans (worst_le hv))
  · intro h
    exact top_le_iff.1 (le_worst.2 fun v hv => (h v hv).ge)

theorem voter_isPrepared (v : Nat × Result) : isPrepared (voter v) ↔ v.2 ≠ .XA_RDONLY := by
  unfold isPrepared voter
  dsimp only
  split_ifs with h
  · exact iff_of_false nofun (not_not.2 h)
  · exact iff_of_true rfl h

theorem voter_isOk {v : Nat × Result} (h : .XA_OK ≤ v.2) : isOk (voter v) ↔ v.2 ≠ .XA_RDONLY := by
  have hok : v.2 = .XA_OK ∨ v.2 = .XA_RDONLY := by
    revert h
    cases v.2 <;> decide
  exact (and_congr_right' (voter_isPrepared v)).trans (and_iff_right_of_imp hok.resolve_right)

theorem results_voter (trid : ID) (correlation : Uuid) (votes : Multiset (Nat × Result)) :
    (⟨trid, votes.map voter + 0, correlation⟩ : Record).results = worst votes := by
  unfold Record.results worst
  rw [add_zero, Multiset.map_map]
  rfl

/-- Votes that are told apart are all votes. -/
theorem map_voters {α : Type} (votes : Multiset (Nat × Result)) {f f' : Nat × Result → Resource} {g : Resource → α}
    {k : Nat × Result → α} (hf : g ∘ f = k) (hf' : g ∘ f' = k) :
    ((votes.filter fun v => v.2 = .XA_RDONLY).map f + (votes.filter fun v => v.2 ≠ .XA_RDONLY).map f').map g =
      votes.map k := by
  rw [Multiset.map_add, Multiset.map_map, Multiset.map_map, hf, hf', ← Multiset.map_add, Multiset.filter_add_not]

section

variable {trid : ID} {correlation : Uuid} {votes : Multiset (Nat × Result)} {l l' : Life}

/-- Those that have not only read are asked again. -/
theorem Gathering.asks (hg : Gathering .prepare trid correlation (votes.map voter) 0 l')
    (hstage : (⟨trid, votes.map voter + 0, correlation⟩ : Record).stage = .prepareReplied) {p : Resource → Prop}
    [DecidablePred p] (hp : ∀ v ∈ votes, p (voter v) ↔ v.2 ≠ .XA_RDONLY) {phase : Phase} {newStage : Stage}
    (hnew : newStage < repliedStage phase) {flags : Nat} {b : Life} (hb : b.unanswered = l'.unanswered) :
    (⟨trid, votes.map voter + 0, correlation⟩ : Record).asked p = remaining votes ∧
      Ending phase trid correlation (worst votes)
        (b.ask ⟨trid, votes.map voter + 0, correlation⟩ phase flags p newStage
          ((⟨trid, votes.map voter + 0, correlation⟩ : Record).asked p))
        (b.ask ⟨trid, votes.map voter + 0, correlation⟩ phase flags p newStage
          ((⟨trid, votes.map voter + 0, correlation⟩ : Record).asked p)) := by
  set answered := (votes.filter fun v => v.2 = .XA_RDONLY).map voter with hanswered
  set waiting := (votes.filter fun v => v.2 ≠ .XA_RDONLY).map fun v => (⟨v.1, newStage, v.2⟩ : Resource) with hwaiting
  have hsplit := Multiset.filter_add_not (fun v : Nat × Result => v.2 = .XA_RDONLY) votes
  have hasked : (⟨trid, votes.map voter + 0, correlation⟩ : Record).asked p = remaining votes := by
    unfold Record.asked remaining
    rw [add_zero, Multiset.filter_map, Multiset.map_map]
    exact congrArg (Multiset.map _) (Multiset.filter_congr hp)
  have hmark : (⟨trid, votes.map voter + 0, correlation⟩ : Record).mark p newStage =
      ⟨trid, answered + waiting, correlation⟩ := by
    refine congrArg (fun rs => (⟨trid, rs, correlation⟩ : Record)) ?_
    rw [add_zero, Multiset.map_map]
    nth_rewrite 1 [← hsplit]
    rw [Multiset.map_add, hanswered, hwaiting]
    congr 1
    · refine Multiset.map_congr rfl fun v hv => if_neg ?_
      rw [hp v (Multiset.mem_of_mem_filter hv)]
      exact not_not.2 (Multiset.mem_filter.1 hv).2
    · refine Multiset.map_congr rfl fun v hv => ?_
      exact if_pos ((hp v (Multiset.mem_of_mem_filter hv)).2 (Multiset.mem_filter.1 hv).2)
  have hids : (answered + waiting).map (·.id) = (votes.map voter + 0).map (·.id) := by
    rw [add_zero, Multiset.map_map, hanswered, hwaiting]
    exact map_voters votes rfl rfl
  have hresults : (⟨trid, answered + waiting, correlation⟩ : Record).results = worst votes := by
    unfold Record.results worst
    rw [hanswered, hwaiting]
    exact congrArg Multiset.inf (map_voters votes rfl rfl)
  refine ⟨hasked, .asking ?_ (show Gathering phase trid correlation answered waiting _ from
    ⟨?_, hids ▸ hg.nodup, ?_, ?_, ?_⟩) hresults rfl rfl⟩
  · obtain ⟨u, hu, hus⟩ := hg.stage_eq.1 hstage
    obtain ⟨v, hv, rfl⟩ := Multiset.mem_map.1 hu
    have hne : v.2 ≠ .XA_RDONLY := by
      intro h
      have : (voter v).stage = .notInvolved := if_pos h
      rw [this] at hus
      cases hus
    intro hzero
    have : (⟨v.1, newStage, v.2⟩ : Resource) ∈ waiting := Multiset.mem_map_of_mem _ (Multiset.mem_filter.2 ⟨hv, hne⟩)
    rw [hzero] at this
    exact Multiset.notMem_zero _ this
  · exact congrArg some hmark
  · intro u hu
    obtain ⟨v, -, rfl⟩ := Multiset.mem_map.1 hu
    exact hnew
  · intro u hu
    obtain ⟨v, hv, rfl⟩ := Multiset.mem_map.1 hu
    exact .inr (if_pos (Multiset.mem_filter.1 hv).2)
  · unfold Life.ask
    dsimp only
    rw [hb, hasked, hg.unanswered, Multiset.map_zero, zero_add, hwaiting]
    unfold remaining
    rw [Multiset.map_map, Multiset.map_map]
    rfl

/-- How far a transaction is that was asked to prepare: `l` is its life when its resources, `ids`, had been
asked, and `votes` are theirs so far. -/
inductive Prepared (ids : Multiset Nat) (trid : ID) (correlation : Uuid) (l : Life) (votes : Multiset (Nat × Result))
    (l' : Life) : Prop
  | voting {waiting : Multiset Resource} (hw : waiting ≠ 0)
      (hg : Gathering .prepare trid correlation (votes.map voter) waiting l')
      (hids : ids = votes.map Prod.fst + waiting.map (·.id)) (hemitted : l'.emitted = l.emitted)
      (hreplies : l'.replies = l.replies)
  | readOnly (hids : ids = votes.map Prod.fst) (hworst : worst votes = .XA_RDONLY) (hrecord : l'.record.isSome)
      (hunanswered : l'.unanswered = 0) (hemitted : l'.emitted = l.emitted) (hreplies : l'.replies = l.replies)
  | commits {l₁ : Life} (hids : ids = votes.map Prod.fst) (hworst : worst votes = .XA_OK)
      (hemitted : l₁.emitted = l.emitted + (remaining votes).map fun id => ⟨.commit, TMNOFLAGS, id⟩)
      (hreplies : ∃ t : ID, t.xid = trid.xid ∧
        l₁.replies = (trid.owner.queue, .commit t correlation .prepare Result.XA_OK.code) ::ₘ l.replies)
      (h : Ending .commit trid correlation .XA_OK l₁ l')
  | rollsBack {l₁ : Life} (hids : ids = votes.map Prod.fst) (hworst : worst votes ≠ .XA_RDONLY ∧ worst votes ≠ .XA_OK)
      (hemitted : l₁.emitted = l.emitted + (remaining votes).map fun id => ⟨.rollback, TMNOFLAGS, id⟩)
      (hreplies : l₁.replies = l.replies) (h : Ending .rollback trid correlation (worst votes) l₁ l')

/-- What a reply says about the transaction. -/
def voteOf : Signal → Multiset (Nat × Result)
  | .reply .prepare m => {(m.resource, Result.convert m.state)}
  | _ => 0

/-- In the last round nothing is voted. -/
theorem Ending.voteOf_eq {phase : Phase} (hphase : phase ≠ .prepare) {verdict : Result} {l'' : Life} {n : Note} {s : Signal}
    (h : Ending phase trid correlation verdict l l') (hheeds : l'.Heeds trid.xid s) (hquiet : s.quiet)
    (hstep : Life.Step l' s l'' n) (hn : n ≠ .stops) :
    voteOf s = 0 ∧ Ending phase trid correlation verdict l l'' := by
  refine ⟨?_, h.step hphase hheeds hquiet hstep hn⟩
  cases s with
  | involved _ _ => rfl
  | commit _ _ => rfl
  | rollback _ _ => rfl
  | other => rfl
  | reply phase' m =>
    cases h with
    | ended h =>
      have hmem := hheeds.2
      rw [h.unanswered] at hmem
      exact absurd hmem (Multiset.notMem_zero _)
    | asking hw hg =>
      obtain ⟨rfl, -⟩ := hg.heeds hheeds
      cases phase' with
      | prepare => exact absurd rfl hphase
      | commit => rfl
      | rollback => rfl

/-- A vote, of a resource that has been waited for. -/
theorem Prepared.vote {ids : Multiset Nat} {waiting : Multiset Resource} {u : Resource} {m : ResourceReply} {r : Record}
    (hg : Gathering .prepare trid correlation (votes.map voter) (u ::ₘ waiting) l') (hid : u.id = m.resource)
    (hturns : l'.Turns m (·.vote m.state) r) (hids : ids = votes.map Prod.fst + (u ::ₘ waiting).map (·.id)) :
    ∃ votes', votes' = votes + voteOf (.reply .prepare m) ∧ ids = votes'.map Prod.fst + waiting.map (·.id) ∧
      r = ⟨trid, votes'.map voter + waiting, correlation⟩ ∧
      Gathering .prepare trid correlation (votes'.map voter) waiting ((l'.answered .prepare m).set r) := by
  have hvoter : u.vote m.state = voter (m.resource, Result.convert m.state) := by
    unfold Resource.vote voter
    rw [hid]
  have hvotes : (votes + voteOf (.reply .prepare m)).map voter = u.vote m.state ::ₘ votes.map voter := by
    rw [hvoter, Multiset.map_add]
    unfold voteOf
    rw [Multiset.map_singleton, add_comm, Multiset.singleton_add]
  have hr := hg.turned hid hturns
  refine ⟨_, rfl, ?_, ?_, ?_⟩
  · rw [hids, Multiset.map_add, Multiset.map_cons, hid]
    unfold voteOf
    rw [Multiset.map_singleton, add_assoc, Multiset.singleton_add]
  · rw [hvotes]
    exact hr
  · rw [hvotes]
    have hstage : (u.vote m.state).stage = .prepareReplied ∨ (u.vote m.state).stage = .notInvolved := by
      unfold Resource.vote
      dsimp only
      split_ifs
      · exact .inr rfl
      · exact .inl rfl
    exact hg.next (f := (·.vote m.state)) hid rfl hstage (congrArg some hr) rfl

/-- When the transaction has got to the next stage, all have voted. -/
theorem Gathering.all_voted {waiting : Multiset Resource} (hg : Gathering .prepare trid correlation (votes.map voter) waiting l')
    (hstage : (⟨trid, votes.map voter + waiting, correlation⟩ : Record).stage = .prepareReplied) :
    waiting = 0 ∧ worst votes ≠ .XA_RDONLY := by
  have hw : waiting = 0 := by
    by_contra hw
    exact hg.stage_ne hw hstage
  subst hw
  refine ⟨rfl, fun hworst => ?_⟩
  obtain ⟨u, hu, hus⟩ := hg.stage_eq.1 hstage
  obtain ⟨v, hv, rfl⟩ := Multiset.mem_map.1 hu
  have : (voter v).stage = .notInvolved := if_pos (worst_readOnly.1 hworst v hv)
  rw [this] at hus
  cases hus

/-- When all have voted and it has not got there, they have only read. -/
theorem Gathering.none_left (hg : Gathering .prepare trid correlation (votes.map voter) 0 l')
    (hstage : (⟨trid, votes.map voter + 0, correlation⟩ : Record).stage ≠ .prepareReplied) : worst votes = .XA_RDONLY := by
  rw [worst_readOnly]
  intro v hv
  by_contra hne
  exact hstage (hg.stage_eq.2 ⟨voter v, Multiset.mem_map_of_mem _ hv, if_neg hne⟩)

theorem Prepared.other {ids : Multiset Nat} {l'' : Life} {n : Note} (h : Prepared ids trid correlation l votes l')
    (hstep : Life.Step l' .other l'' n) : Prepared ids trid correlation l votes l'' := by
  cases h with
  | commits hids hworst hemitted hreplies h => exact .commits hids hworst hemitted hreplies (h.other hstep)
  | rollsBack hids hworst hemitted hreplies h => exact .rollsBack hids hworst hemitted hreplies (h.other hstep)
  | voting hw hg hids hemitted hreplies =>
    cases hstep with
    | other _ => exact .voting hw hg hids hemitted hreplies
    | unlogged _ => exact .voting hw ⟨hg.record, hg.nodup, hg.waits, hg.answers, hg.unanswered⟩ hids hemitted hreplies
  | readOnly hids hworst hrecord hunanswered hemitted hreplies =>
    cases hstep with
    | other _ => exact .readOnly hids hworst hrecord hunanswered hemitted hreplies
    | unlogged _ => exact .readOnly hids hworst hrecord hunanswered hemitted hreplies

/-- A reply, when the votes are not all there yet. -/
theorem Prepared.replied {ids : Multiset Nat} {waiting : Multiset Resource} {phase : Phase} {m : ResourceReply} {l'' : Life}
    {n : Note} (hg : Gathering .prepare trid correlation (votes.map voter) waiting l')
    (hids : ids = votes.map Prod.fst + waiting.map (·.id)) (hemitted : l'.emitted = l.emitted)
    (hreplies : l'.replies = l.replies) (hheeds : l'.Heeds trid.xid (.reply phase m))
    (hstep : Life.Step l' (.reply phase m) l'' n) (hn : n ≠ .stops) :
    Prepared ids trid correlation l (votes + voteOf (.reply phase m)) l'' := by
  obtain ⟨rfl, u, waiting, rfl, hid⟩ := hg.heeds hheeds
  have hgoes : n ≠ .accepts → n = .goes := by
    cases n with
    | goes => exact fun _ => rfl
    | accepts => exact fun h => absurd rfl h
    | stops => exact absurd rfl hn
  cases hstep with
  | lost => exact absurd rfl hn
  | stray hnone => exact absurd hnone (hg.mem_record hid)
  | prepareUnlogged => exact absurd rfl hn
  | prepareWaits hturns hs =>
    obtain ⟨votes', rfl, hids', rfl, hnext⟩ := Prepared.vote hg hid hturns hids
    by_cases hw : waiting = 0
    · subst hw
      refine .readOnly (by rwa [Multiset.map_zero, add_zero] at hids') (hnext.none_left hs) rfl hnext.unanswered hemitted hreplies
    · exact .voting hw hnext hids' hemitted hreplies
  | prepareReadOnly hturns hs hres =>
    obtain ⟨votes', rfl, hids', rfl, hnext⟩ := Prepared.vote hg hid hturns hids
    obtain ⟨rfl, hworst⟩ := hnext.all_voted hs
    exact absurd ((results_voter _ _ _).symm.trans hres) hworst
  | prepareCommits hturns hs hres haccepts _ hall =>
    obtain ⟨votes', rfl, hids', rfl, hnext⟩ := Prepared.vote hg hid hturns hids
    obtain ⟨rfl, -⟩ := hnext.all_voted hs
    have hworst := (results_voter _ _ _).symm.trans hres
    obtain rfl := hall (hgoes haccepts)
    have hasks := @Gathering.asks _ _ _ _ hnext hs isOk _ (fun v hv => voter_isOk (hworst.ge.trans (worst_le hv)))
      .commit .prepareRequested (by decide) TMNOFLAGS
    obtain ⟨hasked, hending⟩ := hasks (b := ({ l'.answered .prepare m with logged := true } : Life).reply trid.owner
      (.commit m.trid correlation .prepare Result.XA_OK.code)) rfl
    rw [hworst] at hending
    refine .commits (by rwa [Multiset.map_zero, add_zero] at hids') hworst ?_ ⟨m.trid, hheeds.1, ?_⟩ hending
    · rw [← hasked]
      exact congrArg (· + _) hemitted
    · exact congrArg (_ ::ₘ ·) hreplies
  | prepareRollsBack hturns hs hres haccepts _ hall =>
    obtain ⟨votes', rfl, hids', rfl, hnext⟩ := Prepared.vote hg hid hturns hids
    obtain ⟨rfl, -⟩ := hnext.all_voted hs
    rw [results_voter] at hres
    obtain rfl := hall (hgoes haccepts)
    have hasks := @Gathering.asks _ _ _ _ hnext hs isPrepared _ (fun v _ => voter_isPrepared v)
      .rollback .rollbackRequested (by decide) TMNOFLAGS
    obtain ⟨hasked, hending⟩ := hasks (b := l'.answered .prepare m) rfl
    refine .rollsBack (by rwa [Multiset.map_zero, add_zero] at hids') hres ?_ (by exact hreplies) hending
    rw [← hasked]
    exact congrArg (· + _) hemitted

theorem Prepared.step {ids : Multiset Nat} {s : Signal} {n : Note} {l'' : Life} (h : Prepared ids trid correlation l votes l')
    (hheeds : l'.Heeds trid.xid s) (hquiet : s.quiet) (hstep : Life.Step l' s l'' n) (hn : n ≠ .stops) :
    Prepared ids trid correlation l (votes + voteOf s) l'' := by
  cases h with
  | commits hids hworst hemitted hreplies h =>
    obtain ⟨hvote, h⟩ := h.voteOf_eq (by decide) hheeds hquiet hstep hn
    rw [hvote, add_zero]
    exact .commits hids hworst hemitted hreplies h
  | rollsBack hids hworst hemitted hreplies h =>
    obtain ⟨hvote, h⟩ := h.voteOf_eq (by decide) hheeds hquiet hstep hn
    rw [hvote, add_zero]
    exact .rollsBack hids hworst hemitted hreplies h
  | voting hw hg hids hemitted hreplies =>
    cases s with
    | involved _ _ => exact hquiet.elim
    | commit _ _ => exact hquiet.elim
    | rollback _ _ => exact hquiet.elim
    | other =>
      rw [show voteOf .other = 0 from rfl, add_zero]
      exact (Prepared.voting hw hg hids hemitted hreplies).other hstep
    | reply phase m => exact Prepared.replied hg hids hemitted hreplies hheeds hstep hn
  | readOnly hids hworst hrecord hunanswered hemitted hreplies =>
    cases s with
    | involved _ _ => exact hquiet.elim
    | commit _ _ => exact hquiet.elim
    | rollback _ _ => exact hquiet.elim
    | other =>
      rw [show voteOf .other = 0 from rfl, add_zero]
      exact (Prepared.readOnly hids hworst hrecord hunanswered hemitted hreplies).other hstep
    | reply phase m =>
      have hmem := hheeds.2
      rw [hunanswered] at hmem
      exact absurd hmem (Multiset.notMem_zero _)

end

/-! ## Requests -/

/-- All resources of a transaction are asked. -/
theorem Gathering.start {phase : Phase} {newStage : Stage} (hnew : newStage < repliedStage phase) (flags : Nat) {l : Life}
    {r : Record} (hidle : l.unanswered = 0) (hinvolved : ∀ u ∈ r.resources, u.stage = .involved)
    (hnodup : (r.resources.map (·.id)).Nodup) :
    Gathering phase r.trid r.correlation 0 (r.resources.map fun u => { u with stage := newStage })
      (l.ask r phase flags isInvolved newStage (r.asked isInvolved)) := by
  have hmark : r.mark isInvolved newStage = ⟨r.trid, 0 + r.resources.map (fun u => { u with stage := newStage }), r.correlation⟩ := by
    unfold Record.mark
    rw [zero_add]
    exact congrArg (fun rs => (⟨r.trid, rs, r.correlation⟩ : Record)) (Multiset.map_congr rfl fun u hu => if_pos (hinvolved u hu))
  refine ⟨congrArg some hmark, ?_, fun u hu => ?_, nofun, ?_⟩
  · rw [zero_add, Multiset.map_map]
    exact hnodup
  · obtain ⟨v, -, rfl⟩ := Multiset.mem_map.1 hu
    exact hnew
  · unfold Life.ask Record.asked
    dsimp only
    rw [hidle, zero_add, Multiset.filter_eq_self.2 hinvolved, Multiset.map_map, Multiset.map_map]
    rfl

theorem replies_ne {a : Nat × Reply} {s : Multiset (Nat × Reply)} : a ::ₘ s ≠ s := fun h => by
  have := congrArg Multiset.card h
  rw [Multiset.card_cons] at this
  omega

/-- A request to commit that is not answered at once: all resources are asked to prepare, or the only one to commit. -/
theorem asks_of_commit {l l' : Life} {m : OwnerRequest} {rs : Multiset Resource} {n : Note}
    (hstep : Life.Step l (.commit m rs) l' n) (hlater : l'.replies = l.replies) :
    rs.card = 1 ∧ l' = l.ask (l.joined m rs) .commit TMONEPHASE isInvolved .commitRequested ((l.joined m rs).asked isInvolved) ∨
    2 ≤ rs.card ∧ l' = l.ask (l.joined m rs) .prepare TMNOFLAGS isInvolved .prepareRequested ((l.joined m rs).asked isInvolved) := by
  cases hstep with
  | commitRefused => exact absurd hlater replies_ne
  | commitNone => exact absurd hlater replies_ne
  | commitOne hj hs hcard => exact .inl ⟨hcard, rfl⟩
  | commitMany hj hs hcard => exact .inr ⟨hcard, rfl⟩
  | commitFails => exact absurd hlater replies_ne

theorem asks_of_rollback {l l' : Life} {m : OwnerRequest} {rs : Multiset Resource} {n : Note}
    (hstep : Life.Step l (.rollback m rs) l' n) (hlater : l'.replies = l.replies) :
    l' = l.ask (l.joined m rs) .rollback TMNOFLAGS isInvolved .rollbackRequested ((l.joined m rs).asked isInvolved) := by
  cases hstep with
  | rollbackNone => exact absurd hlater replies_ne
  | rollbackAsks => rfl
  | rollbackFails => exact absurd hlater replies_ne

/-! ## Runs -/

/-- Nobody asks for anything with the transaction, and its owner does not die. -/
def Spares (x : XID) (w : World) : Event → Prop
  | .involved m => m.trid.xid ≠ x
  | .commit m => m.trid.xid ≠ x
  | .rollback m => m.trid.xid ≠ x
  | .exit pid => ∀ t ∈ w.state.transactions, t.trid.xid = x → t.trid.owner.pid ≠ pid
  | .connect _ => True
  | .reply _ _ => True
  | .write => True

instance (x : XID) (w : World) (e : Event) : Decidable (Spares x w e) :=
  match e with
  | .involved _ | .commit _ | .rollback _ => inferInstanceAs (Decidable (_ ≠ _))
  | .exit _ => inferInstanceAs (Decidable (∀ t ∈ _, _ → _))
  | .connect _ | .reply _ _ | .write => inferInstanceAs (Decidable True)

/-- What an event votes for a transaction. -/
def Event.vote (x : XID) : Event → Multiset (Nat × Result)
  | .reply .prepare m => if m.trid.xid = x then {(m.resource, Result.convert m.state)} else 0
  | _ => 0

/-- The votes that resources give for a transaction in a run. -/
def votesOf (x : XID) (es : List Event) : Multiset (Nat × Result) := (es.map (Event.vote x)).sum

theorem quiet_of_spares {env : Environment} {x : XID} {w : World} {e : Event} {s : Signal} (hspares : Spares x w e)
    (hs : w.Signals env x e s) : s.quiet := by
  cases e with
  | involved m => rw [show s = .other from hs.trans (if_neg hspares)]; trivial
  | commit m => rw [show s = .other from hs.trans (if_neg hspares)]; trivial
  | rollback m => rw [show s = .other from hs.trans (if_neg hspares)]; trivial
  | exit pid =>
    rcases hs with ⟨t, ht, htx, hpid, -⟩ | ⟨-, rfl⟩
    · exact absurd hpid (hspares t ht htx)
    · trivial
  | connect m => rw [show s = .other from hs]; trivial
  | write => rw [show s = .other from hs]; trivial
  | reply phase m =>
    change s = if m.trid.xid = x then _ else _ at hs
    split_ifs at hs <;> rw [hs] <;> trivial

/-- What is a vote for the transaction is a vote of the event. -/
theorem vote_of_signals {env : Environment} {x : XID} {w : World} {e : Event} {s : Signal} (hs : w.Signals env x e s) :
    voteOf s = e.vote x := by
  cases e with
  | involved m =>
    change s = if m.trid.xid = x then _ else _ at hs
    split_ifs at hs <;> rw [hs] <;> rfl
  | commit m =>
    change s = if m.trid.xid = x then _ else _ at hs
    split_ifs at hs <;> rw [hs] <;> rfl
  | rollback m =>
    change s = if m.trid.xid = x then _ else _ at hs
    split_ifs at hs <;> rw [hs] <;> rfl
  | exit pid => rcases hs with ⟨t, -, -, -, rs, rfl⟩ | ⟨-, rfl⟩ <;> rfl
  | connect m => rw [show s = .other from hs]; rfl
  | write => rw [show s = .other from hs]; rfl
  | reply phase m =>
    by_cases hx : m.trid.xid = x
    · obtain rfl : s = .reply phase m := hs.trans (if_pos hx)
      cases phase with
      | prepare => exact (if_pos hx).symm
      | commit => rfl
      | rollback => rfl
    · obtain rfl : s = .other := hs.trans (if_neg hx)
      cases phase with
      | prepare => exact (if_neg hx).symm
      | commit => rfl
      | rollback => rfl

/-- What the life of a transaction keeps, as long as nobody asks for anything with it, a run keeps. -/
theorem spared_run {env : Environment} {x : XID} {I : Multiset (Nat × Result) → Life → Prop}
    (hstep : ∀ votes l s l' n, I votes l → l.Heeds x s → s.quiet → Life.Step l s l' n → n ≠ .stops → I (votes + voteOf s) l')
    {w w' : World} {es : List Event} (h : (manager env).Reachable w)
    (hrun : ((manager env).restrict (Spares x)).Run w es w') (hrunning : w'.running = true) (hI : I 0 (w.lives x)) :
    I (votesOf x es) (w'.lives x) := by
  suffices hall : (manager env).Reachable w' ∧ (w'.running = true → I (votesOf x es) (w'.lives x)) from hall.2 hrunning
  clear hrunning
  induction hrun with
  | nil => exact ⟨h, fun _ => hI⟩
  | snoc _ he ih =>
    obtain ⟨hreachable, hprevious⟩ := ih
    refine ⟨hreachable.step he.1, fun hrunning => ?_⟩
    obtain ⟨hsound, hp⟩ := kept_of_reachable hreachable
    obtain ⟨s, n, hs, hlife, hstops, -⟩ := (lived_step env hsound hp he.1).step x
    have hquiet := quiet_of_spares he.2 hs
    have hn : n ≠ .stops := by
      intro hn
      have := hstops.1 hn
      rw [show ((manager env).restrict (Spares x)).step _ _ = World.step env _ _ from rfl, this] at hrunning
      cases hrunning
    unfold votesOf
    rw [List.map_append, List.sum_append, List.map_singleton, List.sum_singleton, ← vote_of_signals hs]
    exact hstep _ _ _ _ _ (hprevious he.1.1) (heeds_of_admits he.1 hs) hquiet hlife hn

/-! ## What decides -/

/-- What has become of a transaction that was asked to prepare, when nothing is unanswered: `l` is its life
when its resources had been asked. -/
inductive Decided (trid : ID) (correlation : Uuid) (l : Life) (votes : Multiset (Nat × Result)) (l' : Life) : Prop
  /-- nobody is told, and the transaction stays -/
  | readOnly (hworst : worst votes = .XA_RDONLY) (hemitted : l'.emitted = l.emitted) (hreplies : l'.replies = l.replies)
      (hrecord : l'.record.isSome)
  | commits (hworst : worst votes = .XA_OK)
      (hemitted : l'.emitted = l.emitted + (remaining votes).map fun id => ⟨.commit, TMNOFLAGS, id⟩)
      (hreplies : ∃ t t' : ID, t.xid = trid.xid ∧ t'.xid = trid.xid ∧ l'.replies =
        (trid.owner.queue, .commit t' correlation .commit Result.XA_OK.code) ::ₘ
        (trid.owner.queue, .commit t correlation .prepare Result.XA_OK.code) ::ₘ l.replies)
      (hrecord : l'.record = none) (hlogged : l'.logged = false)
  | rollsBack (hworst : worst votes ≠ .XA_RDONLY ∧ worst votes ≠ .XA_OK)
      (hemitted : l'.emitted = l.emitted + (remaining votes).map fun id => ⟨.rollback, TMNOFLAGS, id⟩)
      (hreplies : ∃ t : ID, t.xid = trid.xid ∧ l'.replies =
        (trid.owner.queue, .rollback t correlation .rollback
          (if worst votes = .XAER_NOTA then Result.XA_OK else worst votes).code) ::ₘ l.replies)
      (hrecord : l'.record = none ↔ worst votes = .XAER_NOTA)

section

variable {phase : Phase} {trid : ID} {correlation : Uuid} {verdict : Result} {votes : Multiset (Nat × Result)} {l l' : Life}

theorem Gathering.unanswered_ne {answered waiting : Multiset Resource} (hg : Gathering phase trid correlation answered waiting l)
    (hw : waiting ≠ 0) : l.unanswered ≠ 0 := by
  rw [hg.unanswered]
  exact fun h => hw (Multiset.map_eq_zero.1 h)

theorem Ending.ends (h : Ending phase trid correlation verdict l l') (hdone : l'.unanswered = 0) :
    Ended phase trid correlation verdict l l' := by
  cases h with
  | asking hw hg => exact absurd hdone (hg.unanswered_ne hw)
  | ended h => exact h

theorem reported_rollback {r : Result} (h : r ≠ .XA_RDONLY ∧ r ≠ .XA_OK) :
    reported .rollback r = if r = .XAER_NOTA then .XA_OK else r := by
  unfold reported
  refine if_congr ?_ rfl rfl
  refine (and_iff_right rfl).trans ⟨fun hr => ?_, fun hr => .inr (.inl hr)⟩
  exact (hr.resolve_left h.2).resolve_right h.1

theorem Prepared.decides {ids : Multiset Nat} (h : Prepared ids trid correlation l votes l') (hdone : l'.unanswered = 0) :
    votes.map Prod.fst = ids ∧ Decided trid correlation l votes l' := by
  cases h with
  | voting hw hg => exact absurd hdone (hg.unanswered_ne hw)
  | readOnly hids hworst hrecord _ hemitted hreplies => exact ⟨hids.symm, .readOnly hworst hemitted hreplies hrecord⟩
  | commits hids hworst hemitted hreplies h =>
    have hended := h.ends hdone
    obtain ⟨t, ht, hprepared⟩ := hreplies
    obtain ⟨t', ht', hcommitted⟩ := hended.replies
    refine ⟨hids.symm, .commits hworst (hended.emitted.trans hemitted) ⟨t, t', ht, ht', ?_⟩ (hended.record.2 rfl) (hended.logged rfl)⟩
    rw [hcommitted, hprepared]
    rfl
  | rollsBack hids hworst hemitted hreplies h =>
    have hended := h.ends hdone
    obtain ⟨t, ht, hrolledBack⟩ := hended.replies
    have hrecord := hended.record
    rw [reported_rollback hworst] at hrolledBack hrecord
    refine ⟨hids.symm, .rollsBack hworst (hended.emitted.trans hemitted) ⟨t, ht, ?_⟩ (hrecord.trans ?_)⟩
    · rw [hrolledBack, hreplies]
      rfl
    · split_ifs with hnota
      · exact iff_of_true rfl hnota
      · exact iff_of_false hworst.2 hnota

end

/-- A resource that has not been asked for anything has no result yet. -/
def Fresh (rs : Multiset Resource) : Prop := ∀ u ∈ rs, u.stage = .involved → u.result = .XA_OK

theorem Fresh.joins {rs rs' : Multiset Resource} (h : Fresh rs) (hj : Joins rs rs') : Fresh rs' := by
  intro u hu hs
  rcases hj.origin u hu with hmem | hnew
  · exact h u hmem hs
  · rw [hnew]
    rfl

theorem Fresh.mark {r : Record} (h : Fresh r.resources) {p : Resource → Prop} [DecidablePred p] {newStage : Stage}
    (hnew : newStage ≠ .involved) : Fresh (r.mark p newStage).resources := by
  intro u hu hs
  obtain ⟨v, hv, rfl⟩ := Multiset.mem_map.1 hu
  split_ifs at hs ⊢ with hp
  · exact absurd hs hnew
  · exact h v hv hs

theorem Fresh.turns {l : Life} (h : ∀ r, l.record = some r → Fresh r.resources) {m : ResourceReply} {f : Resource → Resource}
    {r : Record} (hf : ∀ u, (f u).stage ≠ .involved) (hturns : l.Turns m f r) : Fresh r.resources := by
  obtain ⟨r₀, u, hr₀, -, -, rfl⟩ := hturns
  intro v hv hs
  rcases Multiset.mem_cons.1 hv with rfl | hv
  · exact absurd hs (hf u)
  · exact h r₀ hr₀ v (Multiset.mem_of_mem_erase hv) hs

theorem vote_stage (state : Int) (u : Resource) : (u.vote state).stage ≠ .involved := by
  unfold Resource.vote
  dsimp only
  split_ifs <;> decide

/-- A step keeps it for the resources of the transaction. -/
theorem Fresh.step {l l' : Life} {s : Signal} {n : Note} (h : ∀ r, l.record = some r → Fresh r.resources)
    (hstep : Life.Step l s l' n) : ∀ r, l'.record = some r → Fresh r.resources := by
  have hknown : ∀ trid, Fresh (l.known trid).resources := by
    intro trid
    unfold Life.known
    cases hr : l.record with
    | none => exact nofun
    | some r => exact h r hr
  have hvote : ∀ {m : ResourceReply} {r : Record}, l.Turns m (·.vote m.state) r → Fresh r.resources :=
    fun hturns => Fresh.turns h (vote_stage _) hturns
  have hcommit : ∀ {m : ResourceReply} {r : Record}, l.Turns m commitReplied r → Fresh r.resources :=
    fun hturns => Fresh.turns h (fun _ => show Stage.commitReplied ≠ .involved by decide) hturns
  have hrollback : ∀ {m : ResourceReply} {r : Record}, l.Turns m rollbackReplied r → Fresh r.resources :=
    fun hturns => Fresh.turns h (fun _ => show Stage.rollbackReplied ≠ .involved by decide) hturns
  intro r hr
  cases hstep with
  | other _ => exact h r hr
  | unlogged _ => exact h r hr
  | involved hj => obtain rfl := Option.some.inj hr; exact (hknown _).joins hj
  | commitRefused hj _ => obtain rfl := Option.some.inj hr; exact (hknown _).joins hj
  | commitNone _ => cases hr
  | commitOne hj _ _ => obtain rfl := Option.some.inj hr; exact Fresh.mark ((hknown _).joins hj) (by decide)
  | commitMany hj _ _ => obtain rfl := Option.some.inj hr; exact Fresh.mark ((hknown _).joins hj) (by decide)
  | commitFails hj _ hask _ =>
    obtain rfl := Option.some.inj hr
    refine Fresh.mark ((hknown _).joins hj) ?_
    rcases hask with hask | hask
    · rw [(Prod.mk.inj (Prod.mk.inj hask).2).2]
      decide
    · rw [(Prod.mk.inj (Prod.mk.inj hask).2).2]
      decide
  | rollbackNone _ => cases hr
  | rollbackAsks hj => obtain rfl := Option.some.inj hr; exact Fresh.mark ((hknown _).joins hj) (by decide)
  | rollbackFails hj _ => obtain rfl := Option.some.inj hr; exact Fresh.mark ((hknown _).joins hj) (by decide)
  | lost => exact h r hr
  | stray _ => exact h r hr
  | prepareWaits hturns _ => obtain rfl := Option.some.inj hr; exact hvote hturns
  | prepareReadOnly => cases hr
  | prepareCommits hturns => obtain rfl := Option.some.inj hr; exact Fresh.mark (hvote hturns) (by decide)
  | prepareUnlogged hturns => obtain rfl := Option.some.inj hr; exact hvote hturns
  | prepareRollsBack hturns => obtain rfl := Option.some.inj hr; exact Fresh.mark (hvote hturns) (by decide)
  | commitWaits hturns _ => obtain rfl := Option.some.inj hr; exact hcommit hturns
  | commitDone => cases hr
  | commitKept hturns => obtain rfl := Option.some.inj hr; exact hcommit hturns
  | rollbackWaits hturns _ => obtain rfl := Option.some.inj hr; exact hrollback hturns
  | rollbackDone => cases hr
  | rollbackKept hturns => obtain rfl := Option.some.inj hr; exact hrollback hturns

theorem fresh_of_reachable {env : Environment} {w : World} (h : (manager env).Reachable w) (x : XID) :
    ∀ r, (w.lives x).record = some r → Fresh r.resources := by
  have hkept : (w.Sound ∧ w.state.persistentRequests = []) ∧ ∀ x r, (w.lives x).record = some r → Fresh r.resources := by
    refine h.invariant (I := fun w => (w.Sound ∧ w.state.persistentRequests = []) ∧
      ∀ x r, (w.lives x).record = some r → Fresh r.resources) (fun w hw => ?_) fun w e hw he => ?_
    · refine ⟨kept_of_reachable (show (manager env).Reachable w from .of_init hw), ?_⟩
      obtain ⟨resources, log, -, rfl⟩ := hw
      exact nofun
    · have hlived := lived_step env hw.1.1 hw.1.2 he
      refine ⟨⟨hlived.sound, hlived.persistent⟩, fun x => ?_⟩
      obtain ⟨s, n, -, hstep, -⟩ := hlived.step x
      exact Fresh.step (hw.2 x) hstep
  exact hkept.2 x

/-- The resources a request finds, new ones included, have no result when they have not been asked. -/
theorem results_merged {env : Environment} {w : World} (h : (manager env).Reachable w) {m : OwnerRequest}
    (hinvolved : ∀ r ∈ merged env w.state m, r.stage = .involved) (hne : merged env w.state m ≠ []) :
    ∀ newStage : Stage, (⟨(w.state.known m.trid).trid,
      0 + (↑(merged env w.state m) : Multiset Resource).map (fun u => { u with stage := newStage }), m.correlation⟩ : Record).results =
        .XA_OK := by
  intro newStage
  have hknown : Fresh ((w.lives m.trid.xid).known m.trid).resources := by
    unfold Life.known
    cases hr : (w.lives m.trid.xid).record with
    | none => exact nofun
    | some r => exact fresh_of_reachable h _ r hr
  have hfresh : Fresh ↑(merged env w.state m) := hknown.joins (merged_joins env w m)
  obtain ⟨r, hr⟩ := List.exists_mem_of_ne_nil _ hne
  unfold Record.results
  rw [zero_add, Multiset.map_map]
  refine le_antisymm ?_ (Multiset.le_inf.2 fun result hresult => ?_)
  · have hok := hfresh r hr (hinvolved r hr)
    exact hok ▸ Multiset.inf_le (Multiset.mem_map.2 ⟨r, hr, rfl⟩)
  · obtain ⟨u, hu, rfl⟩ := Multiset.mem_map.1 hresult
    exact (hfresh u hu (hinvolved u hu)).ge

/-- A transaction of two or more resources that is asked to commit ends as the votes of its resources say, in
whatever order they come and whatever else the manager does meanwhile: every resource votes once, and the most
severe vote decides. -/
theorem decided_by_votes {env : Environment} {w w' : World} {m : OwnerRequest} {es : List Event}
    (h : (manager env).Reachable w) (hrunning : w.running = true) (htwo : 2 ≤ (merged env w.state m).length)
    (hinvolved : ∀ r ∈ merged env w.state m, r.stage = .involved) (hidle : (w.lives m.trid.xid).unanswered = 0)
    (hlater : ((w.step env (.commit m)).lives m.trid.xid).replies = (w.lives m.trid.xid).replies)
    (hrun : ((manager env).restrict (Spares m.trid.xid)).Run (w.step env (.commit m)) es w') (hrunning' : w'.running = true)
    (hdone : (w'.lives m.trid.xid).unanswered = 0) :
    (votesOf m.trid.xid es).map Prod.fst = ↑((merged env w.state m).map (·.id)) ∧
      Decided (w.state.known m.trid).trid m.correlation ((w.step env (.commit m)).lives m.trid.xid) (votesOf m.trid.xid es)
        (w'.lives m.trid.xid) := by
  have hadmits : w.admits (.commit m) := ⟨hrunning, trivial⟩
  obtain ⟨hsound, hp⟩ := kept_of_reachable h
  obtain ⟨s, n, hs, hlife, -, -⟩ := (lived_step env hsound hp hadmits).step m.trid.xid
  rw [show s = .commit m ↑(merged env w.state m) from hs.trans (if_pos rfl)] at hlife
  have hjoined : (w.lives m.trid.xid).joined m ↑(merged env w.state m) =
      ⟨(w.state.known m.trid).trid, ↑(merged env w.state m), m.correlation⟩ := (joined_record env w m).symm
  have hx : (w.state.known m.trid).trid.xid = m.trid.xid := known_xid w m.trid
  rcases asks_of_commit hlife hlater with ⟨hcard, -⟩ | ⟨-, hasked⟩
  · rw [Multiset.coe_card] at hcard
    omega
  rw [hjoined] at hasked
  have hnodup : ((↑(merged env w.state m) : Multiset Resource).map (·.id)).Nodup := involved_nodup env w.state _ m.resources
  have hnew : Stage.prepareRequested < repliedStage .prepare := by decide
  have hgathering := Gathering.start hnew TMNOFLAGS
    (r := ⟨(w.state.known m.trid).trid, ↑(merged env w.state m), m.correlation⟩) hidle hinvolved hnodup
  rw [← hasked] at hgathering
  have hstart : Prepared ↑((merged env w.state m).map (·.id)) (w.state.known m.trid).trid m.correlation
      ((w.step env (.commit m)).lives m.trid.xid) 0 ((w.step env (.commit m)).lives m.trid.xid) := by
    refine .voting ?_ hgathering ?_ rfl rfl
    · intro hzero
      rw [Multiset.map_eq_zero, Multiset.coe_eq_zero] at hzero
      rw [hzero] at htwo
      exact absurd htwo (by decide)
    · rw [Multiset.map_zero, zero_add, Multiset.map_map]
      rfl
  refine (spared_run (I := fun votes l => Prepared _ (w.state.known m.trid).trid m.correlation _ votes l) ?_
    (h.step (by exact hadmits)) hrun hrunning' hstart).decides hdone
  intro votes l s l' n hI hheeds hquiet hlife hn
  exact hI.step (by rw [hx]; exact hheeds) hquiet hlife hn

/-- All that has happened before the commit is asked for, in a run of `prepared` and `committed`. -/
def connected : World := (prepared.take 2).foldl (manager neverFull).step (World.start twoProxies [])

/-- The owner asks for the commit of a transaction of two resources. -/
def someCommit : OwnerRequest := ⟨7, someOwner, someID, [1, 2]⟩

theorem connected_reachable : (manager neverFull).Reachable connected :=
  (Machine.Reachable.of_init (twoProxies_init _)).foldl (by decide +kernel)

/-- What is answered when the commit was asked for, and what that leads to. -/
def commitReplies : List Event := prepared.drop 3 ++ committed

/-- The manager when both resources have committed. -/
def afterCommit : World := commitReplies.foldl ((manager neverFull).restrict (Spares someCommit.trid.xid)).step
  (connected.step neverFull (.commit someCommit))

theorem afterCommit_run : ((manager neverFull).restrict (Spares someCommit.trid.xid)).Run
    (connected.step neverFull (.commit someCommit)) commitReplies afterCommit := by
  have hadmits : ((manager neverFull).restrict (Spares someCommit.trid.xid)).AdmitsAll
      (connected.step neverFull (.commit someCommit)) commitReplies := by decide +kernel
  have h := Machine.Run.foldl (.nil _) hadmits
  rw [List.nil_append] at h
  exact h

theorem afterCommit_decided :
    (votesOf someCommit.trid.xid commitReplies).map Prod.fst = ↑((merged neverFull connected.state someCommit).map (·.id)) ∧
      Decided (connected.state.known someCommit.trid).trid someCommit.correlation
        ((connected.step neverFull (.commit someCommit)).lives someCommit.trid.xid) (votesOf someCommit.trid.xid commitReplies)
        (afterCommit.lives someCommit.trid.xid) :=
  decided_by_votes connected_reachable (by decide +kernel) (by decide +kernel) (by decide +kernel) (by decide +kernel)
    (by decide +kernel) afterCommit_run (by decide +kernel) (by decide +kernel)

/-- How a demand ends when no vote is asked for. -/
def Demand.phase : Demand → Phase
  | commit => .commit
  | rollback => .rollback

/-- A transaction that is rolled back, or one of a single resource that is committed, ends with one reply, which
says `XA_OK` whatever the resources have answered, and is known no longer. -/
theorem ended_well {env : Environment} {w w' : World} {demand : Demand} {m : OwnerRequest} {es : List Event}
    (h : (manager env).Reachable w) (hrunning : w.running = true) (hne : merged env w.state m ≠ [])
    (hone : demand = .commit → (merged env w.state m).length = 1)
    (hinvolved : ∀ r ∈ merged env w.state m, r.stage = .involved) (hidle : (w.lives m.trid.xid).unanswered = 0)
    (hlater : ((w.step env (demand.event m)).lives m.trid.xid).replies = (w.lives m.trid.xid).replies)
    (hrun : ((manager env).restrict (Spares m.trid.xid)).Run (w.step env (demand.event m)) es w') (hrunning' : w'.running = true)
    (hdone : (w'.lives m.trid.xid).unanswered = 0) :
    Ended demand.phase (w.state.known m.trid).trid m.correlation .XA_OK ((w.step env (demand.event m)).lives m.trid.xid)
      (w'.lives m.trid.xid) := by
  have hadmits : w.admits (demand.event m) := by cases demand <;> exact ⟨hrunning, trivial⟩
  obtain ⟨hsound, hp⟩ := kept_of_reachable h
  obtain ⟨s, n, hs, hlife, -, -⟩ := (lived_step env hsound hp hadmits).step m.trid.xid
  have hjoined : (w.lives m.trid.xid).joined m ↑(merged env w.state m) =
      ⟨(w.state.known m.trid).trid, ↑(merged env w.state m), m.correlation⟩ := (joined_record env w m).symm
  have hx : (w.state.known m.trid).trid.xid = m.trid.xid := known_xid w m.trid
  have hnodup : ((↑(merged env w.state m) : Multiset Resource).map (·.id)).Nodup := involved_nodup env w.state _ m.resources
  have hasked : ∃ newStage flags, newStage < repliedStage demand.phase ∧ (w.step env (demand.event m)).lives m.trid.xid =
      (w.lives m.trid.xid).ask ⟨(w.state.known m.trid).trid, ↑(merged env w.state m), m.correlation⟩ demand.phase flags isInvolved
        newStage ((⟨(w.state.known m.trid).trid, ↑(merged env w.state m), m.correlation⟩ : Record).asked isInvolved) := by
    cases demand with
    | commit =>
      rw [show s = .commit m ↑(merged env w.state m) from hs.trans (if_pos rfl)] at hlife
      rcases asks_of_commit hlife hlater with ⟨-, hasked⟩ | ⟨hcard, -⟩
      · exact ⟨.commitRequested, TMONEPHASE, by decide, hjoined ▸ hasked⟩
      · rw [Multiset.coe_card, hone rfl] at hcard
        exact absurd hcard (by decide)
    | rollback =>
      rw [show s = .rollback m ↑(merged env w.state m) from hs.trans (if_pos rfl)] at hlife
      exact ⟨.rollbackRequested, TMNOFLAGS, by decide, hjoined ▸ asks_of_rollback hlife hlater⟩
  obtain ⟨newStage, flags, hnew, hasked⟩ := hasked
  have hgathering := Gathering.start hnew flags
    (r := ⟨(w.state.known m.trid).trid, ↑(merged env w.state m), m.correlation⟩) hidle hinvolved hnodup
  rw [← hasked] at hgathering
  have hstart : Ending demand.phase (w.state.known m.trid).trid m.correlation .XA_OK
      ((w.step env (demand.event m)).lives m.trid.xid) ((w.step env (demand.event m)).lives m.trid.xid) := by
    refine .asking (fun hzero => hne ?_) hgathering (results_merged h hinvolved hne newStage) rfl rfl
    rwa [Multiset.map_eq_zero, Multiset.coe_eq_zero] at hzero
  refine (spared_run (I := fun _ l => Ending demand.phase (w.state.known m.trid).trid m.correlation .XA_OK _ l) ?_
    (h.step (by exact hadmits)) hrun hrunning' hstart).ends hdone
  intro votes l s l' n hI hheeds hquiet hlife hn
  exact hI.step (by cases demand <;> decide) (by rw [hx]; exact hheeds) hquiet hlife hn

/-- Both resources are told to roll back, and answer. -/
def rollbackReplies : List Event := [.reply .rollback ⟨⟨12, 22⟩, someID, 2, -3⟩, .reply .rollback ⟨⟨11, 21⟩, someID, 1, 0⟩]

/-- The manager when both resources have rolled back. -/
def afterRollback : World := rollbackReplies.foldl ((manager neverFull).restrict (Spares someCommit.trid.xid)).step
  (connected.step neverFull (Demand.rollback.event someCommit))

theorem afterRollback_run : ((manager neverFull).restrict (Spares someCommit.trid.xid)).Run
    (connected.step neverFull (Demand.rollback.event someCommit)) rollbackReplies afterRollback := by
  have hadmits : ((manager neverFull).restrict (Spares someCommit.trid.xid)).AdmitsAll
      (connected.step neverFull (Demand.rollback.event someCommit)) rollbackReplies := by decide +kernel
  have h := Machine.Run.foldl (.nil _) hadmits
  rw [List.nil_append] at h
  exact h

theorem afterRollback_ended : Ended Demand.rollback.phase (connected.state.known someCommit.trid).trid someCommit.correlation
    .XA_OK ((connected.step neverFull (Demand.rollback.event someCommit)).lives someCommit.trid.xid)
    (afterRollback.lives someCommit.trid.xid) :=
  ended_well connected_reachable (by decide +kernel) (by decide +kernel) (by decide +kernel) (by decide +kernel)
    (by decide +kernel) (by decide +kernel) afterRollback_run (by decide +kernel) (by decide +kernel)

end Casual.Manager

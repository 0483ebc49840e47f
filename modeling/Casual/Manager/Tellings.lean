/-
What resources are told, counted over whole runs: none is told to commit more often than it has voted for
it, and none answers what it has not been asked.
-/
import Casual.Manager.Outcome

namespace Casual.Manager

open Casual.Common Casual.Communication Casual.Lib
open Casual.Common.Transaction (ID XID)

/-! ## What is counted -/

/-- The resources that have voted for a commit, and have been told nothing since. -/
def Record.prepared (r : Record) (id : Nat) : Nat := r.resources.countP fun u => isOk u ∧ u.id = id

namespace Life

/-- How often a resource was asked something. -/
def asks (l : Life) (phase : Phase) (id : Nat) : Nat := l.emitted.countP fun a => a.phase = phase ∧ a.resource = id

/-- How often it was told to commit what it has prepared. -/
def tellings (l : Life) (id : Nat) : Nat := l.emitted.count ⟨.commit, TMNOFLAGS, id⟩

/-- How many resources of an id the transaction has that have replied to a prepare request. -/
def prepared (l : Life) (id : Nat) : Nat := l.record.elim 0 fun r => r.prepared id

theorem prepared_known (l : Life) (trid : ID) (id : Nat) : (l.known trid).prepared id = l.prepared id := by
  unfold known prepared
  cases l.record with
  | none => rfl
  | some r => rfl

end Life

/-! ## What a step does -/

theorem countP_mono {α : Type} {p q : α → Prop} [DecidablePred p] [DecidablePred q] (h : ∀ a, p a → q a) {s : Multiset α} :
    s.countP p ≤ s.countP q := by
  rw [Multiset.countP_eq_card_filter, Multiset.countP_eq_card_filter]
  exact Multiset.card_le_card (Multiset.monotone_filter_right s h)

section

variable {l l' : Life} {r : Record} {id : Nat}

/-- Those that join have not voted. -/
theorem Joins.prepared {rs rs' : Multiset Resource} (hj : Joins rs rs') :
    rs'.countP (fun u => isOk u ∧ u.id = id) ≤ rs.countP fun u => isOk u ∧ u.id = id := by
  by_cases hnone : ∃ u ∈ rs', isOk u ∧ u.id = id
  · obtain ⟨u, hu, hok, hid⟩ := hnone
    have hmem : u ∈ rs := by
      rcases hj.origin u hu with hmem | hnew
      · exact hmem
      · rw [hnew] at hok
        cases hok.2
    have hone : rs'.countP (fun u => isOk u ∧ u.id = id) ≤ 1 := by
      calc rs'.countP (fun u => isOk u ∧ u.id = id)
          ≤ rs'.countP (fun u => id = u.id) := countP_mono fun u h => h.2.symm
        _ = (rs'.map (·.id)).count id := by rw [Multiset.count_map, Multiset.countP_eq_card_filter]
        _ ≤ 1 := Multiset.nodup_iff_count_le_one.1 hj.nodup id
    exact hone.trans (Multiset.countP_pos.2 ⟨u, hmem, hok, hid⟩)
  · push Not at hnone
    rw [Multiset.countP_eq_zero.2 fun u hu h => hnone u hu h.1 h.2]
    exact Nat.zero_le _

/-- Those that are told something have not voted since. -/
theorem prepared_mark {p : Resource → Prop} [DecidablePred p] {newStage : Stage} (hnew : newStage ≠ .prepareReplied) :
    (r.mark p newStage).prepared id = r.resources.countP fun u => ¬ p u ∧ isOk u ∧ u.id = id := by
  unfold Record.prepared Record.mark
  dsimp only
  rw [Multiset.countP_map, Multiset.countP_eq_card_filter]
  refine congrArg Multiset.card (Multiset.filter_congr fun u _ => ?_)
  split_ifs with hp
  · exact iff_of_false (fun h => hnew h.1.2) (fun h => h.1 hp)
  · exact (and_iff_right hp).symm

/-- One of those that are told to commit is no longer prepared. -/
theorem prepared_told {newStage : Stage} (hnew : newStage ≠ .prepareReplied) :
    ((r.asked isOk).map fun id => (⟨.commit, TMNOFLAGS, id⟩ : Asked)).count ⟨.commit, TMNOFLAGS, id⟩ +
      (r.mark isOk newStage).prepared id = r.prepared id := by
  have hnone : (r.mark isOk newStage).prepared id = 0 := by
    rw [prepared_mark hnew]
    exact Multiset.countP_eq_zero.2 fun u _ h => h.1 h.2.1
  have hinj : Function.Injective fun id : Nat => (⟨.commit, TMNOFLAGS, id⟩ : Asked) := fun a b h => (Asked.mk.inj h).2.2
  rw [hnone, add_zero, Multiset.count_map_eq_count' _ _ hinj]
  unfold Record.asked Record.prepared
  rw [Multiset.count_map, Multiset.filter_filter, Multiset.countP_eq_card_filter]
  refine congrArg Multiset.card (Multiset.filter_congr fun u _ => ?_)
  rw [and_comm, eq_comm]

theorem prepared_mark_le {p : Resource → Prop} [DecidablePred p] {newStage : Stage} (hnew : newStage ≠ .prepareReplied) :
    (r.mark p newStage).prepared id ≤ r.prepared id := by
  rw [prepared_mark hnew]
  exact countP_mono fun u h => h.2

/-- What is asked with another phase or other flags is not that. -/
theorem count_told {phase : Phase} {flags : Nat} (h : (phase, flags) ≠ (.commit, TMNOFLAGS)) (ids : Multiset Nat) :
    (ids.map fun id => (⟨phase, flags, id⟩ : Asked)).count ⟨.commit, TMNOFLAGS, id⟩ = 0 := by
  refine Multiset.count_eq_zero.2 fun hmem => ?_
  obtain ⟨i, -, hi⟩ := Multiset.mem_map.1 hmem
  obtain ⟨h₁, h₂, -⟩ := Asked.mk.inj hi
  exact h (by rw [h₁, h₂])

/-- A reply changes one resource. -/
theorem prepared_turns {m : ResourceReply} {f : Resource → Resource} (hturns : l.Turns m f r) {n : Nat}
    (hf : ∀ u, u.id = m.resource → (if isOk (f u) ∧ (f u).id = id then 1 else 0) ≤ n) :
    r.prepared id ≤ l.prepared id + n := by
  obtain ⟨r₀, u, hr₀, hu, hid, rfl⟩ := hturns
  unfold Life.prepared Record.prepared Record.change
  rw [hr₀]
  dsimp only [Option.elim]
  rw [Multiset.countP_cons]
  exact Nat.add_le_add (Multiset.countP_le_of_le _ (Multiset.erase_le _ _)) (hf u hid)

theorem ask_other {phase : Phase} {flags : Nat} (h : (phase, flags) ≠ (.commit, TMNOFLAGS)) {p : Resource → Prop}
    [DecidablePred p] {newStage : Stage} (hnew : newStage ≠ .prepareReplied) (kept : Multiset Nat) :
    (l.ask r phase flags p newStage kept).tellings id + (l.ask r phase flags p newStage kept).prepared id ≤
      l.tellings id + r.prepared id := by
  have htold : (l.ask r phase flags p newStage kept).tellings id = l.tellings id := by
    unfold Life.tellings Life.ask
    dsimp only
    rw [Multiset.count_add, count_told h, add_zero]
  rw [htold]
  exact Nat.add_le_add_left (prepared_mark_le hnew) _

theorem ask_commit {newStage : Stage} (hnew : newStage ≠ .prepareReplied) (kept : Multiset Nat) :
    (l.ask r .commit TMNOFLAGS isOk newStage kept).tellings id + (l.ask r .commit TMNOFLAGS isOk newStage kept).prepared id =
      l.tellings id + r.prepared id := by
  have htold : (l.ask r .commit TMNOFLAGS isOk newStage kept).tellings id =
      l.tellings id + ((r.asked isOk).map fun id => (⟨.commit, TMNOFLAGS, id⟩ : Asked)).count ⟨.commit, TMNOFLAGS, id⟩ := by
    unfold Life.tellings Life.ask
    dsimp only
    rw [Multiset.count_add]
  rw [htold, add_assoc]
  exact congrArg (_ + ·) (prepared_told hnew)

/-- A request that finds the transaction with its resources: none of those that join has voted. -/
theorem prepared_joined {trid : ID} {rs : Multiset Resource} (hj : Joins (l.known trid).resources rs) :
    rs.countP (fun u => isOk u ∧ u.id = id) ≤ l.prepared id := by
  rw [← Life.prepared_known l trid]
  exact hj.prepared

theorem prepared_vote {m : ResourceReply} (hturns : l.Turns m (·.vote m.state) r) :
    r.prepared id ≤ l.prepared id + (voteOf (.reply .prepare m)).count (id, .XA_OK) := by
  refine prepared_turns hturns fun u hid => ?_
  split_ifs with h
  · have hresult : Result.convert m.state = .XA_OK := h.1.1
    have hvote : voteOf (.reply .prepare m) = {(id, .XA_OK)} := by
      rw [← hresult, ← show m.resource = id from hid.symm.trans h.2]
      rfl
    rw [hvote, Multiset.count_singleton_self]
  · exact Nat.zero_le _

theorem prepared_commitReplied {m : ResourceReply} (hturns : l.Turns m commitReplied r) : r.prepared id ≤ l.prepared id :=
  prepared_turns (n := 0) hturns fun _ _ => (if_neg fun h => nomatch h.1.2).le

theorem prepared_rollbackReplied {m : ResourceReply} (hturns : l.Turns m rollbackReplied r) : r.prepared id ≤ l.prepared id :=
  prepared_turns (n := 0) hturns fun _ _ => (if_neg fun h => nomatch h.1.2).le

/-- Of a vote for a commit, one request to commit can come. -/
theorem tellings_step {s : Signal} {n : Note} (hstep : Life.Step l s l' n) :
    l'.tellings id + l'.prepared id ≤ l.tellings id + l.prepared id + (voteOf s).count (id, .XA_OK) := by
  cases hstep with
  | other _ => exact le_rfl
  | unlogged _ => exact le_rfl
  | involved hj => exact Nat.add_le_add_left (prepared_joined hj) _
  | commitRefused hj _ => exact Nat.add_le_add_left (prepared_joined hj) _
  | commitNone _ => exact Nat.add_le_add_left (Nat.zero_le _) _
  | commitOne hj _ _ => exact (ask_other (by decide) (by decide) _).trans (Nat.add_le_add_left (prepared_joined hj) _)
  | commitMany hj _ _ => exact (ask_other (by decide) (by decide) _).trans (Nat.add_le_add_left (prepared_joined hj) _)
  | @commitFails _ _ _ _ _ kept hj _ hask _ =>
    rcases hask with hask | hask <;> cases hask <;>
      exact (ask_other (by decide) (by decide) kept).trans (Nat.add_le_add_left (prepared_joined hj) _)
  | rollbackNone _ => exact Nat.add_le_add_left (Nat.zero_le _) _
  | rollbackAsks hj => exact (ask_other (by decide) (by decide) _).trans (Nat.add_le_add_left (prepared_joined hj) _)
  | @rollbackFails _ _ kept hj _ => exact (ask_other (by decide) (by decide) kept).trans (Nat.add_le_add_left (prepared_joined hj) _)
  | lost => exact Nat.le_add_right _ _
  | stray _ => exact Nat.le_add_right _ _
  | prepareWaits hturns _ => exact (Nat.add_le_add_left (prepared_vote hturns) _).trans (add_assoc _ _ _).ge
  | prepareReadOnly => exact (Nat.add_le_add_left (Nat.zero_le _) _).trans (Nat.le_add_right _ _)
  | prepareCommits hturns =>
    exact (ask_commit (by decide) _).le.trans ((Nat.add_le_add_left (prepared_vote hturns) _).trans (add_assoc _ _ _).ge)
  | prepareUnlogged hturns => exact (Nat.add_le_add_left (prepared_vote hturns) _).trans (add_assoc _ _ _).ge
  | prepareRollsBack hturns =>
    exact (ask_other (by decide) (by decide) _).trans
      ((Nat.add_le_add_left (prepared_vote hturns) _).trans (add_assoc _ _ _).ge)
  | commitWaits hturns _ => exact Nat.add_le_add_left (prepared_commitReplied hturns) _
  | commitDone => exact Nat.add_le_add_left (Nat.zero_le _) _
  | commitKept hturns => exact Nat.add_le_add_left (prepared_commitReplied hturns) _
  | rollbackWaits hturns _ => exact Nat.add_le_add_left (prepared_rollbackReplied hturns) _
  | rollbackDone => exact Nat.add_le_add_left (Nat.zero_le _) _
  | rollbackKept hturns => exact Nat.add_le_add_left (prepared_rollbackReplied hturns) _

/-! ## What is answered -/

/-- How many replies of a phase a signal is, from one resource. -/
def answerOf (phase : Phase) (id : Nat) : Signal → Nat
  | .reply phase' m => if phase' = phase ∧ m.resource = id then 1 else 0
  | _ => 0

/-- Of what is asked, some is kept to be answered. -/
theorem asks_ask {phase phase' : Phase} {flags : Nat} {p : Resource → Prop} [DecidablePred p] {newStage : Stage}
    {kept : Multiset Nat} (hkept : kept ≤ r.asked p) :
    (l.ask r phase flags p newStage kept).unanswered.count (phase', id) + l.asks phase' id ≤
      (l.ask r phase flags p newStage kept).asks phase' id + l.unanswered.count (phase', id) := by
  have hcount : (kept.map fun id => (phase, id)).count (phase', id) ≤
      ((r.asked p).map fun id => (⟨phase, flags, id⟩ : Asked)).countP fun a => a.phase = phase' ∧ a.resource = id := by
    rw [Multiset.countP_map, Multiset.count_map]
    refine (Multiset.card_le_card (Multiset.filter_le_filter _ hkept)).trans (Multiset.card_le_card ?_)
    refine Multiset.monotone_filter_right _ fun i hi => ?_
    obtain ⟨h₁, h₂⟩ := Prod.mk.inj hi
    exact ⟨h₁.symm, h₂.symm⟩
  unfold Life.asks Life.ask
  dsimp only
  rw [Multiset.count_add, Multiset.countP_add]
  omega

/-- An answer takes its place among what is unanswered. -/
theorem answered_count {x : XID} {phase phase' : Phase} {m : ResourceReply} (hheeds : l.Heeds x (.reply phase m)) :
    (l.answered phase m).unanswered.count (phase', id) + answerOf phase' id (.reply phase m) =
      l.unanswered.count (phase', id) := by
  obtain ⟨rest, hrest⟩ := Multiset.exists_cons_of_mem hheeds.2
  unfold Life.answered answerOf
  dsimp only
  rw [hrest, Multiset.erase_cons_head, Multiset.count_cons]
  refine congrArg (_ + ·) (if_congr ?_ rfl rfl)
  rw [Prod.mk.injEq]
  exact and_congr eq_comm eq_comm

/-- What has been answered or is to be answered has been asked. -/
def Accounted (phase : Phase) (id : Nat) (l : Life) (s : Signal) (l' : Life) : Prop :=
  l'.unanswered.count (phase, id) + answerOf phase id s + l.asks phase id ≤ l'.asks phase id + l.unanswered.count (phase, id)

variable {x : XID} {phase : Phase}

/-- A reply after which nothing is asked. -/
theorem accounted_reply {phase' : Phase} {m : ResourceReply} (hheeds : l.Heeds x (.reply phase' m))
    (hunanswered : l'.unanswered = (l.answered phase' m).unanswered) (hemitted : l'.emitted = l.emitted) :
    Accounted phase id l (.reply phase' m) l' := by
  have hcount : (l.answered phase' m).unanswered.count (phase, id) + answerOf phase id (.reply phase' m) =
    l.unanswered.count (phase, id) := answered_count hheeds
  unfold Accounted Life.asks
  rw [hunanswered, hemitted]
  omega

/-- A reply after which the others are asked. -/
theorem accounted_round {b : Life} {phase' phase'' : Phase} {m : ResourceReply} {flags : Nat} {p : Resource → Prop}
    [DecidablePred p] {newStage : Stage} {kept : Multiset Nat} (hheeds : l.Heeds x (.reply phase' m)) (hkept : kept ≤ r.asked p)
    (hunanswered : b.unanswered = (l.answered phase' m).unanswered) (hemitted : b.emitted = l.emitted) :
    Accounted phase id l (.reply phase' m) (b.ask r phase'' flags p newStage kept) := by
  have hcount : (l.answered phase' m).unanswered.count (phase, id) + answerOf phase id (.reply phase' m) =
    l.unanswered.count (phase, id) := answered_count hheeds
  have hask : (b.ask r phase'' flags p newStage kept).unanswered.count (phase, id) + b.asks phase id ≤
    (b.ask r phase'' flags p newStage kept).asks phase id + b.unanswered.count (phase, id) := asks_ask hkept
  have hasks : b.asks phase id = l.asks phase id := by
    unfold Life.asks
    rw [hemitted]
  unfold Accounted
  rw [hunanswered] at hask
  omega

theorem accounted_ask {s : Signal} (hs : answerOf phase id s = 0) {phase' : Phase} {flags : Nat} {p : Resource → Prop}
    [DecidablePred p] (newStage : Stage) {kept : Multiset Nat} (hkept : kept ≤ r.asked p) :
    Accounted phase id l s (l.ask r phase' flags p newStage kept) := by
  unfold Accounted
  rw [hs, add_zero]
  exact asks_ask hkept

/-- Neither asked nor answered. -/
theorem accounted_same {s : Signal} (hs : answerOf phase id s = 0) (hunanswered : l'.unanswered = l.unanswered)
    (hemitted : l'.emitted = l.emitted) : Accounted phase id l s l' := by
  unfold Accounted Life.asks
  rw [hunanswered, hemitted, hs]
  omega

theorem accounted_step {s : Signal} {n : Note} (hheeds : l.Heeds x s) (hstep : Life.Step l s l' n) :
    Accounted phase id l s l' := by
  cases hstep with
  | other _ => exact accounted_same rfl rfl rfl
  | unlogged _ => exact accounted_same rfl rfl rfl
  | involved _ => exact accounted_same rfl rfl rfl
  | commitRefused _ _ => exact accounted_same rfl rfl rfl
  | commitNone _ => exact accounted_same rfl rfl rfl
  | commitOne _ _ _ => exact accounted_ask rfl _ le_rfl
  | commitMany _ _ _ => exact accounted_ask rfl _ le_rfl
  | @commitFails _ _ _ _ newStage _ _ _ _ hkept => exact accounted_ask rfl newStage hkept
  | rollbackNone _ => exact accounted_same rfl rfl rfl
  | rollbackAsks _ => exact accounted_ask rfl _ le_rfl
  | rollbackFails _ hkept => exact accounted_ask rfl .rollbackRequested hkept
  | lost => exact accounted_reply hheeds rfl rfl
  | stray _ => exact accounted_reply hheeds rfl rfl
  | prepareWaits => exact accounted_reply hheeds rfl rfl
  | prepareReadOnly => exact accounted_reply hheeds rfl rfl
  | prepareCommits _ _ _ _ hkept => exact accounted_round hheeds hkept rfl rfl
  | prepareUnlogged => exact accounted_reply hheeds rfl rfl
  | prepareRollsBack _ _ _ _ hkept => exact accounted_round hheeds hkept rfl rfl
  | commitWaits => exact accounted_reply hheeds rfl rfl
  | commitDone => exact accounted_reply hheeds rfl rfl
  | commitKept => exact accounted_reply hheeds rfl rfl
  | rollbackWaits => exact accounted_reply hheeds rfl rfl
  | rollbackDone => exact accounted_reply hheeds rfl rfl
  | rollbackKept => exact accounted_reply hheeds rfl rfl

end

/-! ## Runs -/

/-- Whether an event is an answer of a resource, in a phase of a transaction. -/
def Event.answers (x : XID) (phase : Phase) (id : Nat) : Event → Nat
  | .reply phase' m => if m.trid.xid = x ∧ phase' = phase ∧ m.resource = id then 1 else 0
  | _ => 0

/-- How often a resource answers in a run. -/
def answersOf (x : XID) (phase : Phase) (id : Nat) (es : List Event) : Nat := (es.map (Event.answers x phase id)).sum

theorem answers_of_signals {env : Environment} {x : XID} {w : World} {e : Event} {s : Signal} (hs : w.Signals env x e s)
    (phase : Phase) (id : Nat) : answerOf phase id s = e.answers x phase id := by
  cases e with
  | involved m =>
    change s = if m.trid.xid = x then _ else _ at hs
    split_ifs at hs <;> rw [hs] <;> rfl
  | commit m =>
    change s = if m.trid.xid = x then _ else _ at hs
    split_ifs at hs <;> rw [hs] <;> rfl
  | rollback m =>
    change s = if m.trid.xid = x then _ else _ at hs
    split_ifs at hs <;> rw [hs] <;> rfl
  | exit pid => rcases hs with ⟨t, -, -, -, rs, rfl⟩ | ⟨-, rfl⟩ <;> rfl
  | connect m => rw [show s = .other from hs]; rfl
  | write => rw [show s = .other from hs]; rfl
  | reply phase' m =>
    by_cases hx : m.trid.xid = x
    · obtain rfl : s = .reply phase' m := hs.trans (if_pos hx)
      exact if_congr (and_iff_right hx).symm rfl rfl
    · obtain rfl : s = .other := hs.trans (if_neg hx)
      exact (if_neg fun h => hx h.1).symm

/-- What a resource has voted for, it has been told to commit, or is prepared to. -/
theorem told_run {env : Environment} {resources : List Proxy} {log : List Row} (h : Started resources log)
    {es : List Event} {w : World} (hrun : (manager env).Run (World.start resources log) es w) (x : XID) (id : Nat) :
    (w.lives x).tellings id + (w.lives x).prepared id ≤ (votesOf x es).count (id, .XA_OK) ∧
      ∀ phase, answersOf x phase id es + (w.lives x).unanswered.count (phase, id) ≤ (w.lives x).asks phase id := by
  induction hrun with
  | nil => exact ⟨le_rfl, fun _ => le_rfl⟩
  | @snoc w es e hprevious he ih =>
    obtain ⟨hsound, hp⟩ := kept_of_reachable ⟨_, es, ⟨resources, log, h, rfl⟩, hprevious⟩
    obtain ⟨s, n, hs, hlife, -, -⟩ := (lived_step env hsound hp he).step x
    constructor
    · have hstep := @tellings_step _ _ id _ _ hlife
      have hvotes : votesOf x (es ++ [e]) = votesOf x es + voteOf s := by
        unfold votesOf
        rw [List.map_append, List.sum_append, List.map_singleton, List.sum_singleton, ← vote_of_signals hs]
      rw [hvotes, Multiset.count_add]
      exact hstep.trans (Nat.add_le_add_right ih.1 _)
    · intro phase
      have hstep : Accounted phase id _ s _ := accounted_step (heeds_of_admits he hs) hlife
      have hanswers : answersOf x phase id (es ++ [e]) = answersOf x phase id es + answerOf phase id s := by
        unfold answersOf
        rw [List.map_append, List.sum_append, List.map_singleton, List.sum_singleton, ← answers_of_signals hs]
      have hbefore := ih.2 phase
      unfold Accounted at hstep
      rw [hanswers]
      show answersOf x phase id es + answerOf phase id s + ((w.step env e).lives x).unanswered.count (phase, id) ≤
        ((w.step env e).lives x).asks phase id
      omega

/-- In every run, a resource is told to commit what it has prepared at most as often as it has voted `XA_OK`, and
it answers, in each phase, at most what it has been asked. -/
theorem told_as_voted {env : Environment} {resources : List Proxy} {log : List Row} (h : Started resources log)
    {es : List Event} {w : World} (hrun : (manager env).Run (World.start resources log) es w) (x : XID) (id : Nat) :
    (w.lives x).tellings id ≤ (votesOf x es).count (id, .XA_OK) ∧
      ∀ phase, answersOf x phase id es + (w.lives x).unanswered.count (phase, id) ≤ (w.lives x).asks phase id :=
  ⟨(Nat.le_add_right _ _).trans (told_run h hrun x id).1, (told_run h hrun x id).2⟩

theorem committed_told : (((prepared ++ committed).foldl (manager neverFull).step (World.start twoProxies [])).lives
      someID.xid).tellings 1 ≤ (votesOf someID.xid (prepared ++ committed)).count (1, .XA_OK) ∧
    ∀ phase, answersOf someID.xid phase 1 (prepared ++ committed) +
      (((prepared ++ committed).foldl (manager neverFull).step (World.start twoProxies [])).lives someID.xid).unanswered.count (phase, 1) ≤
      (((prepared ++ committed).foldl (manager neverFull).step (World.start twoProxies [])).lives someID.xid).asks phase 1 :=
  told_as_voted twoProxies_started (Machine.Run.foldl (.nil _) (by decide +kernel)) someID.xid 1

end Casual.Manager

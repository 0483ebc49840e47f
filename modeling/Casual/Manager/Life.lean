/-
The life of one transaction in the transaction manager, whatever the manager does with others and
however its resources are ordered and asked: what each message that concerns it can do.
-/
import Casual.Manager.Handle

namespace Casual.Manager

open Casual.Common Casual.Communication Casual.Lib
open Casual.Common.Transaction (ID XID)

/-! ## What is known of a transaction -/

/-- A transaction, but for the order of its resources. -/
structure Record where
  trid : ID
  resources : Multiset Resource
  correlation : Uuid

namespace Record

/-- `Transaction::stage`: that of the resource that is least far. -/
def stage (r : Record) : Stage := (r.resources.map Resource.stage).inf

/-- `Transaction::results`: the worst of its resources. -/
def results (r : Record) : Result := (r.resources.map Resource.result).inf

/-- The resources that are asked are in a new stage. -/
def mark (r : Record) (p : Resource → Prop) [DecidablePred p] (newStage : Stage) : Record :=
  { r with resources := r.resources.map fun u => if p u then { u with stage := newStage } else u }

/-- The resources that are asked. -/
def asked (r : Record) (p : Resource → Prop) [DecidablePred p] : Multiset Nat := (r.resources.filter p).map (·.id)

/-- One of the resources has changed. -/
def change (r : Record) (u u' : Resource) : Record := { r with resources := u' ::ₘ r.resources.erase u }

theorem le_stage {r : Record} {s : Stage} : s ≤ r.stage ↔ ∀ u ∈ r.resources, s ≤ u.stage := by
  unfold stage; rw [Multiset.le_inf]; simp

/-- Some resource is in the stage of the transaction, unless that is the last of all. -/
theorem exists_stage {r : Record} (h : r.stage ≠ .notInvolved) : ∃ u ∈ r.resources, u.stage = r.stage := by
  by_contra hnone
  push Not at hnone
  have hlt : ∀ u ∈ r.resources, r.stage < u.stage := fun u hu =>
    lt_of_le_of_ne (le_stage.1 le_rfl u hu) (hnone u hu).symm
  have htop : r.stage < ⊤ := lt_of_le_of_ne le_top h
  have : ∀ m : Multiset Stage, (∀ s ∈ m, r.stage < s) → r.stage < m.inf := by
    intro m
    induction m using Multiset.induction with
    | empty => exact fun _ => htop
    | cons s m ih =>
      intro hm
      rw [Multiset.inf_cons]
      exact lt_inf_iff.2 ⟨hm s (Multiset.mem_cons_self _ _), ih fun s' hs' => hm s' (Multiset.mem_cons_of_mem hs')⟩
  refine lt_irrefl r.stage (this (r.resources.map Resource.stage) fun s hs => ?_)
  obtain ⟨u, hu, rfl⟩ := Multiset.mem_map.1 hs
  exact hlt u hu

end Record

/-- A request for a resource: what it asks and with which flags. -/
structure Asked where
  phase : Phase
  flags : Nat
  resource : Nat
  deriving DecidableEq

/-- A transaction the manager may know, the requests it decided to send for it, those that wait for
an instance or for an answer, the replies it has made for it, and whether it is logged. -/
@[ext] structure Life where
  record : Option Record
  emitted : Multiset Asked
  unanswered : Multiset (Phase × Nat)
  replies : Multiset (Nat × Reply)
  logged : Bool

/-- A message as it concerns the transaction; the resources are those with the message's own. -/
inductive Signal
  | involved (trid : ID) (resources : Multiset Resource)
  | commit (message : OwnerRequest) (resources : Multiset Resource)
  | rollback (message : OwnerRequest) (resources : Multiset Resource)
  | reply (phase : Phase) (message : ResourceReply)
  | other

/-- The resources with those of a message: each once, as it was or newly involved. -/
structure Joins (resources joined : Multiset Resource) : Prop where
  nodup : (joined.map (·.id)).Nodup
  origin : ∀ u ∈ joined, u ∈ resources ∨ u = Resource.new u.id
  kept : ∀ u ∈ resources, u.id ∈ joined.map (·.id)

namespace Life

/-- The record of a transaction, which is new when there is none. -/
def known (l : Life) (trid : ID) : Record := l.record.getD ⟨trid, 0, 0⟩

/-- The transaction as a request of its owner finds it. -/
def joined (l : Life) (m : OwnerRequest) (rs : Multiset Resource) : Record :=
  { l.known m.trid with resources := rs, correlation := m.correlation }

/-- A reply is made to a process. -/
def reply (l : Life) (target : Process) (reply : Reply) : Life := { l with replies := (target.queue, reply) ::ₘ l.replies }

/-- Resources are asked; those that are kept will be asked, or have been. -/
def ask (l : Life) (r : Record) (phase : Phase) (flags : Nat) (p : Resource → Prop) [DecidablePred p]
    (newStage : Stage) (kept : Multiset Nat) : Life :=
  { l with
    record := some (r.mark p newStage)
    emitted := l.emitted + (r.asked p).map fun id => ⟨phase, flags, id⟩
    unanswered := l.unanswered + kept.map fun id => (phase, id) }

/-- A resource has replied to a request. -/
def answered (l : Life) (phase : Phase) (message : ResourceReply) : Life :=
  { l with unanswered := l.unanswered.erase (phase, message.resource) }

/-- The transaction leaves the manager's state. -/
def gone (l : Life) : Life := { l with record := none }

/-- The record is another. -/
def set (l : Life) (r : Record) : Life := { l with record := some r }

/-- The row of the log is gone. -/
def unlog (l : Life) : Life := { l with logged := false }

end Life

/-- A resource that has been involved and not yet been asked. -/
abbrev isInvolved (u : Resource) : Prop := u.stage = .involved

/-- A resource that has replied to a prepare request. -/
abbrev isPrepared (u : Resource) : Prop := u.stage = .prepareReplied

/-- A resource that has voted for the commit. -/
abbrev isOk (u : Resource) : Prop := u.result = .XA_OK ∧ u.stage = .prepareReplied

/-- A resource that has voted. -/
def Resource.vote (u : Resource) (state : Int) : Resource :=
  { u with
    result := Result.convert state
    stage := if Result.convert state = .XA_RDONLY then .notInvolved else .prepareReplied }

/-! ## Steps -/

/-- A reply has changed the resource that gave it. -/
def Life.Turns (l : Life) (m : ResourceReply) (f : Resource → Resource) (r' : Record) : Prop :=
  ∃ r u, l.record = some r ∧ u ∈ r.resources ∧ u.id = m.resource ∧ r' = r.change u (f u)

/-- A resource that has replied to a commit request. -/
abbrev commitReplied (u : Resource) : Resource := { u with stage := .commitReplied }

/-- A resource that has replied to a rollback request. -/
abbrev rollbackReplied (u : Resource) : Resource := { u with stage := .rollbackReplied }

/-- What is reported as a rollback that has gone well. -/
def rolledBackWell (r : Result) : Prop := r = .XA_OK ∨ r = .XAER_NOTA ∨ r = .XA_RDONLY

/-- How a step ends: the pump goes on, it goes on and a commit of two or more resources was accepted, or
an exception has stopped it. -/
inductive Note
  | goes | accepts | stops
  deriving DecidableEq

/-- `Step l s l' note`: a message that is `s` for the transaction may take its life from `l` to `l'`. -/
inductive Life.Step : Life → Signal → Life → Note → Prop
  | other {l : Life} {n : Note} (hn : n ≠ .accepts) : Step l .other l n
  | unlogged {l : Life} {n : Note} (hn : n ≠ .accepts) : Step l .other l.unlog n
  | involved {l : Life} {trid : ID} {rs : Multiset Resource} (hj : Joins (l.known trid).resources rs) :
      Step l (.involved trid rs) (l.set { l.known trid with resources := rs }) .goes
  -- commit requests
  | commitRefused {l : Life} {m : OwnerRequest} {rs : Multiset Resource} (hj : Joins (l.known m.trid).resources rs)
      (hs : (l.joined m rs).stage ≠ .involved ∧ (l.joined m rs).stage ≠ .notInvolved) :
      Step l (.commit m rs) ((l.set { l.known m.trid with resources := rs }).reply m.process
        (.commit m.trid m.correlation .error Result.XAER_PROTO.code)) .goes
  | commitNone {l : Life} {m : OwnerRequest} (hj : Joins (l.known m.trid).resources 0) :
      Step l (.commit m 0) (l.gone.reply m.process (.commit m.trid m.correlation .commit Result.XA_RDONLY.code)) .goes
  | commitOne {l : Life} {m : OwnerRequest} {rs : Multiset Resource} (hj : Joins (l.known m.trid).resources rs)
      (hs : (l.joined m rs).stage = .involved ∨ (l.joined m rs).stage = .notInvolved) (hcard : rs.card = 1) :
      Step l (.commit m rs)
        (l.ask (l.joined m rs) .commit TMONEPHASE isInvolved .commitRequested ((l.joined m rs).asked isInvolved)) .goes
  | commitMany {l : Life} {m : OwnerRequest} {rs : Multiset Resource} (hj : Joins (l.known m.trid).resources rs)
      (hs : (l.joined m rs).stage = .involved ∨ (l.joined m rs).stage = .notInvolved) (hcard : 2 ≤ rs.card) :
      Step l (.commit m rs)
        (l.ask (l.joined m rs) .prepare TMNOFLAGS isInvolved .prepareRequested ((l.joined m rs).asked isInvolved)) .accepts
  | commitFails {l : Life} {m : OwnerRequest} {rs : Multiset Resource} {phase : Phase} {flags : Nat} {newStage : Stage}
      {kept : Multiset Nat} (hj : Joins (l.known m.trid).resources rs)
      (hs : (l.joined m rs).stage = .involved ∨ (l.joined m rs).stage = .notInvolved)
      (hask : (phase, flags, newStage) = (.commit, TMONEPHASE, .commitRequested) ∨
        (phase, flags, newStage) = (.prepare, TMNOFLAGS, .prepareRequested))
      (hkept : kept ≤ (l.joined m rs).asked isInvolved) :
      Step l (.commit m rs) ((l.ask (l.joined m rs) phase flags isInvolved newStage kept).reply m.process
        (.commit m.trid m.correlation .error Result.XAER_RMERR.code)) .goes
  -- rollback requests
  | rollbackNone {l : Life} {m : OwnerRequest} (hj : Joins (l.known m.trid).resources 0) :
      Step l (.rollback m 0) (l.gone.reply m.process (.rollback m.trid m.correlation .rollback Result.XA_OK.code)) .goes
  | rollbackAsks {l : Life} {m : OwnerRequest} {rs : Multiset Resource} (hj : Joins (l.known m.trid).resources rs) :
      Step l (.rollback m rs)
        (l.ask (l.joined m rs) .rollback TMNOFLAGS isInvolved .rollbackRequested ((l.joined m rs).asked isInvolved)) .goes
  | rollbackFails {l : Life} {m : OwnerRequest} {rs : Multiset Resource} {kept : Multiset Nat}
      (hj : Joins (l.known m.trid).resources rs) (hkept : kept ≤ (l.joined m rs).asked isInvolved) :
      Step l (.rollback m rs)
        ((l.ask (l.joined m rs) .rollback TMNOFLAGS isInvolved .rollbackRequested kept).reply m.process
          (.rollback m.trid m.correlation .error Result.XAER_RMERR.code)) .goes
  -- replies that no handler gets
  | lost {l : Life} {phase : Phase} {m : ResourceReply} : Step l (.reply phase m) (l.answered phase m) .stops
  | stray {l : Life} {phase : Phase} {m : ResourceReply}
      (h : ∀ r, l.record = some r → m.resource ∉ r.resources.map (·.id)) :
      Step l (.reply phase m) (l.answered phase m) .goes
  -- prepare replies
  | prepareWaits {l : Life} {m : ResourceReply} {r : Record} (h : l.Turns m (·.vote m.state) r)
      (hs : r.stage ≠ .prepareReplied) : Step l (.reply .prepare m) ((l.answered .prepare m).set r) .goes
  | prepareReadOnly {l : Life} {m : ResourceReply} {r : Record} (h : l.Turns m (·.vote m.state) r)
      (hs : r.stage = .prepareReplied) (hres : r.results = .XA_RDONLY) :
      Step l (.reply .prepare m) ((l.answered .prepare m).gone.unlog.reply r.trid.owner
        (.commit m.trid r.correlation .commit Result.XA_RDONLY.code)) .goes
  | prepareCommits {l : Life} {m : ResourceReply} {r : Record} {kept : Multiset Nat} {n : Note}
      (h : l.Turns m (·.vote m.state) r) (hs : r.stage = .prepareReplied) (hres : r.results = .XA_OK)
      (hn : n ≠ .accepts) (hkept : kept ≤ r.asked isOk) (hall : n = .goes → kept = r.asked isOk) :
      Step l (.reply .prepare m) ((({ l.answered .prepare m with logged := true }).reply r.trid.owner
        (.commit m.trid r.correlation .prepare Result.XA_OK.code)).ask r .commit TMNOFLAGS isOk .prepareRequested kept) n
  | prepareUnlogged {l : Life} {m : ResourceReply} {r : Record} (h : l.Turns m (·.vote m.state) r) :
      Step l (.reply .prepare m) ((l.answered .prepare m).set r) .stops
  | prepareRollsBack {l : Life} {m : ResourceReply} {r : Record} {kept : Multiset Nat} {n : Note}
      (h : l.Turns m (·.vote m.state) r) (hs : r.stage = .prepareReplied)
      (hres : r.results ≠ .XA_RDONLY ∧ r.results ≠ .XA_OK)
      (hn : n ≠ .accepts) (hkept : kept ≤ r.asked isPrepared) (hall : n = .goes → kept = r.asked isPrepared) :
      Step l (.reply .prepare m)
        ((l.answered .prepare m).ask r .rollback TMNOFLAGS isPrepared .rollbackRequested kept) n
  -- commit replies
  | commitWaits {l : Life} {m : ResourceReply} {r : Record} (h : l.Turns m commitReplied r)
      (hs : r.stage ≠ .commitReplied) : Step l (.reply .commit m) ((l.answered .commit m).set r) .goes
  | commitDone {l : Life} {m : ResourceReply} {r : Record} (h : l.Turns m commitReplied r)
      (hs : r.stage = .commitReplied) (hres : r.results = .XA_OK) :
      Step l (.reply .commit m) ((l.answered .commit m).gone.unlog.reply r.trid.owner
        (.commit m.trid r.correlation .commit Result.XA_OK.code)) .goes
  | commitKept {l : Life} {m : ResourceReply} {r : Record} (h : l.Turns m commitReplied r)
      (hs : r.stage = .commitReplied) (hres : r.results ≠ .XA_OK) :
      Step l (.reply .commit m) (((l.answered .commit m).set r).reply r.trid.owner
        (.commit m.trid r.correlation .commit r.results.code)) .goes
  -- rollback replies
  | rollbackWaits {l : Life} {m : ResourceReply} {r : Record} (h : l.Turns m rollbackReplied r)
      (hs : r.stage ≠ .rollbackReplied) : Step l (.reply .rollback m) ((l.answered .rollback m).set r) .goes
  | rollbackDone {l : Life} {m : ResourceReply} {r : Record} (h : l.Turns m rollbackReplied r)
      (hs : r.stage = .rollbackReplied) (hres : rolledBackWell r.results) :
      Step l (.reply .rollback m) ((l.answered .rollback m).gone.unlog.reply r.trid.owner
        (.rollback m.trid r.correlation .rollback Result.XA_OK.code)) .goes
  | rollbackKept {l : Life} {m : ResourceReply} {r : Record} (h : l.Turns m rollbackReplied r)
      (hs : r.stage = .rollbackReplied) (hres : ¬ rolledBackWell r.results) :
      Step l (.reply .rollback m) (((l.answered .rollback m).set r).reply r.trid.owner
        (.rollback m.trid r.correlation .rollback r.results.code)) .goes

end Casual.Manager

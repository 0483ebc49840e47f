/-
Commit and rollback through the queue broker: the rounds of requests and replies, and what holds of them.
-/
import Casual.Lib.Run
import Casual.Queue.Forwarding

namespace Casual.Queue

open Casual.Common Casual.Communication Casual.Lib

namespace Broker

variable {env : Environment}

/-! ## Rounds -/

/-- A request, the groups that are involved when it comes, and what is heard of each of them until it is
known of all: whether it has replied with `XA_OK`. -/
structure Round where
  kind : Kind
  request : ResourceRequest
  groups : List Process
  heard : List (Process × Bool)
  deriving DecidableEq

namespace Round

/-- Each of the groups has replied, or died. -/
def Settled (r : Round) : Prop := ∀ g ∈ r.groups, ∃ x ∈ r.heard, x.1 = g

instance (r : Round) : Decidable r.Settled := inferInstanceAs (Decidable (∀ g ∈ r.groups, ∃ x ∈ r.heard, x.1 = g))

/-- Each of the groups has replied with `XA_OK`. -/
def Agreed (r : Round) : Prop := ∀ g ∈ r.groups, (g, true) ∈ r.heard

instance (r : Round) : Decidable r.Agreed := inferInstanceAs (Decidable (∀ g ∈ r.groups, (g, true) ∈ r.heard))

/-- What is sent to the groups. -/
def forwarded (env : Environment) (r : Round) : Sent := .request r.kind { r.request with process := env.self }

/-- An answer of a group, which is not looked at when the round is over. -/
def hears (r : Round) (g : Process) (ok : Bool) : Round :=
  if r.Settled then r else { r with heard := r.heard ++ [(g, ok)] }

end Round

/-- The reply to a request. -/
def Sent.answers (k : Uuid) : Sent → Bool
  | .reply _ m => m.correlation == k
  | _ => false

/-- A queue broker, the requests it has got, the processes it knows to be dead, and which replies it has got
from the groups. -/
structure Rounds where
  broker : Broker
  rounds : List Round
  dead : List Nat
  answered : List (Process × Uuid)

namespace Rounds

variable (env : Environment)

/-- A queue broker whose pump has ended gets no messages. -/
def pump (s : Broker) (e : Event) : Broker := if s.running then s.step env e else s

/-- An event, and what the rounds hear of it. -/
def step (w : Rounds) (e : Event) : Rounds :=
  let w' := { w with broker := pump env w.broker e }
  match e with
  | .exit pid =>
    { w' with
      rounds := w.rounds.map fun r => r.hears (env.process pid) false
      dead := pid :: w.dead }
  | .request kind m =>
    { w' with
      rounds := w.rounds ++ [⟨kind, m, (w.broker.involved m.trid.xid).getD [],
        w.dead.map fun pid => (env.process pid, false)⟩] }
  | .reply _ m =>
    { w' with
      rounds := w.rounds.map fun r =>
        if r.request.correlation = m.correlation then r.hears m.process (m.state == XA_OK) else r
      answered := (m.process, m.correlation) :: w.answered }
  | _ => w'

/-- A group that is involved has the queue it has, no two requests have one correlation, and a group replies
once to a request it has got. -/
def admits (w : Rounds) : Event → Prop
  | .involved process _ => process = env.process process.pid
  | .request _ m => ∀ r ∈ w.rounds, r.request.correlation ≠ m.correlation
  | .reply kind m => (∃ q, (m.process, Sent.request kind q) ∈ w.broker.sent ∧ q.correlation = m.correlation ∧ q.trid = m.trid) ∧
      (m.process, m.correlation) ∉ w.answered
  | _ => True

/-- The runs of a queue broker. -/
def serving : Machine Rounds Event where
  init w := ∃ groups queues, w = ⟨start groups queues, [], [], []⟩
  admits w e := admits env w e
  step w e := w.step env e

/-- What has been sent in reply to a request. -/
def replies (w : Rounds) (k : Uuid) : List (Process × Sent) := w.broker.sent.filter fun x => x.2.answers k

/-- When all groups have replied or died, a request has been answered, once, with what the groups have come to,
and the queue broker is done with it. -/
def Answered (w : Rounds) : Prop := ∀ r ∈ w.rounds, r.Settled →
  (∃ m, w.replies r.request.correlation = [(r.request.process, .reply r.kind m)] ∧
    (r.groups ≠ [] → (m.state = XA_OK ↔ r.Agreed))) ∧
  ∀ c ∈ w.broker.correlation r.request.trid.xid, c.replyCorrelation ≠ r.request.correlation

/-- Whoever is sent something in reply is there then. A group that dies is not the last one a request waits for.
A request is sent to groups when none of them has to reply to an earlier one for the transaction, and those that
have died have no queue any longer. -/
def Orderly (w : Rounds) : Event → Prop
  | .exit pid => ∀ x, ∀ c ∈ w.broker.correlation x, (∃ q ∈ c.requests, q.group.pid = pid ∧ q.stage = .pending) →
      ∃ q ∈ c.requests, q.group.pid ≠ pid ∧ q.stage = .pending
  | .lookup process _ => env.gone w.broker.attempts process.queue = false
  | .request _ m =>
      -- there are at most two attempts to send to each group, and one to send to the caller
      (∀ n, w.broker.attempts ≤ n → n ≤ w.broker.attempts + 2 * ((w.broker.involved m.trid.xid).getD []).length →
        env.gone n m.process.queue = false) ∧
      ∀ groups ∈ w.broker.involved m.trid.xid,
        (∀ g ∈ groups, g.pid ∈ w.dead → ∀ n, w.broker.attempts ≤ n → env.gone n g.queue = true) ∧
        ∀ r ∈ w.rounds, r.request.trid.xid = m.trid.xid → ∀ g ∈ r.groups, (g, r.forwarded env) ∈ w.broker.sent →
          g.pid ∈ w.dead ∨ (g, r.request.correlation) ∈ w.answered
  | .reply _ m => ∀ c ∈ w.broker.correlation m.trid.xid, (c.hears m).replied = true →
      env.gone w.broker.attempts c.caller.queue = false
  | _ => True

end Rounds

/-! ### What is heard in a round -/

namespace Round

variable {r : Round} {g g' : Process} {ok : Bool}

/-- The stage that is known of a group. -/
def stageOf (r : Round) (g : Process) : Stage :=
  if (g, true) ∈ r.heard then .replied else if (g, false) ∈ r.heard then .error else .pending

theorem heard_iff : (∃ x ∈ r.heard, x.1 = g) ↔ r.stageOf g ≠ .pending := by
  unfold stageOf
  constructor
  · rintro ⟨⟨_, ok⟩, hx, rfl⟩
    cases ok <;> split_ifs <;> simp_all
  · split_ifs with htrue hfalse
    · exact fun _ => ⟨_, htrue, rfl⟩
    · exact fun _ => ⟨_, hfalse, rfl⟩
    · exact fun h => absurd rfl h

theorem settled_iff : r.Settled ↔ ∀ g ∈ r.groups, r.stageOf g ≠ .pending :=
  forall₂_congr fun _ _ => heard_iff

theorem agreed_iff : r.Agreed ↔ ∀ g ∈ r.groups, r.stageOf g = .replied := by
  refine forall₂_congr fun g _ => ?_
  unfold stageOf
  split_ifs <;> simp_all

theorem rank_stageOf : Stage.error.rank ≤ (r.stageOf g).rank ↔ r.stageOf g ≠ .pending := by
  unfold stageOf
  split_ifs <;> decide

theorem hears_of_settled (h : r.Settled) : r.hears g ok = r := if_pos h

theorem hears_heard (h : ¬ r.Settled) : (r.hears g ok).heard = r.heard ++ [(g, ok)] := by
  unfold hears
  rw [if_neg h]

@[simp] theorem hears_request : (r.hears g ok).request = r.request := by
  unfold hears
  split_ifs <;> rfl

@[simp] theorem hears_groups : (r.hears g ok).groups = r.groups := by
  unfold hears
  split_ifs <;> rfl

@[simp] theorem hears_kind : (r.hears g ok).kind = r.kind := by
  unfold hears
  split_ifs <;> rfl

@[simp] theorem hears_forwarded (env : Environment) : (r.hears g ok).forwarded env = r.forwarded env := by
  simp only [forwarded, hears_kind, hears_request]

theorem mem_hears (h : (g', true) ∈ (r.hears g ok).heard) : (g', true) ∈ r.heard ∨ g' = g ∧ ok = true := by
  unfold hears at h
  split_ifs at h
  · exact .inl h
  · simpa [eq_comm] using h

/-- A reply is the last that is heard of a group. -/
theorem stageOf_hears (h : ¬ r.Settled) (hnew : (g, true) ∉ r.heard) :
    (r.hears g ok).stageOf g' = if g' = g then (if ok then .replied else .error) else r.stageOf g' := by
  unfold stageOf
  rw [hears_heard h]
  by_cases hg : g' = g
  · subst hg
    cases ok <;> simp [hnew]
  · simp [hg]

/-- A group that has died has not replied, if it is not known that it has. -/
theorem stageOf_dies (h : ¬ r.Settled) :
    (r.hears g false).stageOf g' = if g' = g ∧ (r.stageOf g').rank ≤ Stage.pending.rank then .error else r.stageOf g' := by
  unfold stageOf
  rw [hears_heard h]
  by_cases hg : g' = g
  · subst hg
    by_cases htrue : (g', true) ∈ r.heard
    · simp [htrue, Stage.rank]
    · by_cases hfalse : (g', false) ∈ r.heard <;> simp [htrue, hfalse, Stage.rank]
  · simp [hg]

end Round

/-! ### What holds of the rounds -/

namespace Rounds

section Kept

variable (env)

/-- A request that some group has to reply to. -/
structure Waits (w : Rounds) (r : Round) : Prop where
  entry : ∃ gs : List Process, gs.Perm r.groups ∧ w.broker.correlation r.request.trid.xid =
    some ⟨r.request.process, r.request.correlation, gs.map fun g => ⟨g, r.stageOf g⟩⟩
  unsettled : ¬ r.Settled
  replies : w.replies r.request.correlation = []
  sent : ∀ g ∈ r.groups, (g, r.forwarded env) ∈ w.broker.sent
  known : ∀ g ∈ r.groups, g.pid ∈ w.dead ∨ (g, r.request.correlation) ∈ w.answered → r.stageOf g ≠ .pending
  told : ∀ g, (g, true) ∈ r.heard → (g, r.request.correlation) ∈ w.answered
  alone : ∀ r' ∈ w.rounds, r'.request.trid.xid = r.request.trid.xid → r'.request.correlation ≠ r.request.correlation →
    ∀ g ∈ r.groups, (g, r'.forwarded env) ∈ w.broker.sent → (g, r'.request.correlation) ∈ w.answered

/-- A request that has been answered. -/
structure Done (w : Rounds) (r : Round) : Prop where
  reply : ∃ m, w.replies r.request.correlation = [(r.request.process, .reply r.kind m)] ∧
    (r.groups = [] ∨ r.Settled ∧ (m.state = XA_OK ↔ r.Agreed) ∨
      m.state ≠ XA_OK ∧ ∃ g ∈ r.groups, (g, true) ∉ r.heard ∧ (g, r.forwarded env) ∉ w.broker.sent)
  removed : ∀ c ∈ w.broker.correlation r.request.trid.xid, c.replyCorrelation ≠ r.request.correlation

/-- What every event keeps. -/
structure Kept (w : Rounds) : Prop where
  running : w.broker.running = true
  distinct : (w.rounds.map (·.request.correlation)).Nodup
  rounds : ∀ r ∈ w.rounds, Waits env w r ∨ Done env w r
  entries : ∀ x c, w.broker.correlation x = some c →
    ∃ r ∈ w.rounds, r.request.trid.xid = x ∧ r.request.correlation = c.replyCorrelation
  involved : ∀ x gs, w.broker.involved x = some gs → gs ≠ [] ∧ gs.Nodup ∧ ∀ g ∈ gs, g = env.process g.pid
  groups : ∀ r ∈ w.rounds, r.groups.Nodup ∧ ∀ g ∈ r.groups, g = env.process g.pid
  sent : ∀ g kind q, (g, Sent.request kind q) ∈ w.broker.sent → ∃ r ∈ w.rounds, g ∈ r.groups ∧ .request kind q = r.forwarded env
  replied : ∀ g kind m, (g, Sent.reply kind m) ∈ w.broker.sent → ∃ r ∈ w.rounds, r.request.correlation = m.correlation
  answered : ∀ x ∈ w.answered, ∃ r ∈ w.rounds, r.request.correlation = x.2

end Kept

variable {w w' : Rounds} {r : Round}

theorem Kept.eq_of_correlation (h : Kept env w) {r r' : Round} (hr : r ∈ w.rounds) (hr' : r' ∈ w.rounds)
    (he : r.request.correlation = r'.request.correlation) : r = r' :=
  List.inj_on_of_nodup_map h.distinct hr hr' he

/-- An entry belongs to a request that waits. -/
theorem Kept.waits_of_entry (h : Kept env w) {x : Transaction.XID} {c : Correlation} (hc : w.broker.correlation x = some c) :
    ∃ r ∈ w.rounds, r.request.trid.xid = x ∧ r.request.correlation = c.replyCorrelation ∧ Waits env w r := by
  obtain ⟨r, hr, rfl, hcorrelation⟩ := h.entries x c hc
  refine ⟨r, hr, rfl, hcorrelation, (h.rounds r hr).resolve_right fun hdone => ?_⟩
  exact hdone.removed c hc hcorrelation.symm

/-- Requests that wait are for different transactions. -/
theorem Waits.unique {r' : Round} (h : Waits env w r) (h' : Waits env w r') (he : r.request.trid.xid = r'.request.trid.xid) :
    r.request.correlation = r'.request.correlation := by
  obtain ⟨gs, -, hc⟩ := h.entry
  obtain ⟨gs', -, hc'⟩ := h'.entry
  rw [he, hc'] at hc
  injection hc with hc
  injection hc with _ hcorrelation _
  exact hcorrelation.symm

/-- A request waits on while nothing of its own happens. -/
theorem Waits.of (h : Waits env w r)
    (hcorrelation : w'.broker.correlation r.request.trid.xid = w.broker.correlation r.request.trid.xid)
    (hreplies : w'.replies r.request.correlation = w.replies r.request.correlation)
    (hsent : w.broker.sent ⊆ w'.broker.sent) (hdead : w'.dead = w.dead)
    (hanswered : ∀ g, (g, r.request.correlation) ∈ w'.answered ↔ (g, r.request.correlation) ∈ w.answered)
    (halone : ∀ r' ∈ w'.rounds, r'.request.trid.xid = r.request.trid.xid → r'.request.correlation ≠ r.request.correlation →
      ∀ g ∈ r.groups, (g, r'.forwarded env) ∈ w'.broker.sent → (g, r'.request.correlation) ∈ w'.answered) :
    Waits env w' r := by
  refine ⟨hcorrelation ▸ h.entry, h.unsettled, hreplies ▸ h.replies, fun g hg => hsent (h.sent g hg), ?_, ?_, halone⟩
  · rintro g hg hknown
    rw [hdead, hanswered] at hknown
    exact h.known g hg hknown
  · exact fun g hg => (hanswered g).2 (h.told g hg)

theorem Done.of (h : Done env w r)
    (hcorrelation : ∀ c ∈ w'.broker.correlation r.request.trid.xid, c.replyCorrelation ≠ r.request.correlation)
    (hreplies : w'.replies r.request.correlation = w.replies r.request.correlation)
    (hsent : ∀ g, (g, r.forwarded env) ∈ w'.broker.sent → (g, r.forwarded env) ∈ w.broker.sent) : Done env w' r := by
  obtain ⟨m, hm, hstate⟩ := h.reply
  refine ⟨⟨m, hreplies.trans hm, ?_⟩, hcorrelation⟩
  rcases hstate with hnil | hsettled | ⟨hstate, g, hg, hheard, hnot⟩
  · exact .inl hnil
  · exact .inr (.inl hsettled)
  · exact .inr (.inr ⟨hstate, g, hg, hheard, fun hx => hnot (hsent g hx)⟩)

/-- The replies to a request when some more has been sent. -/
theorem replies_append {l : List (Process × Sent)} (hsent : w'.broker.sent = w.broker.sent ++ l) (k : Uuid) :
    w'.replies k = w.replies k ++ l.filter fun x => x.2.answers k := by
  unfold replies
  rw [hsent, List.filter_append]

theorem forwarded_inj {r r' : Round} (h : r.forwarded env = r'.forwarded env) :
    r.request.correlation = r'.request.correlation := by
  unfold Round.forwarded at h
  injection h with _ h
  injection h

/-- Who has got a request is one of its groups. -/
theorem Kept.mem_groups (h : Kept env w) (hr : r ∈ w.rounds) {g : Process} (hg : (g, r.forwarded env) ∈ w.broker.sent) :
    g ∈ r.groups := by
  obtain ⟨r', hr', hg', he⟩ := h.sent g _ _ hg
  rw [h.eq_of_correlation hr hr' (forwarded_inj he)]
  exact hg'

/-! ### A message that is not about a request -/

theorem Kept.frame (h : Kept env w) {s : Broker} (hrunning : s.running = true)
    (hcorrelation : s.correlation = w.broker.correlation)
    (hsent : ∃ l, s.sent = w.broker.sent ++ l ∧ ∀ x ∈ l, ∃ reply, x.2 = .lookup reply)
    (hinvolved : ∀ x gs, s.involved x = some gs → gs ≠ [] ∧ gs.Nodup ∧ ∀ g ∈ gs, g = env.process g.pid) :
    Kept env { w with broker := s } := by
  obtain ⟨l, hsent, hl⟩ := hsent
  have hreplies : ∀ k, ({ w with broker := s } : Rounds).replies k = w.replies k := by
    intro k
    rw [replies_append hsent, List.filter_eq_nil_iff.2, List.append_nil]
    intro x hx
    obtain ⟨reply, hreply⟩ := hl x hx
    rw [hreply]
    exact Bool.false_ne_true
  have hold : ∀ {g m}, (∀ reply, m ≠ Sent.lookup reply) → (g, m) ∈ s.sent → (g, m) ∈ w.broker.sent := by
    rintro g m hm hx
    rw [hsent, List.mem_append] at hx
    refine hx.resolve_right fun hx => ?_
    obtain ⟨reply, hreply⟩ := hl _ hx
    exact hm reply hreply
  refine ⟨hrunning, h.distinct, fun r hr => ?_, hcorrelation ▸ h.entries, hinvolved, h.groups, ?_, ?_, h.answered⟩
  · rcases h.rounds r hr with hr | hr
    · refine .inl (hr.of (congrFun hcorrelation _) (hreplies _) ?_ rfl (fun _ => Iff.rfl) fun r' hr' hx hk g hg hsent => ?_)
      · exact fun x hx => hsent ▸ List.mem_append_left _ hx
      · exact hr.alone r' hr' hx hk g hg (hold nofun hsent)
    · exact .inr (hr.of (fun c hc => hr.removed c (hcorrelation ▸ hc)) (hreplies _) fun g => hold nofun)
  · exact fun g kind q hq => h.sent g kind q (hold nofun hq)
  · exact fun g kind m hm => h.replied g kind m (hold nofun hm)

end Rounds

end Broker

end Casual.Queue

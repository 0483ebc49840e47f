/-
No message is lost when it is handed out: what becomes of the messages that can be dequeued when an
event serves the requests for them.
-/
import Casual.Queue.Waiting

namespace Casual.Queue

open Casual.Common Casual.Communication Casual.Lib

/-- The row of a message that a transaction has dequeued. -/
def MessageRow.takenBy (trid : Transaction.ID) (m : MessageRow) : MessageRow :=
  { m with gtrid := some trid.xid.gtrid, state := .removed }

namespace Group

/-! ## The fate of a message -/

/-- The reply hands out a message. -/
def Carries (d : Message.Dequeued) (x : Nat × Reply) : Prop := ∃ queue correlation, x = (queue, .dequeue ⟨correlation, [d]⟩)

/-- What becomes of a message that can be dequeued: it still can, the transaction of a request has it, or
the reply that carries it has been put on the queue of the process that asked for it. -/
def Fate (rs : List Message.DequeueRequest) (db : Database) (out : List (Nat × Reply)) (m : MessageRow) : Prop :=
  m ∈ db.messages ∨ (∃ r ∈ rs, ∃ trid, r.trid = some trid ∧ m.takenBy trid ∈ db.messages) ∨
    ∃ r ∈ rs, answer r [Database.reply m] ∈ out

/-- Requests are served from a queuebase: what is left of it and what is sent, and the condition under which
nothing is lost. -/
structure Serves (rs : List Message.DequeueRequest) (db db' : Database) (out : List (Nat × Reply)) (C : Prop) :
    Prop where
  sane : Database.Sane db'
  /-- A message that cannot be dequeued stays. -/
  kept : ∀ m ∈ db.messages, m.state ≠ .enqueued → m ∈ db'.messages
  /-- A message that is there was there, or a transaction has taken it. -/
  rows : ∀ m' ∈ db'.messages, m' ∈ db.messages ∨
    ∃ r ∈ rs, ∃ trid, r.trid = some trid ∧ ∃ m ∈ db.messages, m.state = .enqueued ∧ m' = m.takenBy trid
  /-- A message that is handed out is no longer there. -/
  carried : ∀ d, ∀ x ∈ out, Carries d x →
    ∃ r ∈ rs, ∃ m ∈ db.messages, m.state = .enqueued ∧ m ∉ db'.messages ∧ d = Database.reply m ∧ x = answer r [d]
  fate : (∀ m ∈ db.messages, m.state = .enqueued → Fate rs db' out m) ↔ C

variable {db db' db'' : Database} {m m' : MessageRow} {rs rs' : List Message.DequeueRequest}
  {out out' : List (Nat × Reply)} {C C' : Prop}

theorem carries_answer (r : Message.DequeueRequest) (d : Message.Dequeued) : Carries d (answer r [d]) := ⟨_, _, rfl⟩

theorem Fate.mono (h : Fate rs db out m) (hrs : rs ⊆ rs') (hout : out ⊆ out') : Fate rs' db out' m := by
  rcases h with h | ⟨r, hr, trid, htrid, h⟩ | ⟨r, hr, h⟩
  · exact .inl h
  · exact .inr (.inl ⟨r, hrs hr, trid, htrid, h⟩)
  · exact .inr (.inr ⟨r, hrs hr, hout h⟩)

theorem eq_of_id (hs : Database.Sane db) (hm : m ∈ db.messages) (hm' : m' ∈ db.messages) (h : m.id = m'.id) : m = m' :=
  List.inj_on_of_nodup_map hs.ids hm hm' h

namespace Serves

/-- The fate of a message is decided by the requests that are served. -/
theorem fate_of (h : Serves rs db db' out C) (hs : Database.Sane db) (hm : m ∈ db.messages) (hstate : m.state = .enqueued)
    (hfate : Fate rs' db' out m) : Fate rs db' out m := by
  rcases hfate with hin | ⟨-, -, trid, -, htaken⟩ | ⟨r', -, hsent⟩
  · exact .inl hin
  · rcases h.rows _ htaken with hin | ⟨r, hr, trid', htrid', m₀, hm₀, -, he⟩
    · have hid : m = m.takenBy trid := eq_of_id hs hm hin rfl
      have hremoved : m.state = .removed := by rw [hid]; rfl
      rw [hstate] at hremoved
      cases hremoved
    · obtain rfl : m = m₀ := eq_of_id hs hm hm₀ (by have := congrArg MessageRow.id he; exact this)
      exact .inr (.inl ⟨r, hr, trid', htrid', he ▸ htaken⟩)
  · obtain ⟨r, hr, m₀, hm₀, -, -, he, hx⟩ := h.carried _ _ hsent (carries_answer r' _)
    exact .inr (.inr ⟨r, hr, hx ▸ hsent⟩)

theorem congr (h : Serves rs db db' out C) (hC : C ↔ C') : Serves rs db db' out C' :=
  ⟨h.sane, h.kept, h.rows, h.carried, h.fate.trans hC⟩

/-- A request that takes nothing loses nothing. -/
theorem nothing (hs : Database.Sane db) (hout : ∀ d, ∀ x ∈ out, ¬ Carries d x) : Serves rs db db out True := by
  refine ⟨hs, fun m hm _ => hm, fun m hm => .inl hm, fun d x hx h => absurd h (hout d x hx), ?_⟩
  exact iff_true_intro fun m hm _ => .inl hm

/-- A message that is taken without a transaction must be handed out. -/
theorem taking {r : Message.DequeueRequest} {row : MessageRow} (hs : Database.Sane db) (hs' : Database.Sane db')
    (hrow : row ∈ db.messages) (hstate : row.state = .enqueued)
    (hm : db'.messages = db.messages.filterMap (Database.taken r.trid row.id))
    (hout : ∀ d, ∀ x ∈ out, Carries d x → d = Database.reply row ∧ x = answer r [d]) :
    Serves [r] db db' out (r.trid = none → answer r [Database.reply row] ∈ out) := by
  have hmem : ∀ {m'}, m' ∈ db'.messages ↔ ∃ m ∈ db.messages, Database.taken r.trid row.id m = some m' := by
    intro m'
    rw [hm, List.mem_filterMap]
  have hother : ∀ {m}, m.id ≠ row.id → Database.taken r.trid row.id m = some m := fun h => if_neg h
  have htaken : ∀ {trid}, r.trid = some trid → Database.taken r.trid row.id row = some (row.takenBy trid) := by
    rintro trid htrid
    unfold Database.taken
    rw [if_pos rfl, htrid]
    rfl
  have hgone : row ∉ db'.messages := by
    intro h
    obtain ⟨m, hmdb, he⟩ := hmem.1 h
    by_cases hid : m.id = row.id
    · unfold Database.taken at he
      rw [if_pos hid] at he
      obtain ⟨trid, -, rfl⟩ := Option.map_eq_some_iff.1 he
      cases hstate
    · rw [hother hid] at he
      exact hid (congrArg MessageRow.id (Option.some.inj he))
  constructor
  · exact hs'
  · intro m hmdb hne
    refine hmem.2 ⟨m, hmdb, hother fun hid => hne ?_⟩
    rw [eq_of_id hs hmdb hrow hid]
    exact hstate
  · intro m' hm'
    obtain ⟨m, hmdb, he⟩ := hmem.1 hm'
    by_cases hid : m.id = row.id
    · obtain rfl := eq_of_id hs hmdb hrow hid
      unfold Database.taken at he
      rw [if_pos rfl] at he
      obtain ⟨trid, htrid, rfl⟩ := Option.map_eq_some_iff.1 he
      exact .inr ⟨r, List.mem_singleton_self r, trid, htrid, m, hmdb, hstate, rfl⟩
    · rw [hother hid] at he
      exact .inl (Option.some.inj he ▸ hmdb)
  · intro d x hx hcarries
    obtain ⟨hd, hanswer⟩ := hout d x hx hcarries
    exact ⟨r, List.mem_singleton_self r, row, hrow, hstate, hgone, hd, hanswer⟩
  constructor
  · intro h hnone
    rcases h row hrow hstate with hin | ⟨r', hr', trid, htrid, -⟩ | ⟨r', hr', hsent⟩
    · exact absurd hin hgone
    · rw [List.mem_singleton.1 hr', hnone] at htrid
      cases htrid
    · exact List.mem_singleton.1 hr' ▸ hsent
  · intro h m hmdb _
    by_cases hid : m.id = row.id
    · obtain rfl := eq_of_id hs hmdb hrow hid
      cases htrid : r.trid with
      | none => exact .inr (.inr ⟨r, List.mem_singleton_self r, h htrid⟩)
      | some trid =>
        exact .inr (.inl ⟨r, List.mem_singleton_self r, trid, htrid, hmem.2 ⟨m, hmdb, htaken htrid⟩⟩)
    · exact .inl (hmem.2 ⟨m, hmdb, hother hid⟩)

/-- One after the other. -/
theorem trans (hs : Database.Sane db) (h : Serves rs db db' out C) (h' : Serves rs' db' db'' out' C') :
    Serves (rs ++ rs') db db'' (out ++ out') (C ∧ C') := by
  -- a message that can be dequeued in between could be dequeued before
  have hbefore : ∀ m ∈ db'.messages, m.state = .enqueued → m ∈ db.messages := by
    intro m hm hstate
    rcases h.rows m hm with hm | ⟨-, -, trid, -, m₀, -, -, rfl⟩
    · exact hm
    · cases hstate
  constructor
  · exact h'.sane
  · exact fun m hm hne => h'.kept m (h.kept m hm hne) hne
  · intro m' hm'
    rcases h'.rows m' hm' with hm' | ⟨r, hr, trid, htrid, m, hm, hstate, rfl⟩
    · rcases h.rows m' hm' with hm' | ⟨r, hr, trid, htrid, m, hm, hstate, rfl⟩
      · exact .inl hm'
      · exact .inr ⟨r, List.mem_append_left _ hr, trid, htrid, m, hm, hstate, rfl⟩
    · exact .inr ⟨r, List.mem_append_right _ hr, trid, htrid, m, hbefore m hm hstate, hstate, rfl⟩
  · intro d x hx hcarries
    rcases List.mem_append.1 hx with hx | hx
    · obtain ⟨r, hr, m, hm, hstate, hgone, hd, hanswer⟩ := h.carried d x hx hcarries
      refine ⟨r, List.mem_append_left _ hr, m, hm, hstate, fun hin => ?_, hd, hanswer⟩
      rcases h'.rows m hin with hin | ⟨-, -, trid, -, m₀, -, -, rfl⟩
      · exact hgone hin
      · cases hstate
    · obtain ⟨r, hr, m, hm, hstate, hgone, hd, hanswer⟩ := h'.carried d x hx hcarries
      exact ⟨r, List.mem_append_right _ hr, m, hbefore m hm hstate, hstate, hgone, hd, hanswer⟩
  rw [← h.fate, ← h'.fate]
  constructor
  · intro hall
    constructor
    · intro m hm hstate
      rcases hall m hm hstate with hin | ⟨r, hr, trid, htrid, htaken⟩ | ⟨r, -, hsent⟩
      · rcases h'.rows m hin with hin | ⟨-, -, trid, -, m₀, -, -, rfl⟩
        · exact .inl hin
        · cases hstate
      · rcases h'.rows _ htaken with hin | ⟨-, -, trid', -, m₀, hm₀, hstate₀, he⟩
        · have hfate : Fate (rs ++ rs') db' out m := .inr (.inl ⟨r, hr, trid, htrid, hin⟩)
          exact h.fate_of hs hm hstate hfate
        · have hid : m.id = m₀.id := by have := congrArg MessageRow.id he; exact this
          exact .inl (eq_of_id hs hm (hbefore m₀ hm₀ hstate₀) hid ▸ hm₀)
      · rcases List.mem_append.1 hsent with hsent | hsent
        · have hfate : Fate [r] db' out m := .inr (.inr ⟨r, List.mem_singleton_self r, hsent⟩)
          exact h.fate_of hs hm hstate hfate
        · obtain ⟨-, -, m₀, hm₀, hstate₀, -, hd, -⟩ := h'.carried _ _ hsent (carries_answer r _)
          have hid : m.id = m₀.id := by have := congrArg Message.Dequeued.id hd; exact this
          exact .inl (eq_of_id hs hm (hbefore m₀ hm₀ hstate₀) hid ▸ hm₀)
    · intro m hm hstate
      rcases hall m (hbefore m hm hstate) hstate with hin | ⟨r, hr, trid, htrid, htaken⟩ | ⟨r, -, hsent⟩
      · exact .inl hin
      · have hfate : Fate (rs ++ rs') db'' out' m := .inr (.inl ⟨r, hr, trid, htrid, htaken⟩)
        exact h'.fate_of h.sane hm hstate hfate
      · rcases List.mem_append.1 hsent with hsent | hsent
        · obtain ⟨-, -, m₀, hm₀, -, hgone, hd, -⟩ := h.carried _ _ hsent (carries_answer r _)
          have hid : m.id = m₀.id := by have := congrArg Message.Dequeued.id hd; exact this
          exact absurd (eq_of_id hs (hbefore m hm hstate) hm₀ hid ▸ hm) hgone
        · have hfate : Fate [r] db'' out' m := .inr (.inr ⟨r, List.mem_singleton_self r, hsent⟩)
          exact h'.fate_of h.sane hm hstate hfate
  · rintro ⟨hfirst, hsecond⟩ m hm hstate
    rcases hfirst m hm hstate with hin | ⟨r, hr, trid, htrid, htaken⟩ | ⟨r, hr, hsent⟩
    · exact (hsecond m hin hstate).mono (List.subset_append_right _ _) (List.subset_append_right _ _)
    · refine .inr (.inl ⟨r, List.mem_append_left _ hr, trid, htrid, h'.kept _ htaken ?_⟩)
      exact fun h => by cases h
    · exact .inr (.inr ⟨r, List.mem_append_left _ hr, List.mem_append_left _ hsent⟩)

end Serves

/-! ## Requests that are served -/

variable (env : Environment)

/-- The database when the statements of an event have been executed, and before it serves a request. -/
def offered (s : Group) : Event → Database
  | .enqueue message => after (Database.enqueue message (env.make s.readings) (env.clock s.readings) s.queuebase)
  | .commit message => after (Database.commit message.trid s.queuebase)
  | .rollback message => after (Database.rollback message.trid s.queuebase)
  | _ => s.queuebase

/-- No message that can be dequeued is lost when an event is handled. -/
def LosesNothing (s : Group) (e : Event) : Prop :=
  ∀ m ∈ (offered env s e).messages, m.state = .enqueued →
    Fate (e.asked ++ s.pending.requests) (s.step env e).queuebase ((s.step env e).sent.drop s.sent.length) m

/-- What serving a request comes to. -/
structure Outcome where
  database : Database
  readings : Nat
  /-- A reply has been put on its queue. -/
  replied : Bool
  /-- A message has been taken for it without a transaction, and its queue is gone. -/
  lost : Bool

/-- A request is stored, not answered as the queue-broker is gone, or answered. -/
def outcome (r : Message.DequeueRequest) (db : Database) (n : Nat) : Outcome :=
  match Database.dequeue r (env.clock n) db with
  | .error _ db => ⟨db, n + 1, false, false⟩
  | .ok reply db =>
    if r.block && reply.message.isEmpty then ⟨db, n + 1, false, false⟩
    else if !(involvement env r reply.message).isEmpty && env.gone (n + 1) env.broker then ⟨db, n + 2, false, false⟩
    else
      let m := replyReading env r reply.message n
      if env.gone m r.process.queue then ⟨db, m + 1, false, !reply.message.isEmpty && r.trid.isNone⟩
      else ⟨db, m + 1, true, false⟩

/-- Of the requests that are woken, each one that takes a message without a transaction has its queue there. -/
def delivered : List Message.DequeueRequest → (Nat → Nat) → Database → Nat → Bool
  | [], _, _, _ => true
  | r :: rest, enqueued, db, n =>
    if enqueued r.queue = 0 then delivered rest enqueued db n
    else
      let o := outcome env r db n
      !o.lost && delivered rest
        (if o.replied then Function.update enqueued r.queue (enqueued r.queue - 1) else enqueued) o.database o.readings

/-- The queues of those that are handed a message without a transaction are there. -/
def delivers (s : Group) : Event → Bool
  | .enqueue message =>
    message.trid.isSome ||
      match Database.enqueue message (env.make s.readings) (env.clock s.readings) s.queuebase with
      | .ok _ db =>
        let woken := ((s.pending.enqueue none message.queue).commit none).1
        delivered env woken.requests woken.enqueued db (s.readings + 1)
      | .error _ _ => true
  | .dequeue r =>
    r.trid.isSome || (Database.select r (env.clock s.readings) s.queuebase).isNone ||
      !env.gone (s.readings + 1) r.process.queue
  | .commit message =>
    match Database.commit message.trid s.queuebase with
    | .ok _ db =>
      let woken := (s.pending.commit (some message.trid.xid)).1
      delivered env woken.requests woken.enqueued db s.readings
    | .error _ _ => true
  | _ => true

variable {env}

section Answered

variable {r : Message.DequeueRequest} {s : Group}

theorem not_carries_involvement (message : List Message.Dequeued) (d : Message.Dequeued) :
    ∀ x ∈ involvement env r message, ¬ Carries d x := by
  rintro x hx ⟨queue, correlation, rfl⟩
  unfold involvement at hx
  split_ifs at hx
  · cases List.mem_singleton.1 hx
  · cases hx

theorem not_carries_nil (d : Message.Dequeued) : ¬ Carries d (answer r []) := by
  rintro ⟨queue, correlation, h⟩
  cases h

/-- A message that is taken within a transaction stays, whatever is sent. -/
theorem involved_serves {message : List Message.Dequeued} (hs : Database.Sane s.queuebase)
    (hdequeue : Database.dequeue r (env.clock s.readings) s.queuebase = .ok ⟨0, message⟩ db)
    (hinvolvement : involvement env r message ≠ []) : Serves [r] s.queuebase db [] True := by
  rcases Database.dequeue_spec hs r (env.clock s.readings) with ⟨-, he⟩ | ⟨row, db', hselect, he, hsane, -, hm⟩
  · rw [hdequeue] at he
    cases he
    exact absurd rfl hinvolvement
  · rw [hdequeue] at he
    cases he
    obtain ⟨hrow, -, hstate, -⟩ := Database.select_some hselect
    refine (Serves.taking hs hsane hrow hstate hm fun _ _ hx => absurd hx List.not_mem_nil).congr (iff_of_true ?_ trivial)
    intro htrid
    exact absurd (by simp [involvement, htrid]) hinvolvement

/-- A request that has been answered, or could not be as its queue is gone. -/
theorem answered_serves {message : List Message.Dequeued} (hs : Database.Sane s.queuebase)
    (hdequeue : Database.dequeue r (env.clock s.readings) s.queuebase = .ok ⟨0, message⟩ db) :
    Serves [r] s.queuebase db
      (involvement env r message ++
        if env.gone (replyReading env r message s.readings) r.process.queue then [] else [answer r message])
      (env.gone (replyReading env r message s.readings) r.process.queue = true →
        (message.isEmpty || r.trid.isSome) = true) := by
  rcases Database.dequeue_spec hs r (env.clock s.readings) with ⟨-, he⟩ | ⟨row, db', hselect, he, hsane, -, hm⟩
  · rw [hdequeue] at he
    cases he
    refine (Serves.nothing hs ?_).congr (iff_of_true trivial fun _ => rfl)
    rintro d x hx
    rcases List.mem_append.1 hx with hx | hx
    · exact not_carries_involvement _ d x hx
    · split_ifs at hx
      · cases hx
      · exact List.mem_singleton.1 hx ▸ not_carries_nil d
  · rw [hdequeue] at he
    cases he
    obtain ⟨hrow, -, hstate, -⟩ := Database.select_some hselect
    refine (Serves.taking hs hsane hrow hstate hm ?_).congr ?_
    · rintro d x hx hcarries
      rcases List.mem_append.1 hx with hx | hx
      · exact absurd hcarries (not_carries_involvement _ d x hx)
      · split_ifs at hx
        · cases hx
        · rw [List.mem_singleton.1 hx] at hcarries ⊢
          obtain ⟨queue, correlation, h⟩ := hcarries
          cases h
          exact ⟨rfl, rfl⟩
    · cases htrid : r.trid with
      | some trid => simp
      | none =>
        have hinvolvement : involvement env r [Database.reply row] = [] := by simp [involvement, htrid]
        rw [hinvolvement]
        cases env.gone (replyReading env r [Database.reply row] s.readings) r.process.queue <;> simp

/-- What serving a request comes to, and what it sends. -/
theorem dequeueRequest_outcome (hs : Database.Sane s.queuebase) :
    ∃ u out, u.queuebase = (outcome env r s.queuebase s.readings).database ∧
      u.readings = (outcome env r s.queuebase s.readings).readings ∧ u.sent = s.sent ++ out ∧
      Serves [r] s.queuebase u.queuebase out ((outcome env r s.queuebase s.readings).lost = false) ∧
      ((outcome env r s.queuebase s.readings).replied = true ∧ dequeueRequest env r s = .ok true u ∨
        (outcome env r s.queuebase s.readings).replied = false ∧
          (dequeueRequest env r s = .ok false u ∨ dequeueRequest env r s = .error .unavailable u)) := by
  obtain ⟨message, db, hdequeue⟩ : ∃ message db, Database.dequeue r (env.clock s.readings) s.queuebase = .ok ⟨0, message⟩ db := by
    rcases Database.dequeue_spec hs r (env.clock s.readings) with ⟨-, h⟩ | ⟨row, db, -, h, -⟩
    · exact ⟨_, _, h⟩
    · exact ⟨_, _, h⟩
  unfold outcome
  simp only [hdequeue]
  by_cases hstored : (r.block && message.isEmpty) = true
  · rw [if_pos hstored]
    obtain ⟨hblock, hempty⟩ := Bool.and_eq_true _ _ ▸ hstored
    obtain rfl := List.isEmpty_iff.1 hempty
    obtain rfl : db = s.queuebase := by
      rcases Database.dequeue_spec hs r (env.clock s.readings) with ⟨-, h⟩ | ⟨row, db', -, h, -⟩
      · rw [hdequeue] at h; cases h; rfl
      · rw [hdequeue] at h; cases h
    refine ⟨{ s with readings := s.readings + 1, pending := s.pending.dequeue r }, [], rfl, rfl, (List.append_nil _).symm,
      ?_, .inr ⟨rfl, .inl (dequeueRequest_stored hblock hdequeue)⟩⟩
    exact (Serves.nothing hs fun _ _ hx => absurd hx List.not_mem_nil).congr (iff_of_true trivial rfl)
  rw [if_neg hstored]
  by_cases hbrokerless : (!(involvement env r message).isEmpty && env.gone (s.readings + 1) env.broker) = true
  · rw [if_pos hbrokerless]
    obtain ⟨hinvolved, hbroker⟩ := Bool.and_eq_true _ _ ▸ hbrokerless
    have hinvolvement : involvement env r message ≠ [] := by simpa using hinvolved
    refine ⟨{ s with queuebase := db, readings := s.readings + 2, refused := s.refused ++ involvement env r message },
      [], rfl, rfl, (List.append_nil _).symm, ?_,
      .inr ⟨rfl, .inr (dequeueRequest_brokerless hdequeue hinvolvement hbroker)⟩⟩
    exact (involved_serves hs hdequeue hinvolvement).congr (iff_of_true trivial rfl)
  rw [if_neg hbrokerless]
  have hrequest := @dequeueRequest_answered env r s message db
    (fun h => by simpa [h] using hstored) hdequeue fun h => by simpa [h] using hbrokerless
  have hserves := answered_serves hs hdequeue
  cases hgone : env.gone (replyReading env r message s.readings) r.process.queue with
  | true =>
    rw [if_pos rfl]
    rw [hgone] at hrequest hserves
    refine ⟨_, _, rfl, rfl, ?_, hserves.congr ?_, .inr ⟨rfl, .inr hrequest⟩⟩
    · simp [answered, hgone]
    · cases message <;> cases r.trid <;> simp
  | false =>
    rw [if_neg (by simp)]
    rw [hgone] at hrequest hserves
    refine ⟨_, _, rfl, rfl, ?_, hserves.congr ?_, .inl ⟨rfl, hrequest⟩⟩
    · simp [answered, hgone]
    · simp

end Answered

/-- A request loses a message that it takes without a transaction, when its queue is gone. -/
theorem outcome_lost {r : Message.DequeueRequest} {s : Group} (hs : Database.Sane s.queuebase) :
    (outcome env r s.queuebase s.readings).lost = false ↔
      (r.trid.isSome || (Database.select r (env.clock s.readings) s.queuebase).isNone ||
        !env.gone (s.readings + 1) r.process.queue) = true := by
  unfold outcome
  rcases Database.dequeue_spec hs r (env.clock s.readings) with ⟨hselect, h⟩ | ⟨row, db, hselect, h, -⟩
  · rw [h, hselect]
    simp only [List.isEmpty_nil, Bool.and_true, Option.isNone_none, Bool.or_true, Bool.true_or, iff_true]
    split_ifs <;> rfl
  · rw [h, hselect]
    cases htrid : r.trid with
    | some trid =>
      simp only [List.isEmpty_cons, Bool.and_false, Option.isSome_some, Bool.true_or, iff_true]
      split_ifs <;> rfl
    | none =>
      have hinvolvement : involvement env r [Database.reply row] = [] := by simp [involvement, htrid]
      have hreading : replyReading env r [Database.reply row] s.readings = s.readings + 1 := by
        simp [replyReading, hinvolvement]
      simp only [hinvolvement, hreading]
      cases env.gone (s.readings + 1) r.process.queue <;> simp

/-- The requests that are woken, one after the other. -/
theorem wake_serves : ∀ (rs : List Message.DequeueRequest) (enqueued : Nat → Nat) (s : Group),
    Database.Sane s.queuebase → ∃ t out, wake env rs enqueued s = .ok () t ∧ t.sent = s.sent ++ out ∧
      Serves rs s.queuebase t.queuebase out (delivered env rs enqueued s.queuebase s.readings = true)
  | [], _, s, hs => by
    refine ⟨s, [], rfl, (List.append_nil _).symm, ?_⟩
    exact (Serves.nothing hs fun _ _ hx => absurd hx List.not_mem_nil).congr (iff_of_true trivial rfl)
  | r :: rest, enqueued, s, hs => by
    unfold delivered
    by_cases hspent : enqueued r.queue = 0
    · rw [if_pos hspent, wake_spent hspent]
      obtain ⟨t, out, ht, hsent, hserves⟩ := wake_serves rest enqueued s hs
      refine ⟨t, out, ht, hsent, ?_⟩
      have hnothing : Serves [r] s.queuebase s.queuebase [] True := .nothing hs fun _ _ hx => absurd hx List.not_mem_nil
      exact (hnothing.trans hs hserves).congr (and_iff_right trivial)
    rw [if_neg hspent]
    have hleft : enqueued r.queue > 0 := Nat.pos_of_ne_zero hspent
    obtain ⟨u, out, hdb, hreadings, hsent, hserves, hresult⟩ := @dequeueRequest_outcome env r s hs
    -- the rest is served from what this request leaves
    obtain ⟨u', hdb', hreadings', hsent', hwake⟩ : ∃ u' : Group, u'.queuebase = u.queuebase ∧ u'.readings = u.readings ∧
        u'.sent = u.sent ∧ wake env (r :: rest) enqueued s = wake env rest
          (if (outcome env r s.queuebase s.readings).replied then
            Function.update enqueued r.queue (enqueued r.queue - 1) else enqueued) u' := by
      rcases hresult with ⟨hreplied, h⟩ | ⟨hreplied, h | h⟩
      · rw [hreplied]
        exact ⟨u, rfl, rfl, rfl, wake_answered hleft h⟩
      · rw [hreplied]
        exact ⟨{ u with pending := u.pending.dequeue r }, rfl, rfl, rfl, wake_stored hleft h⟩
      · rw [hreplied]
        exact ⟨u, rfl, rfl, rfl, wake_unavailable hleft h⟩
    obtain ⟨t, out', ht, hsent'', hrest⟩ := wake_serves rest _ u' (hdb' ▸ hserves.sane)
    rw [hdb', hreadings', hdb, hreadings] at hrest
    refine ⟨t, out ++ out', hwake.trans ht, ?_, ?_⟩
    · rw [hsent'', hsent', hsent, List.append_assoc]
    · refine ((hdb ▸ hserves).trans hs hrest).congr ?_
      simp

/-! ## Events -/

section Events

variable {s t : Group} {e : Event}

/-- An event is handled: the queuebase is sane, and nothing is lost exactly if its messages are delivered. -/
structure Delivers (env : Environment) (s : Group) (e : Event) : Prop where
  sane : Database.Sane (s.step env e).queuebase
  losesNothing : LosesNothing env s e ↔ delivers env s e = true

/-- An event that serves no request loses nothing. -/
theorem Delivers.of_unserved (ht : (after (handle env e s)).queuebase = offered env s e)
    (hs : Database.Sane (offered env s e)) (hdelivers : delivers env s e = true) : Delivers env s e := by
  obtain ⟨hbase, -⟩ := @step_fields env s e
  rw [ht] at hbase
  exact ⟨hbase ▸ hs, iff_of_true (fun m hm _ => .inl (hbase ▸ hm)) hdelivers⟩

/-- What is lost is what the requests that are served lose. -/
theorem Delivers.of_served (ht : after (handle env e s) = t) (hsent : t.sent = s.sent ++ out)
    (hs : Database.Sane (offered env s e)) (h : Serves rs (offered env s e) t.queuebase out (delivers env s e = true))
    (hrs : rs ⊆ e.asked ++ s.pending.requests) : Delivers env s e := by
  obtain ⟨hbase, -, -, hstep, -⟩ := @step_fields env s e
  rw [ht] at hbase hstep
  refine ⟨hbase ▸ h.sane, ?_⟩
  unfold LosesNothing
  rw [hbase, hstep, hsent, List.drop_left, ← h.fate]
  constructor
  · exact fun hall m hm hstate => h.fate_of hs hm hstate (hall m hm hstate)
  · exact fun hall m hm hstate => (hall m hm hstate).mono hrs (List.Subset.refl _)

/-- Those a commit wakes were waiting. -/
theorem woken_subset (p : Pending) (trid : Option Transaction.XID) : (p.commit trid).1.requests ⊆ p.requests :=
  fun _ hr => (Pending.mem_commit_fst.1 hr).1

theorem delivers_of_sane (hs : Database.Sane s.queuebase) (e : Event) : Delivers env s e := by
  cases e with
  | dead pid => exact .of_unserved rfl hs rfl
  | forget message => exact .of_unserved (forgetRequest_quiet message s).queuebase hs rfl
  | rollback message =>
    obtain ⟨db, he, hsane, -⟩ := Database.rollback_spec hs message.trid
    have hoffered : offered env s (.rollback message) = db := congrArg after he
    refine .of_unserved ?_ (hoffered.symm ▸ hsane) rfl
    show (after (rollbackRequest message s)).queuebase = _
    rw [rollbackRequest_eq he, hoffered]
    rfl
  | persist =>
    obtain ⟨left, out, n, he, -⟩ := @persistStep_spec env s
    refine .of_unserved ?_ hs rfl
    show (after (persistStep env s)).queuebase = s.queuebase
    rw [he]
    rfl
  | dequeue r =>
    obtain ⟨u, out, -, -, hsent, hserves, hresult⟩ := @dequeueRequest_outcome env r s hs
    have hafter : after (handle env (.dequeue r) s) = u := by
      rcases hresult with ⟨-, h⟩ | ⟨-, h | h⟩
      · exact congrArg after (handle_dequeue h)
      · exact congrArg after (handle_dequeue h)
      · exact congrArg after (handle_dequeue_error h)
    exact .of_served hafter hsent hs (hserves.congr (outcome_lost hs)) (List.subset_append_left _ _)
  | enqueue message =>
    rcases @enqueueRequest_cases env _ hs message with ⟨hfails, he⟩ | ⟨reply, db, hdb, hsane, -, hnone, hsome⟩
    · have hoffered : offered env s (.enqueue message) = s.queuebase := congrArg after hfails
      refine .of_unserved ?_ (hoffered.symm ▸ hs) (by simp [delivers, hfails])
      show (after (enqueueRequest env message s)).queuebase = _
      rw [he, hoffered]
      rfl
    have hoffered : offered env s (.enqueue message) = db := congrArg after hdb
    cases htrid : message.trid with
    | some trid =>
      refine .of_unserved ?_ (hoffered.symm ▸ hsane) (by simp [delivers, htrid])
      exact (hsome trid htrid).queuebase.trans hoffered.symm
    | none =>
      obtain ⟨t, out, ht, hsent, hserves⟩ := @wake_serves env
        ((s.pending.enqueue none message.queue).commit none).1.requests
        ((s.pending.enqueue none message.queue).commit none).1.enqueued
        { s with
          queuebase := db
          readings := s.readings + 1
          pending := ((s.pending.enqueue none message.queue).commit none).2
          persistent := s.persistent ++ [(message.process.queue, .enqueue message.correlation reply)] } hsane
      have hwoken : ((s.pending.enqueue none message.queue).commit none).1.requests ⊆ s.pending.requests :=
        fun r hr => by simpa using woken_subset _ none hr
      have hafter : after (handle env (.enqueue message) s) = t := congrArg after (hnone htrid t ht)
      refine .of_served hafter hsent (hoffered.symm ▸ hsane) ?_ (List.subset_append_of_subset_right _ hwoken)
      rw [hoffered]
      refine hserves.congr ?_
      simp only [delivers, htrid, hdb, Option.isSome_none, Bool.false_or]
  | commit message =>
    rcases @commitRequest_cases env _ hs message with ⟨hfails, he⟩ | ⟨db, hdb, hsane, -, hreplies⟩
    · have hoffered : offered env s (.commit message) = s.queuebase := congrArg after hfails
      refine .of_unserved ?_ (hoffered.symm ▸ hs) (by simp [delivers, hfails])
      show (after (commitRequest env message s)).queuebase = _
      rw [he, hoffered]
      rfl
    have hoffered : offered env s (.commit message) = db := congrArg after hdb
    obtain ⟨t, out, ht, hsent, hserves⟩ := @wake_serves env
      (s.pending.commit (some message.trid.xid)).1.requests (s.pending.commit (some message.trid.xid)).1.enqueued
      { s with queuebase := db, pending := (s.pending.commit (some message.trid.xid)).2 } hsane
    have hwoken := woken_subset s.pending (some message.trid.xid)
    have hafter : after (handle env (.commit message) s) = _ := congrArg after (hreplies t ht)
    refine .of_served hafter hsent (hoffered.symm ▸ hsane) ?_ (List.subset_append_of_subset_right _ hwoken)
    rw [hoffered]
    refine hserves.congr ?_
    simp only [delivers, hdb]

end Events

/-! ## Runs -/

/-- The runs of a queue group, from when it has opened its queuebase. -/
def serving (env : Environment) : Machine Group Event where
  init s := ∃ db, Casual.Queue.queuebase.Reachable db ∧ s = start db
  admits s _ := s.running = true
  step := step env

theorem sane_of_reachable {s : Group} (h : (serving env).Reachable s) : Database.Sane s.queuebase := by
  apply h.invariant (I := fun s => Database.Sane s.queuebase)
  · rintro s ⟨db, hdb, rfl⟩
    exact (Database.opened_of_reachable hdb).toSane
  · intro t e ht _
    exact (delivers_of_sane ht e).sane

/-- In every run, an event loses no message that can be dequeued exactly if the queues of those it is handed
to without a transaction are there. -/
theorem losesNothing_iff_of_reachable {s : Group} (h : (serving env).Reachable s) (e : Event) :
    LosesNothing env s e ↔ delivers env s e = true :=
  (delivers_of_sane (sane_of_reachable h) e).losesNothing

/-! ### A receiver that is gone -/

/-- The queue of a receiver is gone, all others are there. -/
def withoutReceiver : Environment := { someEnvironment with gone := fun _ queue => queue == 1 }

/-- A group with a queue and no messages. -/
def emptyGroup : Group := start ([Call.create "a" 0 1].foldl Database.call (Database.«open» "g" 0))

/-- A group with a message in its queue. -/
def filledGroup : Group := emptyGroup.step withoutReceiver (.enqueue (someMessage none))

theorem filledGroup_reachable : (serving withoutReceiver).Reachable filledGroup := by
  have hinit : (serving withoutReceiver).init emptyGroup := ⟨_, Database.reachable_calls _ (.of_init ⟨"g", 0, rfl⟩), rfl⟩
  exact Machine.Reachable.step (e := .enqueue (someMessage none)) (.of_init hinit) rfl

/-- A receiver that is there gets the message. -/
theorem filledGroup_losesNothing : LosesNothing withoutReceiver filledGroup (.dequeue (waiter 2)) :=
  (losesNothing_iff_of_reachable filledGroup_reachable _).2 (by decide +kernel)

/-- The message is lost with a receiver that is gone. -/
theorem filledGroup_losesMessage : (serving withoutReceiver).Reachable filledGroup ∧
    ¬ LosesNothing withoutReceiver filledGroup (.dequeue (waiter 1)) := by
  have hsane := sane_of_reachable filledGroup_reachable
  have hdelivers : delivers withoutReceiver filledGroup (.dequeue (waiter 1)) = false := by decide +kernel
  refine ⟨filledGroup_reachable, fun h => ?_⟩
  rw [(delivers_of_sane hsane _).losesNothing, hdelivers] at h
  cases h

end Group

end Casual.Queue

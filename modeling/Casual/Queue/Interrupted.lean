/-
A blocking dequeue that is interrupted: whose reply a call returns, and what it takes that no message is
handed to a call that has been forgotten.
-/
import Casual.Queue.Caller
import Casual.Queue.Waiting

namespace Casual.Queue

open Casual.Common Casual.Communication Casual.Lib

namespace Group

/-! ## What a group says -/

/-- What is sent to whom dequeues or forgets: an answer to one of these requests. -/
def Owed (rs : List Message.DequeueRequest) (fs : List Message.ForgetRequest) (queue : Nat) : Reply → Prop
  | .dequeue reply => ∃ r ∈ rs, r.process.queue = queue ∧ r.correlation = reply.correlation
  | .forget correlation _ => ∃ f ∈ fs, f.process.queue = queue ∧ f.correlation = correlation
  | _ => True

/-- What is sent and kept is owed, and whoever waits is one of these. -/
structure Said (rs : List Message.DequeueRequest) (fs : List Message.ForgetRequest) (s t : Group) : Prop where
  sent : s.sent <+: t.sent
  owed : ∀ x ∈ t.sent ++ t.persistent, x ∈ s.sent ++ s.persistent ∨ Owed rs fs x.1 x.2
  pending : t.pending.requests ⊆ rs

/-- A program that owes nothing but to these, when none but these wait. -/
def Says (rs : List Message.DequeueRequest) (fs : List Message.ForgetRequest) (s t : Group) : Prop :=
  s.pending.requests ⊆ rs → Said rs fs s t

variable {env : Environment} {rs : List Message.DequeueRequest} {fs : List Message.ForgetRequest} {s t : Group}

theorem Says.of_same (hsent : t.sent = s.sent) (hpersistent : t.persistent = s.persistent)
    (hpending : s.pending.requests ⊆ rs → t.pending.requests ⊆ rs) : Says rs fs s t := by
  intro hrs
  refine ⟨hsent ▸ List.prefix_refl _, ?_, hpending hrs⟩
  rw [hsent, hpersistent]
  exact fun x => .inl

instance : Std.Refl (Says rs fs) := ⟨fun _ => .of_same rfl rfl id⟩

instance : IsTrans Group (Says rs fs) := by
  constructor
  rintro s t u hst htu hrs
  obtain ⟨hsent, howed, hpending⟩ := hst hrs
  obtain ⟨hsent', howed', hpending'⟩ := htu hpending
  refine ⟨hsent.trans hsent', ?_, hpending'⟩
  rintro x hx
  rcases howed' x hx with hx | hx
  · exact howed x hx
  · exact .inr hx

theorem says_reading : Moves (Says rs fs) reading := ⟨fun _ => .of_same rfl rfl id⟩

theorem says_base {α : Type} (x : EStateM Exception Database α) : Moves (Says rs fs) (base x) := by
  constructor
  intro s
  unfold base
  cases x s.queuebase <;> exact .of_same rfl rfl id

theorem says_send {queue : Nat} {reply : Reply} (h : Owed rs fs queue reply) : Moves (Says rs fs) (send env queue reply) := by
  constructor
  intro s
  unfold send
  split_ifs
  · exact .of_same rfl rfl id
  · refine fun hrs => ⟨List.prefix_append _ _, ?_, hrs⟩
    rintro x hx
    simp only [after_ok, List.mem_append, List.mem_singleton] at hx ⊢
    rcases hx with (hx | rfl) | hx
    · exact .inl (.inl hx)
    · exact .inr h
    · exact .inl (.inr hx)

theorem says_persist {queue : Nat} {reply : Reply} (h : Owed rs fs queue reply) : Moves (Says rs fs) (persist queue reply) := by
  constructor
  refine fun s hrs => ⟨List.prefix_refl _, ?_, hrs⟩
  rintro x hx
  simp only [persist, after_ok, List.mem_append, List.mem_singleton] at hx ⊢
  rcases hx with hx | hx | rfl
  · exact .inl (.inl hx)
  · exact .inl (.inr hx)
  · exact .inr h

theorem says_setPending {f : Pending → Pending} (h : ∀ p : Pending, p.requests ⊆ rs → (f p).requests ⊆ rs) :
    Moves (Says rs fs) (setPending f) :=
  ⟨fun s => .of_same rfl rfl (h s.pending)⟩

theorem says_store {r : Message.DequeueRequest} (hr : r ∈ rs) : Moves (Says rs fs) (setPending fun p => p.dequeue r) := by
  apply says_setPending
  rintro p hp r' hr'
  rw [Pending.dequeue_requests] at hr'
  rcases List.mem_append.1 hr' with h | h
  · exact hp h
  · split_ifs at h
    · exact List.mem_singleton.1 h ▸ hr
    · cases h

theorem says_catchQuery {α : Type} {x : M α} (h : Moves (Says rs fs) x) (a : α) : Moves (Says rs fs) (catchQuery x a) := by
  refine .tryCatch h fun e => ?_
  cases e with
  | query => exact .pure _
  | unavailable => exact .throw _

theorem says_dequeueRequest {r : Message.DequeueRequest} (hr : r ∈ rs) : Moves (Says rs fs) (dequeueRequest env r) := by
  refine says_catchQuery (.bind says_reading fun n => .bind (says_base _) fun reply => ?_) _
  refine .ite (.bind (says_store hr) fun _ => .pure _) ?_
  have hsend : Moves (Says rs fs) (send env r.process.queue (.dequeue { reply with correlation := r.correlation })) :=
    says_send ⟨r, hr, rfl, rfl⟩
  have hinvolved : Moves (Says rs fs) (involved env r.trid) := says_send trivial
  exact .ite (.bind hinvolved fun _ => .bind hsend fun _ => .pure _) (.bind hsend fun _ => .pure _)

theorem says_wake : ∀ {woken : List Message.DequeueRequest} (enqueued : Nat → Nat), woken ⊆ rs →
    Moves (Says rs fs) (wake env woken enqueued)
  | [], _, _ => .pure _
  | r :: rest, enqueued, h => by
    have hr : r ∈ rs := h List.mem_cons_self
    unfold wake
    refine .bind (.tryCatch (.ite (.bind (says_dequeueRequest hr) fun b => ?_) (.pure _)) fun e => ?_)
      fun _ => says_wake _ fun r hr => h (List.mem_cons_of_mem _ hr)
    · exact .ite (.pure _) (.bind (says_store hr) fun _ => .pure _)
    · cases e with
      | query => exact .throw _
      | unavailable => exact .pure _

theorem says_replies (trid : Option Transaction.XID) : Moves (Says rs fs) (replies env trid) := by
  constructor
  intro s hrs
  have hwoken : (s.pending.commit trid).1.requests ⊆ rs := fun r hr => hrs (Pending.mem_commit_fst.1 hr).1
  have hstart : Says rs fs s { s with pending := (s.pending.commit trid).2 } :=
    .of_same rfl rfl fun _ r hr => hrs (Pending.mem_commit_snd.1 hr).1
  exact IsTrans.trans _ _ _ hstart ((says_wake _ hwoken).after _) hrs

theorem says_enqueueRequest (message : Message.EnqueueRequest) : Moves (Says rs fs) (enqueueRequest env message) := by
  refine says_catchQuery (.bind says_reading fun n => .bind (says_base _) fun reply => .bind ?_ fun _ => .ite ?_ ?_) _
  · exact says_setPending fun p hp => (Pending.enqueue_requests p _ _).symm ▸ hp
  · exact .bind (says_send trivial) fun _ => says_send trivial
  · exact .bind (says_persist trivial) fun _ => says_replies _

theorem says_commitRequest (message : Message.TransactionRequest) : Moves (Says rs fs) (commitRequest env message) := by
  refine .bind (.tryCatch (.bind (says_base _) fun _ => ?_) fun _ => .pure _) fun _ => says_persist trivial
  exact .bind (says_replies _) fun _ => .pure _

theorem says_rollbackRequest (message : Message.TransactionRequest) : Moves (Says rs fs) (rollbackRequest message) := by
  refine .bind (.tryCatch (.bind (says_base _) fun _ => ?_) fun _ => .pure _) fun _ => says_persist trivial
  exact .bind (says_setPending fun _ hp => hp) fun _ => .pure _

theorem mem_of_forget {p : Pending} {message : Message.ForgetRequest} {r : Message.DequeueRequest}
    (h : r ∈ (p.forget message).2.requests) : r ∈ p.requests := by
  unfold Pending.forget at h
  split_ifs at h
  · exact List.mem_of_mem_eraseP h
  · exact h

theorem says_forgetRequest {message : Message.ForgetRequest} (h : message ∈ fs) :
    Moves (Says rs fs) (forgetRequest env message) := by
  refine .tryCatch (.bind ⟨fun s => ?_⟩ fun found => says_send ⟨message, h, rfl, rfl⟩) fun _ => .pure _
  exact .of_same rfl rfl fun hrs r hr => hrs (mem_of_forget hr)

/-- What is kept is sent, or dropped. -/
theorem says_persistStep : Moves (Says rs fs) (persistStep env) := by
  constructor
  intro s hrs
  obtain ⟨left, out, n, h, hleft, hout⟩ := @persistStep_spec env s
  rw [h]
  refine ⟨List.prefix_append _ _, ?_, hrs⟩
  rintro x hx
  simp only [after_ok, List.mem_append] at hx ⊢
  rcases hx with (hx | hx) | hx
  · exact .inl (.inl hx)
  · exact .inl (.inr (hout hx))
  · exact .inl (.inr (hleft hx))

/-- The forget request an event is. -/
def forgetRequests : Event → List Message.ForgetRequest
  | .forget message => [message]
  | _ => []

theorem says_handle {e : Event} (hrs : e.asked ⊆ rs) (hfs : forgetRequests e ⊆ fs) : Moves (Says rs fs) (handle env e) := by
  cases e with
  | enqueue message => exact says_enqueueRequest message
  | dequeue r => exact .bind (says_dequeueRequest (hrs List.mem_cons_self)) fun _ => .pure _
  | commit message => exact says_commitRequest message
  | rollback message => exact says_rollbackRequest message
  | forget message => exact says_forgetRequest (hfs List.mem_cons_self)
  | dead pid => exact says_setPending (f := fun p => p.erase pid) fun p hp r hr => hp (List.mem_filter.1 hr).1
  | persist => exact says_persistStep

/-- A group answers those who wait and who asks now. -/
theorem said_step (s : Group) (e : Event) :
    Said (s.pending.requests ++ e.asked) (forgetRequests e) s (s.step env e) := by
  have h := (@says_handle env _ _ e (List.subset_append_right s.pending.requests e.asked) (List.Subset.refl _)).after s
    (List.subset_append_left _ _)
  obtain ⟨-, hpending, hpersistent, hsent, -⟩ := @step_fields env s e
  exact ⟨hsent ▸ h.sent, hsent ▸ hpersistent ▸ h.owed, hpending ▸ h.pending⟩

end Group

namespace Dequeuing

variable (c : Caller) (env : Environment)

/-! ## The calls of a process -/

/-- A uuid that has been made. -/
def Made (w : Dequeuing) (correlation : Uuid) : Prop := ∃ i < w.made, correlation = c.make i

/-- What the process can have sent. -/
def Known (w : Dequeuing) : Outgoing → Prop
  | .dequeue r => r ∈ w.asked
  | .forget f => Made c w f.correlation

/-- What holds of the calls of a process, whatever happens. -/
structure Calls (w : Dequeuing) : Prop where
  asked : ∀ r ∈ w.asked, r.process = c.process ∧ Made c w r.correlation
  distinct : ∀ r ∈ w.asked, ∀ r' ∈ w.asked, r.correlation = r'.correlation → r = r'
  nodup : w.asked.Nodup
  ended : (w.returned.map (·.1) ++ w.thrown ++ w.phase.current).Perm w.asked
  outgoing : ∀ m ∈ w.outgoing, Known c w m
  waits : ∀ r ∈ w.group.pending.requests, r.process.queue = c.process.queue → r ∈ w.asked
  inbox : ∀ reply ∈ w.inbox, (c.process.queue, reply) ∈ w.group.sent
  own : ∀ x ∈ w.returned, x.2.correlation = x.1.correlation ∧ (c.process.queue, Reply.dequeue x.2) ∈ w.group.sent
  replies : ∀ reply, (c.process.queue, Reply.dequeue reply) ∈ w.group.sent ++ w.group.persistent → Made c w reply.correlation
  forgets : ∀ correlation found, (c.process.queue, Reply.forget correlation found) ∈ w.group.sent ++ w.group.persistent →
    Made c w correlation

variable {c env} {w : Dequeuing}

theorem calls_start (db : Database) : Calls c ⟨Group.start db, .idle, 0, [], [], [], [], []⟩ := by
  constructor
  · exact nofun
  · exact nofun
  · exact .nil
  · exact .nil
  · exact nofun
  · exact fun r hr => absurd hr List.not_mem_nil
  · exact nofun
  · exact nofun
  · exact fun _ hx => absurd hx List.not_mem_nil
  · exact fun _ _ hx => absurd hx List.not_mem_nil

/-- What a group does with a message keeps the calls as they are. -/
theorem Calls.handled (h : Calls c w) {e : Event} (hasked : ∀ r ∈ e.asked, r.process.queue = c.process.queue → r ∈ w.asked)
    (hforgets : ∀ f ∈ Group.forgetRequests e, f.process.queue = c.process.queue → Made c w f.correlation) :
    Calls c (handled c env w e) := by
  have hsaid := @Group.said_step env w.group e
  obtain ⟨out, hout⟩ := hsaid.sent
  refine ⟨h.asked, h.distinct, h.nodup, h.ended, h.outgoing, ?_, ?_, ?_, ?_, ?_⟩
  · intro r hr hqueue
    rcases List.mem_append.1 (hsaid.pending hr) with hr | hr
    · exact h.waits r hr hqueue
    · exact hasked r hr hqueue
  · rintro reply hreply
    rcases List.mem_append.1 hreply with hreply | hreply
    · exact hsaid.sent.subset (h.inbox reply hreply)
    · obtain ⟨⟨queue, reply⟩, hx, rfl⟩ := List.mem_map.1 hreply
      obtain ⟨hx, hqueue⟩ := List.mem_filter.1 hx
      obtain rfl : queue = c.process.queue := by simpa using hqueue
      exact List.mem_of_mem_drop hx
  · exact fun x hx => ⟨(h.own x hx).1, hsaid.sent.subset (h.own x hx).2⟩
  · intro reply hx
    rcases hsaid.owed _ hx with hx | ⟨r, hr, hqueue, he⟩
    · exact h.replies reply hx
    · rw [← he]
      rcases List.mem_append.1 hr with hr | hr
      · exact (h.asked r (h.waits r hr hqueue)).2
      · exact (h.asked r (hasked r hr hqueue)).2
  · intro correlation found hx
    rcases hsaid.owed _ hx with hx | ⟨f, hf, hqueue, rfl⟩
    · exact h.forgets correlation found hx
    · exact hforgets f hf hqueue

/-- The process has gone on, with the same call. -/
theorem Calls.goes_on (h : Calls c w) {phase : Phase} {inbox : List Reply} (hcurrent : phase.current = w.phase.current)
    (hinbox : inbox ⊆ w.inbox) : Calls c { w with phase := phase, inbox := inbox } :=
  ⟨h.asked, h.distinct, h.nodup, hcurrent.symm ▸ h.ended, h.outgoing, h.waits, fun reply hr => h.inbox reply (hinbox hr),
    h.own, h.replies, h.forgets⟩

theorem Calls.call (hmake : ∀ i < w.made, c.make i ≠ c.make w.made) (h : Calls c w) (hidle : w.phase = .idle)
    {r : Message.DequeueRequest} (hprocess : r.process = c.process) (hcorrelation : r.correlation = c.make w.made) :
    Calls c { w with
      phase := .waiting r
      made := w.made + 1
      outgoing := w.outgoing ++ [.dequeue r]
      asked := w.asked ++ [r] } := by
  have hmade : ∀ {k}, Made c w k → ∃ i < w.made + 1, k = c.make i :=
    fun ⟨i, hi, hk⟩ => ⟨i, Nat.lt_succ_of_lt hi, hk⟩
  have hnew : ∀ r' ∈ w.asked, r'.correlation ≠ r.correlation := by
    rintro r' hr' he
    obtain ⟨-, i, hi, hk⟩ := h.asked r' hr'
    exact hmake i hi (hk.symm.trans (he.trans hcorrelation))
  constructor
  · rintro r' hr'
    rcases List.mem_append.1 hr' with hr' | hr'
    · exact ⟨(h.asked r' hr').1, hmade (h.asked r' hr').2⟩
    · obtain rfl := List.mem_singleton.1 hr'
      exact ⟨hprocess, w.made, Nat.lt_succ_self _, hcorrelation⟩
  · rintro r₁ h₁ r₂ h₂ he
    rcases List.mem_append.1 h₁ with h₁ | h₁ <;> rcases List.mem_append.1 h₂ with h₂ | h₂
    · exact h.distinct r₁ h₁ r₂ h₂ he
    · have hr := List.mem_singleton.1 h₂
      exact absurd (hr ▸ he) (hnew r₁ h₁)
    · have hr := List.mem_singleton.1 h₁
      exact absurd (hr ▸ he.symm) (hnew r₂ h₂)
    · rw [List.mem_singleton.1 h₁, List.mem_singleton.1 h₂]
  · refine List.nodup_append.2 ⟨h.nodup, List.nodup_singleton _, ?_⟩
    rintro r' hr' _ hr he
    obtain rfl := List.mem_singleton.1 hr
    exact hnew r' hr' (he ▸ rfl)
  · have hended := h.ended
    rw [hidle] at hended
    exact ((List.append_nil _).symm ▸ hended).append_right [r]
  · rintro m hm
    rcases List.mem_append.1 hm with hm | hm
    · have hknown := h.outgoing m hm
      cases m with
      | dequeue r' => exact List.mem_append_left _ hknown
      | forget f => exact hmade hknown
    · obtain rfl := List.mem_singleton.1 hm
      exact List.mem_append_right _ (List.mem_singleton_self r)
  · exact fun r' hr' hqueue => List.mem_append_left _ (h.waits r' hr' hqueue)
  · exact h.inbox
  · exact h.own
  · exact fun reply hx => hmade (h.replies reply hx)
  · exact fun k found hx => hmade (h.forgets k found hx)

theorem Calls.received (h : Calls c w) {r : Message.DequeueRequest} (hphase : w.phase = .waiting r) :
    Calls c (w.received r) := by
  unfold Dequeuing.received
  cases hfind : w.inbox.find? Reply.isDequeue with
  | none => exact h
  | some reply =>
    have hreply := h.inbox reply (List.mem_of_find?_eq_some hfind)
    cases reply with
    | dequeue reply =>
      dsimp only
      split_ifs with hcorrelation
      · refine ⟨h.asked, h.distinct, h.nodup, ?_, h.outgoing, h.waits, ?_, ?_, h.replies, h.forgets⟩
        · have hended := h.ended
          rw [hphase] at hended
          refine List.Perm.trans ?_ hended
          simp only [List.map_append, List.map_cons, List.map_nil, Phase.current, List.append_nil, List.append_assoc]
          exact (List.perm_append_comm).append_left _
        · exact fun x hx => h.inbox x (List.mem_of_mem_eraseP hx)
        · rintro x hx
          rcases List.mem_append.1 hx with hx | hx
          · exact h.own x hx
          · obtain rfl := List.mem_singleton.1 hx
            exact ⟨hcorrelation, hreply⟩
      · exact h.goes_on (by rw [hphase]; rfl) fun x hx => List.mem_of_mem_eraseP hx
    | _ => exact h

theorem Calls.throws (h : Calls c w) {r : Message.DequeueRequest} {inbox : List Reply} (hcurrent : w.phase.current = [r])
    (hinbox : inbox ⊆ w.inbox) : Calls c (throws { w with inbox := inbox } r) := by
  refine ⟨h.asked, h.distinct, h.nodup, ?_, h.outgoing, h.waits, fun x hx => h.inbox x (hinbox hx), h.own,
    h.replies, h.forgets⟩
  have hended := h.ended
  rw [hcurrent] at hended
  refine List.Perm.trans (.of_eq ?_) hended
  simp [Dequeuing.throws, Phase.current]

theorem Calls.forget (h : Calls c w) {r : Message.DequeueRequest} (hphase : w.phase = .leaving r) :
    Calls c { w with
      phase := .forgetting r (c.make w.made)
      made := w.made + 1
      outgoing := w.outgoing ++ [.forget ⟨c.make w.made, c.process, r.queue⟩] } := by
  have hmade : ∀ {k}, Made c w k → ∃ i < w.made + 1, k = c.make i :=
    fun ⟨i, hi, hk⟩ => ⟨i, Nat.lt_succ_of_lt hi, hk⟩
  refine ⟨fun r hr => ⟨(h.asked r hr).1, hmade (h.asked r hr).2⟩, h.distinct, h.nodup, ?_, ?_, h.waits, h.inbox, h.own,
    fun reply hx => hmade (h.replies reply hx), fun k found hx => hmade (h.forgets k found hx)⟩
  · have hended := h.ended
    rw [hphase] at hended
    exact hended
  · rintro m hm
    rcases List.mem_append.1 hm with hm | hm
    · have hknown := h.outgoing m hm
      cases m with
      | dequeue r' => exact hknown
      | forget f => exact hmade hknown
    · obtain rfl := List.mem_singleton.1 hm
      exact ⟨w.made, Nat.lt_succ_self _, rfl⟩

theorem Calls.read (h : Calls c w) {m : Outgoing} {rest : List Outgoing} (houtgoing : w.outgoing = m :: rest) :
    Calls c (Dequeuing.handled c env { w with outgoing := rest } m.event) := by
  have hknown : Known c w m := h.outgoing m (houtgoing ▸ List.mem_cons_self)
  have hrest : Calls c { w with outgoing := rest } :=
    ⟨h.asked, h.distinct, h.nodup, h.ended, fun m hm => h.outgoing m (houtgoing ▸ List.mem_cons_of_mem _ hm), h.waits,
      h.inbox, h.own, h.replies, h.forgets⟩
  cases m with
  | dequeue r =>
    refine hrest.handled ?_ fun f hf => absurd hf List.not_mem_nil
    rintro r' hr' -
    rw [List.mem_singleton.1 hr']
    exact hknown
  | forget f =>
    refine hrest.handled (fun r hr => absurd hr List.not_mem_nil) ?_
    rintro f' hf' -
    rw [List.mem_singleton.1 hf']
    exact hknown

theorem asked_requester {e : Event} {r : Message.DequeueRequest} (h : r ∈ e.asked) : r.process ∈ e.requester := by
  cases e <;> first | exact absurd h List.not_mem_nil | (rw [List.mem_singleton.1 h]; rfl)

theorem forgetRequests_requester {e : Event} {f : Message.ForgetRequest} (h : f ∈ Group.forgetRequests e) :
    f.process ∈ e.requester := by
  cases e <;> first | exact absurd h List.not_mem_nil | (rw [List.mem_singleton.1 h]; rfl)

theorem Calls.step (h : Calls c w) {a : Action} (ha : admits c w a) :
    Calls c (w.step c env a) := by
  unfold Dequeuing.step
  split
  next hphase => exact h.call ha hphase rfl rfl
  next hphase => exact h.received hphase
  next hphase => exact h.goes_on (by rw [hphase]; rfl) (List.Subset.refl _)
  next hphase => exact h.throws (by rw [hphase]; rfl) (List.Subset.refl _)
  next hphase => exact h.throws (by rw [hphase]; rfl) (List.Subset.refl _)
  next hphase => exact h.forget hphase
  next hphase =>
    split_ifs
    · exact h.throws (by rw [hphase]; rfl) fun x hx => List.mem_of_mem_eraseP hx
    · exact h
  · split
    next houtgoing => exact h.read houtgoing
    · exact h
  next e _ =>
    refine h.handled ?_ ?_
    · exact fun r hr hqueue => absurd hqueue (ha.2 _ (asked_requester hr))
    · exact fun f hf hqueue => absurd hqueue (ha.2 _ (forgetRequests_requester hf))
  · exact h

theorem calls_of_reachable (h : (dequeuing c env).Reachable w) : Calls c w := by
  apply h.invariant (I := Calls c)
  · rintro w ⟨db, -, rfl⟩
    exact calls_start db
  · exact fun w a hw ha => hw.step ha

/-! ## Whose reply a call returns -/

/-- A call returns a reply that the group has sent to its own request, and to none that was made by another call. -/
def Own (c : Caller) (w : Dequeuing) : Prop := ∀ x ∈ w.returned,
  (c.process.queue, Reply.dequeue x.2) ∈ w.group.sent ∧ x.1 ∈ w.asked ∧ x.1 ∉ w.thrown ∧
    ∀ r ∈ w.asked, r.correlation = x.2.correlation ↔ r = x.1

/-- The requests of the calls that have ended and of the one that has not are different. -/
theorem Calls.disjoint (h : Calls c w) :
    (∀ x ∈ w.returned, x.1 ∉ w.thrown) ∧ ∀ r ∈ w.thrown, r ∉ w.phase.current := by
  have hnodup := h.ended.nodup_iff.2 h.nodup
  rw [List.append_assoc, List.nodup_append] at hnodup
  obtain ⟨-, hrest, hreturned⟩ := hnodup
  refine ⟨fun x hx hthrown => ?_, fun r hr hcurrent => ?_⟩
  · exact hreturned _ (List.mem_map_of_mem hx) _ (List.mem_append_left _ hthrown) rfl
  · exact (List.nodup_append.1 hrest).2.2 r hr r hcurrent rfl

theorem Calls.mem_asked (h : Calls c w) {r : Message.DequeueRequest}
    (hr : r ∈ w.returned.map (·.1) ++ w.thrown ++ w.phase.current) : r ∈ w.asked :=
  h.ended.subset hr

theorem Calls.own_reply (h : Calls c w) : Own c w := by
  rintro x hx
  obtain ⟨hcorrelation, hsent⟩ := h.own x hx
  have hasked : x.1 ∈ w.asked :=
    h.mem_asked (List.mem_append_left _ (List.mem_append_left _ (List.mem_map_of_mem hx)))
  refine ⟨hsent, hasked, h.disjoint.1 x hx, fun r hr => ⟨fun he => ?_, fun he => ?_⟩⟩
  · exact h.distinct r hr x.1 hasked (he.trans hcorrelation)
  · rw [he, hcorrelation]

/-! ## What is handed to a call that is forgotten -/

/-- A message that was handed to a request whose call has thrown is still there, or some call has returned it. -/
def Kept (c : Caller) (w : Dequeuing) : Prop := ∀ r ∈ w.thrown, ∀ ms,
  (c.process.queue, Reply.dequeue ⟨r.correlation, ms⟩) ∈ w.group.sent → ∀ d ∈ ms,
    (∃ m ∈ w.group.queuebase.messages, m.id = d.id) ∨ ∃ x ∈ w.returned, d ∈ x.2.message

/-- A request does not wait, and what has been sent to it is as said. -/
structure Away (c : Caller) (S : List Message.Dequeued → Prop) (g : Group) (r : Message.DequeueRequest) : Prop where
  pending : r ∉ g.pending.requests
  replies : ∀ ms, (c.process.queue, Reply.dequeue ⟨r.correlation, ms⟩) ∈ g.sent ++ g.persistent → S ms

/-- No reply crosses a forget request: the process is not interrupted again until the group has read its forget
request, and when the group reads it, it has handed no message to the request, which is the only one it can find. -/
def Uncrossed (c : Caller) (w : Dequeuing) : Action → Prop
  | .interrupt => (∀ r, w.phase ≠ .leaving r) ∧ ∀ r k, w.phase = .forgetting r k → w.outgoing = []
  | .read => ∀ f rest r k, w.outgoing = .forget f :: rest → w.phase = .forgetting r k →
    (∀ ms, (c.process.queue, Reply.dequeue ⟨r.correlation, ms⟩) ∈ w.group.sent ++ w.group.persistent → ms = []) ∧
      w.group.pending.requests.countP (Pending.forgets f) ≤ 1
  | _ => True

/-- What is on its way to the group, and what has come of the requests that have been forgotten. -/
structure Forgets (c : Caller) (w : Dequeuing) : Prop where
  idle : w.phase = .idle → w.outgoing = []
  called : ∀ r, w.phase = .waiting r ∨ w.phase = .leaving r →
    w.outgoing = [] ∨ w.outgoing = [.dequeue r] ∧ Away c (fun _ => False) w.group r
  forgetting : ∀ r k, w.phase = .forgetting r k →
    w.outgoing = [] ∧ Away c (· = []) w.group r ∨
      (∀ found, (c.process.queue, Reply.forget k found) ∉ w.group.sent ++ w.group.persistent) ∧
        (w.outgoing = [.forget ⟨k, c.process, r.queue⟩] ∨
          w.outgoing = [.dequeue r, .forget ⟨k, c.process, r.queue⟩] ∧ Away c (fun _ => False) w.group r)
  thrown : ∀ r ∈ w.thrown, Away c (· = []) w.group r

/-- A request that does not wait is not answered, unless it is made again. -/
theorem Away.handled {S : List Message.Dequeued → Prop} (h : Calls c w) {r : Message.DequeueRequest} (hr : r ∈ w.asked)
    (haway : Away c S w.group r) {e : Event}
    (hother : ∀ q ∈ e.asked, q.process.queue = c.process.queue → q ∈ w.asked ∧ q ≠ r) :
    Away c S (w.group.step env e) r := by
  have hsaid := @Group.said_step env w.group e
  constructor
  · intro hpending
    rcases List.mem_append.1 (hsaid.pending hpending) with hpending | hasked
    · exact haway.pending hpending
    · exact (hother r hasked (by rw [(h.asked r hr).1])).2 rfl
  · intro ms hms
    rcases hsaid.owed _ hms with hms | ⟨q, hq, hqueue, hcorrelation⟩
    · exact haway.replies ms hms
    · rcases List.mem_append.1 hq with hq | hq
      · obtain rfl := h.distinct q (h.waits q hq hqueue) r hr hcorrelation
        exact absurd hq haway.pending
      · obtain ⟨hqasked, hne⟩ := hother q hq hqueue
        exact absurd (h.distinct q hqasked r hr hcorrelation) hne

theorem forgotten_of_countP {p : Pending} {f : Message.ForgetRequest} {r : Message.DequeueRequest}
    (hfound : Pending.forgets f r = true) (hone : p.requests.countP (Pending.forgets f) ≤ 1) :
    r ∉ (p.forget f).2.requests := by
  intro hr
  have hmem := Group.mem_of_forget hr
  obtain ⟨a, before, rest, hbefore, ha, hrequests, herased⟩ := List.exists_of_eraseP hmem hfound
  have hforget : (p.forget f).2.requests = before ++ rest := by
    unfold Pending.forget
    rw [if_pos (List.any_eq_true.2 ⟨r, hmem, hfound⟩)]
    exact herased
  rw [hforget] at hr
  have hrest : r ∈ rest := (List.mem_append.1 hr).resolve_left fun h => hbefore r h hfound
  have hpos : 0 < rest.countP (Pending.forgets f) := List.countP_pos_iff.2 ⟨r, hrest, hfound⟩
  rw [hrequests, List.countP_append, List.countP_cons_of_pos ha] at hone
  omega

/-- A forget request is answered, or its requester is gone. -/
theorem step_forget (g : Group) (f : Message.ForgetRequest) :
    (g.step env (.forget f)).pending = (g.pending.forget f).2 ∧ (g.step env (.forget f)).persistent = g.persistent ∧
      ∃ out, (g.step env (.forget f)).sent = g.sent ++ out ∧ ∀ x ∈ out, ∃ found, x.2 = .forget f.correlation found := by
  cases hgone : env.gone g.readings f.process.queue with
  | true =>
    have hforget : Group.forgetRequest env f g = .ok () _ :=
      (tryCatch_error (Group.send_gone (s := { g with pending := (g.pending.forget f).2 }) hgone)).trans rfl
    have hhandle : Group.handle env (.forget f) g = _ := hforget
    unfold Group.step
    rw [hhandle]
    exact ⟨rfl, rfl, [], (List.append_nil _).symm, nofun⟩
  | false =>
    have hforget : Group.forgetRequest env f g = .ok () _ :=
      tryCatch_ok (Group.send_there (s := { g with pending := (g.pending.forget f).2 }) hgone)
    have hhandle : Group.handle env (.forget f) g = _ := hforget
    unfold Group.step
    rw [hhandle]
    refine ⟨rfl, rfl, _, rfl, ?_⟩
    rintro x hx
    rw [List.mem_singleton.1 hx]
    exact ⟨_, rfl⟩

/-- A forget request that finds at most its own request. -/
theorem Away.of_forget {r : Message.DequeueRequest} {f : Message.ForgetRequest} {g : Group}
    (hfound : Pending.forgets f r = true) (hone : g.pending.requests.countP (Pending.forgets f) ≤ 1)
    (hnothing : ∀ ms, (c.process.queue, Reply.dequeue ⟨r.correlation, ms⟩) ∈ g.sent ++ g.persistent → ms = []) :
    Away c (· = []) (g.step env (.forget f)) r := by
  obtain ⟨hpending, hpersistent, out, hsent, hout⟩ := @step_forget env g f
  constructor
  · rw [hpending]
    exact forgotten_of_countP hfound hone
  · intro ms hms
    rw [hsent, hpersistent] at hms
    simp only [List.mem_append] at hms
    rcases hms with (hms | hms) | hms
    · exact hnothing ms (List.mem_append_left _ hms)
    · obtain ⟨found, he⟩ := hout _ hms
      cases he
    · exact hnothing ms (List.mem_append_right _ hms)

theorem forgets_start (db : Database) : Forgets c ⟨Group.start db, .idle, 0, [], [], [], [], []⟩ := by
  constructor
  · exact fun _ => rfl
  · rintro r (h | h) <;> cases h
  · rintro r k h
    cases h
  · exact fun r hr => absurd hr List.not_mem_nil

/-- What a group does with a message of another process leaves what was forgotten. -/
theorem Forgets.other (hcalls : Calls c w) (h : Forgets c w) {e : Event}
    (hother : ∀ process ∈ e.requester, process.queue ≠ c.process.queue) : Forgets c (handled c env w e) := by
  have haway : ∀ {S : List Message.Dequeued → Prop} {r}, r ∈ w.asked → Away c S w.group r →
      Away c S (w.group.step env e) r := by
    intro S r hr hr'
    exact hr'.handled hcalls hr fun q hq hqueue => absurd hqueue (hother _ (asked_requester hq))
  have hcurrent : ∀ {r}, r ∈ w.phase.current → r ∈ w.asked := fun hr => hcalls.mem_asked (List.mem_append_right _ hr)
  refine ⟨h.idle, ?_, ?_, ?_⟩
  · rintro r hphase
    have hr : r ∈ w.asked := by
      apply hcurrent
      rcases hphase with hphase | hphase <;> exact hphase ▸ List.mem_singleton_self r
    rcases h.called r hphase with ho | ⟨ho, hr'⟩
    · exact .inl ho
    · exact .inr ⟨ho, haway hr hr'⟩
  · rintro r k hphase
    have hr : r ∈ w.asked := hcurrent (hphase ▸ List.mem_singleton_self r)
    rcases h.forgetting r k hphase with ⟨ho, hr'⟩ | ⟨hnone, ho⟩
    · exact .inl ⟨ho, haway hr hr'⟩
    · refine .inr ⟨fun found hx => ?_, ho.imp id fun ⟨ho, hr'⟩ => ⟨ho, haway hr hr'⟩⟩
      rcases (@Group.said_step env w.group e).owed _ hx with hx | ⟨f, hf, hqueue, -⟩
      · exact hnone found hx
      · exact hother _ (forgetRequests_requester hf) hqueue
  · exact fun r hr => haway (hcalls.mem_asked (List.mem_append_left _ (List.mem_append_right _ hr))) (h.thrown r hr)

/-- The group reads the request of the call. -/
theorem Forgets.read_dequeue (hcalls : Calls c w) (h : Forgets c w) {r : Message.DequeueRequest} {rest : List Outgoing}
    (houtgoing : w.outgoing = .dequeue r :: rest) :
    Forgets c (handled c env { w with outgoing := rest } (.dequeue r)) := by
  have hknown : Known c w (.dequeue r) := hcalls.outgoing _ (houtgoing ▸ List.mem_cons_self)
  have haway : r ∈ w.phase.current → ∀ r' ∈ w.thrown, Away c (· = []) (w.group.step env (.dequeue r)) r' := by
    intro hcurrent r' hr'
    refine (h.thrown r' hr').handled hcalls (hcalls.mem_asked (List.mem_append_left _ (List.mem_append_right _ hr'))) ?_
    rintro q hq -
    rw [List.mem_singleton.1 hq]
    exact ⟨hknown, fun he => hcalls.disjoint.2 r' hr' (he ▸ hcurrent)⟩
  refine ⟨?_, ?_, ?_, ?_⟩
  · intro hphase
    rw [h.idle hphase] at houtgoing
    cases houtgoing
  · rintro r' hphase
    rcases h.called r' hphase with ho | ⟨ho, -⟩ <;> rw [ho] at houtgoing <;> cases houtgoing
    exact .inl rfl
  · rintro r' k hphase
    rcases h.forgetting r' k hphase with ⟨ho, -⟩ | ⟨hnone, ho | ⟨ho, -⟩⟩ <;> rw [ho] at houtgoing <;> cases houtgoing
    refine .inr ⟨fun found hx => ?_, .inl rfl⟩
    rcases (@Group.said_step env w.group (.dequeue r)).owed _ hx with hx | ⟨f, hf, -⟩
    · exact hnone found hx
    · exact absurd hf List.not_mem_nil
  · refine haway ?_
    -- only the request of the call is on its way
    cases hphase : w.phase with
    | idle =>
      rw [h.idle hphase] at houtgoing
      cases houtgoing
    | waiting r' =>
      rcases h.called r' (.inl hphase) with ho | ⟨ho, -⟩ <;> rw [ho] at houtgoing <;> cases houtgoing
      exact List.mem_singleton_self r
    | leaving r' =>
      rcases h.called r' (.inr hphase) with ho | ⟨ho, -⟩ <;> rw [ho] at houtgoing <;> cases houtgoing
      exact List.mem_singleton_self r
    | forgetting r' k =>
      rcases h.forgetting r' k hphase with ⟨ho, -⟩ | ⟨-, ho | ⟨ho, -⟩⟩ <;> rw [ho] at houtgoing <;> cases houtgoing
      exact List.mem_singleton_self r

/-- The group reads the forget request, which no reply has crossed. -/
theorem Forgets.read_forget (hcalls : Calls c w) (h : Forgets c w) {f : Message.ForgetRequest} {rest : List Outgoing}
    (houtgoing : w.outgoing = .forget f :: rest) (huncrossed : Uncrossed c w .read) :
    Forgets c (handled c env { w with outgoing := rest } (.forget f)) := by
  have hthrown : ∀ r ∈ w.thrown, Away c (· = []) (w.group.step env (.forget f)) r := fun r hr =>
    (h.thrown r hr).handled hcalls (hcalls.mem_asked (List.mem_append_left _ (List.mem_append_right _ hr)))
      fun q hq => absurd hq List.not_mem_nil
  refine ⟨?_, ?_, ?_, hthrown⟩
  · intro hphase
    rw [h.idle hphase] at houtgoing
    cases houtgoing
  · rintro r hphase
    rcases h.called r hphase with ho | ⟨ho, -⟩ <;> rw [ho] at houtgoing <;> cases houtgoing
  · rintro r k hphase
    obtain ⟨hnothing, hone⟩ := huncrossed f rest r k houtgoing hphase
    rcases h.forgetting r k hphase with ⟨ho, -⟩ | ⟨-, ho | ⟨ho, -⟩⟩ <;> rw [ho] at houtgoing <;> cases houtgoing
    have hprocess : r.process = c.process :=
      (hcalls.asked r (hcalls.mem_asked (List.mem_append_right _ (hphase ▸ List.mem_singleton_self r)))).1
    exact .inl ⟨rfl, .of_forget (by simp [Pending.forgets, hprocess]) hone hnothing⟩

/-- A process that makes a request has nothing on its way, and no reply to it has been sent. -/
theorem Forgets.call (hmake : ∀ i < w.made, c.make i ≠ c.make w.made) (hcalls : Calls c w) (h : Forgets c w) (hidle : w.phase = .idle)
    {r : Message.DequeueRequest} (hprocess : r.process = c.process) (hcorrelation : r.correlation = c.make w.made) :
    Forgets c { w with
      phase := .waiting r
      made := w.made + 1
      outgoing := w.outgoing ++ [.dequeue r]
      asked := w.asked ++ [r] } := by
  have hunmade : ¬ Made c w r.correlation := by
    rintro ⟨i, hi, hk⟩
    exact hmake i hi (hk.symm.trans hcorrelation)
  refine ⟨nofun, ?_, ?_, h.thrown⟩
  · rintro r' (hphase | hphase) <;> cases hphase
    refine .inr ⟨by rw [h.idle hidle]; rfl, fun hpending => ?_, fun ms hms => hunmade (hcalls.replies _ hms)⟩
    exact hunmade (hcalls.asked r (hcalls.waits r hpending (by rw [hprocess]))).2
  · rintro r' k hphase
    cases hphase

theorem Forgets.forget (hmake : ∀ i < w.made, c.make i ≠ c.make w.made) (hcalls : Calls c w) (h : Forgets c w)
    {r : Message.DequeueRequest} (hphase : w.phase = .leaving r) :
    Forgets c { w with
      phase := .forgetting r (c.make w.made)
      made := w.made + 1
      outgoing := w.outgoing ++ [.forget ⟨c.make w.made, c.process, r.queue⟩] } := by
  refine ⟨nofun, ?_, ?_, h.thrown⟩
  · rintro r' (hphase' | hphase') <;> cases hphase'
  · rintro r' k hphase'
    cases hphase'
    refine .inr ⟨fun found hx => ?_, ?_⟩
    · obtain ⟨i, hi, hk⟩ := hcalls.forgets _ found hx
      exact hmake i hi hk.symm
    · rcases h.called r (.inr hphase) with ho | ⟨ho, hr⟩
      · exact .inl (by rw [ho]; rfl)
      · exact .inr ⟨by rw [ho]; rfl, hr⟩

theorem Forgets.received (hcalls : Calls c w) (h : Forgets c w) {r : Message.DequeueRequest} (hphase : w.phase = .waiting r) :
    Forgets c (w.received r) := by
  unfold Dequeuing.received
  cases hfind : w.inbox.find? Reply.isDequeue with
  | none => exact h
  | some reply =>
    have hreply := hcalls.inbox reply (List.mem_of_find?_eq_some hfind)
    cases reply with
    | dequeue reply =>
      dsimp only
      split_ifs with hcorrelation
      · refine ⟨fun _ => ?_, ?_, ?_, h.thrown⟩
        · -- what has been answered is no longer on its way
          refine (h.called r (.inl hphase)).resolve_right fun ⟨_, haway⟩ => haway.replies reply.message ?_
          rw [← hcorrelation]
          exact List.mem_append_left _ hreply
        · rintro r' (hphase' | hphase') <;> cases hphase'
        · rintro r' k hphase'
          cases hphase'
      · refine ⟨nofun, ?_, ?_, h.thrown⟩
        · rintro r' (hphase' | hphase') <;> cases hphase'
          exact h.called r (.inl hphase)
        · rintro r' k hphase'
          cases hphase'
    | _ => exact h

/-- A call throws once its request is away. -/
theorem Forgets.throws (h : Forgets c w) {r : Message.DequeueRequest} {inbox : List Reply} (houtgoing : w.outgoing = [])
    (haway : Away c (· = []) w.group r) : Forgets c (throws { w with inbox := inbox } r) := by
  refine ⟨fun _ => houtgoing, ?_, ?_, ?_⟩
  · rintro r' (hphase' | hphase') <;> cases hphase'
  · rintro r' k hphase'
    cases hphase'
  · rintro r' hr'
    rcases List.mem_append.1 hr' with hr' | hr'
    · exact h.thrown r' hr'
    · rw [List.mem_singleton.1 hr']
      exact haway

theorem Forgets.forgotten (hcalls : Calls c w) (h : Forgets c w) {r : Message.DequeueRequest} {k : Uuid}
    (hphase : w.phase = .forgetting r k) (hany : w.inbox.any (Reply.forgets k) = true) {inbox : List Reply} :
    Forgets c (Dequeuing.throws { w with inbox := inbox } r) := by
  obtain ⟨reply, hreply, hk⟩ := List.any_eq_true.1 hany
  have hsent := hcalls.inbox reply hreply
  have haway : w.outgoing = [] ∧ Away c (· = []) w.group r := by
    refine (h.forgetting r k hphase).resolve_right fun ⟨hnone, _⟩ => ?_
    cases reply with
    | forget other found =>
      obtain rfl : other = k := by simpa [Reply.forgets] using hk
      exact hnone found (List.mem_append_left _ hsent)
    | _ => cases hk
  exact h.throws haway.1 haway.2

/-- A process that is interrupted when its forget request has been read. -/
theorem Forgets.interrupted (h : Forgets c w) {r : Message.DequeueRequest} {k : Uuid} (hphase : w.phase = .forgetting r k)
    (houtgoing : w.outgoing = []) : Forgets c (Dequeuing.throws w r) := by
  rcases h.forgetting r k hphase with ⟨-, haway⟩ | ⟨-, ho | ⟨ho, -⟩⟩
  · exact h.throws houtgoing haway
  · rw [houtgoing] at ho
    cases ho
  · rw [houtgoing] at ho
    cases ho

theorem Forgets.step (hcalls : Calls c w) (h : Forgets c w) {a : Action}
    (ha : admits c w a) (huncrossed : Uncrossed c w a) : Forgets c (w.step c env a) := by
  unfold Dequeuing.step
  split
  next hphase => exact h.call ha hcalls hphase rfl rfl
  next hphase => exact h.received hcalls hphase
  next hphase =>
    refine ⟨nofun, ?_, ?_, h.thrown⟩
    · rintro r' (hphase' | hphase') <;> cases hphase'
      exact h.called _ (.inl hphase)
    · rintro r' k hphase'
      cases hphase'
  next hphase => exact absurd hphase (huncrossed.1 _)
  next hphase => exact h.interrupted hphase (huncrossed.2 _ _ hphase)
  next hphase => exact h.forget ha hcalls hphase
  next hphase =>
    split_ifs with hany
    · exact h.forgotten hcalls hphase hany
    · exact h
  · split
    next m rest houtgoing =>
      cases m with
      | dequeue r => exact h.read_dequeue hcalls houtgoing
      | forget f => exact h.read_forget hcalls houtgoing huncrossed
    · exact h
  · exact h.other hcalls ha.2
  · exact h

/-- In every run a call returns only the reply to its own request; and in every run in which no reply crosses a
forget request, no message is lost with a call that was interrupted. -/
theorem own_and_kept_of_reachable :
    ((dequeuing c env).Reachable w → Own c w) ∧
      (((dequeuing c env).restrict (Uncrossed c)).Reachable w → Own c w ∧ Kept c w) := by
  refine ⟨fun h => (calls_of_reachable h).own_reply, fun h => ?_⟩
  obtain ⟨hcalls, hforgets⟩ : Calls c w ∧ Forgets c w := by
    apply h.invariant (I := fun w => Calls c w ∧ Forgets c w)
    · rintro w ⟨db, -, rfl⟩
      exact ⟨calls_start db, forgets_start db⟩
    · rintro w a ⟨hcalls, hforgets⟩ ⟨ha, huncrossed⟩
      exact ⟨hcalls.step ha, hforgets.step hcalls ha huncrossed⟩
  refine ⟨hcalls.own_reply, fun r hr ms hms d hd => ?_⟩
  rw [(hforgets.thrown r hr).replies ms (List.mem_append_left _ hms)] at hd
  exact absurd hd List.not_mem_nil

/-! ### A reply that crosses a forget request -/

/-- A caller that makes a new correlation each time. -/
def someCaller : Caller := ⟨⟨1, 1⟩, fun n => n + 1⟩

/-- A process, and a group with a queue and no messages. -/
def someDequeuing : Dequeuing := ⟨Watched.someGroup.group, .idle, 0, [], [], [], [], []⟩

theorem someDequeuing_init : (dequeuing someCaller Group.someEnvironment).init someDequeuing :=
  ⟨_, Database.reachable_calls _ (.of_init ⟨"g", 0, rfl⟩), rfl⟩

theorem admits_call (h : ∀ i < w.made, c.make i ≠ c.make w.made) {trid : Option Transaction.ID} {queue : Nat}
    {selector : Message.Selector} {block : Bool} : (dequeuing c env).admits w (.call trid queue selector block) := h

theorem admits_forget (h : ∀ i < w.made, c.make i ≠ c.make w.made) : (dequeuing c env).admits w .forget := h

theorem admits_read (h : w.group.running = true) : (dequeuing c env).admits w .read := h

theorem admits_enqueue (h : w.group.running = true) {message : Message.EnqueueRequest}
    (hother : message.process.queue ≠ c.process.queue) : (dequeuing c env).admits w (.other (.enqueue message)) := by
  refine ⟨h, ?_⟩
  rintro _ ⟨⟩
  exact hother

/-- A forget request that finds one waiting request, and no dequeue that has been answered. -/
theorem uncrossed_read (hsent : (w.group.sent ++ w.group.persistent).all (fun x => !Reply.isDequeue x.2) = true)
    (hpending : w.group.pending.requests.length ≤ 1) : Uncrossed c w .read := by
  intro f rest r k _ _
  constructor
  · intro ms hms
    have hnone := List.all_eq_true.1 hsent _ hms
    cases hnone
  · exact List.countP_le_length.trans hpending

/-- Nothing crosses while the call waits. -/
theorem uncrossed_of_waiting {q : Message.DequeueRequest} (h : w.phase = .waiting q) {a : Action} : Uncrossed c w a := by
  cases a with
  | interrupt =>
    unfold Uncrossed
    rw [h]
    exact ⟨nofun, nofun⟩
  | read =>
    intro f rest r k _ hphase
    rw [h] at hphase
    cases hphase
  | _ => trivial

/-- Nothing is on its way when the process is interrupted while it forgets. -/
theorem uncrossed_interrupt {r : Message.DequeueRequest} {k : Uuid} (h : w.phase = .forgetting r k)
    (houtgoing : w.outgoing = []) : Uncrossed c w .interrupt := by
  constructor
  · rw [h]
    exact nofun
  · exact fun _ _ _ => houtgoing

/-- A call is interrupted and forgotten, one is interrupted again while it forgets, and another one gets a message. -/
def interruptedAgain : List Action :=
  [.call none 3 ⟨"", 0⟩ true, .read, .interrupt, .forget, .read, .forgotten,
    .call none 3 ⟨"", 0⟩ true, .read, .interrupt, .forget, .read, .interrupt,
    .other (.enqueue (Group.someMessage none)), .call none 3 ⟨"", 0⟩ true, .read, .receive]

/-- A message is enqueued before the group gets to know that the call was interrupted. -/
def crossedOnce : List Action :=
  [.call none 3 ⟨"", 0⟩ true, .read, .interrupt, .other (.enqueue (Group.someMessage none)), .forget, .read, .forgotten]

theorem interruptedAgain_kept :
    Own someCaller (interruptedAgain.foldl (fun w a => w.step someCaller Group.someEnvironment a) someDequeuing) ∧
      Kept someCaller (interruptedAgain.foldl (fun w a => w.step someCaller Group.someEnvironment a) someDequeuing) := by
  refine (@own_and_kept_of_reachable someCaller Group.someEnvironment _).2 ?_
  refine .foldl (M := (dequeuing someCaller Group.someEnvironment).restrict _) (.of_init someDequeuing_init) ?_
  refine ⟨⟨admits_call (by decide +kernel), trivial⟩, ⟨admits_read (by decide +kernel), uncrossed_of_waiting rfl⟩,
    ⟨trivial, uncrossed_of_waiting rfl⟩, ⟨admits_forget (by decide +kernel), trivial⟩,
    ⟨admits_read (by decide +kernel), uncrossed_read (by decide +kernel) (by decide +kernel)⟩, ⟨trivial, trivial⟩,
    ⟨admits_call (by decide +kernel), trivial⟩, ⟨admits_read (by decide +kernel), uncrossed_of_waiting rfl⟩,
    ⟨trivial, uncrossed_of_waiting rfl⟩, ⟨admits_forget (by decide +kernel), trivial⟩,
    ⟨admits_read (by decide +kernel), uncrossed_read (by decide +kernel) (by decide +kernel)⟩,
    ⟨trivial, uncrossed_interrupt rfl (by decide +kernel)⟩,
    ⟨admits_enqueue (by decide +kernel) (by decide), trivial⟩,
    ⟨admits_call (by decide +kernel), trivial⟩, ⟨admits_read (by decide +kernel), uncrossed_of_waiting rfl⟩,
    ⟨trivial, trivial⟩, trivial⟩

/-- The message is lost. -/
theorem crossedOnce_lost : ∃ w, (dequeuing someCaller Group.someEnvironment).Reachable w ∧ ¬ Kept someCaller w := by
  have hreachable : (dequeuing someCaller Group.someEnvironment).Reachable
      (crossedOnce.foldl (dequeuing someCaller Group.someEnvironment).step someDequeuing) := by
    refine .foldl (.of_init someDequeuing_init) ?_
    exact ⟨admits_call (by decide +kernel), admits_read (by decide +kernel), trivial,
      admits_enqueue (by decide +kernel) (by decide), admits_forget (by decide +kernel), admits_read (by decide +kernel),
      trivial, trivial⟩
  refine ⟨_, hreachable, fun h => ?_⟩
  have hkept := h ⟨1, ⟨1, 1⟩, none, 3, ⟨"", 0⟩, true⟩ (by decide +kernel) [⟨2, "", "", 0, ⟨"", ""⟩, 0, 11, some [1]⟩]
    (by decide +kernel) _ (List.mem_singleton_self _)
  revert hkept
  decide +kernel

end Dequeuing

end Casual.Queue

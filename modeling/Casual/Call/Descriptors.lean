/-
Call descriptors over whole runs: calls, replies and cancellations in any order, and replies that arrive
in any order. What a descriptor is given is the reply to the call it was last given to.
-/
import Casual.Lib.Run
import Casual.Communication.Alone
import Casual.Call.Effects

namespace Casual.Call

open Lib Common Communication

variable {Sender : Type} [DecidableEq Sender]

/-! ## A process and those that answer it -/

/-- A call that was made and expects a reply. -/
structure Issued where
  descriptor : Nat
  correlation : Uuid
  deriving DecidableEq

/-- A process, and what has happened: the calls that were made, the messages that answer them, the calls
that were cancelled and those whose reply was returned. -/
structure System (Sender : Type) where
  context : Context Sender
  calls : List Issued
  answers : List (Sender × Complete)
  cancelled : List Uuid
  returned : List Uuid

/-- A sender puts its next transport; a call is answered, or another message sent; the process calls,
takes a reply and cancels, or another part of it takes and discards messages or works with transactions. -/
inductive Event (Sender : Type)
  | put (s : Sender)
  | answer (s : Sender) (m : Complete)
  | other (s : Sender) (m : Complete)
  | async (lookupCorrelation correlation : Uuid) (service : String) (input : Payload) (flags : Flags)
  | reply (descriptor : Nat) (output : Option Payload) (flags : Flags)
  | cancel (descriptor : Nat)
  | take (selector : Selector) (reads : Nat)
  | discard (correlation : Uuid)
  | transactions (transactions : List Transaction)

/-- There is nothing of a correlation anywhere. -/
structure Unused (n : Net Sender) (c : Uuid) : Prop where
  outbox : ∀ s, c ∉ (n.outbox s).map (·.correlation)
  transports : c ∉ (n.received ++ n.device.connector).map (·.correlation)
  messages : c ∉ (n.device.cache ++ n.delivered).map (·.correlation)
  discarded : c ∉ n.device.discarded ++ n.dropped ++ n.redundant

namespace System

/-- The call that a descriptor denotes: the last one that was given it. -/
def denotes (s : System Sender) (descriptor : Nat) : Option Issued :=
  s.calls.reverse.find? (·.descriptor == descriptor)

/-- What happens on the net. -/
def onNet (s : System Sender) (f : Net Sender → Net Sender) : System Sender :=
  { s with context := { s.context with net := f s.context.net } }

variable (env : Surroundings) (size : TransportSize)

/-- Replies are those that answer a call that was made, once and with its descriptor; a new correlation is
one that was not used before. -/
def Admits (s : System Sender) : Event Sender → Prop
  | .answer _ m => m.type = replyType ∧ m.correlation ∉ s.answers.map (·.2.correlation) ∧
      ∃ call ∈ s.calls, call.correlation = m.correlation ∧ (env.reply m.payload).descriptor = call.descriptor
  | .other _ m => m.type ≠ replyType ∧ m.correlation ∉ s.calls.map (·.correlation)
  | .async _ correlation _ _ _ => Unused s.context.net correlation ∧ correlation ∉ s.calls.map (·.correlation)
  | _ => True

/-- An event of the caller or of those who answer. -/
def step (s : System Sender) : Event Sender → System Sender
  | .put sender => s.onNet (·.step (.put sender))
  | .answer sender m => { s.onNet (·.send size sender m) with answers := s.answers ++ [(sender, m)] }
  | .other sender m => s.onNet (·.send size sender m)
  | .async lookupCorrelation correlation service input flags =>
    match Call.async env lookupCorrelation correlation service input flags s.context with
    | .ok descriptor context =>
      { s with context, calls := if flag TPNOREPLY flags then s.calls else s.calls ++ [⟨descriptor, correlation⟩] }
    | .error _ context => { s with context }
  | .reply descriptor output flags =>
    match Call.reply env descriptor output flags s.context with
    | .ok reply context => { s with context, returned := s.returned ++ [reply.correlation] }
    | .error _ context => { s with context }
  | .cancel descriptor =>
    match Call.cancel descriptor s.context with
    | .ok _ context =>
      { s with context, cancelled := s.cancelled ++ (s.denotes descriptor).toList.map (·.correlation) }
    | .error _ context => { s with context }
  | .take selector reads => s.onNet (·.step (.next selector reads))
  | .discard correlation => s.onNet (·.step (.discard correlation))
  | .transactions transactions => { s with context := { s.context with transactions } }

/-- A process that has not called yet. -/
def initial : System Sender where
  context :=
    { net := ⟨fun _ => [], ⟨[], [], []⟩, [], [], [], []⟩, pending := .initial, userCode := 0, transactions := []
      lookup := none, sent := [], steps := 0 }
  calls := []
  answers := []
  cancelled := []
  returned := []

/-- The runs of a caller from its start. -/
def machine : Machine (System Sender) (Event Sender) where
  init s := s = initial
  admits := Admits env
  step := step env size

/-- What a get-reply returns: the reply, which has the descriptor in it. -/
def getReply (s : System Sender) (descriptor : Nat) (output : Option Payload) (flags : Flags) : Option Reply :=
  match Call.reply env descriptor output flags s.context with
  | .ok reply _ => some reply
  | .error _ _ => none

/-- The descriptors that are active are distinct; whatever is asked for, what is returned answers the call
that its descriptor denotes, which is the one that was asked for unless it was any, and neither was that
call cancelled nor its reply returned before; a reply is returned once, and not to a call that was cancelled. -/
structure Matched (s : System Sender) : Prop where
  distinct : (s.context.pending.actives.map (·.descriptor)).Nodup
  answer : ∀ descriptor output flags reply, s.getReply env descriptor output flags = some reply →
    (flag TPGETANY flags = false → descriptor ≠ 0 → reply.descriptor = descriptor) ∧
      ∃ call, s.denotes reply.descriptor = some call ∧ reply.correlation = call.correlation ∧
        call.correlation ∉ s.cancelled ∧ call.correlation ∉ s.returned ∧
        ∃ a ∈ s.answers, a.2.correlation = call.correlation ∧ reply = env.unmarshal a.2
  once : s.returned.Nodup
  cancelled : ∀ c ∈ s.returned, c ∉ s.cancelled

end System

omit [DecidableEq Sender] in
theorem Unused.awaited {n : Net Sender} {c : Uuid} (h : Unused n c) : Awaited n c := by
  have htransports := h.transports
  have hmessages := h.messages
  have hdiscarded := h.discarded
  simp only [List.map_append, List.mem_append, not_or] at htransports hmessages hdiscarded
  have hnil : ∀ ts : List Transport, c ∉ ts.map (·.correlation) → ofCorrelation c ts = [] := by
    intro ts hts
    unfold ofCorrelation
    rw [List.filter_eq_nil_iff]
    intro t ht hc
    exact hts (List.mem_map.2 ⟨t, ht, by simpa using hc⟩)
  refine ⟨fun s => hnil _ (h.outbox s), hnil _ htransports.1, hnil _ htransports.2,
    withCorrelation_eq_nil.2 hmessages.1, withCorrelation_eq_nil.2 hmessages.2, ?_, hdiscarded.2, ?_⟩
  · exact ⟨fun h' => absurd h' hdiscarded.1.1, fun h' => absurd h' hdiscarded.1.2⟩
  · rw [List.count_eq_zero_of_not_mem hdiscarded.1.1]
    exact Nat.zero_le _

/-! ## The replies that are on their way -/

/-- The calls that are not answered have nothing under way; the answers are alone with their correlation;
and only answers have the type of a reply. -/
structure Replies (size : TransportSize) (calls : List Uuid) (answers : List (Sender × Complete)) (n : Net Sender) :
    Prop where
  awaited : ∀ c ∈ calls, c ∉ answers.map (·.2.correlation) → Awaited n c
  alone : ∀ a ∈ answers, Alone size n a.1 a.2
  outbox : ∀ s, ∀ t ∈ n.outbox s, t.type = replyType → t.correlation ∈ answers.map (·.2.correlation)
  connector : ∀ t ∈ n.device.connector, t.type = replyType → t.correlation ∈ answers.map (·.2.correlation)
  cache : ∀ m ∈ n.device.cache, m.type = replyType → m.correlation ∈ answers.map (·.2.correlation)

theorem mem_cacheTransport {t : Transport} {m : Complete} : ∀ {cache : List Complete}, m ∈ cacheTransport cache t →
    (∃ m' ∈ cache, m.type = m'.type ∧ m.correlation = m'.correlation) ∨
      m.type = t.type ∧ m.correlation = t.correlation
  | [], h => by
    rw [List.mem_singleton.1 h]
    exact .inr ⟨rfl, rfl⟩
  | m' :: rest, h => by
    unfold cacheTransport at h
    split_ifs at h
    · rcases List.mem_cons.1 h with rfl | h
      · exact .inl ⟨m', List.mem_cons_self, rfl, rfl⟩
      · exact .inl ⟨m, List.mem_cons_of_mem _ h, rfl, rfl⟩
    · rcases List.mem_cons.1 h with rfl | h
      · exact .inl ⟨m, List.mem_cons_self, rfl, rfl⟩
      · rcases mem_cacheTransport h with ⟨m'', hm, heq⟩ | heq
        · exact .inl ⟨m'', List.mem_cons_of_mem _ hm, heq⟩
        · exact .inr heq

theorem next_accepts {d : Device} {selector : Selector} {reads : Nat} {m : Complete}
    (h : (d.next selector reads).1 = some m) : selector.accepts m = true := by
  have := List.find?_some (next_eq_some h)
  simp only [Bool.and_eq_true] at this
  exact this.2

namespace Replies

variable {size : TransportSize} {calls : List Uuid} {answers : List (Sender × Complete)} {n : Net Sender}

omit [DecidableEq Sender] in
theorem read {t : Transport} {rest : List Transport} (h : Replies size calls answers n)
    (hconnector : n.device.connector = t :: rest) : Replies size calls answers (n.read t rest) := by
  have ht : t ∈ n.device.connector := by rw [hconnector]; exact List.mem_cons_self
  refine ⟨fun c hc hnot => (h.awaited c hc hnot).read hconnector, fun a ha => (h.alone a ha).read hconnector,
    h.outbox, ?_, ?_⟩
  · intro u hu
    apply h.connector u
    rw [hconnector]
    have hrest : (n.read t rest).device.connector = rest := by simp [Net.read]
    rw [hrest] at hu
    exact List.mem_cons_of_mem _ hu
  · intro m hm htype
    have hcase : m ∈ n.device.cache ∨ m ∈ cacheTransport n.device.cache t := by
      unfold Net.read Device.take at hm
      simp only at hm
      split_ifs at hm
      · exact .inl hm
      · exact .inl hm
      · exact .inr hm
    rcases hcase with hm | hm
    · exact h.cache m hm htype
    · rcases mem_cacheTransport hm with ⟨m', hm', htype', hcorrelation⟩ | ⟨htype', hcorrelation⟩
      · rw [hcorrelation]
        exact h.cache m' hm' (htype' ▸ htype)
      · rw [hcorrelation]
        exact h.connector t ht (htype' ▸ htype)

omit [DecidableEq Sender] in
theorem handOut {r : Complete} {selector : Selector} (h : Replies size calls answers n)
    (hfind : n.device.cache.find? (fun m => m.complete && selector.accepts m) = some r) :
    Replies size calls answers (n.handOut selector r) :=
  ⟨fun c hc hnot => (h.awaited c hc hnot).handOut hfind, fun a ha => (h.alone a ha).handOut hfind, h.outbox,
    h.connector, fun m hm => h.cache m (List.mem_of_mem_eraseP hm)⟩

theorem next (h : Replies size calls answers n) (selector : Selector) (reads : Nat) :
    Replies size calls answers (n.step (.next selector reads)) := by
  obtain ⟨n', hn', ⟨-, hstep⟩ | ⟨r, -, hfind, hstep⟩⟩ :=
    Net.next_of_read (fun h hconnector => read h hconnector) h selector reads
  · rw [hstep]; exact hn'
  · rw [hstep]; exact hn'.handOut hfind

/-- What is handed out with the type of a reply is an answer. -/
theorem of_next (h : Replies size calls answers n) {selector : Selector} {reads : Nat} {m : Complete}
    (hm : (n.device.next selector reads).1 = some m) (htype : m.type = replyType) :
    m.correlation ∈ answers.map (·.2.correlation) := by
  obtain ⟨n', hn', ⟨hnone, -⟩ | ⟨r, hr, hfind, -⟩⟩ :=
    Net.next_of_read (fun h hconnector => read h hconnector) h selector reads
  · rw [hm] at hnone
    cases hnone
  · rw [hm] at hr
    cases hr
    exact hn'.cache m (List.mem_of_find?_eq_some hfind) htype

theorem discard (h : Replies size calls answers n) (c : Uuid) : Replies size calls answers (n.step (.discard c)) := by
  refine ⟨fun c' hc hnot => (h.awaited c' hc hnot).discard c, fun a ha => (h.alone a ha).discard c, h.outbox, ?_, ?_⟩
  · intro t ht
    have ht : t ∈ (n.device.discard c).connector := ht
    rw [discard_connector] at ht
    exact h.connector t ht
  · intro m hm
    have hm : m ∈ (n.device.discard c).cache := hm
    apply h.cache m
    unfold Device.discard at hm
    simp only at hm
    split at hm
    · exact List.mem_of_mem_eraseP hm
    · split_ifs at hm <;> exact hm

theorem put (h : Replies size calls answers n) (s : Sender) : Replies size calls answers (n.step (.put s)) := by
  cases hout : n.outbox s with
  | nil => rw [Net.step_put_nil hout]; exact h
  | cons t rest =>
    have hawaited := fun c hc hnot => (h.awaited c hc hnot).put s
    have halone := fun a ha => (h.alone a ha).put s
    have ht : t ∈ n.outbox s := by rw [hout]; exact List.mem_cons_self
    rw [Net.step_put_cons hout] at hawaited halone ⊢
    refine ⟨hawaited, halone, ?_, ?_, h.cache⟩
    · intro s' u hu
      have hu : u ∈ Function.update n.outbox s rest s' := hu
      by_cases hs : s' = s
      · subst hs
        rw [Function.update_self] at hu
        exact h.outbox s' u (by rw [hout]; exact List.mem_cons_of_mem _ hu)
      · rw [Function.update_of_ne hs] at hu
        exact h.outbox s' u hu
    · intro u hu
      rcases List.mem_append.1 hu with hu | hu
      · exact h.connector u hu
      · rw [List.mem_singleton.1 hu]
        exact h.outbox s t ht

/-- What a sender has to put, after it was given another message. -/
theorem outbox_send {s s' : Sender} {m : Complete} {t : Transport} (ht : t ∈ (n.send size s m).outbox s') :
    t ∈ n.outbox s' ∨ t ∈ Communication.put size m := by
  have ht : t ∈ Function.update n.outbox s (n.outbox s ++ Communication.put size m) s' := ht
  by_cases hs : s' = s
  · subst hs
    rw [Function.update_self] at ht
    exact List.mem_append.1 ht
  · rw [Function.update_of_ne hs] at ht
    exact .inl ht

/-- A message that is not a reply. -/
theorem other (h : Replies size calls answers n) (hanswers : ∀ a ∈ answers, a.2.correlation ∈ calls) {s : Sender}
    {m : Complete} (htype : m.type ≠ replyType) (hm : m.correlation ∉ calls) :
    Replies size calls answers (n.send size s m) := by
  refine ⟨fun c hc hnot => (h.awaited c hc hnot).send fun h' => hm (h' ▸ hc),
    fun a ha => (h.alone a ha).send fun h' => hm (h' ▸ hanswers a ha), ?_, h.connector, h.cache⟩
  intro s' t ht htype'
  rcases outbox_send ht with ht | ht
  · exact h.outbox s' t ht htype'
  · exact absurd ((type_of_mem_put ht).symm.trans htype') htype

/-- The answer of a call. -/
theorem answer (h : Replies size calls answers n) (s : Sender) {m : Complete} (hm : m.correlation ∈ calls)
    (hnot : m.correlation ∉ answers.map (·.2.correlation)) :
    Replies size calls (answers ++ [(s, m)]) (n.send size s m) := by
  have hmono : ∀ c, c ∈ answers.map (·.2.correlation) → c ∈ (answers ++ [(s, m)]).map (·.2.correlation) := by
    intro c hc
    rw [List.map_append]
    exact List.mem_append_left _ hc
  have hself : m.correlation ∈ (answers ++ [(s, m)]).map (·.2.correlation) := by simp
  refine ⟨?_, ?_, ?_, fun t ht htype => hmono _ (h.connector t ht htype),
    fun r hr htype => hmono _ (h.cache r hr htype)⟩
  · intro c hc hnot'
    exact (h.awaited c hc fun h' => hnot' (hmono c h')).send fun h' => hnot' (h' ▸ hself)
  · intro a ha
    rcases List.mem_append.1 ha with ha | ha
    · exact (h.alone a ha).send fun h' => hnot (h' ▸ List.mem_map_of_mem (f := (·.2.correlation)) ha)
    · rw [List.mem_singleton.1 ha]
      exact (h.awaited m.correlation hm hnot).alone s
  · intro s' t ht htype
    rcases outbox_send ht with ht | ht
    · exact hmono _ (h.outbox s' t ht htype)
    · rw [correlation_of_mem_put ht]
      exact hself

omit [DecidableEq Sender] in
/-- A call that is made with a correlation there is nothing of. -/
theorem issue (h : Replies size calls answers n) {c : Uuid} (hc : Awaited n c) :
    Replies size (calls ++ [c]) answers n := by
  refine ⟨?_, h.alone, h.outbox, h.connector, h.cache⟩
  intro c' hc' hnot
  rcases List.mem_append.1 hc' with hc' | hc'
  · exact h.awaited c' hc' hnot
  · rw [List.mem_singleton.1 hc']
    exact hc

theorem moves (h : Replies size calls answers n) {n' : Net Sender} (hn : NetMoves n n') :
    Replies size calls answers n' := by
  obtain ⟨es, rfl⟩ := hn
  induction es generalizing n with
  | nil => exact h
  | cons e es ih =>
    apply ih
    cases e with
    | put s => exact h.put s
    | next selector reads => exact h.next selector reads
    | discard c => exact h.discard c

end Replies

/-! ## What holds in every state -/

/-- What was handed out stays so. -/
theorem NetMoves.delivered {n n' : Net Sender} (h : NetMoves n n') {c : Uuid}
    (hc : c ∈ n.delivered.map (·.correlation)) : c ∈ n'.delivered.map (·.correlation) := by
  obtain ⟨es, rfl⟩ := h
  induction es generalizing n with
  | nil => exact hc
  | cons e es ih =>
    apply ih
    cases e with
    | put s =>
      cases hout : n.outbox s with
      | nil => rw [Net.step_put_nil hout]; exact hc
      | cons t rest => rw [Net.step_put_cons hout]; exact hc
    | next selector reads =>
      show c ∈ (n.delivered ++ _).map (·.correlation)
      rw [List.map_append]
      exact List.mem_append_left _ hc
    | discard c' => exact hc

theorem NetMoves.dropped {n n' : Net Sender} (h : NetMoves n n') {c : Uuid} (hc : c ∈ n.dropped) :
    c ∈ n'.dropped := by
  obtain ⟨es, rfl⟩ := h
  induction es generalizing n with
  | nil => exact hc
  | cons e es ih => exact ih (dropped_step hc e)

namespace System

variable {env : Surroundings} {size : TransportSize} {s : System Sender}

/-- The calls have correlations of their own and so have the answers; each active descriptor denotes the call
of its correlation; a call that is neither cancelled nor answered to the process has its descriptor active. -/
structure Sound (env : Surroundings) (size : TransportSize) (s : System Sender) : Prop where
  calls : (s.calls.map (·.correlation)).Nodup
  answers : (s.answers.map (·.2.correlation)).Nodup
  answered : ∀ a ∈ s.answers, ∃ call ∈ s.calls, call.correlation = a.2.correlation ∧
    (env.reply a.2.payload).descriptor = call.descriptor
  replies : Replies size (s.calls.map (·.correlation)) s.answers s.context.net
  active : ∀ d ∈ s.context.pending.actives, ∃ call, s.denotes d.descriptor = some call ∧
    call.correlation = d.correlation ∧ call.correlation ∉ s.returned
  waiting : ∀ call ∈ s.calls, call.correlation ∉ s.cancelled →
    call.correlation ∉ s.context.net.delivered.map (·.correlation) →
    ⟨call.descriptor, true, call.correlation⟩ ∈ s.context.pending.actives
  cancelled : ∀ c ∈ s.cancelled, c ∈ s.context.net.dropped ∨ c ∈ s.context.net.delivered.map (·.correlation)
  returned : ∀ c ∈ s.returned, c ∈ s.context.net.delivered.map (·.correlation) ∧ c ∉ s.cancelled
  once : s.returned.Nodup

omit [DecidableEq Sender] in
theorem denotes_some {descriptor : Nat} {call : Issued} (h : s.denotes descriptor = some call) :
    call ∈ s.calls ∧ call.descriptor = descriptor :=
  ⟨List.mem_reverse.1 (List.mem_of_find?_eq_some h), by simpa using List.find?_some h⟩

namespace Sound

omit [DecidableEq Sender] in
theorem eq_of_correlation (h : Sound env size s) {call call' : Issued} (hcall : call ∈ s.calls)
    (hcall' : call' ∈ s.calls) (hc : call.correlation = call'.correlation) : call = call' :=
  List.inj_on_of_nodup_map h.calls hcall hcall' hc

/-- A message that is taken for a descriptor answers the call the descriptor denotes. -/
theorem matches_taken (h : Sound env size s) {descriptor : Nat} {m : Complete} {t : Context Sender}
    (htaken : Taken s.context descriptor m t) :
    (descriptor ≠ 0 → (env.unmarshal m).descriptor = descriptor) ∧
      ∃ call, s.denotes (env.unmarshal m).descriptor = some call ∧ m.correlation = call.correlation ∧
        call.correlation ∉ s.cancelled ∧ call.correlation ∉ s.returned ∧
        ∃ a ∈ s.answers, a.2.correlation = call.correlation ∧ env.unmarshal m = env.unmarshal a.2 := by
  obtain ⟨selector, reads, hasked, hm, -, -⟩ := htaken
  have haccepts := next_accepts hm
  -- the message is an answer
  have hanswer : m.correlation ∈ s.answers.map (·.2.correlation) := by
    rcases hasked with ⟨-, rfl⟩ | ⟨d, hd, -, rfl⟩
    · exact h.replies.of_next hm (by simpa [Selector.accepts] using haccepts)
    · have hcorrelation : m.correlation = d.correlation := by simpa [Selector.accepts] using haccepts
      obtain ⟨call, hcall, hc, -⟩ := h.active d hd
      by_contra hnot
      refine (h.replies.awaited m.correlation ?_ hnot).of_next hm rfl
      rw [hcorrelation, ← hc]
      exact List.mem_map_of_mem (denotes_some hcall).1
  obtain ⟨a, ha, hac⟩ := List.mem_map.1 hanswer
  obtain ⟨hwhole, hdropped, hdelivered⟩ := (h.replies.alone a ha).of_next hm hac.symm
  obtain ⟨call, hcall, hc, hdescriptor⟩ := h.answered a ha
  have hunmarshal : env.unmarshal m = env.unmarshal a.2 := by rw [hwhole]; rfl
  have hr : (env.unmarshal m).descriptor = call.descriptor := by rw [hunmarshal, ← hdescriptor]; rfl
  rw [← hc] at hdropped hdelivered
  have hcancelled : call.correlation ∉ s.cancelled := fun h' => (h.cancelled _ h').elim hdropped hdelivered
  -- its descriptor is still the one of its call
  have hactive := h.waiting call hcall hcancelled hdelivered
  obtain ⟨call', hdenotes, hc', hreturned⟩ := h.active _ hactive
  obtain rfl := h.eq_of_correlation (denotes_some hdenotes).1 hcall hc'
  refine ⟨?_, call', by rw [hr]; exact hdenotes, by rw [← hac, hc], hcancelled, hreturned, a, ha, hc.symm, hunmarshal⟩
  intro hzero
  rcases hasked with ⟨hzero', -⟩ | ⟨d, hd, hdd, rfl⟩
  · exact absurd hzero' hzero
  · have hcorrelation : m.correlation = d.correlation := by simpa [Selector.accepts] using haccepts
    obtain ⟨call'', hdenotes', hc'', -⟩ := h.active d hd
    have hsame : call''.correlation = call'.correlation := by rw [hc'', ← hcorrelation, ← hac, hc]
    obtain rfl := h.eq_of_correlation (denotes_some hdenotes').1 hcall hsame
    rw [hr, (denotes_some hdenotes').2, hdd]

/-- Messages that are taken and discarded by others, or by a call that fails. -/
theorem failed (h : Sound env size s) {t : Context Sender} (ht : Failed s.context t) :
    Sound env size { s with context := t } :=
  ⟨h.calls, h.answers, h.answered, h.replies.moves ht.1, fun d hd => h.active d ((ht.2 d).1 hd),
    fun call hcall hcancelled hdelivered =>
      (ht.2 _).2 (h.waiting call hcall hcancelled fun h' => hdelivered (ht.1.delivered h')),
    fun c hc => (h.cancelled c hc).imp ht.1.dropped ht.1.delivered,
    fun c hc => ⟨ht.1.delivered (h.returned c hc).1, (h.returned c hc).2⟩, h.once⟩

theorem onNet (h : Sound env size s) (e : Communication.Event Sender) : Sound env size (s.onNet (·.step e)) :=
  h.failed ⟨.step _ e, fun _ => Iff.rfl⟩

omit [DecidableEq Sender] in
theorem denotes_append (calls : List Issued) (call : Issued) (descriptor : Nat) :
    (calls ++ [call]).reverse.find? (·.descriptor == descriptor) =
      if call.descriptor = descriptor then some call else calls.reverse.find? (·.descriptor == descriptor) := by
  rw [List.reverse_append, List.reverse_singleton, List.singleton_append, List.find?_cons]
  by_cases h : call.descriptor = descriptor
  · simp [h]
  · have hb : (call.descriptor == descriptor) = false := by simpa using h
    rw [hb, if_neg h]

/-- A call that is made. -/
theorem called (h : Sound env size s) {flags : Flags} {c : Uuid} {descriptor : Nat} {t : Context Sender}
    (hflags : ¬ flag TPNOREPLY flags = true) (hunused : Unused s.context.net c)
    (hnew : c ∉ s.calls.map (·.correlation)) (ht : Reserved flags c s.context descriptor t) :
    Sound env size { s with context := t, calls := s.calls ++ [⟨descriptor, c⟩] } := by
  obtain ⟨hnet, hreserve⟩ := ht
  rw [if_neg hflags] at hreserve
  obtain ⟨hnot, hactives⟩ := s.context.pending.reserve_spec c
  rw [← hreserve] at hnot hactives
  have hdelivered : c ∉ s.context.net.delivered.map (·.correlation) := fun h' =>
    hunused.messages (by rw [List.map_append]; exact List.mem_append_right _ h')
  refine ⟨?_, h.answers, ?_, ?_, ?_, ?_, fun c' hc' => (h.cancelled c' hc').imp hnet.dropped hnet.delivered,
    fun c' hc' => ⟨hnet.delivered (h.returned c' hc').1, (h.returned c' hc').2⟩, h.once⟩
  · rw [List.map_append, List.nodup_append]
    refine ⟨h.calls, List.nodup_singleton _, ?_⟩
    rintro c' hc' _ hmem rfl
    have hmem : c' = c := List.mem_singleton.1 hmem
    exact hnew (hmem ▸ hc')
  · intro a ha
    obtain ⟨call, hcall, hc⟩ := h.answered a ha
    exact ⟨call, List.mem_append_left _ hcall, hc⟩
  · show Replies size ((s.calls ++ [(⟨descriptor, c⟩ : Issued)]).map (·.correlation)) s.answers t.net
    rw [List.map_append]
    exact (h.replies.issue hunused.awaited).moves hnet
  · intro d hd
    show ∃ call, (s.calls ++ [(⟨descriptor, c⟩ : Issued)]).reverse.find? (·.descriptor == d.descriptor) = some call ∧ _
    rw [denotes_append]
    rcases (hactives d).1 hd with hd | rfl
    · obtain ⟨call, hcall, hc⟩ := h.active d hd
      rw [if_neg fun h' => hnot d hd h'.symm]
      exact ⟨call, hcall, hc⟩
    · rw [if_pos rfl]
      exact ⟨_, rfl, rfl, fun h' => hdelivered (h.returned c h').1⟩
  · intro call hcall hcancelled hdelivered'
    rw [hactives]
    rcases List.mem_append.1 hcall with hcall | hcall
    · exact .inl (h.waiting call hcall hcancelled fun h' => hdelivered' (hnet.delivered h'))
    · rw [List.mem_singleton.1 hcall]
      exact .inr rfl

/-- A reply that is taken, and returned unless it is left by an exception. -/
theorem consumed (h : Sound env size s) {descriptor : Nat} {m : Complete} {t : Context Sender}
    (ht : Consumed env s.context descriptor m t) {returned : List Uuid}
    (hreturned : returned = s.returned ∨ returned = s.returned ++ [m.correlation]) :
    Sound env size { s with context := t, returned } := by
  obtain ⟨u, htaken, hnet', hreleased⟩ := ht
  obtain ⟨-, call, hdenotes, hc, hcancelled, hnot, -⟩ := h.matches_taken htaken
  obtain ⟨selector, reads, -, hm, hstep, hpending⟩ := htaken
  rw [hpending] at hreleased
  rw [hstep] at hnet'
  have hnet : NetMoves s.context.net t.net := (NetMoves.step _ (.next selector reads)).trans hnet'
  have hdelivered : call.correlation ∈ t.net.delivered.map (·.correlation) := by
    apply hnet'.delivered
    show call.correlation ∈ (s.context.net.delivered ++ (s.context.net.device.next selector reads).1.toList).map _
    rw [hm, List.map_append, ← hc]
    exact List.mem_append_right _ (List.mem_singleton_self _)
  -- the descriptor that is released is the one of the call
  have hother : ∀ call' : Issued, s.denotes call'.descriptor = some call' →
      call'.descriptor = (env.unmarshal m).descriptor → call' = call := by
    intro call' hcall' hsame
    rw [hsame, hdenotes] at hcall'
    exact (Option.some.inj hcall').symm
  refine ⟨h.calls, h.answers, h.answered, h.replies.moves hnet, ?_, ?_,
    fun c hc => (h.cancelled c hc).imp hnet.dropped hnet.delivered, ?_, ?_⟩
  · intro d hd
    obtain ⟨hd, hne⟩ := (hreleased d).1 hd
    obtain ⟨call', hcall', hc', hnot'⟩ := h.active d hd
    refine ⟨call', hcall', hc', ?_⟩
    rcases hreturned with rfl | rfl
    · exact hnot'
    · rw [List.mem_append, List.mem_singleton]
      rintro (h' | h')
      · exact hnot' h'
      · obtain rfl := h.eq_of_correlation (denotes_some hcall').1 (denotes_some hdenotes).1 (h'.trans hc)
        exact hne ((denotes_some hcall').2.symm.trans (denotes_some hdenotes).2)
  · intro call' hcall' hcancelled' hdelivered'
    have hactive := h.waiting call' hcall' hcancelled' fun h' => hdelivered' (hnet.delivered h')
    refine (hreleased _).2 ⟨hactive, ?_⟩
    intro hsame
    obtain ⟨call'', hcall'', hc'', -⟩ := h.active _ hactive
    obtain rfl := h.eq_of_correlation (denotes_some hcall'').1 hcall' hc''
    obtain rfl := hother call'' hcall'' hsame
    exact hdelivered' hdelivered
  · intro c hc'
    have hold : ∀ c ∈ s.returned, c ∈ t.net.delivered.map (·.correlation) ∧ c ∉ s.cancelled :=
      fun c hc => ⟨hnet.delivered (h.returned c hc).1, (h.returned c hc).2⟩
    rcases hreturned with rfl | rfl
    · exact hold c hc'
    · rcases List.mem_append.1 hc' with hc' | hc'
      · exact hold c hc'
      · rw [List.mem_singleton.1 hc', hc]
        exact ⟨hdelivered, hcancelled⟩
  · rcases hreturned with rfl | rfl
    · exact h.once
    · rw [List.nodup_append]
      refine ⟨h.once, List.nodup_singleton _, ?_⟩
      rintro c hc' _ hmem rfl
      rw [List.mem_singleton.1 hmem, hc] at hc'
      exact hnot hc'

/-- A call that is cancelled. -/
theorem cancels (h : Sound env size s) {d : Descriptor} {t : Context Sender} (hd : d ∈ s.context.pending.actives)
    (hnet : t.net = s.context.net.step (.discard d.correlation))
    (hreleased : Released s.context.pending t.pending d.descriptor) :
    Sound env size { s with
      context := t, cancelled := s.cancelled ++ (s.denotes d.descriptor).toList.map (·.correlation) } := by
  obtain ⟨call, hdenotes, hc, hnot⟩ := h.active d hd
  have hcancelled : s.cancelled ++ (s.denotes d.descriptor).toList.map (·.correlation) =
      s.cancelled ++ [call.correlation] := by
    rw [hdenotes]
    rfl
  have hmoves : NetMoves s.context.net t.net := hnet ▸ NetMoves.step _ (.discard d.correlation)
  rw [hcancelled]
  refine ⟨h.calls, h.answers, h.answered, h.replies.moves hmoves, fun d' hd' => h.active d' ((hreleased d').1 hd').1,
    ?_, ?_, ?_, h.once⟩
  · intro call' hcall' hcancelled' hdelivered'
    have hactive := h.waiting call' hcall' (fun h' => hcancelled' (List.mem_append_left _ h'))
      fun h' => hdelivered' (hmoves.delivered h')
    refine (hreleased _).2 ⟨hactive, ?_⟩
    intro hsame
    obtain ⟨call'', hcall'', hc'', -⟩ := h.active _ hactive
    have hcall'' : s.denotes call'.descriptor = some call'' := hcall''
    have hsame : call'.descriptor = d.descriptor := hsame
    rw [hsame, hdenotes] at hcall''
    cases hcall''
    have hc'' : call.correlation = call'.correlation := hc''
    apply hcancelled'
    show call'.correlation ∈ s.cancelled ++ [call.correlation]
    rw [← hc'']
    exact List.mem_append_right _ (List.mem_singleton_self _)
  · intro c hc'
    rcases List.mem_append.1 hc' with hc' | hc'
    · exact (h.cancelled c hc').imp hmoves.dropped hmoves.delivered
    · rw [List.mem_singleton.1 hc', hc, hnet]
      by_cases hin : d.correlation ∈ s.context.net.delivered.map (·.correlation)
      · exact .inr hin
      · left
        simp only [Net.step, if_neg hin]
        exact List.mem_append_right _ (List.mem_singleton_self _)
  · intro c hc'
    refine ⟨hmoves.delivered (h.returned c hc').1, ?_⟩
    rw [List.mem_append, List.mem_singleton]
    rintro (h' | rfl)
    · exact (h.returned c hc').2 h'
    · exact hnot hc'

theorem answer (h : Sound env size s) {sender : Sender} {m : Complete} (hadmits : s.Admits env (.answer sender m)) :
    Sound env size { s.onNet (·.send size sender m) with answers := s.answers ++ [(sender, m)] } := by
  obtain ⟨-, hnew, call, hcall, hc, hdescriptor⟩ := hadmits
  have hin : m.correlation ∈ s.calls.map (·.correlation) := hc ▸ List.mem_map_of_mem hcall
  refine ⟨h.calls, ?_, ?_, h.replies.answer sender hin hnew, h.active, h.waiting, h.cancelled, h.returned, h.once⟩
  · rw [List.map_append, List.nodup_append]
    refine ⟨h.answers, List.nodup_singleton _, ?_⟩
    rintro c hc' _ hmem rfl
    have hmem : c = m.correlation := List.mem_singleton.1 hmem
    exact hnew (hmem ▸ hc')
  · intro a ha
    rcases List.mem_append.1 ha with ha | ha
    · exact h.answered a ha
    · rw [List.mem_singleton.1 ha]
      exact ⟨call, hcall, hc, hdescriptor⟩

theorem other (h : Sound env size s) {sender : Sender} {m : Complete} (hadmits : s.Admits env (.other sender m)) :
    Sound env size (s.onNet (·.send size sender m)) := by
  refine ⟨h.calls, h.answers, h.answered, h.replies.other ?_ hadmits.1 hadmits.2, h.active, h.waiting, h.cancelled,
    h.returned, h.once⟩
  intro a ha
  obtain ⟨call, hcall, hc, -⟩ := h.answered a ha
  exact hc ▸ List.mem_map_of_mem hcall

/-- What one event keeps. -/
theorem step (h : Sound env size s) {e : Event Sender} (he : s.Admits env e) : Sound env size (s.step env size e) := by
  have hrefl : Quietly s.context s.context := Std.Refl.refl _
  cases e with
  | put sender => exact h.onNet _
  | answer sender m => exact h.answer he
  | other sender m => exact h.other he
  | async lookupCorrelation correlation service input flags =>
    have hspec := async_spec env lookupCorrelation correlation service input flags s.context s.context hrefl
    unfold System.step
    simp only
    cases hr : Call.async env lookupCorrelation correlation service input flags s.context with
    | ok descriptor t =>
      rw [hr] at hspec
      by_cases hflags : flag TPNOREPLY flags = true
      · simp only [hflags, if_true]
        have hpending := hspec.2
        rw [if_pos hflags] at hpending
        exact h.failed ⟨hspec.1, fun d => by rw [hpending.2]⟩
      · simp only [hflags]
        exact h.called hflags he.1 he.2 hspec
    | error e t =>
      rw [hr] at hspec
      exact h.failed hspec
  | reply descriptor output flags =>
    have hspec := reply_spec env descriptor output flags s.context s.context rfl
    unfold System.step
    simp only
    cases hr : Call.reply env descriptor output flags s.context with
    | ok reply t =>
      rw [hr] at hspec
      obtain ⟨m, rfl, hm⟩ := hspec
      exact h.consumed hm (.inr rfl)
    | error e t =>
      rw [hr] at hspec
      rcases hspec with hspec | ⟨m, hm⟩
      · exact h.failed hspec.failed
      · exact h.consumed hm (.inl rfl)
  | cancel descriptor =>
    have hspec := cancel_spec descriptor s.context s.context rfl
    unfold System.step
    simp only
    cases hr : Call.cancel descriptor s.context with
    | ok _ t =>
      rw [hr] at hspec
      obtain ⟨d, hd, rfl, hnet, hreleased⟩ := hspec
      exact h.cancels hd hnet hreleased
    | error e t =>
      rw [hr] at hspec
      rw [show t = s.context from hspec]
      exact h
  | take selector reads => exact h.onNet _
  | discard correlation => exact h.onNet _
  | transactions transactions => exact h.failed ⟨.refl _, fun _ => Iff.rfl⟩

end Sound

omit [DecidableEq Sender] in
theorem sound_initial : Sound env size (initial : System Sender) := by
  refine ⟨.nil, .nil, nofun, ⟨nofun, nofun, fun _ _ => nofun, nofun, nofun⟩, ?_, nofun, nofun, nofun, .nil⟩
  have hnone : (initial : System Sender).context.pending.actives = [] := rfl
  rw [hnone]
  exact fun _ => nofun

/-- Whatever a process does and whenever the replies arrive, they are matched with its calls. -/
theorem matched_of_reachable {s : System Sender} (h : (machine env size).Reachable s) : s.Matched env := by
  have hsound : Sound env size s := by
    apply h.invariant
    · rintro s rfl
      exact sound_initial
    · intro s e hs he
      exact hs.step he
  refine ⟨s.context.pending.nodup_actives, ?_, hsound.once, fun c hc => (hsound.returned c hc).2⟩
  intro descriptor output flags reply hreply
  have hspec := reply_spec env descriptor output flags s.context s.context rfl
  unfold getReply at hreply
  cases hr : Call.reply env descriptor output flags s.context with
  | error e t =>
    rw [hr] at hreply
    cases hreply
  | ok r t =>
    rw [hr] at hreply hspec
    cases hreply
    obtain ⟨m, rfl, u, htaken, -⟩ := hspec
    obtain ⟨hasked, hmatch⟩ := hsound.matches_taken htaken
    refine ⟨fun hflag hzero => ?_, hmatch⟩
    rw [hflag] at hasked
    exact hasked hzero

/-! ### A descriptor that is used again -/

instance {n : Net Unit} {c : Uuid} : Decidable (Unused n c) :=
  decidable_of_iff (c ∉ (n.outbox ()).map (·.correlation) ∧
    c ∉ (n.received ++ n.device.connector).map (·.correlation) ∧
    c ∉ (n.device.cache ++ n.delivered).map (·.correlation) ∧ c ∉ n.device.discarded ++ n.dropped ++ n.redundant)
    ⟨fun h => ⟨fun _ => h.1, h.2.1, h.2.2.1, h.2.2.2⟩, fun h => ⟨h.outbox (), h.transports, h.messages, h.discarded⟩⟩

instance (env : Surroundings) : ∀ (s : System Unit) (e : Event Unit), Decidable (s.Admits env e)
  | _, .put _ => .isTrue trivial
  | s, .answer _ m => inferInstanceAs (Decidable (m.type = replyType ∧ m.correlation ∉ s.answers.map (·.2.correlation) ∧
      ∃ call ∈ s.calls, call.correlation = m.correlation ∧ (env.reply m.payload).descriptor = call.descriptor))
  | s, .other _ m => inferInstanceAs (Decidable (m.type ≠ replyType ∧ m.correlation ∉ s.calls.map (·.correlation)))
  | s, .async _ c _ _ _ => inferInstanceAs (Decidable (Unused s.context.net c ∧ c ∉ s.calls.map (·.correlation)))
  | _, .reply _ _ _ => .isTrue trivial
  | _, .cancel _ => .isTrue trivial
  | _, .take _ _ => .isTrue trivial
  | _, .discard _ => .isTrue trivial
  | _, .transactions _ => .isTrue trivial

instance (env : Surroundings) (size : TransportSize) :
    ∀ (s : System Unit) (e : Event Unit), Decidable ((machine env size).admits s e) :=
  fun s e => inferInstanceAs (Decidable (s.Admits env e))

/-- Nothing fails, each service has an idle instance, and a reply is its descriptor. -/
def plain : Surroundings where
  reads _ := 10
  fails _ := false
  lookupReply _ := ⟨⟨"service", []⟩, ⟨5, 5⟩, .idle⟩
  reply payload := ⟨0, payload.length, 0, 0, ⟨"", []⟩, ⟨none, .active⟩⟩

/-- A call is cancelled and its descriptor given to another one, before both are answered. -/
def reused : List (Event Unit) :=
  [.other () (.make 2004 101 [0]), .put (), .async 101 1 "service" ⟨"", []⟩ 0, .cancel 1,
   .other () (.make 2004 102 [0]), .put (), .async 102 2 "service" ⟨"", []⟩ 0,
   .answer () (.make replyType 1 [0]), .answer () (.make replyType 2 [0]), .put (), .put (), .reply 1 none 0]

theorem reused_matched : ∃ s : System Unit, (machine plain ipcSize).Reachable s ∧ s.cancelled = [1] ∧
    s.returned = [2] ∧ s.Matched plain := by
  have hreach : (machine plain ipcSize).Reachable (reused.foldl (machine plain ipcSize).step initial) := by
    have hinit : (machine plain ipcSize).init (initial : System Unit) := rfl
    apply Machine.Reachable.foldl (.of_init hinit)
    decide +kernel
  exact ⟨_, hreach, by decide +kernel, by decide +kernel, matched_of_reachable hreach⟩

end System

end Casual.Call

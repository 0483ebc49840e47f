/-
`common/message/pending.h`: a message that is sent to its targets later, and the pumps that try to, of the
group, the broker and the forward cache. Each target is tried until it has the message or is gone.
-/
import Casual.Communication.Message
import Casual.Lib.Run

namespace Casual.Communication.Pending

open Casual.Lib

/-! ## Sending -/

/-- What `msgsnd` answers, when it does not wait. -/
inductive Native
  | accepted | full | unavailable
  deriving DecidableEq, Repr

/-- What it answers to each of the calls, by their number, for each queue. -/
abbrev Answers := Nat → Nat → Native

/-- A put ends with the message in the queue, or when this is full, or when it is gone. -/
inductive Outcome
  | sent | full | gone
  deriving DecidableEq, Repr

/-- A put of a message to a queue, and the transports that the queue has taken. -/
structure Put where
  message : Nat
  queue : Nat
  outcome : Outcome
  taken : List Transport

/-- The calls so far, and the puts that were done with them. -/
structure World where
  calls : Nat
  puts : List Put

/-- The send to all targets, or to the first one that takes the message. -/
inductive Targets
  | all | first
  deriving DecidableEq, Repr

/-- `Message`, with a number that tells it from others. -/
structure Message where
  id : Nat
  targets : List Nat
  complete : Complete
  task : Targets

/-- No target is left. -/
def Message.sent (m : Message) : Bool := m.targets.isEmpty

section

variable (answers : Answers)

/-- The loop of `outbound::Device::put`. -/
def putParts (queue : Nat) : List Transport → Nat → Outcome × List Transport × Nat
  | [], calls => (.sent, [], calls)
  | t :: ts, calls =>
    match answers calls queue with
    | .accepted =>
      let r := putParts queue ts (calls + 1)
      (r.1, t :: r.2.1, r.2.2)
    | .full => (.full, [], calls + 1)
    | .unavailable => (.gone, [], calls + 1)

variable (size : TransportSize)

/-- The `send` of `pending::send`: whether the message is there, or the queue is not. -/
def sendTo (m : Message) (queue : Nat) (w : World) : Bool × World :=
  let r := putParts answers queue (put size m.complete) w.calls
  (r.1 != .full, ⟨r.2.2, w.puts ++ [⟨m.id, queue, r.1, r.2.1⟩]⟩)

end

/-- `range::remove_if` with a predicate that does something: what is left. -/
def removeIf {α σ : Type} (p : α → σ → (Bool × α) × σ) : List α → σ → List α × σ
  | [], s => ([], s)
  | a :: rest, s =>
    let r := p a s
    let left := removeIf p rest r.2
    (if r.1.1 then left.1 else r.1.2 :: left.1, left.2)

/-- `range::find_if`: whether something is found. -/
def findIf {α σ : Type} (p : α → σ → Bool × σ) : List α → σ → Bool × σ
  | [], s => (false, s)
  | a :: rest, s =>
    let r := p a s
    if r.1 then r else findIf p rest r.2

section

variable (answers : Answers) (size : TransportSize)

/-- `pending::send`: whether the message is sent, and what is left of it. -/
def send (m : Message) (w : World) : (Bool × Message) × World :=
  match m.task with
  | .all =>
    let r := removeIf (fun queue w => (((sendTo answers size m queue w).1, queue), (sendTo answers size m queue w).2)) m.targets w
    (({ m with targets := r.1 }.sent, { m with targets := r.1 }), r.2)
  | .first =>
    let r := findIf (sendTo answers size m) m.targets w
    if r.1 then ((true, { m with targets := [] }), r.2) else ((m.sent, m), r.2)

/-! ## The pumps -/

/-- The pending messages, what each message was for, and the world. -/
structure State where
  pending : List Message
  posted : List (List Nat × Complete)
  world : World

/-- What is done with pending messages: `replies` of the broker is a partition, which tests the messages in some order and
leaves those that are not sent in some order. -/
inductive Event
  | post (targets : List Nat) (complete : Complete) (task : Targets)
  | sendOrPost (targets : List Nat) (complete : Complete) (task : Targets)
  | persistent
  | replies (order remain : List Message)

namespace State

/-- A new message. -/
def message (s : State) (targets : List Nat) (complete : Complete) (task : Targets) : Message :=
  ⟨s.posted.length, targets, complete, task⟩

/-- A message is posted, or the pending ones are tried. -/
def step (s : State) : Event → State
  | .post targets complete task =>
    { s with pending := s.pending ++ [s.message targets complete task], posted := s.posted ++ [(targets, complete)] }
  | .sendOrPost targets complete task =>
    let r := send answers size (s.message targets complete task) s.world
    { pending := if r.1.1 then s.pending else s.pending ++ [r.1.2]
      posted := s.posted ++ [(targets, complete)]
      world := r.2 }
  | .persistent =>
    let r := removeIf (send answers size) s.pending s.world
    { s with pending := r.1, world := r.2 }
  | .replies order remain => { s with pending := remain, world := (removeIf (send answers size) order s.world).2 }

/-- A message has a set of targets, or one that is the first. -/
def Admits (s : State) : Event → Prop
  | .post targets _ task => targets.Nodup ∧ (task = .first → targets.length ≤ 1)
  | .sendOrPost targets _ task => targets.Nodup ∧ (task = .first → targets.length ≤ 1)
  | .persistent => True
  | .replies order remain => order.Perm s.pending ∧ remain.Perm (removeIf (send answers size) order s.world).1

end State

/-- The runs from when nothing has been posted. -/
def machine : Machine State Event := ⟨fun s => s = ⟨[], [], ⟨0, []⟩⟩, State.Admits answers size, State.step answers size⟩

end

/-! ## What is right -/

/-- How the puts of a message to a queue have ended. -/
def World.tries (w : World) (id queue : Nat) : List Outcome :=
  (w.puts.filter fun p => p.message = id ∧ p.queue = queue).map Put.outcome

/-- A target of a message is still tried. -/
def Waits (pending : List Message) (id queue : Nat) : Prop := ∃ m ∈ pending, m.id = id ∧ queue ∈ m.targets

/-- While a target waits it was full whenever it was tried; one that does not has the message or is gone, since it was
tried the last time. -/
def Fate (waits : Prop) (tries : List Outcome) : Prop :=
  (waits ∧ ∀ o ∈ tries, o = .full) ∨
  (¬ waits ∧ ∃ before o, tries = before ++ [o] ∧ (∀ o ∈ before, o = .full) ∧ o ≠ .full)

/-- A put that ends well has put all transports, any other not all of them; and only a queue that is not there is gone. -/
structure Put.Right (answers : Answers) (size : TransportSize) (complete : Complete) (p : Put) : Prop where
  sent : p.outcome = .sent → p.taken = put size complete
  unsent : p.outcome ≠ .sent → p.taken <+: put size complete ∧ p.taken ≠ put size complete
  gone : p.outcome = .gone → ∃ n, answers n p.queue = .unavailable

section

variable {answers : Answers} {size : TransportSize}

/-! ## One attempt -/

theorem right_putParts (complete : Complete) (id queue : Nat) : ∀ (ts : List Transport) (calls : Nat),
    let r := putParts answers queue ts calls
    (r.1 = .sent → r.2.1 = ts) ∧ (r.1 ≠ .sent → r.2.1 <+: ts ∧ r.2.1 ≠ ts) ∧
      (r.1 = .gone → ∃ n, answers n queue = .unavailable)
  | [], calls => ⟨fun _ => rfl, fun h => absurd rfl h, nofun⟩
  | t :: ts, calls => by
    unfold putParts
    cases hanswer : answers calls queue with
    | accepted =>
      obtain ⟨hsent, hunsent, hgone⟩ := right_putParts complete id queue ts (calls + 1)
      dsimp only
      refine ⟨fun h => by rw [hsent h], fun h => ?_, hgone⟩
      obtain ⟨hpre, hne⟩ := hunsent h
      exact ⟨(List.cons_prefix_cons).2 ⟨rfl, hpre⟩, fun heq => hne (List.cons.inj heq).2⟩
    | full => exact ⟨nofun, fun _ => ⟨List.nil_prefix, nofun⟩, nofun⟩
    | unavailable => exact ⟨nofun, fun _ => ⟨List.nil_prefix, nofun⟩, fun _ => ⟨calls, hanswer⟩⟩

/-- One put to each of some targets, of which those are left that were full. -/
structure Tried (answers : Answers) (size : TransportSize) (m : Message) (targets left : List Nat) (w w' : World)
    (puts : List Put) : Prop where
  world : w'.puts = w.puts ++ puts
  queues : puts.map Put.queue = targets
  right : ∀ p ∈ puts, p.message = m.id ∧ p.Right answers size m.complete
  left : left = (puts.filter fun p => p.outcome = .full).map Put.queue

theorem tried_nil (m : Message) (w : World) : Tried answers size m [] [] w w [] :=
  ⟨(List.append_nil _).symm, rfl, nofun, rfl⟩

theorem tried_cons (m : Message) (queue : Nat) (w : World) {targets left : List Nat} {w' : World} {puts : List Put}
    (h : Tried answers size m targets left (sendTo answers size m queue w).2 w' puts) :
    ∃ puts', Tried answers size m (queue :: targets)
      (if (sendTo answers size m queue w).1 then left else queue :: left) w w' puts' := by
  obtain ⟨hsent, hunsent, hgone⟩ :=
    @right_putParts answers m.complete m.id queue (put size m.complete) w.calls
  refine ⟨⟨m.id, queue, (putParts answers queue (put size m.complete) w.calls).1,
    (putParts answers queue (put size m.complete) w.calls).2.1⟩ :: puts, ?_, ?_, ?_, ?_⟩
  · rw [h.world]
    unfold sendTo
    rw [List.append_assoc, List.singleton_append]
  · rw [List.map_cons, h.queues]
  · intro p hp
    rcases List.mem_cons.1 hp with rfl | hp
    · exact ⟨rfl, hsent, hunsent, hgone⟩
    · exact h.right p hp
  · rw [h.left, List.filter_cons]
    cases houtcome : (putParts answers queue (put size m.complete) w.calls).1 <;> simp [sendTo, houtcome]

theorem tried_removeIf (m : Message) : ∀ (targets : List Nat) (w : World),
    ∃ puts, Tried answers size m targets
      (removeIf (fun queue w => (((sendTo answers size m queue w).1, queue), (sendTo answers size m queue w).2)) targets w).1 w
      (removeIf (fun queue w => (((sendTo answers size m queue w).1, queue), (sendTo answers size m queue w).2)) targets w).2 puts
  | [], w => ⟨[], tried_nil m w⟩
  | queue :: targets, w => by
    obtain ⟨puts, h⟩ := tried_removeIf m targets (sendTo answers size m queue w).2
    exact tried_cons m queue w h

/-- A message is tried on each of its targets, and is sent when none of them is left. -/
theorem tried_send {m : Message} (hfirst : m.task = .first → m.targets.length ≤ 1) (w : World) :
    ∃ left puts, Tried answers size m m.targets left w (send answers size m w).2 puts ∧
      (send answers size m w).1 = (left.isEmpty, { m with targets := left }) := by
  unfold send
  cases htask : m.task with
  | all =>
    obtain ⟨puts, h⟩ := @tried_removeIf answers size m m.targets w
    exact ⟨_, puts, h, by simp only [Message.sent]⟩
  | first =>
    have hlength := hfirst htask
    cases htargets : m.targets with
    | nil =>
      refine ⟨[], [], tried_nil m w, ?_⟩
      simp only [findIf, Message.sent, htargets]
      rw [← htargets, ← htask]
      rfl
    | cons queue targets =>
      rw [htargets] at hlength
      obtain rfl : targets = [] := List.eq_nil_of_length_eq_zero (by simpa using hlength)
      obtain ⟨puts, h⟩ := @tried_cons answers size m queue w [] [] _ [] (tried_nil m _)
      by_cases hsent : (sendTo answers size m queue w).1 = true
      · rw [if_pos hsent] at h
        refine ⟨[], puts, ?_, ?_⟩
        · simpa [findIf, hsent] using h
        · simp [findIf, hsent]
      · rw [if_neg hsent] at h
        refine ⟨[queue], puts, ?_, ?_⟩
        · simpa [findIf, hsent] using h
        · have hm : m = ⟨m.id, [queue], m.complete, .first⟩ := by rw [← htargets, ← htask]
          simpa [findIf, hsent, Message.sent, htargets] using hm

/-! ## The accounts -/

/-- What is accounted for of the messages: those that are pending have targets that they were for and that are left, and
each target that a message was for has its fate. -/
structure Accounted (answers : Answers) (size : TransportSize) (posted : List (List Nat × Complete)) (pending : List Message)
    (w : World) : Prop where
  ids : (pending.map Message.id).Nodup
  known : ∀ m ∈ pending, ∃ targets, posted[m.id]? = some (targets, m.complete) ∧ m.targets ⊆ targets ∧ m.targets.Nodup ∧
    (m.task = .first → m.targets.length ≤ 1)
  fate : ∀ id targets complete queue, posted[id]? = some (targets, complete) → queue ∈ targets →
    Fate (Waits pending id queue) (w.tries id queue)
  right : ∀ p ∈ w.puts, ∃ targets complete, posted[p.message]? = some (targets, complete) ∧ p.queue ∈ targets ∧
    p.Right answers size complete

theorem waits_perm {pending pending' : List Message} (h : pending.Perm pending') (id queue : Nat) :
    Waits pending id queue ↔ Waits pending' id queue := by
  unfold Waits
  simp only [h.mem_iff]

theorem Accounted.perm {posted : List (List Nat × Complete)} {pending pending' : List Message} {w : World}
    (h : Accounted answers size posted pending w) (hperm : pending.Perm pending') :
    Accounted answers size posted pending' w := by
  refine ⟨(hperm.map Message.id).nodup_iff.1 h.ids, fun m hm => h.known m (hperm.mem_iff.2 hm), ?_, h.right⟩
  intro id targets complete queue hposted hqueue
  rw [← propext (waits_perm hperm id queue)]
  exact h.fate id targets complete queue hposted hqueue

theorem tries_of_puts {w w' : World} {puts : List Put} (h : w'.puts = w.puts ++ puts) (id queue : Nat) :
    w'.tries id queue = w.tries id queue ++ (puts.filter fun p => p.message = id ∧ p.queue = queue).map Put.outcome := by
  unfold World.tries
  rw [h, List.filter_append, List.map_append]

/-- Of puts to different queues one is to a queue. -/
theorem filter_queue {queue : Nat} : ∀ {puts : List Put}, (puts.map Put.queue).Nodup → queue ∈ puts.map Put.queue →
    ∃ p ∈ puts, p.queue = queue ∧ (puts.filter fun p => p.queue = queue) = [p]
  | p :: puts, hnodup, hmem => by
    rw [List.map_cons, List.nodup_cons] at hnodup
    by_cases hp : p.queue = queue
    · refine ⟨p, List.mem_cons_self, hp, ?_⟩
      rw [List.filter_cons_of_pos (by simpa using hp), List.cons_eq_cons]
      refine ⟨rfl, List.filter_eq_nil_iff.2 ?_⟩
      intro p' hp'
      have hne : p'.queue ≠ queue := fun heq => hnodup.1 (hp ▸ heq ▸ List.mem_map_of_mem hp')
      simpa using hne
    · rw [List.map_cons, List.mem_cons] at hmem
      obtain ⟨p', hp', hqueue, hfilter⟩ := filter_queue hnodup.2 (hmem.resolve_left fun heq => hp heq.symm)
      refine ⟨p', List.mem_cons_of_mem _ hp', hqueue, ?_⟩
      rw [List.filter_cons_of_neg (by simpa using hp), hfilter]

/-- A message with targets left takes the place of the message. -/
theorem waits_split {kept rest : List Message} {m m' : Message} (hids : ((kept ++ m :: rest).map Message.id).Nodup)
    (hid : m'.id = m.id) (id queue : Nat) :
    (id ≠ m.id → (Waits (kept ++ m' :: rest) id queue ↔ Waits (kept ++ m :: rest) id queue)) ∧
    (id = m.id → (Waits (kept ++ m' :: rest) id queue ↔ queue ∈ m'.targets)) := by
  have hother : ∀ m'' ∈ kept ++ rest, m''.id ≠ m.id := by
    rw [List.map_append, List.map_cons, List.nodup_middle, ← List.map_append, List.nodup_cons] at hids
    intro m'' hm'' heq
    exact hids.1 (heq ▸ List.mem_map_of_mem hm'')
  unfold Waits
  constructor
  · intro hne
    constructor
    · rintro ⟨m'', hm'', hid', hqueue⟩
      rcases List.mem_append.1 hm'' with hm'' | hm''
      · exact ⟨m'', List.mem_append_left _ hm'', hid', hqueue⟩
      · rcases List.mem_cons.1 hm'' with rfl | hm''
        · exact absurd (hid'.symm.trans hid) hne
        · exact ⟨m'', List.mem_append_right _ (List.mem_cons_of_mem _ hm''), hid', hqueue⟩
    · rintro ⟨m'', hm'', hid', hqueue⟩
      rcases List.mem_append.1 hm'' with hm'' | hm''
      · exact ⟨m'', List.mem_append_left _ hm'', hid', hqueue⟩
      · rcases List.mem_cons.1 hm'' with rfl | hm''
        · exact absurd hid'.symm hne
        · exact ⟨m'', List.mem_append_right _ (List.mem_cons_of_mem _ hm''), hid', hqueue⟩
  · rintro rfl
    constructor
    · rintro ⟨m'', hm'', hid', hqueue⟩
      rcases List.mem_append.1 hm'' with hm'' | hm''
      · exact absurd hid' (hother m'' (List.mem_append_left _ hm''))
      · rcases List.mem_cons.1 hm'' with rfl | hm''
        · exact hqueue
        · exact absurd hid' (hother m'' (List.mem_append_right _ hm''))
    · intro hqueue
      exact ⟨m', List.mem_append_right _ List.mem_cons_self, hid, hqueue⟩

/-- A message without targets is not missed. -/
theorem waits_sent {kept rest : List Message} {m : Message} (hsent : m.targets = []) (id queue : Nat) :
    Waits (kept ++ m :: rest) id queue ↔ Waits (kept ++ rest) id queue := by
  unfold Waits
  constructor
  · rintro ⟨m', hm', hid, hqueue⟩
    rcases List.mem_append.1 hm' with hm' | hm'
    · exact ⟨m', List.mem_append_left _ hm', hid, hqueue⟩
    · rcases List.mem_cons.1 hm' with rfl | hm'
      · rw [hsent] at hqueue
        cases hqueue
      · exact ⟨m', List.mem_append_right _ hm', hid, hqueue⟩
  · rintro ⟨m', hm', hid, hqueue⟩
    rcases List.mem_append.1 hm' with hm' | hm'
    · exact ⟨m', List.mem_append_left _ hm', hid, hqueue⟩
    · exact ⟨m', List.mem_append_right _ (List.mem_cons_of_mem _ hm'), hid, hqueue⟩

/-- One message is tried. -/
theorem Accounted.tried {posted : List (List Nat × Complete)} {kept rest : List Message} {m : Message} {w w' : World}
    {left : List Nat} {puts : List Put} (h : Accounted answers size posted (kept ++ m :: rest) w)
    (htried : Tried answers size m m.targets left w w' puts) :
    Accounted answers size posted (kept ++ { m with targets := left } :: rest) w' := by
  have hmem : m ∈ kept ++ m :: rest := List.mem_append_right _ List.mem_cons_self
  obtain ⟨targets, hposted, hsub, hnodup, hfirst⟩ := h.known m hmem
  have hsublist : left.Sublist m.targets := by
    rw [htried.left, ← htried.queues]
    exact List.filter_sublist.map _
  constructor
  · have hids := h.ids
    rw [List.map_append, List.map_cons] at hids ⊢
    exact hids
  · intro m' hm'
    rcases List.mem_append.1 hm' with hm' | hm'
    · exact h.known m' (List.mem_append_left _ hm')
    · rcases List.mem_cons.1 hm' with rfl | hm'
      · exact ⟨targets, hposted, fun q hq => hsub (hsublist.subset hq), hnodup.sublist hsublist,
          fun hf => hsublist.length_le.trans (hfirst hf)⟩
      · exact h.known m' (List.mem_append_right _ (List.mem_cons_of_mem _ hm'))
  · intro id targets' complete queue hposted' hqueue
    have hfate := h.fate id targets' complete queue hposted' hqueue
    obtain ⟨hother, hself⟩ := @waits_split kept rest m { m with targets := left } h.ids rfl id queue
    have hself' := (@waits_split kept rest m m h.ids rfl id queue).2
    rw [tries_of_puts htried.world]
    by_cases hid : id = m.id
    · by_cases hleft : queue ∈ m.targets
      · -- it is tried once
        obtain ⟨p, hp, hpqueue, hfilter⟩ := @filter_queue queue puts (htried.queues ▸ hnodup) (htried.queues ▸ hleft)
        have hputs : (puts.filter fun p => p.message = id ∧ p.queue = queue) = [p] := by
          rw [← hfilter]
          apply List.filter_congr
          intro p' hp'
          simp [(htried.right p' hp').1, hid]
        have hfull : p.outcome = .full ↔ queue ∈ left := by
          rw [htried.left]
          constructor
          · intro hfull
            exact hpqueue ▸ List.mem_map_of_mem (List.mem_filter.2 ⟨hp, by simpa using hfull⟩)
          · intro hmem'
            obtain ⟨p', hp', hqueue'⟩ := List.mem_map.1 hmem'
            obtain ⟨hp', hfull'⟩ := List.mem_filter.1 hp'
            have heq : p' ∈ puts.filter fun p => p.queue = queue := List.mem_filter.2 ⟨hp', by simpa using hqueue'⟩
            rw [hfilter, List.mem_singleton] at heq
            simpa [heq] using hfull'
        have hwaiting : ∀ o ∈ w.tries id queue, o = .full := by
          rcases hfate with ⟨-, hfull⟩ | ⟨hnot, -⟩
          · exact hfull
          · exact absurd ((hself' hid).2 hleft) hnot
        rw [hputs, List.map_singleton]
        by_cases houtcome : p.outcome = .full
        · refine .inl ⟨(hself hid).2 (hfull.1 houtcome), ?_⟩
          intro o ho
          rcases List.mem_append.1 ho with ho | ho
          · exact hwaiting o ho
          · rw [List.mem_singleton.1 ho, houtcome]
        · exact .inr ⟨fun hwaits => houtcome (hfull.2 ((hself hid).1 hwaits)), _, _, rfl, hwaiting, houtcome⟩
      · have hputs : (puts.filter fun p => p.message = id ∧ p.queue = queue) = [] := by
          rw [List.filter_eq_nil_iff]
          intro p hp
          have hne : p.queue ≠ queue := by
            rintro rfl
            exact hleft (htried.queues ▸ List.mem_map_of_mem hp)
          simp [hne]
        have hsame : Waits (kept ++ { m with targets := left } :: rest) id queue ↔ Waits (kept ++ m :: rest) id queue := by
          rw [hself hid, hself' hid]
          exact iff_of_false (fun hq => hleft (hsublist.subset hq)) hleft
        rw [hputs, List.map_nil, List.append_nil, propext hsame]
        exact hfate
    · have hputs : (puts.filter fun p => p.message = id ∧ p.queue = queue) = [] := by
        rw [List.filter_eq_nil_iff]
        intro p hp
        have hne : p.message ≠ id := by
          rw [(htried.right p hp).1]
          exact fun heq => hid heq.symm
        simp [hne]
      rw [hputs, List.map_nil, List.append_nil, propext (hother hid)]
      exact hfate
  · intro p hp
    rw [htried.world] at hp
    rcases List.mem_append.1 hp with hp | hp
    · exact h.right p hp
    · obtain ⟨hid, hright⟩ := htried.right p hp
      exact ⟨targets, m.complete, hid ▸ hposted, hsub (htried.queues ▸ List.mem_map_of_mem hp), hright⟩

/-- A message that is sent is not pending any more. -/
theorem Accounted.send {posted : List (List Nat × Complete)} {kept rest : List Message} {m : Message} {w : World}
    (h : Accounted answers size posted (kept ++ m :: rest) w) :
    Accounted answers size posted
      (kept ++ if (send answers size m w).1.1 then rest else (send answers size m w).1.2 :: rest) (send answers size m w).2 := by
  obtain ⟨-, -, -, -, hfirst⟩ := h.known m (List.mem_append_right _ List.mem_cons_self)
  obtain ⟨left, puts, htried, hsend⟩ := @tried_send answers size m hfirst w
  have h' := h.tried htried
  rw [hsend]
  dsimp only
  split_ifs with hsent
  · have hleft : left = [] := List.isEmpty_iff.1 hsent
    refine ⟨?_, ?_, ?_, h'.right⟩
    · have hids := h'.ids
      rw [List.map_append, List.map_cons, List.nodup_middle, List.nodup_cons, ← List.map_append] at hids
      exact hids.2
    · intro m' hm'
      rcases List.mem_append.1 hm' with hm' | hm'
      · exact h'.known m' (List.mem_append_left _ hm')
      · exact h'.known m' (List.mem_append_right _ (List.mem_cons_of_mem _ hm'))
    · intro id targets complete queue hposted hqueue
      rw [← propext (@waits_sent kept rest { m with targets := left } hleft id queue)]
      exact h'.fate id targets complete queue hposted hqueue
  · exact h'

/-- The induction is on the messages that are left to try. -/
theorem Accounted.removeIf {posted : List (List Nat × Complete)} : ∀ {rest kept : List Message} {w : World},
    Accounted answers size posted (kept ++ rest) w →
      Accounted answers size posted (kept ++ (Pending.removeIf (Pending.send answers size) rest w).1)
        (Pending.removeIf (Pending.send answers size) rest w).2
  | [], kept, w, h => h
  | m :: rest, kept, w, h => by
    have hsend := h.send
    unfold Pending.removeIf
    dsimp only
    cases hsent : (Pending.send answers size m w).1.1 with
    | true =>
      rw [hsent, if_pos rfl] at hsend
      rw [if_pos rfl]
      exact hsend.removeIf
    | false =>
      rw [hsent, if_neg nofun] at hsend
      rw [if_neg nofun]
      have hsplit : kept ++ (Pending.send answers size m w).1.2 :: rest =
          (kept ++ [(Pending.send answers size m w).1.2]) ++ rest := by simp
      rw [hsplit] at hsend
      have hrest := hsend.removeIf
      rwa [List.append_assoc, List.singleton_append] at hrest

/-- A new message waits for all of its targets. -/
theorem Accounted.post {s : State} (h : Accounted answers size s.posted s.pending s.world) {targets : List Nat}
    (complete : Complete) {task : Targets} (hnodup : targets.Nodup) (hfirst : task = .first → targets.length ≤ 1) :
    Accounted answers size (s.posted ++ [(targets, complete)]) (s.pending ++ [s.message targets complete task]) s.world := by
  have hlt : ∀ {id : Nat} {entry : List Nat × Complete}, s.posted[id]? = some entry → id < s.posted.length :=
    fun hposted => (List.getElem?_eq_some_iff.1 hposted).1
  have hold : ∀ {id : Nat} {entry : List Nat × Complete}, s.posted[id]? = some entry →
      (s.posted ++ [(targets, complete)])[id]? = some entry := by
    intro id entry hposted
    rw [List.getElem?_append_left (hlt hposted), hposted]
  have hnew : (s.posted ++ [(targets, complete)])[s.posted.length]? = some (targets, complete) := by simp
  constructor
  · rw [List.map_append, List.nodup_append]
    refine ⟨h.ids, List.nodup_singleton _, ?_⟩
    intro id hid id' hid' heq
    obtain ⟨m, hm, rfl⟩ := List.mem_map.1 hid
    obtain ⟨_, hposted, -⟩ := h.known m hm
    rw [List.map_singleton, List.mem_singleton] at hid'
    have hless := hlt hposted
    rw [heq, hid'] at hless
    exact absurd hless (Nat.lt_irrefl _)
  · intro m hm
    rcases List.mem_append.1 hm with hm | hm
    · obtain ⟨targets', hposted, hrest⟩ := h.known m hm
      exact ⟨targets', hold hposted, hrest⟩
    · rw [List.mem_singleton.1 hm]
      exact ⟨targets, hnew, fun _ hq => hq, hnodup, hfirst⟩
  · intro id targets' complete' queue hposted hqueue
    rcases Nat.lt_or_ge id s.posted.length with hless | hge
    · rw [List.getElem?_append_left hless] at hposted
      have hsame : Waits (s.pending ++ [s.message targets complete task]) id queue ↔ Waits s.pending id queue := by
        constructor
        · rintro ⟨m, hm, hid, hq⟩
          rcases List.mem_append.1 hm with hm | hm
          · exact ⟨m, hm, hid, hq⟩
          · rw [List.mem_singleton.1 hm] at hid
            exact absurd hid.symm (Nat.ne_of_lt hless)
        · rintro ⟨m, hm, hid, hq⟩
          exact ⟨m, List.mem_append_left _ hm, hid, hq⟩
      rw [propext hsame]
      exact h.fate id targets' complete' queue hposted hqueue
    · obtain rfl : id = s.posted.length := by
        have := (List.getElem?_eq_some_iff.1 hposted).1
        rw [List.length_append, List.length_singleton] at this
        omega
      rw [hnew] at hposted
      obtain ⟨rfl, rfl⟩ := Prod.mk.inj (Option.some.inj hposted)
      -- nothing was put for it so far
      have hnone : s.world.tries s.posted.length queue = [] := by
        unfold World.tries
        rw [List.map_eq_nil_iff, List.filter_eq_nil_iff]
        intro p hp
        obtain ⟨_, _, hposted', -⟩ := h.right p hp
        have hne := Nat.ne_of_lt (hlt hposted')
        simp [hne]
      rw [hnone]
      exact .inl ⟨⟨_, List.mem_append_right _ (List.mem_singleton_self _), rfl, hqueue⟩, nofun⟩
  · intro p hp
    obtain ⟨targets', complete', hposted, hrest⟩ := h.right p hp
    exact ⟨targets', complete', hold hposted, hrest⟩

theorem Accounted.step {s : State} {e : Event} (h : Accounted answers size s.posted s.pending s.world)
    (he : s.Admits answers size e) :
    Accounted answers size (s.step answers size e).posted (s.step answers size e).pending (s.step answers size e).world := by
  cases e with
  | post targets complete task => exact h.post complete he.1 he.2
  | sendOrPost targets complete task =>
    have hsend := (@Accounted.post answers size s h targets complete task he.1 he.2).send
    unfold State.step
    dsimp only
    split_ifs at hsend ⊢ with hsent
    · rwa [List.append_nil] at hsend
    · exact hsend
  | persistent => exact @Accounted.removeIf answers size s.posted s.pending [] s.world h
  | replies order remain =>
    obtain ⟨horder, hremain⟩ := he
    have hswept := @Accounted.removeIf answers size s.posted order [] s.world (h.perm horder.symm)
    rw [List.nil_append] at hswept
    exact hswept.perm hremain.symm

theorem messages_accounted {s : State} (h : (machine answers size).Reachable s) :
    Accounted answers size s.posted s.pending s.world := by
  refine h.invariant (I := fun s => Accounted answers size s.posted s.pending s.world) ?_ ?_
  · rintro s rfl
    exact ⟨List.nodup_nil, nofun, fun _ _ _ _ hposted => by simp at hposted, nofun⟩
  · intro s e hs he
    exact hs.step he

/-! ## What a pump tries -/

/-- The targets of messages. -/
def pairs (messages : List Message) : List (Nat × Nat) := messages.flatMap fun m => m.targets.map fun queue => (m.id, queue)

theorem puts_removeIf : ∀ {messages : List Message} {w : World},
    (∀ m ∈ messages, m.task = .first → m.targets.length ≤ 1) →
      ∃ puts, (Pending.removeIf (Pending.send answers size) messages w).2.puts = w.puts ++ puts ∧
        (puts.map fun p => (p.message, p.queue)) = pairs messages
  | [], w, _ => ⟨[], (List.append_nil _).symm, rfl⟩
  | m :: messages, w, hfirst => by
    obtain ⟨left, puts, htried, -⟩ := @tried_send answers size m (hfirst m List.mem_cons_self) w
    obtain ⟨puts', hputs', hpairs⟩ := @puts_removeIf messages (Pending.send answers size m w).2
      fun m' hm' => hfirst m' (List.mem_cons_of_mem _ hm')
    refine ⟨puts ++ puts', ?_, ?_⟩
    · unfold Pending.removeIf
      dsimp only
      rw [hputs', htried.world, List.append_assoc]
    · have hmap : (puts.map fun p => (p.message, p.queue)) = m.targets.map fun queue => (m.id, queue) := by
        rw [← htried.queues, List.map_map]
        apply List.map_congr_left
        intro p hp
        simp [(htried.right p hp).1]
      rw [List.map_append, hpairs, hmap]
      rfl

/-- Both pumps try each target that waits once. -/
theorem pump_tries {s : State} {e : Event} (h : Accounted answers size s.posted s.pending s.world)
    (he : s.Admits answers size e) (hpump : e = .persistent ∨ ∃ order remain, e = .replies order remain) :
    ∃ puts, (s.step answers size e).world.puts = s.world.puts ++ puts ∧
      (puts.map fun p => (p.message, p.queue)).Perm (pairs s.pending) := by
  have hfirst : ∀ m ∈ s.pending, m.task = .first → m.targets.length ≤ 1 := by
    intro m hm
    obtain ⟨-, -, -, -, hfirst⟩ := h.known m hm
    exact hfirst
  rcases hpump with rfl | ⟨order, remain, rfl⟩
  · obtain ⟨puts, hputs, hpairs⟩ := @puts_removeIf answers size s.pending s.world hfirst
    exact ⟨puts, hputs, .of_eq hpairs⟩
  · obtain ⟨puts, hputs, hpairs⟩ := @puts_removeIf answers size order s.world fun m hm => hfirst m (he.1.mem_iff.1 hm)
    exact ⟨puts, hputs, (List.Perm.of_eq hpairs).trans (he.1.flatMap_right _)⟩

end

/-- In every run each target of each message is tried until it has the message as a whole or is gone, and then no more;
a message is sent when none of its targets is still tried, and a pump tries each of those that are, once. -/
theorem fan_out (answers : Answers) (size : TransportSize) (s : State) (h : (machine answers size).Reachable s) :
    (∀ id targets complete queue, s.posted[id]? = some (targets, complete) → queue ∈ targets →
      Fate (Waits s.pending id queue) (s.world.tries id queue)) ∧
    (∀ p ∈ s.world.puts, ∃ targets complete, s.posted[p.message]? = some (targets, complete) ∧ p.queue ∈ targets ∧
      p.Right answers size complete) ∧
    (∀ m ∈ s.pending, ∃ targets, s.posted[m.id]? = some (targets, m.complete) ∧
      (m.sent = true ↔ ∀ queue ∈ targets, ¬ Waits s.pending m.id queue)) ∧
    ∀ e, (e = .persistent ∨ ∃ order remain, e = .replies order remain) → s.Admits answers size e →
      ∃ puts, (s.step answers size e).world.puts = s.world.puts ++ puts ∧
        (puts.map fun p => (p.message, p.queue)).Perm (pairs s.pending) := by
  have haccounted := messages_accounted h
  refine ⟨haccounted.fate, haccounted.right, ?_, fun e hpump he => pump_tries haccounted he hpump⟩
  intro m hm
  obtain ⟨targets, hposted, hsub, -⟩ := haccounted.known m hm
  refine ⟨targets, hposted, ?_⟩
  constructor
  · rintro hsent queue - ⟨m', hm', hid, hqueue⟩
    obtain rfl := List.inj_on_of_nodup_map haccounted.ids hm' hm hid
    rw [List.isEmpty_iff.1 hsent] at hqueue
    cases hqueue
  · intro hnone
    apply List.isEmpty_iff.2
    apply List.eq_nil_iff_forall_not_mem.2
    intro queue hqueue
    exact hnone queue (hsub hqueue) ⟨m, hm, rfl, hqueue⟩

/-- The second of two queues is full at first. -/
def busy : Answers := fun call _ => if call = 1 then .full else .accepted

/-- A message to two queues, and two pumps. -/
def fanned : List Event := [.post [1, 2] (.make 7 0 []) .all, .persistent, .persistent]

theorem fanned_sent : Fate (Waits (fanned.foldl ((machine busy ⟨1024, by decide⟩).step) ⟨[], [], ⟨0, []⟩⟩).pending 0 2)
      ((fanned.foldl ((machine busy ⟨1024, by decide⟩).step) ⟨[], [], ⟨0, []⟩⟩).world.tries 0 2) ∧
    (fanned.foldl ((machine busy ⟨1024, by decide⟩).step) ⟨[], [], ⟨0, []⟩⟩).world.tries 0 2 = [.full, .sent] := by
  have hinit : (machine busy ⟨1024, by decide⟩).Reachable ⟨[], [], ⟨0, []⟩⟩ := .of_init rfl
  have hadmits : (machine busy ⟨1024, by decide⟩).AdmitsAll ⟨[], [], ⟨0, []⟩⟩ fanned :=
    ⟨⟨by decide, nofun⟩, trivial, trivial, trivial⟩
  obtain ⟨hfate, -⟩ := fan_out busy ⟨1024, by decide⟩ _ (hinit.foldl hadmits)
  exact ⟨hfate 0 [1, 2] (.make 7 0 []) 2 rfl (by decide), by decide⟩

end Casual.Communication.Pending

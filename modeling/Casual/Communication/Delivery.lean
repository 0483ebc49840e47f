/-
Any number of senders and one inbound device: whatever the order in which the transports arrive and
whatever is asked for and discarded in between, a message is handed out once and whole, or never.
-/
import Casual.Lib.Run
import Casual.Communication.Device
import Casual.Communication.Course

namespace Casual.Communication

open Casual.Lib

variable {Sender : Type}

/-! ## Senders and a device -/

/-- The senders, the device, and what has happened: the transports the device has read, the messages
it has handed out, the correlations discarded before their message was handed out, and those
discarded when their last transport had been read and there was nothing left in the cache. -/
structure Net (Sender : Type) where
  outbox : Sender → List Transport
  device : Device
  received : List Transport
  delivered : List Complete
  dropped : List Uuid
  redundant : List Uuid

/-- A transport is put, a message is asked for, or one is discarded. -/
inductive Event (Sender : Type)
  | put (s : Sender)
  | next (selector : Selector) (reads : Nat)
  | discard (correlation : Uuid)

namespace Net

/-- The transports that have arrived at the device, read or not. -/
def arrivals (n : Net Sender) : List Transport := n.received ++ n.device.connector

/-- The last transport of the message has been read. -/
def finished (n : Net Sender) (c : Uuid) : Bool := n.received.any fun t => t.correlation == c && t.last

/-- The first arrival of a correlation. -/
def firstArrival (n : Net Sender) (c : Uuid) : Nat := (n.arrivals.map (·.correlation)).idxOf c

/-- A sender puts its next transport, a caller asks for a message, a caller discards one. -/
def step [DecidableEq Sender] (n : Net Sender) : Event Sender → Net Sender
  | .put s =>
    match n.outbox s with
    | [] => n
    | t :: rest =>
      { n with
        outbox := Function.update n.outbox s rest
        device := { n.device with connector := n.device.connector ++ [t] } }
  | .next selector reads =>
    let r := n.device.next selector reads
    { n with
      device := r.2
      received := n.received ++ n.device.connector.take (n.device.connector.length - r.2.connector.length)
      delivered := n.delivered ++ r.1.toList }
  | .discard c =>
    { n with
      device := n.device.discard c
      dropped := if c ∈ n.delivered.map (·.correlation) then n.dropped else n.dropped ++ [c]
      redundant :=
        if n.finished c = true ∧ c ∉ n.device.cache.map (·.correlation) then n.redundant ++ [c] else n.redundant }

theorem step_put_nil [DecidableEq Sender] {n : Net Sender} {s : Sender} (h : n.outbox s = []) :
    n.step (.put s) = n := by
  simp [step, h]

theorem step_put_cons [DecidableEq Sender] {n : Net Sender} {s : Sender} {t : Transport} {rest : List Transport}
    (h : n.outbox s = t :: rest) :
    n.step (.put s) = { n with
      outbox := Function.update n.outbox s rest
      device := { n.device with connector := n.device.connector ++ [t] } } := by
  simp [step, h]

end Net

/-- Each sender puts its messages one after the other. -/
def start (size : TransportSize) (messages : Sender → List Complete) : Net Sender :=
  { outbox := fun s => (messages s).flatMap (put size)
    device := ⟨[], [], []⟩
    received := []
    delivered := []
    dropped := []
    redundant := [] }

/-- Senders that put their messages, and one receiver. -/
def net [DecidableEq Sender] (size : TransportSize) (messages : Sender → List Complete) : Machine (Net Sender) (Event Sender) where
  init n := n = start size messages
  admits _ _ := True
  step := Net.step

/-- Each message has a correlation of its own. -/
structure Distinct (messages : Sender → List Complete) : Prop where
  unique : ∀ {s s' : Sender} {m m' : Complete}, m ∈ messages s → m' ∈ messages s' →
    m.correlation = m'.correlation → s = s' ∧ m = m'
  nodup : ∀ s, (messages s).Nodup

/-- The message as it should come out. -/
def whole (m : Complete) : Complete := .make m.type m.correlation m.payload

/-- The transports with a correlation. -/
def ofCorrelation (c : Uuid) (ts : List Transport) : List Transport := ts.filter fun t => t.correlation == c

@[simp] theorem ofCorrelation_nil (c : Uuid) : ofCorrelation c [] = [] := rfl

theorem ofCorrelation_append (c : Uuid) (ts us : List Transport) :
    ofCorrelation c (ts ++ us) = ofCorrelation c ts ++ ofCorrelation c us := List.filter_append ts us

theorem ofCorrelation_cons_self (t : Transport) (ts : List Transport) :
    ofCorrelation t.correlation (t :: ts) = t :: ofCorrelation t.correlation ts := by simp [ofCorrelation]

theorem ofCorrelation_cons_of_ne {c : Uuid} {t : Transport} (h : t.correlation ≠ c) (ts : List Transport) :
    ofCorrelation c (t :: ts) = ofCorrelation c ts := by simp [ofCorrelation, h]

theorem mem_ofCorrelation {c : Uuid} {t : Transport} {ts : List Transport} :
    t ∈ ofCorrelation c ts ↔ t ∈ ts ∧ t.correlation = c := by simp [ofCorrelation]

theorem ofCorrelation_put {size : TransportSize} (m : Complete) (c : Uuid) :
    ofCorrelation c (put size m) = if m.correlation = c then put size m else [] := by
  unfold ofCorrelation
  split_ifs with h
  · exact List.filter_eq_self.2 fun t ht => by simp [correlation_of_mem_put ht, h]
  · exact List.filter_eq_nil_iff.2 fun t ht => by simp [correlation_of_mem_put ht, h]

/-! ## What holds of each message -/

variable {size : TransportSize} {messages : Sender → List Complete}

/-- Where a message is. Its transports have been read, wait in the connector or are still to be put,
in this order; it is in the cache as far as it has been read unless it was handed out or discarded;
it is handed out once and whole; its correlation is to be discarded while it was discarded and has
not been read to the end. -/
structure Account (size : TransportSize) (n : Net Sender) (s : Sender) (m : Complete) : Prop where
  parts : ofCorrelation m.correlation n.received ++ ofCorrelation m.correlation n.device.connector ++
    ofCorrelation m.correlation (n.outbox s) = put size m
  cached : withCorrelation m.correlation n.device.cache =
    if m.correlation ∈ n.dropped ∨ m.correlation ∈ n.delivered.map (·.correlation) then []
    else partly (ofCorrelation m.correlation n.received)
  delivered : withCorrelation m.correlation n.delivered = [] ∨
    withCorrelation m.correlation n.delivered = [whole m] ∧
      ofCorrelation m.correlation n.received = put size m ∧ m.correlation ∉ n.dropped
  discarding : m.correlation ∈ n.dropped → ofCorrelation m.correlation n.received ≠ put size m →
    m.correlation ∈ n.device.discarded
  discarded : m.correlation ∈ n.device.discarded →
    m.correlation ∈ n.dropped ∧ ofCorrelation m.correlation n.received ≠ put size m ∨
      m.correlation ∈ n.redundant
  redundant : m.correlation ∈ n.redundant → ofCorrelation m.correlation n.received = put size m

/-- Where a message is whose transports come as `ts`, which may be more than those of one put. -/
structure Accounted (ts : List Transport) (n : Net Sender) (s : Sender) (m : Complete) : Prop where
  parts : ofCorrelation m.correlation n.received ++ ofCorrelation m.correlation n.device.connector ++
    ofCorrelation m.correlation (n.outbox s) = ts
  cached : withCorrelation m.correlation n.device.cache =
    if m.correlation ∈ n.dropped ∨ m.correlation ∈ n.delivered.map (·.correlation) then []
    else partly (ofCorrelation m.correlation n.received)
  delivered : withCorrelation m.correlation n.delivered = [] ∨
    withCorrelation m.correlation n.delivered = [whole m] ∧
      ofCorrelation m.correlation n.received = ts ∧ m.correlation ∉ n.dropped
  discarding : m.correlation ∈ n.dropped → ofCorrelation m.correlation n.received ≠ ts →
    m.correlation ∈ n.device.discarded
  discarded : m.correlation ∈ n.device.discarded →
    m.correlation ∈ n.dropped ∧ ofCorrelation m.correlation n.received ≠ ts ∨ m.correlation ∈ n.redundant
  redundant : m.correlation ∈ n.redundant → ofCorrelation m.correlation n.received = ts

theorem Account.accounted {n : Net Sender} {s : Sender} {m : Complete} (h : Account size n s m) :
    Accounted (put size m) n s m :=
  ⟨h.parts, h.cached, h.delivered, h.discarding, h.discarded, h.redundant⟩

theorem Accounted.account {n : Net Sender} {s : Sender} {m : Complete} (h : Accounted (put size m) n s m) :
    Account size n s m :=
  ⟨h.parts, h.cached, h.delivered, h.discarding, h.discarded, h.redundant⟩

/-- What holds in every state. -/
structure Sound (size : TransportSize) (messages : Sender → List Complete) (n : Net Sender) : Prop where
  account : ∀ s, ∀ m ∈ messages s, Account size n s m
  arrivals : ∀ t ∈ n.arrivals, ∃ s, ∃ m ∈ messages s, t ∈ put size m
  outbox : ∀ s, ∀ t ∈ n.outbox s, ∃ m ∈ messages s, t ∈ put size m
  cache : ∀ r ∈ n.device.cache, r.correlation ∈ n.received.map (·.correlation)
  order : (n.device.cache.map (·.correlation)).Pairwise fun c c' =>
    (n.received.map (·.correlation)).idxOf c < (n.received.map (·.correlation)).idxOf c'
  nodup : n.device.discarded.Nodup
  delivered : ∀ r ∈ n.delivered, ∃ s, ∃ m ∈ messages s, r = whole m

theorem withCorrelation_eq_nil {c : Uuid} {cache : List Complete} :
    withCorrelation c cache = [] ↔ c ∉ cache.map (·.correlation) := by
  unfold withCorrelation
  rw [List.filter_eq_nil_iff, List.mem_map]
  simp

namespace Accounted

variable {ts : List Transport} {n : Net Sender} {s : Sender} {m : Complete}

theorem not_delivered (h : Accounted ts n s m) (hr : ofCorrelation m.correlation n.received ≠ ts) :
    m.correlation ∉ n.delivered.map (·.correlation) := by
  rw [← withCorrelation_eq_nil]
  exact h.delivered.resolve_right fun h' => hr h'.2.1

/-- While transports are to come, a correlation is to be discarded exactly when it was discarded. -/
theorem mem_discarded_iff (h : Accounted ts n s m) (hr : ofCorrelation m.correlation n.received ≠ ts) :
    m.correlation ∈ n.device.discarded ↔ m.correlation ∈ n.dropped := by
  refine ⟨fun hd => ?_, fun hd => h.discarding hd hr⟩
  rcases h.discarded hd with h' | h'
  · exact h'.1
  · exact absurd (h.redundant h') hr

/-- The last transport has been read when all of them have. -/
theorem received_of_finished (hts : Course m ts) (h : Accounted ts n s m) (hf : n.finished m.correlation = true) :
    ofCorrelation m.correlation n.received = ts := by
  unfold Net.finished at hf
  obtain ⟨t, ht, hlast⟩ := List.any_eq_true.1 hf
  simp only [Bool.and_eq_true, beq_iff_eq] at hlast
  obtain ⟨pre, post, hsplit⟩ := List.append_of_mem (mem_ofCorrelation.2 ⟨ht, hlast.1⟩)
  have hparts := h.parts
  rw [hsplit, List.append_assoc, List.append_assoc, List.cons_append] at hparts
  have hnil := (hts.last hparts.symm).1 hlast.2
  simp only [List.append_eq_nil_iff] at hnil
  rw [← h.parts, hnil.2.1, hnil.2.2]
  simp

theorem finished_of_received (hts : Course m ts) (h : ofCorrelation m.correlation n.received = ts) :
    n.finished m.correlation = true := by
  rcases List.eq_nil_or_concat ts with hnil | ⟨pre, t, hsplit⟩
  · exact absurd hnil hts.nonempty
  · rw [List.concat_eq_append] at hsplit
    have hlast := (hts.last hsplit).2 rfl
    have ht : t ∈ ofCorrelation m.correlation n.received := by rw [h, hsplit]; simp
    obtain ⟨ht, hc⟩ := mem_ofCorrelation.1 ht
    exact List.any_eq_true.2 ⟨t, ht, by simp [hc, hlast]⟩

/-- A message in the cache is the one put together from what has been read. -/
theorem of_mem_cache (hts : Course m ts) (h : Accounted ts n s m) {r : Complete} (hr : r ∈ n.device.cache)
    (hc : r.correlation = m.correlation) :
    m.correlation ∉ n.dropped ∧ m.correlation ∉ n.delivered.map (·.correlation) ∧
      withCorrelation m.correlation n.device.cache = [r] ∧
      (r.complete = true ↔ ofCorrelation m.correlation n.received = ts) ∧
      (r.complete = true → r = whole m) ∧ r.type = m.type := by
  have hmem : r ∈ withCorrelation m.correlation n.device.cache := mem_withCorrelation.2 ⟨hr, hc⟩
  have hcached := h.cached
  split_ifs at hcached with hout
  · rw [hcached] at hmem; cases hmem
  · push Not at hout
    have hparts := h.parts
    cases hrec : ofCorrelation m.correlation n.received with
    | nil => rw [hcached, hrec] at hmem; cases hmem
    | cons t us =>
      rw [hrec, List.append_assoc] at hparts
      rw [hcached, hrec] at hmem
      obtain rfl : r = .feed t us := by simpa [partly] using hmem
      have hcomplete := hts.complete hparts.symm
      have hiff : (Complete.feed t us).complete = true ↔ t :: us = ts := by
        rw [hcomplete, ← hparts]
        exact ⟨fun h => by simp [h], fun h => by simpa using h⟩
      refine ⟨hout.1, hout.2, by rw [hcached, hrec]; rfl, hiff, fun h' => hts.whole (hiff.1 h').symm, ?_⟩
      rw [(feed_type t us).1]
      exact hts.type t (by rw [← hparts]; simp)

end Accounted

/-! ## A transport is read -/

theorem take_of_mem {d : Device} {t : Transport} (h : t.correlation ∈ d.discarded) :
    d.take t = { d with discarded := if t.last then d.discarded.erase t.correlation else d.discarded } := by
  unfold Device.take; rw [if_pos h]

theorem take_of_notMem {d : Device} {t : Transport} (h : t.correlation ∉ d.discarded) :
    d.take t = { d with cache := cacheTransport d.cache t } := by
  unfold Device.take; rw [if_neg h]

@[simp] theorem take_connector (d : Device) (t : Transport) : (d.take t).connector = d.connector := by
  unfold Device.take; split_ifs <;> rfl

theorem mem_take_discarded_of_ne {d : Device} {t : Transport} {c : Uuid} (h : t.correlation ≠ c) :
    c ∈ (d.take t).discarded ↔ c ∈ d.discarded := by
  unfold Device.take
  split_ifs
  · exact List.mem_erase_of_ne h.symm
  · exact Iff.rfl
  · exact Iff.rfl

theorem withCorrelation_take_of_ne {d : Device} {t : Transport} {c : Uuid} (h : t.correlation ≠ c) :
    withCorrelation c (d.take t).cache = withCorrelation c d.cache := by
  unfold Device.take
  split_ifs
  · rfl
  · rfl
  · exact withCorrelation_cacheTransport_of_ne h _

/-- The net after the device has read a transport. -/
def Net.read (n : Net Sender) (t : Transport) (rest : List Transport) : Net Sender :=
  { n with
    device := ({ n.device with connector := rest } : Device).take t
    received := n.received ++ [t] }

theorem Accounted.read_other {ts : List Transport} {n : Net Sender} {s : Sender} {m : Complete} {t : Transport}
    {rest : List Transport} (h : Accounted ts n s m) (hconnector : n.device.connector = t :: rest) (hne : t.correlation ≠ m.correlation) :
    Accounted ts (n.read t rest) s m := by
  have hrec : ofCorrelation m.correlation (n.read t rest).received = ofCorrelation m.correlation n.received := by
    simp [Net.read, ofCorrelation_append, ofCorrelation_cons_of_ne hne]
  have hcon : ofCorrelation m.correlation (n.read t rest).device.connector =
      ofCorrelation m.correlation n.device.connector := by
    simp [Net.read, hconnector, ofCorrelation_cons_of_ne hne]
  refine ⟨?_, ?_, ?_, ?_, ?_, ?_⟩
  · rw [hrec, hcon]; exact h.parts
  · rw [hrec]
    exact (withCorrelation_take_of_ne hne).trans h.cached
  · rw [hrec]; exact h.delivered
  · rw [hrec]
    exact fun hd hr => (mem_take_discarded_of_ne hne).2 (h.discarding hd hr)
  · rw [hrec]
    exact fun hd => h.discarded ((mem_take_discarded_of_ne (d := { n.device with connector := rest }) hne).1 hd)
  · rw [hrec]; exact h.redundant

theorem Accounted.read_self {ts : List Transport} {n : Net Sender} {s : Sender} {m : Complete} {t : Transport}
    {rest : List Transport} (hts : Course m ts) (h : Accounted ts n s m) (honce : n.device.discarded.count m.correlation ≤ 1)
    (hconnector : n.device.connector = t :: rest) (hc : t.correlation = m.correlation) :
    Accounted ts (n.read t rest) s m := by
  have hrec : ofCorrelation m.correlation (n.read t rest).received = ofCorrelation m.correlation n.received ++ [t] := by
    simp [Net.read, ofCorrelation, hc]
  have hcon : ofCorrelation m.correlation n.device.connector = t :: ofCorrelation m.correlation rest := by
    rw [hconnector, ← hc, ofCorrelation_cons_self]
  have hcon' : ofCorrelation m.correlation (n.read t rest).device.connector = ofCorrelation m.correlation rest := by
    simp [Net.read]
  have hsplit : ts = ofCorrelation m.correlation n.received ++
      t :: (ofCorrelation m.correlation rest ++ ofCorrelation m.correlation (n.outbox s)) := by
    rw [← h.parts, hcon]; simp
  have hlast := hts.last hsplit
  have hmore : ofCorrelation m.correlation n.received ≠ ts := by
    intro h'
    have := congrArg List.length (h'.trans hsplit)
    simp at this
  have hdone : ofCorrelation m.correlation n.received ++ [t] = ts ↔ t.last = true := by
    rw [hlast, hsplit, List.append_right_inj, List.cons.injEq]
    exact ⟨fun h' => h'.2.symm, fun h' => ⟨rfl, h'.symm⟩⟩
  have hnotdelivered := h.not_delivered hmore
  have hparts : ofCorrelation m.correlation (n.read t rest).received ++
      ofCorrelation m.correlation (n.read t rest).device.connector ++
      ofCorrelation m.correlation ((n.read t rest).outbox s) = ts := by
    rw [hrec, hcon', hsplit]; simp [Net.read]
  have hredundant : m.correlation ∉ n.redundant := fun h' => hmore (h.redundant h')
  have hnil : withCorrelation m.correlation n.delivered = [] := withCorrelation_eq_nil.2 hnotdelivered
  by_cases hd : m.correlation ∈ n.dropped
  · -- the message was discarded: the transport is dropped, and the correlation with the last one
    have hmem : t.correlation ∈ n.device.discarded := by rw [hc]; exact (h.mem_discarded_iff hmore).2 hd
    have hread : (n.read t rest).device.discarded =
        if t.last then n.device.discarded.erase t.correlation else n.device.discarded := by
      unfold Net.read; rw [take_of_mem (by exact hmem)]
    refine ⟨hparts, ?_, .inl hnil, ?_, ?_, fun h' => absurd h' hredundant⟩
    · have : (n.read t rest).device.cache = n.device.cache := by
        unfold Net.read; rw [take_of_mem (by exact hmem)]
      rw [this, h.cached]
      simp [Net.read, hd]
    · rw [hrec, Ne, hdone, hread]
      intro _ hl
      rw [if_neg hl, ← hc]; exact hmem
    · rw [hrec, Ne, hdone, hread]
      intro hin
      refine .inl ⟨hd, fun hl => ?_⟩
      rw [if_pos hl, hc, ← List.count_pos_iff, List.count_erase_self] at hin
      omega
  · have hnot : t.correlation ∉ n.device.discarded := by rw [hc, h.mem_discarded_iff hmore]; exact hd
    have hread : (n.read t rest).device = ⟨cacheTransport n.device.cache t, n.device.discarded, rest⟩ := by
      unfold Net.read; rw [take_of_notMem (by exact hnot)]
    have hcached : withCorrelation m.correlation n.device.cache = partly (ofCorrelation m.correlation n.received) := by
      rw [h.cached, if_neg (by simp [hd, hnotdelivered])]
    refine ⟨hparts, ?_, .inl hnil, fun h' => absurd h' hd, fun h' => ?_, fun h' => absurd h' hredundant⟩
    · rw [hread, hrec, if_neg (by exact fun h' => h'.elim hd hnotdelivered)]
      rw [← hc] at hcached ⊢
      exact withCorrelation_cacheTransport hcached
    · rw [hread, ← hc] at h'
      exact absurd h' hnot

/-- What follows from the arrivals: a transport that has arrived is one of a message. -/
theorem Sound.exists_message {n : Net Sender} (h : Sound size messages n) {c : Uuid}
    (hc : c ∈ n.received.map (·.correlation)) : ∃ s, ∃ m ∈ messages s, m.correlation = c := by
  obtain ⟨t, ht, rfl⟩ := List.mem_map.1 hc
  obtain ⟨s, m, hm, hput⟩ := h.arrivals t (List.mem_append_left _ ht)
  exact ⟨s, m, hm, (correlation_of_mem_put hput).symm⟩

theorem idxOf_append_of_mem {c : Uuid} {l : List Uuid} (h : c ∈ l) (l' : List Uuid) :
    (l ++ l').idxOf c = l.idxOf c := by
  rw [List.idxOf_append, if_pos h]

theorem Sound.read {n : Net Sender} {t : Transport} {rest : List Transport} (h : Sound size messages n)
    (hconnector : n.device.connector = t :: rest) : Sound size messages (n.read t rest) := by
  have harr : (n.read t rest).arrivals = n.arrivals := by
    simp [Net.arrivals, Net.read, hconnector]
  obtain ⟨s₀, m₀, hm₀, hput⟩ := h.arrivals t (by simp [Net.arrivals, hconnector])
  have hc₀ := correlation_of_mem_put hput
  have hcache : (n.read t rest).device.cache.map (·.correlation) = n.device.cache.map (·.correlation) ∨
      t.correlation ∉ n.received.map (·.correlation) ∧
        (n.read t rest).device.cache.map (·.correlation) = n.device.cache.map (·.correlation) ++ [t.correlation] := by
    by_cases hd : t.correlation ∈ n.device.discarded
    · left
      unfold Net.read; rw [take_of_mem (by exact hd)]
    · have hread : (n.read t rest).device.cache = cacheTransport n.device.cache t := by
        unfold Net.read; rw [take_of_notMem (by exact hd)]
      rw [hread, map_correlation_cacheTransport]
      split_ifs with hin
      · exact .inl rfl
      · -- a message that is neither cached nor discarded has not been read from
        refine .inr ⟨fun hrec => ?_, rfl⟩
        have ha := h.account s₀ m₀ hm₀
        have hmore : ofCorrelation m₀.correlation n.received ≠ put size m₀ := by
          intro h'
          have hp := ha.parts
          rw [hconnector, ← hc₀, ofCorrelation_cons_self, hc₀, ← h'] at hp
          simpa using congrArg List.length hp
        have hcached := ha.cached
        rw [hc₀] at hd hin
        rw [withCorrelation_eq_nil.2 hin, if_neg (fun h' => h'.elim (fun h' => hd (ha.discarding h' hmore))
          (ha.accounted.not_delivered hmore))] at hcached
        obtain ⟨u, hu, huc⟩ := List.mem_map.1 hrec
        have hmem : u ∈ ofCorrelation m₀.correlation n.received := mem_ofCorrelation.2 ⟨hu, huc.trans hc₀⟩
        cases hof : ofCorrelation m₀.correlation n.received with
        | nil => rw [hof] at hmem; cases hmem
        | cons v vs => rw [hof] at hcached; cases hcached
  have hrec : (n.read t rest).received.map (·.correlation) = n.received.map (·.correlation) ++ [t.correlation] := by
    simp [Net.read]
  have hsub : ∀ r ∈ n.device.cache, r.correlation ∈ n.received.map (·.correlation) := h.cache
  have hsub' : ∀ c ∈ n.device.cache.map (·.correlation), c ∈ n.received.map (·.correlation) := by
    intro c hc
    obtain ⟨r, hr, rfl⟩ := List.mem_map.1 hc
    exact h.cache r hr
  have horder : (n.device.cache.map (·.correlation)).Pairwise fun c c' =>
      (n.received.map (·.correlation) ++ [t.correlation]).idxOf c <
        (n.received.map (·.correlation) ++ [t.correlation]).idxOf c' := by
    refine h.order.imp_of_mem fun {c c'} hc hc' hlt => ?_
    rw [idxOf_append_of_mem (hsub' c hc), idxOf_append_of_mem (hsub' c' hc')]
    exact hlt
  refine ⟨?_, ?_, h.outbox, ?_, ?_, ?_, h.delivered⟩
  · intro s m hm
    by_cases hc : t.correlation = m.correlation
    · exact ((h.account s m hm).accounted.read_self (course_put m) (List.nodup_iff_count_le_one.1 h.nodup _) hconnector hc).account
    · exact ((h.account s m hm).accounted.read_other hconnector hc).account
  · rw [harr]; exact h.arrivals
  · intro r hr
    have hmem := List.mem_map_of_mem (f := (·.correlation)) hr
    rw [hrec]
    rcases hcache with he | ⟨-, he⟩
    · rw [he] at hmem
      exact List.mem_append_left _ (hsub' _ hmem)
    · rw [he] at hmem
      rcases List.mem_append.1 hmem with h' | h'
      · exact List.mem_append_left _ (hsub' _ h')
      · exact List.mem_append_right _ h'
  · rw [hrec]
    rcases hcache with he | ⟨hnew, he⟩
    · rw [he]; exact horder
    · rw [he]
      refine List.pairwise_append.2 ⟨horder, by simp, ?_⟩
      intro c hc c' hc'
      obtain rfl : c' = t.correlation := by simpa using hc'
      rw [idxOf_append_of_mem (hsub' c hc), List.idxOf_append, if_neg hnew]
      have := List.idxOf_lt_length_of_mem (hsub' c hc)
      omega
  · unfold Net.read Device.take
    split_ifs
    · exact h.nodup.erase _
    · exact h.nodup
    · exact h.nodup

theorem find_succ {p : Complete → Bool} {d : Device} {t : Transport} {rest : List Transport} (hany : d.cache.any p = false)
    (hconnector : d.connector = t :: rest) (k : Nat) :
    d.find p (k + 1) = (({ d with connector := rest } : Device).take t).find p k := by
  conv_lhs => unfold Device.find
  rw [if_neg (by simp [hany]), hconnector]

/-- The loop of `find` reads some transports off the connector: what one read keeps where it is done, the loop keeps. -/
theorem Net.find_of_read_when {P : Net Sender → Prop} {p : Complete → Bool} {G : Device → Prop}
    (hread : ∀ {n : Net Sender} {t : Transport} {rest : List Transport}, P n → n.device.connector = t :: rest →
      n.device.cache.any p = false → G n.device → P (n.read t rest)) : ∀ (reads : Nat) {n : Net Sender}, P n →
    (∀ k < reads, (n.device.find p k).cache.any p = false → G (n.device.find p k)) →
    ∃ taken, n.device.connector = taken ++ (n.device.find p reads).connector ∧
      P { n with device := n.device.find p reads, received := n.received ++ taken }
  | 0, n, h, _ => ⟨[], rfl, by simpa [Device.find] using h⟩
  | reads + 1, n, h, hG => by
    cases hany : n.device.cache.any p with
    | true =>
      have hfind : n.device.find p (reads + 1) = n.device := by
        unfold Device.find
        rw [if_pos hany]
      rw [hfind]
      exact ⟨[], rfl, by simpa using h⟩
    | false =>
      cases hconnector : n.device.connector with
      | nil =>
        have hfind : n.device.find p (reads + 1) = n.device := by
          unfold Device.find
          rw [if_neg (by simp [hany]), hconnector]
        rw [hfind, hconnector]
        exact ⟨[], rfl, by simpa using h⟩
      | cons t rest =>
        have hsucc := find_succ hany hconnector
        have hfirst := hG 0 (Nat.zero_lt_succ _) hany
        obtain ⟨taken, hsplit, hs⟩ := Net.find_of_read_when hread reads (hread h hconnector hany hfirst) fun k hk => by
          have := hG (k + 1) (Nat.succ_lt_succ hk)
          rwa [hsucc] at this
        refine ⟨t :: taken, ?_, ?_⟩
        · have hrest : (n.read t rest).device.connector = rest := by simp [Net.read]
          rw [hrest] at hsplit
          rw [hsucc]
          exact congrArg (t :: ·) hsplit
        · rw [hsucc]
          simpa [Net.read] using hs

/-- What one read keeps, the loop keeps. -/
theorem Net.find_of_read {P : Net Sender → Prop}
    (hread : ∀ {n : Net Sender} {t : Transport} {rest : List Transport}, P n → n.device.connector = t :: rest →
      P (n.read t rest)) (p : Complete → Bool) (reads : Nat) {n : Net Sender} (h : P n) :
    ∃ taken, n.device.connector = taken ++ (n.device.find p reads).connector ∧
      P { n with device := n.device.find p reads, received := n.received ++ taken } :=
  Net.find_of_read_when (G := fun _ => True) (fun h hconnector _ _ => hread h hconnector) reads h fun _ _ _ => trivial

theorem Sound.find (p : Complete → Bool) (reads : Nat) {n : Net Sender} (h : Sound size messages n) :
    ∃ taken, n.device.connector = taken ++ (n.device.find p reads).connector ∧
      Sound size messages { n with device := n.device.find p reads, received := n.received ++ taken } :=
  Net.find_of_read (fun h hconnector => h.read hconnector) p reads h

/-! ## What a caller asks for -/

/-- The net after the device has handed out a message. -/
def Net.handOut (n : Net Sender) (selector : Selector) (r : Complete) : Net Sender :=
  { n with
    device := { n.device with cache := n.device.cache.eraseP fun m => m.complete && selector.accepts m }
    delivered := n.delivered ++ [r] }

theorem Accounted.handOut_other {ts : List Transport} {n : Net Sender} {s : Sender} {m r : Complete} {selector : Selector}
    (h : Accounted ts n s m)
    (hfind : n.device.cache.find? (fun m => m.complete && selector.accepts m) = some r)
    (hc : r.correlation ≠ m.correlation) : Accounted ts (n.handOut selector r) s m := by
  have hdel : withCorrelation m.correlation (n.delivered ++ [r]) = withCorrelation m.correlation n.delivered := by
    simp [withCorrelation, hc]
  have hmem : m.correlation ∈ (n.delivered ++ [r]).map (·.correlation) ↔
      m.correlation ∈ n.delivered.map (·.correlation) := by
    have : m.correlation ≠ r.correlation := fun h' => hc h'.symm
    rw [List.map_append, List.mem_append]
    simp [this]
  refine ⟨h.parts, ?_, ?_, h.discarding, h.discarded, h.redundant⟩
  · simp only [Net.handOut, hmem]
    exact (withCorrelation_eraseP_of_ne hfind hc).trans h.cached
  · simp only [Net.handOut, hdel]; exact h.delivered

theorem Accounted.handOut_self {ts : List Transport} {n : Net Sender} {s : Sender} {m r : Complete} {selector : Selector}
    (hts : Course m ts) (h : Accounted ts n s m)
    (hfind : n.device.cache.find? (fun m => m.complete && selector.accepts m) = some r)
    (hc : r.correlation = m.correlation) :
    r = whole m ∧ m.correlation ∉ n.dropped ∧ m.correlation ∉ n.delivered.map (·.correlation) ∧
      Accounted ts (n.handOut selector r) s m := by
  have hr := List.mem_of_find?_eq_some hfind
  have hcomplete : r.complete = true := by
    have := List.find?_some hfind
    simp only [Bool.and_eq_true] at this
    exact this.1
  obtain ⟨hdropped, hnot, hone, hiff, hwhole, -⟩ := h.of_mem_cache hts hr hc
  refine ⟨hwhole hcomplete, hdropped, hnot, h.parts, ?_, .inr ⟨?_, hiff.1 hcomplete, hdropped⟩, h.discarding,
    h.discarded, h.redundant⟩
  · rw [if_pos (.inr (by simp [Net.handOut, hc]))]
    rw [← hc] at hone ⊢
    exact withCorrelation_eraseP hfind hone
  · have hnil := withCorrelation_eq_nil.2 hnot
    unfold withCorrelation at hnil ⊢
    unfold Net.handOut
    rw [List.filter_append, hnil]
    simp [hwhole hcomplete, whole, Complete.make]

/-- The first complete message that is accepted leaves the cache. -/
theorem Sound.handOut {n : Net Sender} (h : Sound size messages n) {selector : Selector} {r : Complete}
    (hfind : n.device.cache.find? (fun m => m.complete && selector.accepts m) = some r) :
    Sound size messages (n.handOut selector r) := by
  have hr := List.mem_of_find?_eq_some hfind
  obtain ⟨s₀, m₀, hm₀, hc₀⟩ := h.exists_message (h.cache r hr)
  have hwhole := ((h.account s₀ m₀ hm₀).accounted.handOut_self (course_put m₀) hfind hc₀.symm).1
  have hsub : (n.device.cache.eraseP fun m => m.complete && selector.accepts m).Sublist n.device.cache :=
    List.eraseP_sublist
  refine ⟨?_, h.arrivals, h.outbox, fun x hx => h.cache x (hsub.subset hx), ?_, h.nodup, ?_⟩
  · intro s m hm
    by_cases hc : r.correlation = m.correlation
    · exact ((h.account s m hm).accounted.handOut_self (course_put m) hfind hc).2.2.2.account
    · exact ((h.account s m hm).accounted.handOut_other hfind hc).account
  · exact h.order.sublist (hsub.map _)
  · intro x hx
    rcases List.mem_append.1 hx with hx | hx
    · exact h.delivered x hx
    · rw [List.mem_singleton] at hx
      subst hx
      exact ⟨s₀, m₀, hm₀, hwhole⟩

theorem step_next_none [DecidableEq Sender] {n : Net Sender} {selector : Selector} {reads : Nat}
    {taken : List Transport}
    (hsplit : n.device.connector = taken ++ (n.device.find (fun m => m.complete && selector.accepts m) reads).connector)
    (hfind : (n.device.find (fun m => m.complete && selector.accepts m) reads).cache.find?
      (fun m => m.complete && selector.accepts m) = none) :
    n.step (.next selector reads) = { n with
      device := n.device.find (fun m => m.complete && selector.accepts m) reads
      received := n.received ++ taken } := by
  have hlen := congrArg List.length hsplit
  rw [List.length_append] at hlen
  simp only [Net.step, Device.next, hfind, Option.toList_none, List.append_nil, Net.mk.injEq, true_and, and_true]
  rw [hlen, Nat.add_sub_cancel, hsplit, List.take_left]

theorem step_next_some [DecidableEq Sender] {n : Net Sender} {selector : Selector} {reads : Nat} {r : Complete}
    {taken : List Transport}
    (hsplit : n.device.connector = taken ++ (n.device.find (fun m => m.complete && selector.accepts m) reads).connector)
    (hfind : (n.device.find (fun m => m.complete && selector.accepts m) reads).cache.find?
      (fun m => m.complete && selector.accepts m) = some r) :
    n.step (.next selector reads) = { n with
      device := { n.device.find (fun m => m.complete && selector.accepts m) reads with
        cache := (n.device.find (fun m => m.complete && selector.accepts m) reads).cache.eraseP
          fun m => m.complete && selector.accepts m }
      received := n.received ++ taken
      delivered := n.delivered ++ [r] } := by
  have hlen := congrArg List.length hsplit
  rw [List.length_append] at hlen
  simp only [Net.step, Device.next, hfind, Option.toList_some, Net.mk.injEq, true_and, and_true]
  rw [hlen, Nat.add_sub_cancel, hsplit, List.take_left]

theorem next_eq_none {d : Device} {selector : Selector} {reads : Nat} (h : (d.next selector reads).1 = none) :
    (d.find (fun m => m.complete && selector.accepts m) reads).cache.find?
      (fun m => m.complete && selector.accepts m) = none := by
  unfold Device.next at h
  simp only at h
  split at h
  · cases h
  · next h' => exact h'

theorem next_eq_some {d : Device} {selector : Selector} {reads : Nat} {r : Complete}
    (h : (d.next selector reads).1 = some r) :
    (d.find (fun m => m.complete && selector.accepts m) reads).cache.find?
      (fun m => m.complete && selector.accepts m) = some r := by
  unfold Device.next at h
  simp only at h
  split at h
  · next h' => rw [h']; exact h
  · cases h

/-- A call of `next`: first the device reads, then it hands out what it found. -/
theorem Net.next_of_read_when [DecidableEq Sender] {P : Net Sender → Prop} {G : Device → Prop} {selector : Selector}
    (hread : ∀ {n : Net Sender} {t : Transport} {rest : List Transport}, P n → n.device.connector = t :: rest →
      n.device.cache.any (fun m => m.complete && selector.accepts m) = false → G n.device → P (n.read t rest))
    {n : Net Sender} (h : P n) (reads : Nat)
    (hG : ∀ k < reads, (n.device.find (fun m => m.complete && selector.accepts m) k).cache.any
      (fun m => m.complete && selector.accepts m) = false → G (n.device.find (fun m => m.complete && selector.accepts m) k)) :
    ∃ n', P n' ∧
      ((n.device.next selector reads).1 = none ∧ n.step (.next selector reads) = n' ∨
        ∃ r, (n.device.next selector reads).1 = some r ∧
          n'.device.cache.find? (fun m => m.complete && selector.accepts m) = some r ∧
          n.step (.next selector reads) = n'.handOut selector r) := by
  obtain ⟨taken, hsplit, hs⟩ := Net.find_of_read_when hread reads h hG
  refine ⟨_, hs, ?_⟩
  cases hr : (n.device.next selector reads).1 with
  | none => exact .inl ⟨rfl, step_next_none hsplit (next_eq_none hr)⟩
  | some r => exact .inr ⟨r, rfl, next_eq_some hr, step_next_some hsplit (next_eq_some hr)⟩

theorem Net.next_of_read [DecidableEq Sender] {P : Net Sender → Prop}
    (hread : ∀ {n : Net Sender} {t : Transport} {rest : List Transport}, P n → n.device.connector = t :: rest →
      P (n.read t rest)) {n : Net Sender} (h : P n) (selector : Selector) (reads : Nat) :
    ∃ n', P n' ∧
      ((n.device.next selector reads).1 = none ∧ n.step (.next selector reads) = n' ∨
        ∃ r, (n.device.next selector reads).1 = some r ∧
          n'.device.cache.find? (fun m => m.complete && selector.accepts m) = some r ∧
          n.step (.next selector reads) = n'.handOut selector r) :=
  Net.next_of_read_when (G := fun _ => True) (fun h hconnector _ _ => hread h hconnector) h reads fun _ _ _ => trivial

theorem Sound.step_next [DecidableEq Sender] {n : Net Sender} (h : Sound size messages n) (selector : Selector)
    (reads : Nat) : Sound size messages (n.step (.next selector reads)) := by
  obtain ⟨n', hs, ⟨-, hstep⟩ | ⟨r, -, hfind, hstep⟩⟩ :=
    Net.next_of_read (fun h hconnector => Sound.read h hconnector) h selector reads
  · rw [hstep]; exact hs
  · rw [hstep]; exact hs.handOut hfind

theorem Sound.step_put [DecidableEq Sender] {n : Net Sender} (hd : Distinct messages) (h : Sound size messages n)
    (s : Sender) : Sound size messages (n.step (.put s)) := by
  cases hout : n.outbox s with
  | nil => rw [Net.step_put_nil hout]; exact h
  | cons t rest =>
    rw [Net.step_put_cons hout]
    obtain ⟨m₀, hm₀, hput⟩ := h.outbox s t (by simp [hout])
    have hc₀ := correlation_of_mem_put hput
    refine ⟨?_, ?_, ?_, h.cache, h.order, h.nodup, h.delivered⟩
    · intro s' m hm
      have ha := h.account s' m hm
      refine ⟨?_, ha.cached, ha.delivered, ha.discarding, ha.discarded, ha.redundant⟩
      rw [← ha.parts]
      simp only [ofCorrelation_append]
      by_cases hs : s' = s
      · subst hs
        rw [Function.update_self, hout]
        by_cases hc : t.correlation = m.correlation
        · rw [← hc, ofCorrelation_cons_self, ofCorrelation_cons_self]; simp
        · rw [ofCorrelation_cons_of_ne hc, ofCorrelation_cons_of_ne hc]; simp
      · -- another sender's message: the transport is none of its
        have hc : t.correlation ≠ m.correlation := by
          intro hc
          exact hs (hd.unique hm hm₀ (hc.symm.trans hc₀)).1
        rw [Function.update_of_ne hs, ofCorrelation_cons_of_ne hc]; simp
    · intro u hu
      have harr : u ∈ n.arrivals ∨ u = t := by
        simpa [Net.arrivals, or_assoc] using hu
      rcases harr with hu | rfl
      · exact h.arrivals u hu
      · exact ⟨s, m₀, hm₀, hput⟩
    · intro s' u hu
      by_cases hs : s' = s
      · subst hs
        simp only [Function.update_self] at hu
        exact h.outbox s' u (by rw [hout]; exact List.mem_cons_of_mem _ hu)
      · simp only [Function.update_of_ne hs] at hu
        exact h.outbox s' u hu

/-! ## What a caller discards -/

theorem find_correlation_some {c : Uuid} {cache : List Complete} {r : Complete}
    (h : cache.find? (fun m => m.correlation == c) = some r) : r ∈ cache ∧ r.correlation = c := by
  have := List.find?_some h
  exact ⟨List.mem_of_find?_eq_some h, by simpa using this⟩

theorem find_correlation_none {c : Uuid} {cache : List Complete} :
    cache.find? (fun m => m.correlation == c) = none ↔ c ∉ cache.map (·.correlation) := by
  rw [List.find?_eq_none, List.mem_map]
  simp

theorem discard_connector (d : Device) (c : Uuid) : (d.discard c).connector = d.connector := by
  unfold Device.discard
  simp only
  split
  · rfl
  · split_ifs <;> rfl

/-- What is not touched when another correlation is discarded. -/
structure DiscardFrame (n n' : Net Sender) (c : Uuid) : Prop where
  dropped : c ∈ n'.dropped ↔ c ∈ n.dropped
  redundant : c ∈ n'.redundant ↔ c ∈ n.redundant
  discarded : c ∈ n'.device.discarded ↔ c ∈ n.device.discarded
  cache : withCorrelation c n'.device.cache = withCorrelation c n.device.cache

theorem discardFrame [DecidableEq Sender] (n : Net Sender) {c c' : Uuid} (hne : c ≠ c') :
    DiscardFrame n (n.step (.discard c')) c := by
  refine ⟨?_, ?_, ?_, ?_⟩
  · unfold Net.step
    simp only
    split_ifs
    · exact Iff.rfl
    · simp [hne]
  · unfold Net.step
    simp only
    split_ifs
    · simp [hne]
    · exact Iff.rfl
  · show c ∈ (n.device.discard c').discarded ↔ c ∈ n.device.discarded
    unfold Device.discard
    simp only
    split <;> split_ifs <;> simp [hne]
  · show withCorrelation c (n.device.discard c').cache = withCorrelation c n.device.cache
    unfold Device.discard
    simp only
    split
    · next r hfind =>
      exact withCorrelation_eraseP_of_ne hfind fun h' => hne (h'.symm.trans (find_correlation_some hfind).2)
    · split_ifs <;> rfl

/-- A message of another correlation is not touched. -/
theorem Accounted.discard_other [DecidableEq Sender] {ts : List Transport} {n : Net Sender} {s : Sender} {m : Complete} {c : Uuid}
    (h : Accounted ts n s m) (hne : m.correlation ≠ c) : Accounted ts (n.step (.discard c)) s m := by
  have hf := discardFrame n hne
  refine ⟨?_, ?_, ?_, ?_, ?_, ?_⟩
  · have := h.parts
    rw [← discard_connector n.device c] at this
    exact this
  · simp only [hf.dropped]
    exact hf.cache.trans h.cached
  · rw [hf.dropped]; exact h.delivered
  · rw [hf.dropped]
    exact fun hd hr => hf.discarded.2 (h.discarding hd hr)
  · rw [hf.dropped, hf.redundant]
    exact fun hd => h.discarded (hf.discarded.1 hd)
  · rw [hf.redundant]; exact h.redundant

/-- A message in the cache is taken out, and the rest of it is to be discarded. -/
theorem Accounted.discard_cached [DecidableEq Sender] {ts : List Transport} {n : Net Sender} {s : Sender} {m r : Complete}
    (hts : Course m ts) (h : Accounted ts n s m)
    (hfind : n.device.cache.find? (fun x => x.correlation == m.correlation) = some r) :
    Accounted ts (n.step (.discard m.correlation)) s m := by
  obtain ⟨hr, hc⟩ := find_correlation_some hfind
  obtain ⟨hdropped, hnot, hone, hcomplete, -, -⟩ := h.of_mem_cache hts hr hc
  have hstep : n.step (.discard m.correlation) = { n with
      device := { n.device with
        discarded := if r.complete then n.device.discarded else n.device.discarded ++ [m.correlation]
        cache := n.device.cache.eraseP fun x => x.correlation == m.correlation }
      dropped := n.dropped ++ [m.correlation] } := by
    have hin : m.correlation ∈ n.device.cache.map (·.correlation) := List.mem_map.2 ⟨r, hr, hc⟩
    simp [Net.step, Device.discard, hfind, hnot, hin]
  rw [hstep]
  refine ⟨h.parts, ?_, .inl (withCorrelation_eq_nil.2 hnot), ?_, ?_, h.redundant⟩
  · simp only [List.mem_append, List.mem_singleton, or_true, true_or, if_true]
    rw [← hc] at hone hfind ⊢
    exact withCorrelation_eraseP hfind hone
  · intro _ hmore
    rw [if_neg (fun h' => hmore (hcomplete.1 h'))]
    simp
  · intro hin
    by_cases hfull : r.complete = true
    · rw [if_pos hfull] at hin
      exact .inr ((h.discarded hin).resolve_left fun h' => hdropped h'.1)
    · exact .inl ⟨by simp, fun h' => hfull (hcomplete.2 h')⟩

/-- Without it in the cache, the correlation is to be discarded from now on. -/
theorem Accounted.discard_absent [DecidableEq Sender] {ts : List Transport} {n : Net Sender} {s : Sender} {m : Complete}
    (hts : Course m ts) (h : Accounted ts n s m)
    (hfind : n.device.cache.find? (fun x => x.correlation == m.correlation) = none) :
    Accounted ts (n.step (.discard m.correlation)) s m := by
  have hnot := find_correlation_none.1 hfind
  have hcache : (n.step (.discard m.correlation)).device.cache = n.device.cache := by
    simp only [Net.step, Device.discard, hfind]
    split_ifs <;> rfl
  have hmem : m.correlation ∈ (n.step (.discard m.correlation)).device.discarded := by
    simp only [Net.step, Device.discard, hfind]
    split_ifs with hin
    · exact hin
    · simp
  have hnil : withCorrelation m.correlation n.device.cache = [] := withCorrelation_eq_nil.2 hnot
  have hparts := h.parts
  rw [← discard_connector n.device m.correlation] at hparts
  have hredundant : m.correlation ∈ (n.step (.discard m.correlation)).redundant ↔
      n.finished m.correlation = true ∨ m.correlation ∈ n.redundant := by
    simp only [Net.step]
    split_ifs with hin
    · simp [hin.1]
    · have : n.finished m.correlation ≠ true := fun h' => hin ⟨h', hnot⟩
      simp [this]
  have hfinished : n.finished m.correlation = true ↔ ofCorrelation m.correlation n.received = ts :=
    ⟨h.received_of_finished hts, Accounted.finished_of_received hts⟩
  by_cases hdel : m.correlation ∈ n.delivered.map (·.correlation)
  · -- it was handed out, and all of it has been read
    have hright := h.delivered.resolve_left fun h' => (withCorrelation_eq_nil.1 h') hdel
    have hdropped : (n.step (.discard m.correlation)).dropped = n.dropped := by simp only [Net.step, if_pos hdel]
    refine ⟨hparts, ?_, .inr ⟨hright.1, hright.2.1, by rw [hdropped]; exact hright.2.2⟩, fun _ _ => hmem,
      fun _ => .inr (hredundant.2 (.inl (hfinished.2 hright.2.1))), fun _ => hright.2.1⟩
    rw [hcache, hnil, if_pos (.inr hdel)]
  · have hdropped : (n.step (.discard m.correlation)).dropped = n.dropped ++ [m.correlation] := by
      simp only [Net.step, if_neg hdel]
    refine ⟨hparts, ?_, .inl (withCorrelation_eq_nil.2 hdel), fun _ _ => hmem, fun _ => ?_, fun hin => ?_⟩
    · rw [hcache, hnil, if_pos (.inl (by rw [hdropped]; simp))]
    · by_cases hall : ofCorrelation m.correlation n.received = ts
      · exact .inr (hredundant.2 (.inl (hfinished.2 hall)))
      · exact .inl ⟨by rw [hdropped]; simp, hall⟩
    · rcases hredundant.1 hin with h' | h'
      · exact hfinished.1 h'
      · exact h.redundant h'

theorem Sound.step_discard [DecidableEq Sender] {n : Net Sender} (h : Sound size messages n) (c : Uuid) :
    Sound size messages (n.step (.discard c)) := by
  have hsub : (n.device.discard c).cache.Sublist n.device.cache := by
    unfold Device.discard
    simp only
    split
    · exact List.eraseP_sublist
    · split_ifs <;> exact List.Sublist.refl _
  refine ⟨?_, ?_, h.outbox, fun r hr => h.cache r (hsub.subset hr), h.order.sublist (hsub.map _), ?_, h.delivered⟩
  · intro s m hm
    have ha := h.account s m hm
    by_cases hc : m.correlation = c
    · subst hc
      cases hfind : n.device.cache.find? (fun x => x.correlation == m.correlation) with
      | none => exact (ha.accounted.discard_absent (course_put m) hfind).account
      | some r => exact (ha.accounted.discard_cached (course_put m) hfind).account
    · exact (ha.accounted.discard_other hc).account
  · have := h.arrivals
    unfold Net.arrivals at this ⊢
    simp only [Net.step, discard_connector]
    exact this
  · simp only [Net.step]
    unfold Device.discard
    simp only
    split
    · next r hfind =>
      obtain ⟨hr, hc⟩ := find_correlation_some hfind
      split_ifs with hfull
      · exact h.nodup
      · -- what is in the cache and not complete is not yet to be discarded
        obtain ⟨s, m, hm, hcm⟩ := h.exists_message (h.cache r hr)
        have ha := h.account s m hm
        obtain ⟨hdropped, -, -, hcomplete, -, -⟩ := ha.accounted.of_mem_cache (course_put m) hr hcm.symm
        have hnot : c ∉ n.device.discarded := by
          rw [← hc, ← hcm, ha.accounted.mem_discarded_iff fun h' => hfull (hcomplete.2 h')]
          exact hdropped
        exact List.nodup_append.2 ⟨h.nodup, by simp, by rintro a ha b hb rfl; simp at hb; exact hnot (hb ▸ ha)⟩
    · split_ifs with hin
      · exact h.nodup
      · exact List.nodup_append.2 ⟨h.nodup, by simp, by rintro a ha b hb rfl; simp at hb; exact hin (hb ▸ ha)⟩

/-! ## Every run -/

variable [DecidableEq Sender]

theorem ofCorrelation_flatMap_put {m : Complete} : ∀ {ms : List Complete}, ms.Nodup →
    (∀ m' ∈ ms, m'.correlation = m.correlation → m' = m) → m ∈ ms →
    ofCorrelation m.correlation (ms.flatMap (put size)) = put size m
  | [], _, _, hm => by cases hm
  | m' :: ms, hnodup, huniq, hm => by
    obtain ⟨hnot, hnodup⟩ := List.nodup_cons.1 hnodup
    rw [List.flatMap_cons, ofCorrelation_append, ofCorrelation_put]
    by_cases hc : m'.correlation = m.correlation
    · obtain rfl := huniq m' List.mem_cons_self hc
      have hrest : ofCorrelation m'.correlation (ms.flatMap (put size)) = [] := by
        refine List.filter_eq_nil_iff.2 fun t ht => ?_
        obtain ⟨m₁, hm₁, ht⟩ := List.mem_flatMap.1 ht
        intro h'
        rw [correlation_of_mem_put ht, beq_iff_eq] at h'
        exact hnot (huniq m₁ (List.mem_cons_of_mem _ hm₁) h' ▸ hm₁)
      rw [if_pos rfl, hrest, List.append_nil]
    · have hm' : m ∈ ms := by
        rcases List.mem_cons.1 hm with rfl | hm
        · exact absurd rfl hc
        · exact hm
      rw [if_neg hc, List.nil_append]
      exact ofCorrelation_flatMap_put hnodup (fun m₁ hm₁ => huniq m₁ (List.mem_cons_of_mem _ hm₁)) hm'

omit [DecidableEq Sender] in
theorem sound_start (hd : Distinct messages) : Sound size messages (start size messages) := by
  refine ⟨?_, by simp [Net.arrivals, Communication.start], ?_, by simp [Communication.start],
    by simp [Communication.start], by simp [Communication.start], by simp [Communication.start]⟩
  · intro s m hm
    refine ⟨?_, by simp [Communication.start, withCorrelation, partly],
      .inl (by simp [Communication.start, withCorrelation]), by simp [Communication.start],
      by simp [Communication.start], by simp [Communication.start]⟩
    simp only [Communication.start, ofCorrelation_nil, List.nil_append]
    exact ofCorrelation_flatMap_put (hd.nodup s) (fun m' hm' hc => (hd.unique hm' hm hc).2) hm
  · intro s t ht
    obtain ⟨m, hm, ht⟩ := List.mem_flatMap.1 ht
    exact ⟨m, hm, ht⟩

theorem Sound.step {n : Net Sender} (hd : Distinct messages) (h : Sound size messages n) (e : Event Sender) :
    Sound size messages (n.step e) := by
  cases e with
  | put s => exact h.step_put hd s
  | next selector reads => exact h.step_next selector reads
  | discard c => exact h.step_discard c

theorem reachable_step {n : Net Sender} (h : (net size messages).Reachable n) (e : Event Sender) :
    (net size messages).Reachable (n.step e) := Machine.Reachable.step h trivial

theorem sound_of_reachable (hd : Distinct messages) {n : Net Sender} (h : (net size messages).Reachable n) :
    Sound size messages n :=
  h.invariant (fun _ hs => hs ▸ sound_start hd) fun _ e hs _ => hs.step hd e

theorem dropped_step {n : Net Sender} {c : Uuid} (h : c ∈ n.dropped) (e : Event Sender) : c ∈ (n.step e).dropped := by
  cases e with
  | put s =>
    cases hout : n.outbox s with
    | nil => rw [Net.step_put_nil hout]; exact h
    | cons t rest => rw [Net.step_put_cons hout]; exact h
  | next selector reads => exact h
  | discard c' =>
    simp only [Net.step]
    split_ifs
    · exact h
    · exact List.mem_append_left _ h

omit [DecidableEq Sender] in
theorem Sound.dropped {n : Net Sender} (h : Sound size messages n) {c : Uuid} (hc : c ∈ n.dropped) :
    c ∉ n.delivered.map (·.correlation) := by
  intro hdel
  obtain ⟨r, hr, rfl⟩ := List.mem_map.1 hdel
  obtain ⟨s, m, hm, rfl⟩ := h.delivered r hr
  rcases (h.account s m hm).delivered with h' | ⟨-, -, h'⟩
  · exact (withCorrelation_eq_nil.1 h') hdel
  · exact h' hc

/-- With enough reads the loop of `find` goes on until it has found a message or the connector is empty. -/
theorem find_drained {p : Complete → Bool} : ∀ {reads : Nat} {d : Device}, d.connector.length ≤ reads →
    (d.find p reads).cache.find? p = none → (d.find p reads).connector = []
  | 0, d, hlen, _ => by
    have : d.connector = [] := List.length_eq_zero_iff.1 (by omega)
    simpa [Device.find] using this
  | reads + 1, d, hlen, hnone => by
    unfold Device.find at hnone ⊢
    split_ifs at hnone ⊢ with hany
    · obtain ⟨r, hr, hp⟩ := List.any_eq_true.1 hany
      exact absurd hp (List.find?_eq_none.1 hnone r hr)
    · cases hcon : d.connector with
      | nil => simp [hcon]
      | cons t rest =>
        simp only [hcon] at hnone ⊢
        refine find_drained ?_ hnone
        rw [hcon, List.length_cons] at hlen
        rw [take_connector]
        exact Nat.le_of_succ_le_succ hlen

/-- What the senders and the callers can rely on. -/
structure Delivers (size : TransportSize) (messages : Sender → List Complete) (n : Net Sender) : Prop where
  /-- A message is handed out once at most, with its type and payload. -/
  once : ∀ s, ∀ m ∈ messages s,
    withCorrelation m.correlation n.delivered = [] ∨ withCorrelation m.correlation n.delivered = [whole m]
  sent : ∀ r ∈ n.delivered, ∃ s, ∃ m ∈ messages s, r = whole m
  /-- When there is nothing more for a caller, all that was put for it and not discarded has been handed out. -/
  asked : ∀ selector reads, (n.device.next selector reads).1 = none → n.device.connector.length ≤ reads →
    ∀ s, ∀ m ∈ messages s, selector.accepts m = true → (∀ t ∈ n.outbox s, t.correlation ≠ m.correlation) →
      m.correlation ∉ n.dropped → withCorrelation m.correlation n.delivered = [whole m]
  /-- What is handed out is the message whose first transport arrived earliest, of those that are complete. -/
  earliest : ∀ selector reads r, (n.device.next selector reads).1 = some r →
    ∀ s, ∀ m ∈ messages s, selector.accepts m = true →
      (n.step (.next selector reads)).finished m.correlation = true → m.correlation ∉ n.dropped →
      m.correlation ∉ (n.step (.next selector reads)).delivered.map (·.correlation) →
      (n.step (.next selector reads)).firstArrival r.correlation <
        (n.step (.next selector reads)).firstArrival m.correlation
  /-- What was discarded before it was handed out is never handed out. -/
  never : ∀ c ∈ n.dropped, ∀ es n', (net size messages).Run n es n' → c ∉ n'.delivered.map (·.correlation)
  /-- With its last transport a correlation is no longer to be discarded, unless that is asked for again. -/
  settled : ∀ c, n.finished c = true → c ∉ n.redundant → c ∉ n.device.discarded

omit [DecidableEq Sender] in
/-- A message that has been read to the end and neither handed out nor discarded is in the cache. -/
theorem Accounted.whole_mem_cache {ts : List Transport} {n : Net Sender} {s : Sender} {m : Complete} (hts : Course m ts) (h : Accounted ts n s m)
    (hall : ofCorrelation m.correlation n.received = ts) (hdropped : m.correlation ∉ n.dropped)
    (hnot : m.correlation ∉ n.delivered.map (·.correlation)) : whole m ∈ n.device.cache := by
  have hcached := h.cached
  rw [if_neg (fun h' => h'.elim hdropped hnot), hall] at hcached
  cases hput : ts with
  | nil => exact absurd hput hts.nonempty
  | cons t ts =>
    rw [hput] at hcached
    have hin : Complete.feed t ts ∈ withCorrelation m.correlation n.device.cache := by
      rw [hcached]
      exact List.mem_singleton_self _
    rw [hts.whole hput] at hin
    exact (mem_withCorrelation.1 hin).1

theorem accepts_whole {selector : Selector} {m : Complete} (h : selector.accepts m = true) :
    ((whole m).complete && selector.accepts (whole m)) = true := by
  have : selector.accepts (whole m) = selector.accepts m := by cases selector <;> rfl
  rw [this, h]
  rfl

omit [DecidableEq Sender] in
theorem Sound.asked {n : Net Sender} (h : Sound size messages n) {selector : Selector} {reads : Nat}
    (hnone : (n.device.next selector reads).1 = none) (hreads : n.device.connector.length ≤ reads) {s : Sender}
    {m : Complete} (hm : m ∈ messages s) (haccepts : selector.accepts m = true)
    (hout : ∀ t ∈ n.outbox s, t.correlation ≠ m.correlation) (hdropped : m.correlation ∉ n.dropped) :
    withCorrelation m.correlation n.delivered = [whole m] := by
  obtain ⟨taken, hsplit, hs⟩ := Sound.find (fun m => m.complete && selector.accepts m) reads h
  have hfind := next_eq_none hnone
  have hempty := find_drained hreads hfind
  have ha := hs.account s m hm
  -- everything has been read
  have hall : ofCorrelation m.correlation (n.received ++ taken) = Communication.put size m := by
    have hp := ha.parts
    have hnil : ofCorrelation m.correlation (n.outbox s) = [] :=
      List.filter_eq_nil_iff.2 fun t ht => by simpa using hout t ht
    simp only [hempty, ofCorrelation_nil, hnil, List.append_nil] at hp
    exact hp
  rcases ha.delivered with hnil | ⟨hone, -⟩
  · have hin := ha.accounted.whole_mem_cache (course_put m) hall hdropped (withCorrelation_eq_nil.1 hnil)
    exact absurd (accepts_whole haccepts) (List.find?_eq_none.1 hfind _ hin)
  · exact hone

theorem Sound.earliest {n : Net Sender} (h : Sound size messages n) {selector : Selector} {reads : Nat}
    {r : Complete} (hsome : (n.device.next selector reads).1 = some r) {s : Sender}
    {m : Complete} (hm : m ∈ messages s) (haccepts : selector.accepts m = true)
    (hfinished : (n.step (.next selector reads)).finished m.correlation = true) (hdropped : m.correlation ∉ n.dropped)
    (hnot : m.correlation ∉ (n.step (.next selector reads)).delivered.map (·.correlation)) :
    (n.step (.next selector reads)).firstArrival r.correlation <
      (n.step (.next selector reads)).firstArrival m.correlation := by
  obtain ⟨taken, hsplit, hs⟩ := Sound.find (fun m => m.complete && selector.accepts m) reads h
  have hfind := next_eq_some hsome
  rw [step_next_some hsplit hfind] at hfinished hnot ⊢
  rw [List.map_append, List.mem_append] at hnot
  push Not at hnot
  have ha := hs.account s m hm
  have hin := ha.accounted.whole_mem_cache (course_put m) (ha.accounted.received_of_finished (course_put m) hfinished)
    hdropped hnot.1
  -- of the messages that are accepted the first one was taken
  obtain ⟨-, before, behind, hcache, hbefore⟩ := List.find?_eq_some_iff_append.1 hfind
  have hbehind : whole m ∈ behind := by
    have hin' := hin
    simp only [hcache, List.mem_append, List.mem_cons] at hin'
    rcases hin' with h' | h' | h'
    · have := hbefore _ h'
      rw [accepts_whole haccepts] at this
      cases this
    · exact absurd (by simp [← h', whole, Complete.make]) hnot.2
    · exact h'
  have horder := hs.order
  simp only [hcache, List.map_append, List.map_cons] at horder
  have hlt := (List.pairwise_cons.1 (List.pairwise_append.1 horder).2.1).1 m.correlation
    (List.mem_map.2 ⟨_, hbehind, rfl⟩)
  have hr := hs.cache r (List.mem_of_find?_eq_some hfind)
  have hm' : m.correlation ∈ (n.received ++ taken).map (·.correlation) := hs.cache (whole m) hin
  simp only [Net.firstArrival, Net.arrivals, List.map_append] at hr hm' hlt ⊢
  rw [idxOf_append_of_mem hr, idxOf_append_of_mem hm']
  exact hlt

/-- Whatever the order of the transports and of the calls, the messages are delivered. -/
theorem delivers_of_reachable (hd : Distinct messages) {n : Net Sender} (h : (net size messages).Reachable n) :
    Delivers size messages n := by
  have hs := sound_of_reachable hd h
  refine ⟨?_, hs.delivered, ?_, ?_, ?_, ?_⟩
  · intro s m hm
    exact (hs.account s m hm).delivered.imp id And.left
  · intro selector reads hnone hreads s m hm
    exact hs.asked hnone hreads hm
  · intro selector reads r hsome s m hm
    exact hs.earliest hsome hm
  · intro c hc es n' hrun
    have hkeep : c ∈ n'.dropped ∧ Sound size messages n' :=
      hrun.invariant (I := fun t => c ∈ t.dropped ∧ Sound size messages t)
        (fun t e ht _ => ⟨dropped_step ht.1 e, ht.2.step hd e⟩) ⟨hc, hs⟩
    exact hkeep.2.dropped hkeep.1
  · intro c hfinished hredundant hin
    obtain ⟨t, ht, hlast⟩ := List.any_eq_true.1 hfinished
    simp only [Bool.and_eq_true, beq_iff_eq] at hlast
    obtain ⟨s, m, hm, rfl⟩ := hs.exists_message (List.mem_map.2 ⟨t, ht, hlast.1⟩)
    have ha := hs.account s m hm
    rcases ha.discarded hin with h' | h'
    · exact h'.2 (ha.accounted.received_of_finished (course_put m) hfinished)
    · exact hredundant h'

/-! ### Two senders -/

/-- Transports of few bytes. -/
def smallSize : TransportSize := ⟨2 * headerSize + 1, by decide⟩

/-- The first message of one sender takes two transports. -/
def twoSenders : Bool → List Complete
  | false => [.make 10 7 (List.replicate (headerSize + 2) 65), .make 11 8 [66]]
  | true => [.make 10 9 [67, 68]]

theorem twoSenders_distinct : Distinct twoSenders := by
  constructor
  · rintro (_ | _) (_ | _) m m' hm hm' hsame <;>
      simp only [twoSenders, List.mem_cons, List.not_mem_nil, or_false] at hm hm'
    · rcases hm with rfl | rfl <;> rcases hm' with rfl | rfl <;> first | exact ⟨rfl, rfl⟩ | cases hsame
    · rcases hm with rfl | rfl <;> subst hm' <;> cases hsame
    · rcases hm' with rfl | rfl <;> subst hm <;> cases hsame
    · exact ⟨rfl, hm.trans hm'.symm⟩
  · rintro (_ | _) <;> decide

/-- The message of the second sender comes between the transports of the first, whose second message is discarded. -/
def interleaved : List (Event Bool) :=
  [.put false, .put true, .next .any 2, .put false, .discard 8, .put false, .next .any 2, .next .any 2]

theorem interleaved_delivers :
    Delivers smallSize twoSenders (interleaved.foldl Net.step (start smallSize twoSenders)) ∧
      (interleaved.foldl Net.step (start smallSize twoSenders)).delivered.map (·.correlation) = [9, 7] := by
  constructor
  · apply delivers_of_reachable twoSenders_distinct
    exact Machine.Reachable.foldl (M := net smallSize twoSenders) (.of_init rfl)
      ⟨trivial, trivial, trivial, trivial, trivial, trivial, trivial, trivial, trivial⟩
  · decide +kernel

/-! ### Discarded twice -/

/-- One sender with one message. -/
def oneMessage : Unit → List Complete := fun _ => [.make 10 7 [65, 66]]

/-- The message is discarded, put, and dropped when it is read. -/
def droppedOnce : Net Unit :=
  (((start ipcSize oneMessage).step (.discard 7)).step (.put ())).step (.next .any 1)

theorem droppedOnce_reachable : (net ipcSize oneMessage).Reachable droppedOnce :=
  reachable_step (reachable_step (reachable_step (.of_init rfl) _) _) _

/-- Discarded once more its correlation stays to be discarded, though there is nothing left to come. -/
theorem discarded_forever : (net ipcSize oneMessage).Reachable (droppedOnce.step (.discard 7)) ∧
    7 ∈ (droppedOnce.step (.discard 7)).dropped ∧ (droppedOnce.step (.discard 7)).finished 7 = true ∧
      7 ∈ (droppedOnce.step (.discard 7)).device.discarded :=
  ⟨reachable_step droppedOnce_reachable _, by decide, by decide, by decide⟩

end Casual.Communication

/-
One message among others: senders that get ever new messages to put, of which some may share a
correlation. A message whose correlation no other has is still handed out once and whole, or never.
-/
import Casual.Communication.Delivery

namespace Casual.Communication

variable {Sender : Type} {size : TransportSize} {n : Net Sender} {s : Sender} {m : Complete}

/-- A sender has another message to put. -/
def Net.send [DecidableEq Sender] (n : Net Sender) (size : TransportSize) (s : Sender) (m : Complete) : Net Sender :=
  { n with outbox := Function.update n.outbox s (n.outbox s ++ put size m) }

theorem outbox_send_of_ne [DecidableEq Sender] {s' : Sender} {c : Uuid} (hne : m.correlation ≠ c) :
    ofCorrelation c ((n.send size s m).outbox s') = ofCorrelation c (n.outbox s') := by
  show ofCorrelation c (Function.update n.outbox s (n.outbox s ++ put size m) s') = ofCorrelation c (n.outbox s')
  by_cases hs : s' = s
  · subst hs
    rw [Function.update_self, ofCorrelation_append, ofCorrelation_put, if_neg hne, List.append_nil]
  · rw [Function.update_of_ne hs]

theorem count_read (t : Transport) (rest : List Transport) (c : Uuid) :
    (n.read t rest).device.discarded.count c ≤ n.device.discarded.count c := by
  have hsub : (n.read t rest).device.discarded.Sublist n.device.discarded := by
    unfold Net.read Device.take
    split_ifs
    · exact List.erase_sublist
    · exact List.Sublist.refl _
    · exact List.Sublist.refl _
  exact hsub.count_le _

/-- A correlation is to be discarded once, when what is in the cache of it is not to be discarded. -/
theorem count_discard {d : Device} {c c' : Uuid} (h : d.discarded.count c ≤ 1)
    (hcache : c = c' → ∀ r ∈ d.cache, r.correlation = c → ¬ r.complete = true → c ∉ d.discarded) :
    (d.discard c').discarded.count c ≤ 1 := by
  have hadd : (c = c' → c ∉ d.discarded) → (d.discarded ++ [c']).count c ≤ 1 := by
    intro hnot
    by_cases hc : c = c'
    · rw [List.count_append, List.count_eq_zero_of_not_mem (hnot hc), hc]
      simp
    · have hc' : ¬ c' = c := fun h' => hc h'.symm
      rw [List.count_append, List.count_singleton]
      simpa [hc'] using h
  unfold Device.discard
  simp only
  split
  · next r hfind =>
    obtain ⟨hr, hrc⟩ := find_correlation_some hfind
    split_ifs with hfull
    · exact h
    · exact hadd fun hc => hcache hc r hr (hrc.trans hc.symm) hfull
  · split_ifs with hin
    · exact h
    · exact hadd fun hc => hc ▸ hin

/-- The account of a message whose transports come as `ts`, and whose correlation no other message has. -/
structure Single (ts : List Transport) (n : Net Sender) (s : Sender) (m : Complete) : Prop where
  account : Accounted ts n s m
  others : ∀ s', s' ≠ s → ofCorrelation m.correlation (n.outbox s') = []
  once : n.device.discarded.count m.correlation ≤ 1

namespace Single

variable {ts : List Transport} (hts : Course m ts)

include hts in
theorem read {t : Transport} {rest : List Transport} (h : Single ts n s m)
    (hconnector : n.device.connector = t :: rest) : Single ts (n.read t rest) s m := by
  refine ⟨?_, h.others, ?_⟩
  · by_cases hc : t.correlation = m.correlation
    · exact h.account.read_self hts h.once hconnector hc
    · exact h.account.read_other hconnector hc
  · exact (count_read t rest m.correlation).trans h.once

include hts in
theorem handOut {r : Complete} {selector : Selector} (h : Single ts n s m)
    (hfind : n.device.cache.find? (fun m => m.complete && selector.accepts m) = some r) :
    Single ts (n.handOut selector r) s m := by
  refine ⟨?_, h.others, h.once⟩
  by_cases hc : r.correlation = m.correlation
  · exact (h.account.handOut_self hts hfind hc).2.2.2
  · exact h.account.handOut_other hfind hc

variable [DecidableEq Sender]

include hts in
theorem next (h : Single ts n s m) (selector : Selector) (reads : Nat) :
    Single ts (n.step (.next selector reads)) s m := by
  obtain ⟨n', hn', ⟨-, hstep⟩ | ⟨r, -, hfind, hstep⟩⟩ :=
    Net.next_of_read (fun h hconnector => read hts h hconnector) h selector reads
  · rw [hstep]; exact hn'
  · rw [hstep]; exact hn'.handOut hts hfind

include hts in
theorem discard (h : Single ts n s m) (c : Uuid) : Single ts (n.step (.discard c)) s m := by
  refine ⟨?_, h.others, ?_⟩
  · by_cases hc : m.correlation = c
    · subst hc
      cases hfind : n.device.cache.find? (fun x => x.correlation == m.correlation) with
      | none => exact h.account.discard_absent hts hfind
      | some r => exact h.account.discard_cached hts hfind
    · exact h.account.discard_other hc
  · apply count_discard h.once
    rintro rfl r hr hrc hfull
    -- what is in the cache and not complete is not yet to be discarded
    obtain ⟨hdropped, -, -, hcomplete, -, -⟩ := h.account.of_mem_cache hts hr hrc
    rw [h.account.mem_discarded_iff fun h' => hfull (hcomplete.2 h')]
    exact hdropped

theorem put (h : Single ts n s m) (s' : Sender) : Single ts (n.step (.put s')) s m := by
  cases hout : n.outbox s' with
  | nil => rw [Net.step_put_nil hout]; exact h
  | cons t rest =>
    rw [Net.step_put_cons hout]
    refine ⟨⟨?_, h.account.cached, h.account.delivered, h.account.discarding, h.account.discarded,
      h.account.redundant⟩, ?_, h.once⟩
    · rw [← h.account.parts]
      simp only [ofCorrelation_append]
      by_cases hs : s = s'
      · subst hs
        rw [Function.update_self, hout]
        by_cases hc : t.correlation = m.correlation
        · rw [← hc, ofCorrelation_cons_self, ofCorrelation_cons_self]; simp
        · rw [ofCorrelation_cons_of_ne hc, ofCorrelation_cons_of_ne hc]; simp
      · have hc : t.correlation ≠ m.correlation := by
          intro hc
          have hnil := h.others s' (Ne.symm hs)
          rw [hout, ← hc, ofCorrelation_cons_self] at hnil
          cases hnil
        rw [Function.update_of_ne hs, ofCorrelation_cons_of_ne hc]; simp
    · intro s'' hs''
      have hnil := h.others s'' hs''
      show ofCorrelation m.correlation (Function.update n.outbox s' rest s'') = []
      by_cases hs : s'' = s'
      · subst hs
        rw [Function.update_self]
        rw [hout] at hnil
        exact List.sublist_nil.1 (hnil ▸ (List.sublist_cons_self t rest).filter _)
      · rw [Function.update_of_ne hs]
        exact hnil

include hts in
theorem step (h : Single ts n s m) (e : Event Sender) : Single ts (n.step e) s m := by
  cases e with
  | put s' => exact h.put s'
  | next selector reads => exact h.next hts selector reads
  | discard c => exact h.discard hts c

end Single

/-- The account of a message whose correlation no other message has. -/
structure Alone (size : TransportSize) (n : Net Sender) (s : Sender) (m : Complete) : Prop where
  account : Account size n s m
  others : ∀ s', s' ≠ s → ofCorrelation m.correlation (n.outbox s') = []
  once : n.device.discarded.count m.correlation ≤ 1

namespace Alone

theorem single (h : Alone size n s m) : Single (Communication.put size m) n s m :=
  ⟨h.account.accounted, h.others, h.once⟩

theorem of_single (h : Single (Communication.put size m) n s m) : Alone size n s m :=
  ⟨h.account.account, h.others, h.once⟩

theorem read {t : Transport} {rest : List Transport} (h : Alone size n s m)
    (hconnector : n.device.connector = t :: rest) : Alone size (n.read t rest) s m :=
  of_single (h.single.read (course_put m) hconnector)

theorem handOut {r : Complete} {selector : Selector} (h : Alone size n s m)
    (hfind : n.device.cache.find? (fun m => m.complete && selector.accepts m) = some r) :
    Alone size (n.handOut selector r) s m :=
  of_single (h.single.handOut (course_put m) hfind)

variable [DecidableEq Sender]

theorem next (h : Alone size n s m) (selector : Selector) (reads : Nat) :
    Alone size (n.step (.next selector reads)) s m :=
  of_single (h.single.next (course_put m) selector reads)

theorem discard (h : Alone size n s m) (c : Uuid) : Alone size (n.step (.discard c)) s m :=
  of_single (h.single.discard (course_put m) c)

theorem put (h : Alone size n s m) (s' : Sender) : Alone size (n.step (.put s')) s m :=
  of_single (h.single.put s')

/-- Another message does not disturb it. -/
theorem send (h : Alone size n s m) {s' : Sender} {m' : Complete} (hne : m'.correlation ≠ m.correlation) :
    Alone size (n.send size s' m') s m := by
  refine ⟨⟨?_, h.account.cached, h.account.delivered, h.account.discarding, h.account.discarded,
    h.account.redundant⟩, ?_, h.once⟩
  · rw [outbox_send_of_ne hne]; exact h.account.parts
  · intro s'' hs''
    rw [outbox_send_of_ne hne]; exact h.others s'' hs''

/-- A message that is handed out with its correlation is the message, whole and not dropped or handed out before. -/
theorem of_next (h : Alone size n s m) {selector : Selector} {reads : Nat} {r : Complete}
    (hr : (n.device.next selector reads).1 = some r) (hc : r.correlation = m.correlation) :
    r = whole m ∧ m.correlation ∉ n.dropped ∧ m.correlation ∉ n.delivered.map (·.correlation) := by
  obtain ⟨n', ⟨hn', hdropped, hdelivered⟩, ⟨hnone, -⟩ | ⟨r', hr', hfind, -⟩⟩ :=
    @Net.next_of_read _ _ (fun n' => Alone size n' s m ∧ n'.dropped = n.dropped ∧ n'.delivered = n.delivered)
      (fun h hconnector => ⟨read h.1 hconnector, h.2⟩) n ⟨h, rfl, rfl⟩ selector reads
  · rw [hr] at hnone
    cases hnone
  · rw [hr] at hr'
    cases hr'
    obtain ⟨hwhole, hnot, hnot', -⟩ := hn'.account.accounted.handOut_self (course_put m) hfind hc
    exact ⟨hwhole, hdropped ▸ hnot, hdelivered ▸ hnot'⟩

end Alone

/-! ## Before it is sent -/

/-- There is nothing of a correlation yet; it may have been discarded beforehand. -/
structure Awaited (n : Net Sender) (c : Uuid) : Prop where
  outbox : ∀ s, ofCorrelation c (n.outbox s) = []
  received : ofCorrelation c n.received = []
  connector : ofCorrelation c n.device.connector = []
  cache : withCorrelation c n.device.cache = []
  delivered : withCorrelation c n.delivered = []
  discarded : c ∈ n.device.discarded ↔ c ∈ n.dropped
  redundant : c ∉ n.redundant
  once : n.device.discarded.count c ≤ 1

namespace Awaited

variable {c : Uuid}

theorem read {t : Transport} {rest : List Transport} (h : Awaited n c) (hconnector : n.device.connector = t :: rest) :
    Awaited (n.read t rest) c := by
  have hne : t.correlation ≠ c := by
    rintro rfl
    have hnil := h.connector
    rw [hconnector, ofCorrelation_cons_self] at hnil
    cases hnil
  refine ⟨h.outbox, ?_, ?_, ?_, h.delivered, ?_, h.redundant, (count_read t rest c).trans h.once⟩
  · show ofCorrelation c (n.received ++ [t]) = []
    rw [ofCorrelation_append, h.received, ofCorrelation_cons_of_ne hne, ofCorrelation_nil, List.append_nil]
  · have hnil := h.connector
    rw [hconnector, ofCorrelation_cons_of_ne hne] at hnil
    simpa [Net.read] using hnil
  · exact (withCorrelation_take_of_ne hne).trans h.cache
  · exact (mem_take_discarded_of_ne hne).trans h.discarded

theorem handOut {r : Complete} {selector : Selector} (h : Awaited n c)
    (hfind : n.device.cache.find? (fun m => m.complete && selector.accepts m) = some r) :
    Awaited (n.handOut selector r) c := by
  have hne : r.correlation ≠ c := fun hc =>
    withCorrelation_eq_nil.1 h.cache (List.mem_map.2 ⟨r, List.mem_of_find?_eq_some hfind, hc⟩)
  refine ⟨h.outbox, h.received, h.connector, ?_, ?_, h.discarded, h.redundant, h.once⟩
  · exact List.sublist_nil.1 (h.cache ▸ (List.eraseP_sublist).filter _)
  · show withCorrelation c (n.delivered ++ [r]) = []
    have hnil := h.delivered
    unfold withCorrelation at hnil ⊢
    rw [List.filter_append, hnil]
    simp [hne]

variable [DecidableEq Sender]

theorem next (h : Awaited n c) (selector : Selector) (reads : Nat) : Awaited (n.step (.next selector reads)) c := by
  obtain ⟨n', hn', ⟨-, hstep⟩ | ⟨r, -, hfind, hstep⟩⟩ :=
    Net.next_of_read (fun h hconnector => read h hconnector) h selector reads
  · rw [hstep]; exact hn'
  · rw [hstep]; exact hn'.handOut hfind

/-- It is not handed out. -/
theorem of_next (h : Awaited n c) {selector : Selector} {reads : Nat} {r : Complete}
    (hr : (n.device.next selector reads).1 = some r) : r.correlation ≠ c := by
  obtain ⟨n', hn', ⟨hnone, -⟩ | ⟨r', hr', hfind, -⟩⟩ :=
    Net.next_of_read (fun h hconnector => read h hconnector) h selector reads
  · rw [hr] at hnone
    cases hnone
  · rw [hr] at hr'
    cases hr'
    exact fun hc => withCorrelation_eq_nil.1 hn'.cache (List.mem_map.2 ⟨r, List.mem_of_find?_eq_some hfind, hc⟩)

theorem discard (h : Awaited n c) (c' : Uuid) : Awaited (n.step (.discard c')) c := by
  have hnot := withCorrelation_eq_nil.1 h.cache
  have honce : (n.device.discard c').discarded.count c ≤ 1 :=
    count_discard h.once fun _ r hr hrc => absurd (List.mem_map.2 ⟨r, hr, hrc⟩) hnot
  have hconnector : ofCorrelation c (n.device.discard c').connector = [] := by
    rw [discard_connector]
    exact h.connector
  by_cases hc : c = c'
  · subst hc
    have hfind := find_correlation_none.2 hnot
    have hfinished : ¬ n.finished c = true := by
      intro hfinished
      obtain ⟨t, ht, hlast⟩ := List.any_eq_true.1 hfinished
      simp only [Bool.and_eq_true, beq_iff_eq] at hlast
      have hmem := mem_ofCorrelation.2 ⟨ht, hlast.1⟩
      rw [h.received] at hmem
      cases hmem
    refine ⟨h.outbox, h.received, hconnector, ?_, h.delivered, ?_, ?_, honce⟩
    · simp only [Net.step, Device.discard, hfind]
      split_ifs <;> exact h.cache
    · have hdropped : c ∈ (n.step (.discard c)).dropped := by
        simp [Net.step, withCorrelation_eq_nil.1 h.delivered]
      have hdiscarded : c ∈ (n.step (.discard c)).device.discarded := by
        simp only [Net.step, Device.discard, hfind]
        split_ifs with hin
        · exact hin
        · simp
      exact ⟨fun _ => hdropped, fun _ => hdiscarded⟩
    · simp only [Net.step]
      rw [if_neg fun h' => hfinished h'.1]
      exact h.redundant
  · have hf := discardFrame n hc
    refine ⟨h.outbox, h.received, hconnector, hf.cache.trans h.cache, h.delivered, ?_, ?_, honce⟩
    · rw [hf.discarded, hf.dropped]
      exact h.discarded
    · rw [hf.redundant]
      exact h.redundant

theorem put (h : Awaited n c) (s : Sender) : Awaited (n.step (.put s)) c := by
  cases hout : n.outbox s with
  | nil => rw [Net.step_put_nil hout]; exact h
  | cons t rest =>
    rw [Net.step_put_cons hout]
    have hnil := h.outbox s
    have hne : t.correlation ≠ c := by
      rintro rfl
      rw [hout, ofCorrelation_cons_self] at hnil
      cases hnil
    rw [hout, ofCorrelation_cons_of_ne hne] at hnil
    refine ⟨?_, h.received, ?_, h.cache, h.delivered, h.discarded, h.redundant, h.once⟩
    · intro s'
      show ofCorrelation c (Function.update n.outbox s rest s') = []
      by_cases hs : s' = s
      · subst hs
        rw [Function.update_self]
        exact hnil
      · rw [Function.update_of_ne hs]
        exact h.outbox s'
    · show ofCorrelation c (n.device.connector ++ [t]) = []
      rw [ofCorrelation_append, h.connector, ofCorrelation_cons_of_ne hne, ofCorrelation_nil, List.append_nil]

theorem send (h : Awaited n c) {s : Sender} {m : Complete} (hne : m.correlation ≠ c) : Awaited (n.send size s m) c := by
  refine ⟨?_, h.received, h.connector, h.cache, h.delivered, h.discarded, h.redundant, h.once⟩
  intro s'
  rw [outbox_send_of_ne hne]
  exact h.outbox s'

/-- When it is sent, it is alone. -/
theorem alone (h : Awaited n m.correlation) (s : Sender) : Alone size (n.send size s m) s m := by
  have hnot := withCorrelation_eq_nil.1 h.delivered
  have hput : ofCorrelation m.correlation (Communication.put size m) = Communication.put size m := by
    rw [ofCorrelation_put, if_pos rfl]
  refine ⟨⟨?_, ?_, .inl h.delivered, fun hd _ => h.discarded.2 hd, ?_, fun hr => absurd hr h.redundant⟩, ?_, h.once⟩
  · show ofCorrelation m.correlation n.received ++ ofCorrelation m.correlation n.device.connector ++
      ofCorrelation m.correlation (Function.update n.outbox s (n.outbox s ++ Communication.put size m) s) = _
    rw [Function.update_self, ofCorrelation_append, h.received, h.connector, h.outbox, hput]
    rfl
  · have hcached : (if m.correlation ∈ n.dropped ∨ m.correlation ∈ n.delivered.map (·.correlation) then []
        else partly (ofCorrelation m.correlation n.received)) = [] := by
      rw [h.received]
      split_ifs <;> rfl
    exact h.cache.trans hcached.symm
  · intro hd
    refine .inl ⟨h.discarded.1 hd, ?_⟩
    show ofCorrelation m.correlation n.received ≠ Communication.put size m
    rw [h.received]
    exact put_ne_nil.symm
  · intro s' hs
    show ofCorrelation m.correlation (Function.update n.outbox s (n.outbox s ++ Communication.put size m) s') = []
    rw [Function.update_of_ne hs]
    exact h.outbox s'

end Awaited

end Casual.Communication

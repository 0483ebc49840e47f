/-
A put that gives up, and is tried again: the receiver hands out the message once and whole, whatever
transports it got of the puts that failed.
-/
import Casual.Communication.Alone

namespace Casual.Communication

open Casual.Lib

variable {Sender : Type} {size : TransportSize}

/-! ## A put that can give up -/

/-- The loop of `put` with a policy that takes a transport or gives up: the transports it took, and whether
it took them all. -/
def putWith (takes : Nat → Bool) : List Transport → Nat → List Transport × Bool
  | [], _ => ([], true)
  | t :: ts, i =>
    if takes i then
      let r := putWith takes ts (i + 1)
      (t :: r.1, r.2)
    else ([], false)

/-- A message that is put, and the policy: which transports it takes. -/
structure Attempt where
  message : Complete
  takes : Nat → Bool

namespace Attempt

/-- The transports that are sent. -/
def transports (size : TransportSize) (a : Attempt) : List Transport := (putWith a.takes (put size a.message) 0).1

/-- `put` returns the correlation. -/
def through (size : TransportSize) (a : Attempt) : Bool := (putWith a.takes (put size a.message) 0).2

end Attempt

/-- A put that gives up has sent the first transports, not the last one. -/
theorem putWith_spec (takes : Nat → Bool) : ∀ (ts : List Transport) (i : Nat),
    (putWith takes ts i).2 = true ∧ (putWith takes ts i).1 = ts ∨
      (putWith takes ts i).2 = false ∧ ∃ k < ts.length, (putWith takes ts i).1 = ts.take k
  | [], _ => .inl ⟨rfl, rfl⟩
  | t :: ts, i => by
    unfold putWith
    by_cases h : takes i = true
    · rw [if_pos h]
      rcases putWith_spec takes ts (i + 1) with ⟨h2, h1⟩ | ⟨h2, k, hk, h1⟩
      · exact .inl ⟨h2, congrArg (t :: ·) h1⟩
      · exact .inr ⟨h2, k + 1, Nat.succ_lt_succ hk, congrArg (t :: ·) h1⟩
    · rw [if_neg h]
      exact .inr ⟨rfl, 0, Nat.zero_lt_succ _, rfl⟩

theorem Attempt.of_through {a : Attempt} (h : a.through size = true) : a.transports size = put size a.message := by
  rcases putWith_spec a.takes (put size a.message) 0 with ⟨-, h1⟩ | ⟨h2, -⟩
  · exact h1
  · exact absurd (h.symm.trans h2) (by simp)

theorem Attempt.of_not_through {a : Attempt} (h : a.through size = false) :
    ∃ k < (put size a.message).length, a.transports size = (put size a.message).take k := by
  rcases putWith_spec a.takes (put size a.message) 0 with ⟨h2, -⟩ | ⟨-, h1⟩
  · exact absurd (h.symm.trans h2) (by simp)
  · exact h1

theorem Attempt.mem_put {a : Attempt} {t : Transport} (h : t ∈ a.transports size) : t ∈ put size a.message := by
  cases ha : a.through size with
  | true => rwa [of_through ha] at h
  | false =>
    obtain ⟨k, -, hk⟩ := of_not_through ha
    exact List.mem_of_mem_take (hk ▸ h)

/-! ## Senders that try again -/

/-- Each sender makes its attempts one after the other. -/
def startRetrying (size : TransportSize) (attempts : Sender → List Attempt) : Net Sender :=
  { outbox := fun s => (attempts s).flatMap (Attempt.transports size)
    device := ⟨[], [], []⟩
    received := []
    delivered := []
    dropped := []
    redundant := [] }

/-- Senders that try each of their messages any number of times, and one receiver. -/
def retrying [DecidableEq Sender] (size : TransportSize) (attempts : Sender → List Attempt) :
    Machine (Net Sender) (Event Sender) where
  init n := n = startRetrying size attempts
  admits _ _ := True
  step := Net.step

/-- The attempts of a sender with a correlation. -/
def ofMessage (c : Uuid) (as : List Attempt) : List Attempt := as.filter fun a => a.message.correlation == c

/-- A sender tries to put a message until it goes through; in between it may put others, and so may the
other senders. -/
structure Retried (size : TransportSize) (attempts : Sender → List Attempt) (s : Sender) (m : Complete) : Prop where
  tried : ∃ failed final, ofMessage m.correlation (attempts s) = failed ++ [final] ∧
    (∀ a ∈ failed, a.message = m ∧ a.through size = false) ∧ final.message = m ∧ final.through size = true
  others : ∀ s', s' ≠ s → ofMessage m.correlation (attempts s') = []

/-- What the receiver makes of it. -/
structure DeliversOnce (n : Net Sender) (s : Sender) (m : Complete) : Prop where
  /-- It hands out one copy at most, with the type and the payload of the message. -/
  once : withCorrelation m.correlation n.delivered = [] ∨ withCorrelation m.correlation n.delivered = [whole m]
  /-- It has handed it out when there is nothing more for a caller that asks for it. -/
  asked : ∀ selector reads, (n.device.next selector reads).1 = none → n.device.connector.length ≤ reads →
    selector.accepts m = true → (∀ t ∈ n.outbox s, t.correlation ≠ m.correlation) → m.correlation ∉ n.dropped →
      withCorrelation m.correlation n.delivered = [whole m]
  /-- When it has handed it out there is nothing of it in the cache, and nothing more comes. -/
  remainder : m.correlation ∈ n.delivered.map (·.correlation) →
    withCorrelation m.correlation n.device.cache = [] ∧
      ∀ t, t ∈ n.device.connector ∨ (∃ s', t ∈ n.outbox s') → t.correlation ≠ m.correlation
  /-- Until then, and unless it is discarded, there is what has been read of it. -/
  cached : m.correlation ∉ n.delivered.map (·.correlation) → m.correlation ∉ n.dropped →
    withCorrelation m.correlation n.device.cache = partly (ofCorrelation m.correlation n.received)

variable {attempts : Sender → List Attempt} {s : Sender} {m : Complete}

theorem ofCorrelation_flatMap_transports (c : Uuid) : ∀ as : List Attempt,
    ofCorrelation c (as.flatMap (Attempt.transports size)) =
      (ofMessage c as).flatMap (Attempt.transports size)
  | [] => rfl
  | a :: as => by
    have ih := ofCorrelation_flatMap_transports c as
    rw [List.flatMap_cons, ofCorrelation_append, ih]
    unfold ofMessage
    by_cases hc : a.message.correlation = c
    · have hall : ofCorrelation c (a.transports size) = a.transports size :=
        List.filter_eq_self.2 fun t ht => by simp [correlation_of_mem_put (Attempt.mem_put ht), hc]
      rw [hall, List.filter_cons_of_pos (by simpa using hc), List.flatMap_cons]
    · have hnone : ofCorrelation c (a.transports size) = [] :=
        List.filter_eq_nil_iff.2 fun t ht => by simp [correlation_of_mem_put (Attempt.mem_put ht), hc]
      rw [hnone, List.filter_cons_of_neg (by simpa using hc), List.nil_append]

/-- The puts that failed, one after the other. -/
theorem transports_failed : ∀ {failed : List Attempt}, (∀ a ∈ failed, a.message = m ∧ a.through size = false) →
    ∃ cuts : List Nat, (∀ k ∈ cuts, k < (put size m).length) ∧
      failed.flatMap (Attempt.transports size) = cuts.flatMap fun k => (put size m).take k
  | [], _ => ⟨[], nofun, rfl⟩
  | a :: failed, h => by
    obtain ⟨cuts, hcuts, hrest⟩ := transports_failed fun a ha => h a (List.mem_cons_of_mem _ ha)
    obtain ⟨rfl, hthrough⟩ := h a List.mem_cons_self
    obtain ⟨k, hk, htransports⟩ := Attempt.of_not_through hthrough
    refine ⟨k :: cuts, ?_, ?_⟩
    · rintro k' (_ | ⟨_, hk'⟩)
      · exact hk
      · exact hcuts k' hk'
    · rw [List.flatMap_cons, List.flatMap_cons, htransports, hrest]

/-- The transports of a message that is tried until it goes through. -/
theorem Retried.course (h : Retried size attempts s m) :
    ∃ cuts : List Nat, (∀ k ∈ cuts, k < (put size m).length) ∧
      ofCorrelation m.correlation ((startRetrying size attempts).outbox s) = again size m cuts := by
  obtain ⟨failed, final, hsplit, hfailed, hfinal, hthrough⟩ := h.tried
  obtain ⟨cuts, hcuts, hrest⟩ := transports_failed hfailed
  refine ⟨cuts, hcuts, ?_⟩
  show ofCorrelation m.correlation ((attempts s).flatMap (Attempt.transports size)) = again size m cuts
  rw [ofCorrelation_flatMap_transports, hsplit, List.flatMap_append, hrest]
  unfold again
  rw [List.flatMap_singleton, Attempt.of_through hthrough, hfinal]

theorem Retried.single (h : Retried size attempts s m) {ts : List Transport}
    (hts : ofCorrelation m.correlation ((startRetrying size attempts).outbox s) = ts) :
    Single ts (startRetrying size attempts) s m := by
  refine ⟨⟨?_, ?_, .inl rfl, nofun, nofun, nofun⟩, ?_, Nat.zero_le _⟩
  · simpa [startRetrying] using hts
  · simp [startRetrying, withCorrelation, partly]
  · intro s' hs'
    show ofCorrelation m.correlation ((attempts s').flatMap (Attempt.transports size)) = []
    rw [ofCorrelation_flatMap_transports, h.others s' hs']
    rfl

namespace Single

variable {ts : List Transport} {n : Net Sender}

theorem asked (hts : Course m ts) (h : Single ts n s m) {selector : Selector} {reads : Nat}
    (hnone : (n.device.next selector reads).1 = none) (hreads : n.device.connector.length ≤ reads)
    (haccepts : selector.accepts m = true) (hout : ∀ t ∈ n.outbox s, t.correlation ≠ m.correlation)
    (hdropped : m.correlation ∉ n.dropped) : withCorrelation m.correlation n.delivered = [whole m] := by
  obtain ⟨taken, hsplit, hs⟩ := Net.find_of_read (P := fun n => Single ts n s m)
    (fun h hconnector => h.read hts hconnector) (fun m => m.complete && selector.accepts m) reads h
  have hfind := next_eq_none hnone
  have hempty := find_drained hreads hfind
  have hall : ofCorrelation m.correlation (n.received ++ taken) = ts := by
    have hp := hs.account.parts
    have hnil : ofCorrelation m.correlation (n.outbox s) = [] :=
      List.filter_eq_nil_iff.2 fun t ht => by simpa using hout t ht
    simp only [hempty, ofCorrelation_nil, hnil, List.append_nil] at hp
    exact hp
  rcases hs.account.delivered with hnil | ⟨hone, -⟩
  · have hin := hs.account.whole_mem_cache hts hall hdropped (withCorrelation_eq_nil.1 hnil)
    exact absurd (accepts_whole haccepts) (List.find?_eq_none.1 hfind _ hin)
  · exact hone

theorem remainder (h : Single ts n s m) (hd : m.correlation ∈ n.delivered.map (·.correlation)) :
    withCorrelation m.correlation n.device.cache = [] ∧
      ∀ t, t ∈ n.device.connector ∨ (∃ s', t ∈ n.outbox s') → t.correlation ≠ m.correlation := by
  obtain ⟨-, hall, -⟩ := h.account.delivered.resolve_left fun h' => withCorrelation_eq_nil.1 h' hd
  have hparts := h.account.parts
  rw [hall, List.append_assoc, List.append_right_eq_self, List.append_eq_nil_iff] at hparts
  constructor
  · rw [h.account.cached, if_pos (.inr hd)]
  · rintro t (ht | ⟨s', ht⟩) hc
    · exact List.not_mem_nil (hparts.1 ▸ mem_ofCorrelation.2 ⟨ht, hc⟩)
    · by_cases hs : s' = s
      · subst hs
        exact List.not_mem_nil (hparts.2 ▸ mem_ofCorrelation.2 ⟨ht, hc⟩)
      · exact List.not_mem_nil (h.others s' hs ▸ mem_ofCorrelation.2 ⟨ht, hc⟩)

end Single

/-- However often a put of a message fails, and after however many transports, the message is delivered once
it has gone through. -/
theorem deliversOnce_of_reachable [DecidableEq Sender] (h : Retried size attempts s m) {n : Net Sender}
    (hn : (retrying size attempts).Reachable n) : DeliversOnce n s m := by
  obtain ⟨cuts, hcuts, htransports⟩ := h.course
  have hcourse := @course_again size m cuts hcuts
  have hsingle : Single (again size m cuts) n s m := by
    apply hn.invariant
    · rintro _ rfl
      exact h.single htransports
    · intro n e hn _
      exact hn.step hcourse e
  constructor
  · exact hsingle.account.delivered.imp id And.left
  · intro selector reads hnone hreads haccepts hout hdropped
    exact hsingle.asked hcourse hnone hreads haccepts hout hdropped
  · exact hsingle.remainder
  · intro hdelivered hdropped
    rw [hsingle.account.cached, if_neg fun h' => h'.elim hdropped hdelivered]

/-! ### A message that is tried twice -/

/-- A message of two transports, of which the first attempt sends one. -/
def twice : Unit → List Attempt := fun _ =>
  [⟨.make 10 7 (List.replicate 42 65), fun i => i == 0⟩, ⟨.make 10 7 (List.replicate 42 65), fun _ => true⟩]

theorem retried_twice : Retried smallSize twice () (.make 10 7 (List.replicate 42 65)) := by
  constructor
  · refine ⟨[⟨.make 10 7 (List.replicate 42 65), fun i => i == 0⟩],
      ⟨.make 10 7 (List.replicate 42 65), fun _ => true⟩, rfl, ?_, rfl, by decide⟩
    rintro a ha
    rw [List.mem_singleton.1 ha]
    exact ⟨rfl, by decide⟩
  · rintro ⟨⟩ h
    exact absurd rfl h

/-- The first transport arrives twice and the second once, and then the message is handed out. -/
def handedOutOnce : Net Unit :=
  [Event.put (), .put (), .put (), .next .any 3].foldl Net.step (startRetrying smallSize twice)

theorem handedOutOnce_deliversOnce :
    DeliversOnce handedOutOnce () (.make 10 7 (List.replicate 42 65)) ∧
      handedOutOnce.delivered = [.make 10 7 (List.replicate 42 65)] := by
  constructor
  · apply deliversOnce_of_reachable retried_twice
    exact Machine.Reachable.foldl (M := retrying smallSize twice) (.of_init rfl)
      ⟨trivial, trivial, trivial, trivial, trivial⟩
  · decide

end Casual.Communication

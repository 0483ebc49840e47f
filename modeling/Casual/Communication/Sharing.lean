/-
Messages of one sender that share a correlation. The cache finds a message by its correlation, complete
or not, so they come out one after the other and whole when each has left the cache before the next is
read.
-/
import Casual.Communication.Alone

namespace Casual.Communication

open Casual.Lib

variable {Sender : Type} {size : TransportSize} {messages : Sender → List Complete} {c : Uuid}

/-! ## Runs -/

/-- The runs of senders and a device in which nothing with a correlation is discarded. -/
def keeping [DecidableEq Sender] (size : TransportSize) (messages : Sender → List Complete) (c : Uuid) :
    Machine (Net Sender) (Event Sender) :=
  { net size messages with admits := fun _ e => e ≠ .discard c }

/-- A transport with the correlation that the device would read next does not find a complete message with it. -/
def Finds (c : Uuid) (d : Device) : Prop :=
  ∀ t rest, d.connector = t :: rest → t.correlation = c → ∀ r ∈ d.cache, r.correlation = c → r.complete = false

/-- Whenever the device reads on. -/
def Apart (c : Uuid) (n : Net Sender) : Event Sender → Prop
  | .next selector reads => ∀ k < reads,
    (n.device.find (fun m => m.complete && selector.accepts m) k).cache.any (fun m => m.complete && selector.accepts m) = false →
      Finds c (n.device.find (fun m => m.complete && selector.accepts m) k)
  | _ => True

/-- What comes of two messages that a sender puts one after the other. -/
structure InTurn (n : Net Sender) (s : Sender) (m₁ m₂ : Complete) : Prop where
  /-- What is handed out is the first and then the second, each with its type and payload. -/
  order : withCorrelation m₁.correlation n.delivered <+: [whole m₁, whole m₂]
  /-- The first has been handed out when there is nothing more for a caller that asks for it. -/
  first : ∀ selector reads, (n.device.next selector reads).1 = none → n.device.connector.length ≤ reads →
    selector.accepts m₁ = true → (∀ t ∈ n.outbox s, t.correlation ≠ m₁.correlation) →
      [whole m₁] <+: withCorrelation m₁.correlation n.delivered
  /-- So has the second, once the first has. -/
  second : ∀ selector reads, (n.device.next selector reads).1 = none → n.device.connector.length ≤ reads →
    selector.accepts m₂ = true → (∀ t ∈ n.outbox s, t.correlation ≠ m₁.correlation) →
      [whole m₁] <+: withCorrelation m₁.correlation n.delivered →
      withCorrelation m₁.correlation n.delivered = [whole m₁, whole m₂]

/-- A sender puts two messages with one correlation, and no other message has it. -/
structure Shared (messages : Sender → List Complete) (s : Sender) (m₁ m₂ : Complete) : Prop where
  two : withCorrelation m₁.correlation (messages s) = [m₁, m₂]
  others : ∀ s', s' ≠ s → withCorrelation m₁.correlation (messages s') = []

/-! ## What every such run keeps -/

/-- How far the messages with a correlation have come: those that have been handed out, the one that is being read with
what has been read of it, and those that follow. -/
structure Turns (size : TransportSize) (c : Uuid) (n : Net Sender) (s : Sender) (out : List Complete) (ts : List Transport)
    (rest : List Complete) : Prop where
  others : ∀ s', s' ≠ s → ofCorrelation c (n.outbox s') = []
  kept : c ∉ n.device.discarded
  correlation : ∀ m ∈ rest, m.correlation = c
  delivered : withCorrelation c n.delivered = out.map whole
  cached : withCorrelation c n.device.cache = partly ts
  parts : ts ++ (ofCorrelation c n.device.connector ++ ofCorrelation c (n.outbox s)) = rest.flatMap (put size)
  now : ts <+: (rest.head?.map (put size)).getD []

/-- The messages in turn. -/
def InTurns (size : TransportSize) (c : Uuid) (ms : List Complete) (s : Sender) (n : Net Sender) : Prop :=
  ∃ out ts rest, ms = out ++ rest ∧ Turns size c n s out ts rest

namespace Turns

variable {n : Net Sender} {s : Sender} {out rest : List Complete} {ts : List Transport}

/-- What is in the cache is the message that is being read, and complete when all of it has been read. -/
theorem of_mem_cache (h : Turns size c n s out ts rest) {r : Complete} (hr : r ∈ n.device.cache) (hc : r.correlation = c) :
    withCorrelation c n.device.cache = [r] ∧ ∃ m rest', rest = m :: rest' ∧ (r.complete = true ↔ ts = put size m) ∧
      (r.complete = true → r = whole m) := by
  have hmem : r ∈ partly ts := h.cached ▸ mem_withCorrelation.2 ⟨hr, hc⟩
  cases ts with
  | nil => cases hmem
  | cons t us =>
    obtain rfl : r = .feed t us := List.mem_singleton.1 hmem
    refine ⟨h.cached, ?_⟩
    cases rest with
    | nil => exact absurd (List.prefix_nil.1 h.now) (List.cons_ne_nil _ _)
    | cons m rest' =>
      obtain ⟨post, hpost⟩ : t :: us <+: put size m := h.now
      have hcomplete := (course_put m).complete hpost.symm
      have hiff : (Complete.feed t us).complete = true ↔ t :: us = put size m := by
        rw [hcomplete, ← hpost]
        exact ⟨fun h => by simp [h], fun h => by simpa using h⟩
      exact ⟨m, rest', rfl, hiff, fun h' => (course_put m).whole (hiff.1 h').symm⟩

/-- A transport is read that does not find a complete message. -/
theorem read {t : Transport} {us : List Transport} (h : Turns size c n s out ts rest) (hconnector : n.device.connector = t :: us)
    (hfinds : t.correlation = c → ∀ r ∈ n.device.cache, r.correlation = c → r.complete = false) :
    ∃ ts', Turns size c (n.read t us) s out ts' rest := by
  by_cases hc : t.correlation = c
  · have hcon : ofCorrelation c n.device.connector = t :: ofCorrelation c us := by
      rw [hconnector, ← hc, ofCorrelation_cons_self]
    have hparts := h.parts
    rw [hcon] at hparts
    refine ⟨ts ++ [t], h.others, ?_, h.correlation, h.delivered, ?_, ?_, ?_⟩
    · show c ∉ (Device.take _ t).discarded
      rw [take_of_notMem (by rw [hc]; exact h.kept)]
      exact h.kept
    · show withCorrelation c (Device.take _ t).cache = _
      rw [take_of_notMem (by rw [hc]; exact h.kept)]
      have hcached := h.cached
      rw [← hc] at hcached ⊢
      exact withCorrelation_cacheTransport hcached
    · rw [← hparts]
      simp [Net.read]
    · cases rest with
      | nil => simp at hparts
      | cons m rest' =>
        obtain ⟨vs, hvs⟩ : ts <+: put size m := h.now
        rw [List.flatMap_cons, ← hvs, List.append_assoc, List.append_cancel_left_eq, List.cons_append] at hparts
        cases vs with
        | nil =>
          -- all of it has been read, and it is in the cache and complete
          rw [List.append_nil] at hvs
          cases ts with
          | nil => exact absurd hvs.symm put_ne_nil
          | cons u us' =>
            have hin : Complete.feed u us' ∈ withCorrelation c n.device.cache := h.cached ▸ List.mem_singleton_self _
            obtain ⟨hmem, hcorrelation⟩ := mem_withCorrelation.1 hin
            have hcourse : Course m (put size m) := course_put m
            have hcomplete := (@hcourse.complete u us' [] (by simpa using hvs.symm)).2 rfl
            rw [hfinds hc _ hmem hcorrelation] at hcomplete
            cases hcomplete
        | cons v vs =>
          obtain ⟨rfl, -⟩ := List.cons.inj hparts
          show ts ++ [t] <+: put size m
          exact ⟨vs, by rw [← hvs]; simp⟩
  · refine ⟨ts, h.others, ?_, h.correlation, h.delivered, ?_, ?_, h.now⟩
    · rw [show c ∈ (n.read t us).device.discarded ↔ c ∈ n.device.discarded from mem_take_discarded_of_ne hc]
      exact h.kept
    · exact (withCorrelation_take_of_ne hc).trans h.cached
    · rw [← h.parts, hconnector, ofCorrelation_cons_of_ne hc]
      simp [Net.read]

/-- A complete message is handed out: it is the one that has been read, and the next one is on. -/
theorem handOut {r : Complete} {selector : Selector} (h : Turns size c n s out ts rest)
    (hfind : n.device.cache.find? (fun m => m.complete && selector.accepts m) = some r) :
    ∃ out' ts' rest', out' ++ rest' = out ++ rest ∧ Turns size c (n.handOut selector r) s out' ts' rest' := by
  have hr := List.mem_of_find?_eq_some hfind
  have hcomplete : r.complete = true := by
    have := List.find?_some hfind
    simp only [Bool.and_eq_true] at this
    exact this.1
  by_cases hc : r.correlation = c
  · obtain ⟨hone, m, rest', rfl, hiff, hwhole⟩ := h.of_mem_cache hr hc
    obtain rfl := hiff.1 hcomplete
    refine ⟨out ++ [m], [], rest', by simp, h.others, h.kept, fun m' hm' => h.correlation m' (List.mem_cons_of_mem _ hm'),
      ?_, ?_, ?_, List.nil_prefix⟩
    · show withCorrelation c (n.delivered ++ [r]) = _
      have hdelivered := h.delivered
      unfold withCorrelation at hdelivered ⊢
      rw [List.filter_append, hdelivered, List.map_append, List.filter_cons_of_pos (by simpa using hc), hwhole hcomplete]
      rfl
    · have herase := withCorrelation_eraseP hfind (hc ▸ hone)
      rw [hc] at herase
      exact herase
    · have hparts := h.parts
      rw [List.flatMap_cons, List.append_cancel_left_eq] at hparts
      exact hparts
  · refine ⟨out, ts, rest, rfl, h.others, h.kept, h.correlation, ?_, ?_, h.parts, h.now⟩
    · show withCorrelation c (n.delivered ++ [r]) = _
      have hdelivered := h.delivered
      unfold withCorrelation at hdelivered ⊢
      rw [List.filter_append, hdelivered]
      simp [hc]
    · exact (withCorrelation_eraseP_of_ne hfind hc).trans h.cached

variable [DecidableEq Sender]

theorem put (h : Turns size c n s out ts rest) (s' : Sender) : Turns size c (n.step (.put s')) s out ts rest := by
  cases hout : n.outbox s' with
  | nil => rw [Net.step_put_nil hout]; exact h
  | cons t us =>
    rw [Net.step_put_cons hout]
    refine ⟨?_, h.kept, h.correlation, h.delivered, h.cached, ?_, h.now⟩
    · intro s'' hs''
      have hnil := h.others s'' hs''
      show ofCorrelation c (Function.update n.outbox s' us s'') = []
      by_cases hs : s'' = s'
      · subst hs
        rw [Function.update_self]
        rw [hout] at hnil
        exact List.sublist_nil.1 (hnil ▸ (List.sublist_cons_self t us).filter _)
      · rw [Function.update_of_ne hs]
        exact hnil
    · rw [← h.parts]
      show ts ++ (ofCorrelation c (n.device.connector ++ [t]) ++ ofCorrelation c (Function.update n.outbox s' us s)) = _
      rw [ofCorrelation_append]
      by_cases hs : s = s'
      · subst hs
        rw [Function.update_self, hout]
        by_cases hc : t.correlation = c
        · rw [← hc, ofCorrelation_cons_self, ofCorrelation_cons_self]; simp
        · rw [ofCorrelation_cons_of_ne hc, ofCorrelation_cons_of_ne hc]; simp
      · have hc : t.correlation ≠ c := by
          intro hc
          have hnil := h.others s' (Ne.symm hs)
          rw [hout, ← hc, ofCorrelation_cons_self] at hnil
          cases hnil
        rw [Function.update_of_ne hs, ofCorrelation_cons_of_ne hc]; simp

theorem discard (h : Turns size c n s out ts rest) {c' : Uuid} (hne : c' ≠ c) :
    Turns size c (n.step (.discard c')) s out ts rest := by
  refine ⟨h.others, ?_, h.correlation, h.delivered, ?_, ?_, h.now⟩
  · show c ∉ (n.device.discard c').discarded
    have hadd : c ∉ n.device.discarded ++ [c'] := by
      simp [h.kept, Ne.symm hne]
    unfold Device.discard
    simp only
    split
    · split_ifs
      · exact h.kept
      · exact hadd
    · split_ifs
      · exact h.kept
      · exact hadd
  · rw [← h.cached]
    show withCorrelation c (n.device.discard c').cache = _
    unfold Device.discard
    simp only
    split
    · next r hfind =>
      exact withCorrelation_eraseP_of_ne hfind fun hc => hne ((find_correlation_some hfind).2.symm.trans hc)
    · split_ifs
      · rfl
      · rfl
  · rw [← h.parts]
    have hconnector : (n.device.discard c').connector = n.device.connector := by
      unfold Device.discard
      simp only
      split
      · rfl
      · split_ifs
        · rfl
        · rfl
    show ts ++ (ofCorrelation c (n.device.discard c').connector ++ _) = _
    rw [hconnector]
    rfl

end Turns

section

variable [DecidableEq Sender] {n : Net Sender} {s : Sender} {ms : List Complete}

/-- A step after which each message has left the cache before the next is read. -/
theorem InTurns.step (h : InTurns size c ms s n) {e : Event Sender} (hadmits : e ≠ .discard c) (hapart : Apart c n e) :
    InTurns size c ms s (n.step e) := by
  cases e with
  | put s' =>
    obtain ⟨out, ts, rest, rfl, h⟩ := h
    exact ⟨out, ts, rest, rfl, h.put s'⟩
  | discard c' =>
    obtain ⟨out, ts, rest, rfl, h⟩ := h
    exact ⟨out, ts, rest, rfl, h.discard fun hc => hadmits (hc ▸ rfl)⟩
  | next selector reads =>
    obtain ⟨n', ⟨out, ts, rest, rfl, hn'⟩, ⟨-, hstep⟩ | ⟨r, -, hfind, hstep⟩⟩ :=
      @Net.next_of_read_when _ _ (InTurns size c ms s) (Finds c) selector
        (fun ⟨out, ts, rest, hms, h⟩ hconnector _ hfinds => by
          obtain ⟨ts', h'⟩ := h.read hconnector (hfinds _ _ hconnector)
          exact ⟨out, ts', rest, hms, h'⟩) n h reads hapart
    · rw [hstep]
      exact ⟨out, ts, rest, rfl, hn'⟩
    · rw [hstep]
      obtain ⟨out', ts', rest', heq, h'⟩ := hn'.handOut hfind
      exact ⟨out', ts', rest', heq.symm, h'⟩

omit [DecidableEq Sender] in
/-- A caller that asks for the message that is being read gets it, when all that was put has arrived. -/
theorem Turns.asked {out behind : List Complete} {ts : List Transport} {m : Complete} {selector : Selector} {reads : Nat}
    (h : Turns size c n s out ts (m :: behind)) (hreads : n.device.connector.length ≤ reads)
    (haccepts : selector.accepts m = true) (hout : ∀ t ∈ n.outbox s, t.correlation ≠ c) :
    (n.device.next selector reads).1 ≠ none := by
  intro hnone
  have haccepted := accepts_whole haccepts
  obtain ⟨taken, hsplit, ts', hs⟩ := Net.find_of_read_when (G := fun _ => True) (p := fun m => m.complete && selector.accepts m)
    (P := fun n => ∃ ts, Turns size c n s out ts (m :: behind))
    (fun ⟨ts, h⟩ hconnector hany _ => h.read hconnector fun _ r hr hc => by
      -- a complete message would have been found
      obtain ⟨-, m', behind', heq, -, hwhole⟩ := h.of_mem_cache hr hc
      obtain ⟨rfl, rfl⟩ := List.cons.inj heq
      cases hcomplete : r.complete with
      | false => rfl
      | true =>
        rw [← hwhole hcomplete] at haccepted
        exact absurd haccepted (by simpa using List.any_eq_false.1 hany r hr))
    reads ⟨ts, h⟩ fun _ _ _ => trivial
  have hfind := next_eq_none hnone
  have hempty := find_drained hreads hfind
  have hnil : ofCorrelation c (n.outbox s) = [] := List.filter_eq_nil_iff.2 fun t ht => by simpa using hout t ht
  have hparts := hs.parts
  simp only [hempty, ofCorrelation_nil, hnil, List.append_nil, List.flatMap_cons] at hparts
  -- all of it has been read, so that it is in the cache
  obtain ⟨vs, hvs⟩ : ts' <+: Communication.put size m := hs.now
  have hall : ts' = Communication.put size m := by
    have hlength := congrArg List.length hvs
    rw [hparts, List.length_append, List.length_append] at hlength
    have hvs' : vs = [] := List.length_eq_zero_iff.1 (by omega)
    rw [← hvs, hvs', List.append_nil]
  cases ts' with
  | nil => exact put_ne_nil hall.symm
  | cons t us =>
    have hin : Complete.feed t us ∈ withCorrelation c
        (n.device.find (fun m => m.complete && selector.accepts m) reads).cache := hs.cached ▸ List.mem_singleton_self _
    have hwhole : Complete.feed t us = whole m := (course_put m).whole hall.symm
    rw [hwhole] at hin
    exact List.find?_eq_none.1 hfind _ (mem_withCorrelation.1 hin).1 haccepted

end

/-! ## Two messages -/

variable {s : Sender} {m₁ m₂ : Complete}

theorem ofCorrelation_puts (c : Uuid) : ∀ ms : List Complete,
    ofCorrelation c (ms.flatMap (put size)) = (withCorrelation c ms).flatMap (put size)
  | [] => rfl
  | m :: ms => by
    have ih := ofCorrelation_puts c ms
    rw [List.flatMap_cons, ofCorrelation_append, ih, ofCorrelation_put]
    unfold withCorrelation
    by_cases hc : m.correlation = c
    · rw [if_pos hc, List.filter_cons_of_pos (by simpa using hc), List.flatMap_cons]
    · rw [if_neg hc, List.filter_cons_of_neg (by simpa using hc), List.nil_append]

theorem Shared.start (h : Shared messages s m₁ m₂) :
    InTurns size m₁.correlation [m₁, m₂] s (start size messages) := by
  refine ⟨[], [], [m₁, m₂], rfl, ?_, List.not_mem_nil, ?_, rfl, rfl, ?_, List.nil_prefix⟩
  · intro s' hs'
    show ofCorrelation m₁.correlation ((messages s').flatMap (put size)) = []
    rw [ofCorrelation_puts, h.others s' hs']
    rfl
  · intro m hm
    have hmem : m ∈ withCorrelation m₁.correlation (messages s) := h.two ▸ hm
    exact (mem_withCorrelation.1 hmem).2
  · show [] ++ ([] ++ ofCorrelation m₁.correlation ((messages s).flatMap (put size))) = _
    rw [ofCorrelation_puts, h.two]
    rfl

/-- Two messages that share a correlation come out one after the other, in every run in which the first has left the cache
whenever a transport of the second is read. -/
theorem inTurn_of_reachable [DecidableEq Sender] (h : Shared messages s m₁ m₂) {n : Net Sender}
    (hn : ((keeping size messages m₁.correlation).restrict (Apart m₁.correlation)).Reachable n) : InTurn n s m₁ m₂ := by
  obtain ⟨out, ts, rest, hms, hturns⟩ : InTurns size m₁.correlation [m₁, m₂] s n := by
    apply hn.invariant
    · rintro _ rfl
      exact h.start
    · rintro n e hn ⟨hadmits, hapart⟩
      exact hn.step hadmits hapart
  have hdelivered := hturns.delivered
  -- which of the two is on
  rcases out with _ | ⟨m, _ | ⟨m', _ | ⟨m'', out⟩⟩⟩
  · obtain rfl : rest = [m₁, m₂] := hms.symm
    constructor
    · rw [hdelivered]
      exact List.nil_prefix
    · intro selector reads hnone hreads haccepts hout
      exact absurd hnone (hturns.asked hreads haccepts hout)
    · intro selector reads hnone hreads haccepts hout hfirst
      rw [hdelivered] at hfirst
      exact absurd (List.prefix_nil.1 hfirst) (List.cons_ne_nil _ _)
  · obtain ⟨rfl, rfl⟩ : m₁ = m ∧ [m₂] = rest := List.cons.inj hms
    constructor
    · rw [hdelivered]
      exact ⟨[whole m₂], rfl⟩
    · intro selector reads hnone hreads haccepts hout
      rw [hdelivered]
      exact List.prefix_rfl
    · intro selector reads hnone hreads haccepts hout _
      exact absurd hnone (hturns.asked hreads haccepts hout)
  · obtain ⟨rfl, htail⟩ : m₁ = m ∧ [m₂] = m' :: rest := List.cons.inj hms
    obtain ⟨rfl, rfl⟩ := List.cons.inj htail
    constructor
    · rw [hdelivered]
      exact List.prefix_rfl
    · intro selector reads hnone hreads haccepts hout
      rw [hdelivered]
      exact ⟨[whole m₂], rfl⟩
    · intro selector reads hnone hreads haccepts hout _
      rw [hdelivered]
      rfl
  · simp at hms

/-! ### A message that finds another one -/

/-- A prepare and a commit reply with one correlation. -/
def twoReplies : Unit → List Complete := fun _ => [.make 4103 7 [65], .make 4103 7 [66]]

theorem twoReplies_shared : Shared twoReplies () (.make 4103 7 [65]) (.make 4103 7 [66]) := by
  constructor
  · rfl
  · rintro ⟨⟩ h
    exact absurd rfl h

/-- A caller asks for another message while both wait, and then for any. -/
def mingled : List (Event Unit) := [.put (), .put (), .next (.correlation 9) 2, .next .any 0]

/-- One message comes out, with the payload of the second. -/
theorem mingled_lost : Shared twoReplies () (.make 4103 7 [65]) (.make 4103 7 [66]) ∧
    ∃ n : Net Unit, (keeping ipcSize twoReplies 7).Reachable n ∧ ¬ InTurn n () (.make 4103 7 [65]) (.make 4103 7 [66]) := by
  refine ⟨twoReplies_shared, mingled.foldl Net.step (start ipcSize twoReplies), ?_, fun h => ?_⟩
  · exact Machine.Reachable.foldl (M := keeping ipcSize twoReplies 7) (.of_init rfl) ⟨nofun, nofun, nofun, nofun, trivial⟩
  · have horder := h.order
    rw [show withCorrelation (Complete.make 4103 7 [65]).correlation (mingled.foldl Net.step (start ipcSize twoReplies)).delivered =
      [.make 4103 7 [66]] by decide +kernel] at horder
    revert horder
    decide

theorem apart_of_empty {n : Net Sender} (h : n.device.cache = []) (selector : Selector) : Apart c n (.next selector 1) := by
  intro k hk _ t rest _ _ r hr
  obtain rfl : k = 0 := by omega
  have hr : r ∈ n.device.cache := hr
  rw [h] at hr
  cases hr

/-- The first is asked for before the second arrives. -/
def separate : List (Event Unit) := [.put (), .next (.correlation 7) 1, .put (), .next (.correlation 7) 1]

theorem separate_inTurn : InTurn (separate.foldl Net.step (start ipcSize twoReplies)) () (.make 4103 7 [65]) (.make 4103 7 [66]) := by
  apply @inTurn_of_reachable Unit ipcSize twoReplies () (.make 4103 7 [65]) (.make 4103 7 [66]) _ twoReplies_shared
  exact Machine.Reachable.foldl (M := (keeping ipcSize twoReplies 7).restrict (Apart 7)) (.of_init rfl)
    ⟨⟨nofun, trivial⟩, ⟨nofun, apart_of_empty rfl _⟩, ⟨nofun, trivial⟩, ⟨nofun, apart_of_empty (by decide +kernel) _⟩, trivial⟩

end Casual.Communication

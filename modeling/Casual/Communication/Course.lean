/-
The transports of a message, as they come when it may have been put more than once: some of them
again, but none before those in front of it, and the last one once.
-/
import Casual.Communication.Reassembly

namespace Casual.Communication

open Casual.Common

/-- The transports with which a message comes: it is complete with the last of them, which is the only
one that says so, and it is then whole. -/
structure Course (m : Complete) (ts : List Transport) : Prop where
  nonempty : ts ≠ []
  type : ∀ t ∈ ts, t.type = m.type
  last : ∀ {pre post : List Transport} {t : Transport}, ts = pre ++ t :: post → (t.last = true ↔ post = [])
  complete : ∀ {t : Transport} {us post : List Transport}, ts = t :: us ++ post →
    ((Complete.feed t us).complete = true ↔ post = [])
  whole : ∀ {t : Transport} {us : List Transport}, ts = t :: us →
    Complete.feed t us = Complete.make m.type m.correlation m.payload

theorem course_put {size : TransportSize} (m : Complete) : Course m (put size m) where
  nonempty := put_ne_nil
  type _ ht := type_of_mem_put ht
  last h := put_last h
  complete h := feed_put_complete h
  whole h := feed_put h

/-! ## Without a gap -/

/-- Each transport starts within what has come before it. -/
def GapFree : Nat → List Transport → Prop
  | _, [] => True
  | b, t :: ts => t.offset ≤ b ∧ GapFree (max b (t.offset + t.count)) ts

theorem GapFree.of_append : ∀ {b : Nat} {ts us : List Transport}, GapFree b (ts ++ us) → GapFree b ts
  | _, [], _, _ => trivial
  | _, _ :: _, _, h => ⟨h.1, GapFree.of_append h.2⟩

/-- What is missing is the rest of the payload. -/
def Rest (b n : Nat) (ranges : List Range) : Prop := ranges = [] ∨ ranges = [⟨b, n - b⟩]

theorem handle_singleton {r d : Range} (h : (r.subtract d).2 = .null) :
    handle [r] d = if (r.subtract d).1.empty then [] else [(r.subtract d).1] := by
  unfold handle
  simp only [subtractAll, h]
  cases he : (r.subtract d).1.empty with
  | true => simp [Range.null, Range.empty, partition, partitionAux, findLast, show (r.subtract d).1.size = 0 by
      simpa [Range.empty] using he]
  | false => simp [Range.null, Range.empty, partition, partitionAux, show ¬ (r.subtract d).1.size = 0 by
      simpa [Range.empty] using he]

/-- A transport that starts within what has come leaves what is behind it. -/
theorem Rest.handle {b n : Nat} {ranges : List Range} {d : Range} (h : Rest b n ranges) (hd : d.first ≤ b) :
    Rest (max b (d.first + d.size)) n (handle ranges d) := by
  rcases h with rfl | rfl
  · left
    simp [Communication.handle, subtractAll, Range.null, Range.empty, partition, partitionAux]
  · have hsubtract : Range.subtract ⟨b, n - b⟩ d = (⟨max b (d.first + d.size), n - max b (d.first + d.size)⟩, .null) ∨
        Range.subtract ⟨b, n - b⟩ d = (.null, .null) := by
      have hfront : ¬ (⟨b, n - b⟩ : Range).begin < d.begin := by
        simp only [Range.begin]
        omega
      unfold Range.subtract
      by_cases hover : (⟨b, n - b⟩ : Range).overlap d
      · rw [if_pos hover, if_neg (fun h => hfront h.1), if_neg hfront]
        simp only [Range.overlap, Range.begin, Range.end] at hover
        by_cases hbehind : (⟨b, n - b⟩ : Range).end > d.end
        · rw [if_pos hbehind]
          simp only [Range.end, Range.make] at hbehind ⊢
          left
          congr 2 <;> omega
        · rw [if_neg hbehind]
          exact .inr rfl
      · rw [if_neg hover]
        simp only [Range.overlap, Range.begin, Range.end] at hover
        left
        congr 2 <;> omega
    rcases hsubtract with hs | hs
    · rw [handle_singleton (by rw [hs]), hs]
      split_ifs
      · exact .inl rfl
      · exact .inr rfl
    · rw [handle_singleton (by rw [hs]), hs]
      exact .inl rfl

/-- Without a gap no part is forgotten. -/
theorem GapFree.orderly : ∀ {ts : List Transport} {b n : Nat} {c : Complete}, GapFree b ts → Rest b n c.unhandled →
    Orderly c ts
  | [], _, _, _, _, _ => trivial
  | t :: ts, b, n, c, h, hc => by
    constructor
    · rcases hc with hc | hc
      · simp [keepsTail, hc]
      · simp [keepsTail, hc]
    · exact GapFree.orderly h.2 (hc.handle (d := t.range) h.1)

/-! ## A message that is put again and again -/

section Put

variable {size : TransportSize} {m : Complete}

theorem gapFree_putFrom {rest : List Transport} : ∀ {fuel p b : Nat} (k : Nat), p ≤ m.payload.length → p ≤ b →
    (∀ b', b ≤ b' → GapFree b' rest) → GapFree b ((putFrom size m fuel p).take k ++ rest)
  | 0, _, _, _, _, _, hrest => by simpa [putFrom] using hrest _ (le_refl _)
  | _ + 1, _, _, 0, _, _, hrest => by simpa using hrest _ (le_refl _)
  | fuel + 1, p, b, k + 1, hp, hb, hrest => by
    have hcount : (part m p (partEnd size m p)).offset + (part m p (partEnd size m p)).count = partEnd size m p := by
      rw [part_count (partEnd_le size hp), part_offset]
      have := le_partEnd size hp
      omega
    simp only [putFrom, List.take_succ_cons, List.cons_append]
    constructor
    · exact hb
    · rw [hcount]
      have hmono : ∀ b', max b (partEnd size m p) ≤ b' → GapFree b' rest := fun b' hb' => hrest b' (by omega)
      split_ifs
      · simpa using hmono _ (le_refl _)
      · exact gapFree_putFrom k (partEnd_le size hp) (le_max_right _ _) hmono

theorem gapFree_take_put {rest : List Transport} {b : Nat} (k : Nat) (hrest : ∀ b', b ≤ b' → GapFree b' rest) :
    GapFree b ((put size m).take k ++ rest) :=
  gapFree_putFrom k (Nat.zero_le _) (Nat.zero_le _) hrest

/-- The transports when a message is put several times, each time up to one of its transports, and then to
the end. -/
def again (size : TransportSize) (m : Complete) (cuts : List Nat) : List Transport :=
  cuts.flatMap (fun k => (put size m).take k) ++ put size m

theorem gapFree_again : ∀ (cuts : List Nat) (b : Nat), GapFree b (again size m cuts)
  | [], b => by
    have h := @gapFree_take_put size m [] b (put size m).length fun _ _ => trivial
    simpa [again] using h
  | k :: cuts, b => by
    have h := @gapFree_take_put size m (again size m cuts) b k fun b' _ => gapFree_again cuts b'
    simpa [again, List.append_assoc] using h

theorem mem_put_of_mem_again {cuts : List Nat} {t : Transport} (h : t ∈ again size m cuts) : t ∈ put size m := by
  rcases List.mem_append.1 h with h | h
  · obtain ⟨k, -, hk⟩ := List.mem_flatMap.1 h
    exact List.mem_of_mem_take hk
  · exact h

/-- Put again, the last transport is still the last one, as no put before the last gets there. -/
theorem last_again {cuts : List Nat} (hcuts : ∀ k ∈ cuts, k < (put size m).length) {pre post : List Transport}
    {t : Transport} (h : again size m cuts = pre ++ t :: post) : t.last = true ↔ post = [] := by
  induction cuts generalizing pre with
  | nil => exact put_last (by simpa [again] using h)
  | cons k cuts ih =>
    have hrest : again size m (k :: cuts) = (put size m).take k ++ again size m cuts := by
      simp [again, List.append_assoc]
    rw [hrest] at h
    rcases List.append_eq_append_iff.1 h with ⟨as, has, hrest'⟩ | ⟨bs, hbs, hrest'⟩
    · exact ih (fun k hk => hcuts k (List.mem_cons_of_mem _ hk)) hrest'
    · cases bs with
      | nil =>
        rw [List.nil_append] at hrest'
        exact ih (fun k hk => hcuts k (List.mem_cons_of_mem _ hk)) (hrest'.symm.trans (List.nil_append _).symm)
      | cons u bs =>
        obtain ⟨rfl, hpost⟩ := List.cons.inj hrest'
        have hmore : post ≠ [] := by
          rw [hpost]
          exact List.append_ne_nil_of_right_ne_nil _ (List.append_ne_nil_of_right_ne_nil _ put_ne_nil)
        have hsplit : put size m = pre ++ t :: (bs ++ (put size m).drop k) := by
          conv_lhs => rw [← List.take_append_drop k (put size m), hbs]
          simp
        rw [put_last hsplit]
        have hdrop : (put size m).drop k ≠ [] := by
          rw [Ne, List.drop_eq_nil_iff]
          have := hcuts k List.mem_cons_self
          omega
        simp [hmore, hdrop]

/-- However often a message is put before it goes through, it comes as it should. -/
theorem course_again {cuts : List Nat} (hcuts : ∀ k ∈ cuts, k < (put size m).length) :
    Course m (again size m cuts) := by
  have hall : ∀ {t us}, again size m cuts = t :: us → Covered (t :: us) m.payload.length := by
    rintro t us h i hi
    obtain ⟨u, hu, hiu⟩ := @put_covered size m i hi
    exact ⟨u, h ▸ List.mem_append_right _ hu, hiu⟩
  have hparts : ∀ {t us post}, again size m cuts = t :: us ++ post → ∀ u ∈ t :: us, IsPart m.payload u := by
    intro t us post h u hu
    exact isPart_of_mem_put (mem_put_of_mem_again (h ▸ List.mem_append_left post hu))
  have hcomplete : ∀ {t us post}, again size m cuts = t :: us ++ post →
      ((Complete.feed t us).complete = true ↔ Covered (t :: us) m.payload.length) := by
    intro t us post h
    have hgap : GapFree 0 (t :: us) := (h ▸ gapFree_again cuts 0 : GapFree 0 (t :: us ++ post)).of_append
    have hsize := (hparts h t List.mem_cons_self).size
    refine feed_complete_iff_covered hsize (GapFree.orderly (n := m.payload.length) hgap.2 ?_)
    have h0 : Rest 0 m.payload.length [⟨0, m.payload.length⟩] := .inr rfl
    have hadd := h0.handle (d := t.range) hgap.1
    rw [← hsize] at hadd ⊢
    exact hadd
  refine ⟨?_, ?_, last_again hcuts, ?_, ?_⟩
  · exact List.append_ne_nil_of_right_ne_nil _ put_ne_nil
  · exact fun t ht => type_of_mem_put (mem_put_of_mem_again ht)
  · intro t us post h
    rw [hcomplete h]
    constructor
    · intro hcovered
      -- whatever holds the last byte is the last transport
      have hlast : ∃ u ∈ t :: us, u.last = true := by
        have hone : ∃ u ∈ t :: us, m.payload.length ≤ u.offset + u.count := by
          by_cases hn : m.payload.length = 0
          · exact ⟨t, List.mem_cons_self, by omega⟩
          · obtain ⟨u, hu, hi⟩ := hcovered (m.payload.length - 1) (by omega)
            rw [Transport.mem_range] at hi
            exact ⟨u, hu, by omega⟩
        obtain ⟨u, hu, hle⟩ := hone
        have hpart := hparts h u hu
        refine ⟨u, hu, ?_⟩
        have := hpart.within
        simp only [Transport.last, hpart.size, beq_iff_eq]
        omega
      obtain ⟨u, hu, hul⟩ := hlast
      obtain ⟨pre, behind, hsplit⟩ := List.append_of_mem hu
      rw [hsplit, List.append_assoc, List.cons_append] at h
      exact (List.append_eq_nil_iff.1 ((last_again hcuts h).1 hul)).2
    · rintro rfl
      exact hall (by simpa using h)
  · intro t us h
    have hsplit : again size m cuts = t :: us ++ [] := by simpa using h
    have hunhandled : (Complete.feed t us).unhandled = [] :=
      Complete.complete_iff.1 ((hcomplete hsplit).2 (hall h))
    have hpayload := (feed_agrees (hparts hsplit)).payload_eq (hall h)
    have ht : t ∈ put size m := mem_put_of_mem_again (by rw [h]; simp)
    obtain ⟨htype, hcorrelation⟩ := feed_type t us
    rw [type_of_mem_put ht] at htype
    rw [correlation_of_mem_put ht] at hcorrelation
    cases hf : Complete.feed t us with
    | mk type correlation payload unhandled =>
      rw [hf] at hunhandled hpayload htype hcorrelation
      subst hunhandled hpayload htype hcorrelation
      rfl

end Put

end Casual.Communication

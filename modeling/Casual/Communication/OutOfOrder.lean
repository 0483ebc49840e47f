/-
A message fed with its transports in any order: it is put together again whenever it was cut in at
most four transports, and from the fifth transport on a part in the middle can be forgotten.
-/
import Casual.Communication.Reassembly

namespace Casual.Communication

open Casual.Common

variable {size : TransportSize} {m : Complete}

/-! ## What a sequence of transports has to do -/

/-- Fed with any part of a sequence, the message is complete exactly when every byte of the payload
has arrived, and then it has the payload. -/
def Reassembles (payload : List UInt8) (sequence : List Transport) : Prop :=
  ∀ t ts, t :: ts <+: sequence →
    ((Complete.feed t ts).complete = true ↔ Covered (t :: ts) payload.length) ∧
    ((Complete.feed t ts).complete = true → (Complete.feed t ts).payload = payload)

/-- The transports of a message in any order, with any duplicates in between. -/
def Shuffles (size : TransportSize) (m : Complete) (sequence : List Transport) : Prop :=
  ∀ t, t ∈ sequence ↔ t ∈ put size m

/-- No transport of the sequence lands strictly inside a missing range other than the last one. -/
def OrderlyFed (sequence : List Transport) : Prop :=
  ∀ t ts, t :: ts <+: sequence → Orderly (Complete.ofTransport t) ts

/-! ## What is forgotten -/

/-- The first part of a subtraction lies within the range. -/
theorem subtract_fst_subset (r d : Range) : (r.subtract d).1.toSet ⊆ r.toSet :=
  fun i hi => ((Range.mem_subtract r d i).1 (.inl hi)).1

theorem subtract_snd_subset (r d : Range) : (r.subtract d).2.toSet ⊆ r.toSet :=
  fun i hi => ((Range.mem_subtract r d i).1 (.inr hi)).1

theorem subtract_disjoint (r d : Range) : Disjoint (r.subtract d).1.toSet (r.subtract d).2.toSet := by
  rw [Set.disjoint_left]
  intro i
  unfold Range.subtract
  split_ifs <;> simp only [Range.mem_toSet, Range.make, Range.null, Range.begin, Range.end] <;> omega

/-- A range that is left is a part of one that was missing. -/
theorem mem_handle {ranges : List Range} {d s : Range} (h : s ∈ handle ranges d) :
    0 < s.size ∧ ∃ r ∈ ranges, s = (r.subtract d).1 ∨ s = (r.subtract d).2 := by
  have hne := handle_not_empty h
  have hpos : 0 < s.size := by simp only [Range.empty, beq_eq_false_iff_ne] at hne; omega
  refine ⟨hpos, ?_⟩
  unfold handle at h
  obtain ⟨h, -⟩ := mem_partition_fst.1 h
  simp only [subtractAll_fst] at h
  have hfst : s ∈ ranges.map (fun r => (r.subtract d).1) ∨ s = (subtractAll d ranges .null).2 := by
    split_ifs at h
    · exact .inl h
    · simpa using h
  rcases hfst with h | h
  · obtain ⟨r, hr, rfl⟩ := List.mem_map.1 h
    exact ⟨r, hr, .inl rfl⟩
  · rcases List.eq_nil_or_concat ranges with rfl | ⟨init, last, rfl⟩
    · subst h; simp [subtractAll, Range.null] at hpos
    · rw [List.concat_eq_append, subtractAll_snd_append] at h
      exact ⟨last, by simp, .inr h⟩

/-- Ranges that do not meet still do not meet after a transport. -/
theorem handle_apart {ranges : List Range} {d : Range}
    (h : ranges.Pairwise fun r s => Disjoint r.toSet s.toSet) :
    (handle ranges d).Pairwise fun r s => Disjoint r.toSet s.toSet := by
  have hmap : (ranges.map fun r => (r.subtract d).1).Pairwise fun r s => Disjoint r.toSet s.toSet := by
    rw [List.pairwise_map]
    exact h.imp fun {r s} hrs => hrs.mono (subtract_fst_subset r d) (subtract_fst_subset s d)
  have hall : ((ranges.map fun r => (r.subtract d).1) ++ [(subtractAll d ranges .null).2]).Pairwise
      fun r s => Disjoint r.toSet s.toSet := by
    refine List.pairwise_append.2 ⟨hmap, by simp, ?_⟩
    intro s hs u hu
    rw [List.mem_singleton] at hu
    obtain ⟨r, hr, rfl⟩ := List.mem_map.1 hs
    rcases List.eq_nil_or_concat ranges with rfl | ⟨init, last, rfl⟩
    · cases hr
    · rw [List.concat_eq_append] at hr h hu
      rw [subtractAll_snd_append] at hu
      subst hu
      rcases List.mem_append.1 hr with hr | hr
      · have := (List.pairwise_append.1 h).2.2 r hr last (by simp)
        exact this.mono (subtract_fst_subset r d) (subtract_snd_subset last d)
      · rw [List.mem_singleton] at hr
        subst hr; exact subtract_disjoint r d
  unfold handle
  simp only [subtractAll_fst]
  have hsub : ((if (subtractAll d ranges .null).2.empty = true then ranges.map fun r => (r.subtract d).1
      else (ranges.map fun r => (r.subtract d).1) ++ [(subtractAll d ranges .null).2]).Pairwise
      fun r s => Disjoint r.toSet s.toSet) := by
    split_ifs
    · exact hmap
    · exact hall
  have hperm := partition_perm (fun range => !range.empty) (if (subtractAll d ranges .null).2.empty = true
    then ranges.map fun r => (r.subtract d).1
    else (ranges.map fun r => (r.subtract d).1) ++ [(subtractAll d ranges .null).2])
  have := (hperm.pairwise_iff (R := fun r s : Range => Disjoint r.toSet s.toSet) fun h => h.symm).2 hsub
  exact (List.pairwise_append.1 this).1

/-- What a transport makes the message forget: the part behind it of every range it is strictly
inside of, but for the last one. -/
def lost (ranges : List Range) (d : Range) : Set Nat := {i | ∃ r ∈ ranges.dropLast, i ∈ (r.subtract d).2.toSet}

theorem mem_lost {ranges : List Range} {d : Range} {i : Nat} :
    i ∈ lost ranges d ↔ ∃ r ∈ ranges.dropLast, i ∈ (r.subtract d).2.toSet := Iff.rfl

/-- What a message forgets while it is fed. -/
def forgotten : Complete → List Transport → Set Nat
  | _, [] => ∅
  | c, t :: ts => lost c.unhandled t.range ∪ forgotten (c.add t) ts

/-- What is missing after a transport: what was missing, but for its own bytes and the lost ones. -/
theorem mem_missing_handle_iff {ranges : List Range} {d : Range}
    (h : ranges.Pairwise fun r s => Disjoint r.toSet s.toSet) (i : Nat) :
    i ∈ missing (handle ranges d) ↔ i ∈ missing ranges ∧ i ∉ d.toSet ∧ i ∉ lost ranges d := by
  rcases List.eq_nil_or_concat ranges with rfl | ⟨init, last, rfl⟩
  · simp [mem_missing_handle, subtractAll, Range.null, lost]
  rw [List.concat_eq_append] at h ⊢
  obtain ⟨hinit, -, hlast⟩ := List.pairwise_append.1 h
  have : Std.Symm fun r s : Range => Disjoint r.toSet s.toSet := ⟨fun _ _ hrs => hrs.symm⟩
  rw [mem_missing_handle, subtractAll_snd_append]
  simp only [mem_lost, List.dropLast_concat]
  constructor
  · rintro (⟨r, hr, hi⟩ | hi)
    · have hin := (Range.mem_subtract r d i).1 (.inl hi)
      refine ⟨⟨r, hr, hin.1⟩, hin.2, ?_⟩
      rintro ⟨s, hs, his⟩
      -- a byte of a remaining first part is in no other range, and not in its own second part
      have hsin := subtract_snd_subset s d his
      rcases List.mem_append.1 hr with hr | hr
      · by_cases hrs : r = s
        · subst hrs; exact Set.disjoint_left.1 (subtract_disjoint r d) hi his
        · exact Set.disjoint_left.1 (hinit.forall hr hs hrs) hin.1 hsin
      · exact Set.disjoint_left.1 (hlast s hs r hr) hsin hin.1
    · have hin := (Range.mem_subtract last d i).1 (.inr hi)
      refine ⟨⟨last, by simp, hin.1⟩, hin.2, ?_⟩
      rintro ⟨s, hs, his⟩
      exact Set.disjoint_left.1 (hlast s hs last (by simp)) (subtract_snd_subset s d his) hin.1
  · rintro ⟨⟨r, hr, hi⟩, hd, hl⟩
    rcases (Range.mem_subtract r d i).2 ⟨hi, hd⟩ with h1 | h2
    · exact .inl ⟨r, hr, h1⟩
    · rcases List.mem_append.1 hr with hr | hr
      · exact absurd ⟨r, hr, h2⟩ hl
      · rw [List.mem_singleton] at hr
        subst hr; exact .inr h2

theorem foldl_add_mem_missing_iff : ∀ (ts : List Transport) (c : Complete),
    (c.unhandled.Pairwise fun r s => Disjoint r.toSet s.toSet) → ∀ i,
    (i ∈ missing (ts.foldl Complete.add c).unhandled ↔
      i ∈ missing c.unhandled ∧ (∀ t ∈ ts, i ∉ t.range.toSet) ∧ i ∉ forgotten c ts)
  | [], c, _, i => by simp [forgotten]
  | t :: ts, c, h, i => by
    rw [List.foldl_cons, foldl_add_mem_missing_iff ts (c.add t) (handle_apart h) i, Complete.add_unhandled,
      mem_missing_handle_iff h]
    simp only [List.forall_mem_cons, forgotten, Set.mem_union]
    tauto

/-- What is missing of a message: what has neither arrived nor been forgotten. -/
theorem feed_mem_missing_iff (t : Transport) (ts : List Transport) (i : Nat) :
    i ∈ missing (Complete.feed t ts).unhandled ↔
      i < t.completeSize ∧ (∀ u ∈ t :: ts, i ∉ u.range.toSet) ∧ i ∉ forgotten (Complete.ofTransport t) ts := by
  have hap : (Complete.ofTransport t).unhandled.Pairwise fun r s => Disjoint r.toSet s.toSet := by
    unfold Complete.ofTransport
    exact handle_apart (by simp)
  unfold Complete.feed
  rw [foldl_add_mem_missing_iff ts _ hap, mem_missing_ofTransport]
  simp only [List.forall_mem_cons]
  tauto

/-! ## Sequences that are put together again -/

/-- What feeding in an orderly way gives. -/
theorem reassembles_of_orderly {sequence : List Transport} (hp : ∀ t ∈ sequence, IsPart m.payload t)
    (ho : OrderlyFed sequence) : Reassembles m.payload sequence := by
  intro t ts hpre
  have hparts : ∀ u ∈ t :: ts, IsPart m.payload u := fun u hu => hp u (hpre.subset hu)
  have hc := feed_complete_iff_covered (hparts t List.mem_cons_self).size (ho t ts hpre)
  exact ⟨hc, fun h => (feed_agrees hparts).payload_eq (hc.1 h)⟩

/-- While a byte is still to come, some byte that is to come has not been forgotten. -/
def Remembers (payload : List UInt8) (sequence : List Transport) : Prop :=
  ∀ t ts, t :: ts <+: sequence → ¬ Covered (t :: ts) payload.length →
    ∃ i < payload.length, (∀ u ∈ t :: ts, i ∉ u.range.toSet) ∧ i ∉ forgotten (Complete.ofTransport t) ts

theorem reassembles_iff_remembers {sequence : List Transport} (hp : ∀ t ∈ sequence, IsPart m.payload t) :
    Reassembles m.payload sequence ↔ Remembers m.payload sequence := by
  constructor
  · intro h t ts hpre hcov
    have hincomplete : ¬ ∀ i, i ∉ missing (Complete.feed t ts).unhandled := by
      rw [← feed_complete_iff, (h t ts hpre).1]; exact hcov
    push Not at hincomplete
    obtain ⟨i, hi⟩ := hincomplete
    rw [feed_mem_missing_iff, (hp t (hpre.subset List.mem_cons_self)).size] at hi
    exact ⟨i, hi.1, hi.2⟩
  · intro h t ts hpre
    have hparts : ∀ u ∈ t :: ts, IsPart m.payload u := fun u hu => hp u (hpre.subset hu)
    have hc : (Complete.feed t ts).complete = true ↔ Covered (t :: ts) m.payload.length := by
      rw [feed_complete_iff]
      constructor
      · intro hnone
        by_contra hcov
        obtain ⟨i, hi, hrest⟩ := h t ts hpre hcov
        refine hnone i ((feed_mem_missing_iff t ts i).2 ⟨?_, hrest⟩)
        rw [(hparts t List.mem_cons_self).size]; exact hi
      · intro hcov i hi
        obtain ⟨hi, hno, -⟩ := (feed_mem_missing_iff t ts i).1 hi
        rw [(hparts t List.mem_cons_self).size] at hi
        obtain ⟨u, hu, hin⟩ := hcov i hi
        exact hno u hu hin
    exact ⟨hc, fun h => (feed_agrees hparts).payload_eq (hc.1 h)⟩

/-! ### Up to four transports -/

/-- What the missing ranges of a message look like while the parts of a payload arrive: they lie
within the payload, begin where a part begins, and do not meet each other. -/
structure Aligned (size : TransportSize) (m : Complete) (ranges : List Range) : Prop where
  begins : ∀ r ∈ ranges, ∃ a, r.first = a * size.payloadMaxSize
  within : ∀ r ∈ ranges, r.first + r.size ≤ m.payload.length
  apart : ranges.Pairwise fun r s => Disjoint r.toSet s.toSet

/-- Where the parts of a subtraction begin: where the range began, or right behind the transport. -/
theorem subtract_begins {r d s : Range} (hs : s = (r.subtract d).1 ∨ s = (r.subtract d).2) (hpos : 0 < s.size) :
    (s.first = r.first ∨ s.first = d.first + d.size ∧ d.first + d.size < r.first + r.size) ∧
      s.first + s.size ≤ r.first + r.size := by
  unfold Range.subtract at hs
  split_ifs at hs <;> rcases hs with rfl | rfl <;>
    simp only [Range.make, Range.null, Range.begin, Range.end, Range.overlap, true_or, true_and] at * <;> omega

theorem Aligned.handle {k : Nat} {ranges : List Range} (h : Aligned size m ranges)
    (hk : k * size.payloadMaxSize ≤ m.payload.length) : Aligned size m (handle ranges (nth size m k).range) := by
  refine ⟨?_, ?_, handle_apart h.apart⟩
  · intro s hs
    obtain ⟨hpos, r, hr, hrs⟩ := mem_handle hs
    rcases (subtract_begins hrs hpos).1 with he | ⟨he, hlt⟩
    · rw [he]; exact h.begins r hr
    · -- the range goes on behind the transport, which then is a full one
      refine ⟨k + 1, ?_⟩
      have := h.within r hr
      rw [nth_range hk] at he hlt
      simp only at he hlt
      rw [he, Nat.add_mul, Nat.one_mul]; omega
  · intro s hs
    obtain ⟨hpos, r, hr, hrs⟩ := mem_handle hs
    have := h.within r hr
    have := (subtract_begins hrs hpos).2
    omega

/-- In at most four parts there is no room for a range around a transport, a second range and the
part that came first. -/
theorem Aligned.keepsTail {first k : Nat} {ranges : List Range} (h : Aligned size m ranges)
    (hne : ∀ r ∈ ranges, r.empty = false) (hlen : m.payload.length ≤ 4 * size.payloadMaxSize)
    (hfirst : first = 0 ∨ first * size.payloadMaxSize < m.payload.length)
    (harrived : first * size.payloadMaxSize ∉ missing ranges)
    (hk : k * size.payloadMaxSize ≤ m.payload.length) : keepsTail ranges (nth size m k).range := by
  intro r hr ⟨hb, he⟩
  rcases List.eq_nil_or_concat ranges with rfl | ⟨init, last, rfl⟩
  · simp at hr
  rw [List.concat_eq_append] at h hr hne harrived
  rw [List.dropLast_concat] at hr
  have hrmem : r ∈ init ++ [last] := List.mem_append_left _ hr
  have hlmem : last ∈ init ++ [last] := by simp
  obtain ⟨a, ha⟩ := h.begins r hrmem
  obtain ⟨c, hc⟩ := h.begins last hlmem
  have hrw := h.within r hrmem
  have hlw := h.within last hlmem
  have hlpos : 0 < last.size := by
    have := hne last hlmem
    simp only [Range.empty, beq_eq_false_iff_ne] at this; omega
  have hdisj : Disjoint r.toSet last.toSet := (List.pairwise_append.1 h.apart).2.2 r hr last (by simp)
  have hcr : c * size.payloadMaxSize ∉ r.toSet := by
    intro hin
    exact Set.disjoint_left.1 hdisj hin (by rw [Range.mem_toSet]; omega)
  have hfr : first * size.payloadMaxSize ∉ r.toSet := fun hin => harrived ⟨r, hrmem, hin⟩
  have hfl : first * size.payloadMaxSize ∉ last.toSet := fun hin => harrived ⟨last, hlmem, hin⟩
  rw [nth_range hk] at hb he
  simp only [Range.begin, Range.end, Range.mem_toSet] at hb he hcr hfr hfl
  -- the bounds, first between positions and then between the numbers of the parts
  have lt_of : ∀ {x y : Nat}, x * size.payloadMaxSize < y * size.payloadMaxSize → x < y :=
    fun hxy => lt_of_mul_lt_mul_right hxy (Nat.zero_le _)
  have hM := size.payloadMaxSize_pos
  have hak : a < k := lt_of (by omega)
  have hsucc : (k + 1) * size.payloadMaxSize = k * size.payloadMaxSize + size.payloadMaxSize := by ring
  have hk4 : k + 1 < 4 := lt_of (by omega)
  have hc4 : c < 4 := lt_of (by omega)
  have hf4 : first < 4 := hfirst.elim (by omega) fun h => lt_of (by omega)
  have hout : ∀ {x : Nat}, ¬ (r.first ≤ x * size.payloadMaxSize ∧ x * size.payloadMaxSize < r.first + r.size) →
      x < a ∨ k + 1 < x := by
    intro x hx
    rcases Nat.lt_or_ge (x * size.payloadMaxSize) (a * size.payloadMaxSize) with h' | h'
    · exact .inl (lt_of h')
    · exact .inr (lt_of (by omega))
  have hcout := hout hcr
  have hfout := hout hfr
  have hcf : c ≠ first := by
    rintro rfl
    exact hfl (by omega)
  omega

theorem orderly_of_aligned {first : Nat} (hlen : m.payload.length ≤ 4 * size.payloadMaxSize)
    (hfirst : first = 0 ∨ first * size.payloadMaxSize < m.payload.length) :
    ∀ (ts : List Transport) (c : Complete), Aligned size m c.unhandled →
      (∀ r ∈ c.unhandled, r.empty = false) → first * size.payloadMaxSize ∉ missing c.unhandled →
      (∀ t ∈ ts, t ∈ put size m) → Orderly c ts
  | [], _, _, _, _, _ => trivial
  | t :: ts, c, ha, hne, harr, hts => by
    obtain ⟨k, hk, rfl⟩ := mem_put.1 (hts t List.mem_cons_self)
    refine ⟨ha.keepsTail hne hlen hfirst harr (start_le hk), ?_⟩
    exact orderly_of_aligned hlen hfirst ts _ (ha.handle (start_le hk)) (fun _ hr => handle_not_empty hr)
      (fun h => harr (missing_handle_subset h).1) fun u hu => hts u (List.mem_cons_of_mem _ hu)

/-- Up to four transports can come in any order. -/
theorem orderlyFed_of_length_le (hlen : m.payload.length ≤ 4 * size.payloadMaxSize) {sequence : List Transport}
    (hs : Shuffles size m sequence) : OrderlyFed sequence := by
  intro t ts hpre
  have hput : ∀ u ∈ t :: ts, u ∈ put size m := fun u hu => (hs u).1 (hpre.subset hu)
  obtain ⟨first, hfirst, rfl⟩ := mem_put.1 (hput t List.mem_cons_self)
  have hwhole : Aligned size m [⟨0, m.payload.length⟩] :=
    ⟨fun r hr => ⟨0, by rw [List.mem_singleton] at hr; simp [hr]⟩,
      fun r hr => by rw [List.mem_singleton] at hr; simp [hr], by simp⟩
  refine orderly_of_aligned hlen hfirst ts _ (hwhole.handle (start_le hfirst))
    (fun _ hr => handle_not_empty hr) ?_ fun u hu => hput u (List.mem_cons_of_mem _ hu)
  rw [mem_missing_ofTransport, mem_nth_range (start_le hfirst), nth_completeSize]
  have := size.payloadMaxSize_pos
  omega

/-! ### From the fifth transport on -/

/-- Part three, part one, then all but part two, and part two at last. -/
def forgetful (size : TransportSize) (m : Complete) : List Transport :=
  nth size m 3 :: (nth size m 1 :: (put size m).filter (· ≠ nth size m 2)) ++ [nth size m 2]

theorem forgetful_shuffles (hlen : 4 * size.payloadMaxSize < m.payload.length) :
    Shuffles size m (forgetful size m) := by
  intro t
  have hmem : ∀ k, k ≤ 4 → nth size m k ∈ put size m := by
    intro k hk
    have := Nat.mul_le_mul_right size.payloadMaxSize hk
    exact mem_put.2 ⟨k, .inr (by omega), rfl⟩
  have h1 := hmem 1 (by omega)
  have h2 := hmem 2 (by omega)
  have h3 := hmem 3 (by omega)
  simp only [forgetful, List.cons_append, List.mem_cons, List.mem_append, List.mem_filter, decide_eq_true_eq,
    List.not_mem_nil, or_false]
  constructor
  · rintro (rfl | rfl | ⟨h, -⟩ | rfl) <;> assumption
  · intro h
    by_cases heq : t = nth size m 2
    · exact .inr (.inr (.inr heq))
    · exact .inr (.inr (.inl ⟨h, heq⟩))

theorem handle_whole {M n : Nat} (hM : 0 < M) (hlen : 4 * M < n) :
    handle [⟨0, n⟩] ⟨3 * M, M⟩ = [⟨0, 3 * M⟩, ⟨4 * M, n - 4 * M⟩] := by
  have hsub : Range.subtract ⟨0, n⟩ ⟨3 * M, M⟩ = (⟨0, 3 * M⟩, ⟨4 * M, n - 4 * M⟩) := by
    unfold Range.subtract
    rw [if_pos (by simp only [Range.overlap, Range.begin, Range.end]; omega),
      if_pos (by simp only [Range.begin, Range.end]; omega)]
    simp only [Range.make, Range.begin, Range.end, Prod.mk.injEq, Range.mk.injEq, true_and]
    omega
  have hfst : ¬ (3 * M = 0) := by omega
  have hsnd : ¬ (n - 4 * M = 0) := by omega
  simp [handle, subtractAll, hsub, Range.empty, partition, partitionAux, hfst, hsnd]

/-- After parts three and one no byte of part two is missing. -/
theorem missing_three_one {M n : Nat} (hM : 0 < M) (hlen : 4 * M < n) {i : Nat}
    (hi : i ∈ missing (handle (handle [⟨0, n⟩] ⟨3 * M, M⟩) ⟨1 * M, M⟩)) : i < M ∨ 4 * M ≤ i := by
  have hfront : Range.subtract ⟨0, 3 * M⟩ ⟨1 * M, M⟩ = (⟨0, M⟩, ⟨2 * M, M⟩) := by
    unfold Range.subtract
    rw [if_pos (by simp only [Range.overlap, Range.begin, Range.end]; omega),
      if_pos (by simp only [Range.begin, Range.end]; omega)]
    simp only [Range.make, Range.begin, Range.end, Prod.mk.injEq, Range.mk.injEq, true_and]
    omega
  have hback : Range.subtract ⟨4 * M, n - 4 * M⟩ ⟨1 * M, M⟩ = (⟨4 * M, n - 4 * M⟩, Range.null) := by
    unfold Range.subtract
    rw [if_neg (by simp only [Range.overlap, Range.begin, Range.end]; omega)]
  rw [handle_whole hM hlen, mem_missing_handle] at hi
  simp only [List.mem_cons, List.not_mem_nil, or_false, exists_eq_or_imp, exists_eq_left, subtractAll, hfront,
    hback, Range.mem_toSet, Range.null] at hi
  omega

theorem feed_append_unhandled (t : Transport) (ts us : List Transport) (i : Nat)
    (h : i ∈ missing (Complete.feed t (ts ++ us)).unhandled) :
    i ∈ missing (Complete.feed t ts).unhandled ∧ ∀ u ∈ us, i ∉ u.range.toSet := by
  unfold Complete.feed at h ⊢
  rw [List.foldl_append] at h
  exact foldl_add_missing_subset us _ i h

theorem feed_two_unhandled (t u : Transport) : (Complete.feed t [u]).unhandled =
    handle (handle [⟨0, t.completeSize⟩] t.range) u.range := rfl

/-- Without part two the message is complete. -/
theorem forgetful_complete (hlen : 4 * size.payloadMaxSize < m.payload.length) :
    (Complete.feed (nth size m 3) (nth size m 1 :: (put size m).filter (· ≠ nth size m 2))).complete = true := by
  rw [feed_complete_iff]
  intro i hi
  have hM := size.payloadMaxSize_pos
  obtain ⟨h31, hrest⟩ := feed_append_unhandled _ [nth size m 1] ((put size m).filter (· ≠ nth size m 2)) i hi
  have h3 : (nth size m 3).range = ⟨3 * size.payloadMaxSize, size.payloadMaxSize⟩ := by
    rw [nth_range (by omega)]; congr 1; omega
  have h1 : (nth size m 1).range = ⟨1 * size.payloadMaxSize, size.payloadMaxSize⟩ := by
    rw [nth_range (by omega)]; congr 1; omega
  have hout : i < size.payloadMaxSize ∨ 4 * size.payloadMaxSize ≤ i := by
    rw [feed_two_unhandled, h3, h1, nth_completeSize] at h31
    exact missing_three_one hM hlen h31
  -- any other byte is in a part that is there
  have hlt : i < m.payload.length := by
    have h := (feed_append_unhandled _ [] _ i hi).1
    rw [Complete.feed_nil, mem_missing_ofTransport, nth_completeSize] at h
    exact h.1
  obtain ⟨hput, hin⟩ := mem_nth_div size hlt
  refine hrest _ (List.mem_filter.2 ⟨hput, ?_⟩) hin
  rw [decide_eq_true_eq]
  intro heq
  have hoff := congrArg Transport.offset heq
  rw [nth_offset, nth_offset] at hoff
  have : i / size.payloadMaxSize = 2 := Nat.eq_of_mul_eq_mul_right hM hoff
  rcases hout with h | h
  · rw [Nat.div_eq_of_lt h] at this; omega
  · have := (Nat.le_div_iff_mul_le hM).2 h; omega

theorem forgetful_not_covered (hlen : 4 * size.payloadMaxSize < m.payload.length) :
    ¬ Covered (nth size m 3 :: nth size m 1 :: (put size m).filter (· ≠ nth size m 2)) m.payload.length := by
  intro h
  have hM := size.payloadMaxSize_pos
  obtain ⟨t, ht, hi⟩ := h (2 * size.payloadMaxSize) (by omega)
  have hne : ∀ {k : Nat}, k ≠ 2 → k ≤ 4 → 2 * size.payloadMaxSize ∉ (nth size m k).range.toSet := by
    intro k hk hk4 hin
    have := Nat.mul_le_mul_right size.payloadMaxSize hk4
    obtain ⟨h1, h2, -⟩ := (mem_nth_range (by omega)).1 hin
    rcases Nat.lt_or_gt_of_ne hk with h | h
    · have := Nat.mul_le_mul_right size.payloadMaxSize (show k + 1 ≤ 2 by omega)
      rw [Nat.add_mul, Nat.one_mul] at this
      omega
    · have := Nat.mul_lt_mul_of_pos_right h hM
      omega
  simp only [List.mem_cons, List.mem_filter, decide_eq_true_eq] at ht
  rcases ht with rfl | rfl | ⟨ht, hother⟩
  · exact hne (by omega) (by omega) hi
  · exact hne (by omega) (by omega) hi
  · refine hother ((eq_nth_div ht hi).trans ?_)
    rw [Nat.mul_div_cancel _ hM]

/-- The fifth transport makes a difference. -/
theorem not_reassembles_forgetful (hlen : 4 * size.payloadMaxSize < m.payload.length) :
    ¬ Reassembles m.payload (forgetful size m) := by
  intro h
  have hpre : nth size m 3 :: (nth size m 1 :: (put size m).filter (· ≠ nth size m 2)) <+: forgetful size m :=
    ⟨[nth size m 2], rfl⟩
  exact forgetful_not_covered hlen ((h _ _ hpre).1.1 (forgetful_complete hlen))

/-- A message is put together again from its transports in every order, with any duplicates, exactly
when it was cut in at most four; and from one sequence of transports, whatever their number, exactly
when there never is something to come that has been forgotten altogether. -/
theorem reassembles_iff (size : TransportSize) (m : Complete) :
    ((∀ sequence, Shuffles size m sequence → Reassembles m.payload sequence) ↔
      m.payload.length ≤ 4 * size.payloadMaxSize) ∧
    ∀ sequence, Shuffles size m sequence →
      (Reassembles m.payload sequence ↔ Remembers m.payload sequence) := by
  have hparts : ∀ sequence, Shuffles size m sequence → ∀ t ∈ sequence, IsPart m.payload t :=
    fun sequence hs t ht => isPart_of_mem_put ((hs t).1 ht)
  refine ⟨⟨fun h => ?_, fun hlen sequence hs => ?_⟩, fun sequence hs => reassembles_iff_remembers (hparts sequence hs)⟩
  · by_contra hlen
    push Not at hlen
    exact not_reassembles_forgetful hlen (h _ (forgetful_shuffles hlen))
  · exact reassembles_of_orderly (hparts sequence hs) (orderlyFed_of_length_le hlen hs)

/-- A message of five transports of the size used for queues. -/
def fiveParts : Complete := Complete.make 1 1 (List.replicate (4 * 8152 + 1) 65)

theorem fiveParts_not_reassembled :
    Shuffles ipcSize fiveParts (forgetful ipcSize fiveParts) ∧
      ¬ Reassembles fiveParts.payload (forgetful ipcSize fiveParts) := by
  have hsize : ipcSize.payloadMaxSize = 8152 := rfl
  have hlen : 4 * ipcSize.payloadMaxSize < fiveParts.payload.length := by
    rw [hsize]
    unfold fiveParts Complete.make
    rw [List.length_replicate]
    omega
  exact ⟨forgetful_shuffles hlen, not_reassembles_forgetful hlen⟩

end Casual.Communication

/-
Putting a message together again from its transports, in any order and with duplicates: what the
bookkeeping of the missing ranges gets right, and where it forgets a part.
-/
import Casual.Communication.Message

namespace Casual.Communication

open Casual.Common

/-! ## The positions that are missing -/

/-- The positions in some range of a list. -/
def missing (ranges : List Range) : Set Nat := {i | ∃ r ∈ ranges, i ∈ r.toSet}

theorem mem_missing {ranges : List Range} {i : Nat} : i ∈ missing ranges ↔ ∃ r ∈ ranges, i ∈ r.toSet := Iff.rfl

@[simp] theorem missing_nil : missing [] = ∅ := by simp [missing]

theorem subtractAll_fst (d : Range) : ∀ (ranges : List Range) (s : Range),
    (subtractAll d ranges s).1 = ranges.map fun r => (r.subtract d).1
  | [], _ => rfl
  | _ :: rest, _ => by simp [subtractAll, subtractAll_fst d rest]

theorem subtractAll_snd_append (d last : Range) : ∀ (ranges : List Range) (s : Range),
    (subtractAll d (ranges ++ [last]) s).2 = (last.subtract d).2
  | [], _ => rfl
  | _ :: rest, _ => by simp [subtractAll, subtractAll_snd_append d last rest]

/-- What is left after a transport: the first parts, and the second part of the last range. -/
theorem mem_missing_handle (ranges : List Range) (d : Range) (i : Nat) :
    i ∈ missing (handle ranges d) ↔
      (∃ r ∈ ranges, i ∈ (r.subtract d).1.toSet) ∨ i ∈ (subtractAll d ranges .null).2.toSet := by
  have key : ∀ l : List Range, i ∈ missing (partition (fun range => !range.empty) l).1 ↔ ∃ r ∈ l, i ∈ r.toSet := by
    intro l
    simp only [mem_missing, mem_partition_fst]
    constructor
    · rintro ⟨r, ⟨hr, -⟩, hi⟩; exact ⟨r, hr, hi⟩
    · rintro ⟨r, hr, hi⟩
      refine ⟨r, ⟨hr, ?_⟩, hi⟩
      cases he : r.empty with
      | false => rfl
      | true => rw [Range.toSet_eq_empty.2 he] at hi; exact absurd hi (Set.notMem_empty i)
  unfold handle
  simp only [key, subtractAll_fst]
  split_ifs with he
  · simp [Range.toSet_eq_empty.2 he]
  · simp only [List.mem_append, List.mem_map, List.mem_singleton]
    constructor
    · rintro ⟨r, ⟨r', hr', rfl⟩ | rfl, hi⟩
      · exact .inl ⟨r', hr', hi⟩
      · exact .inr hi
    · rintro (⟨r, hr, hi⟩ | hi)
      · exact ⟨_, .inl ⟨r, hr, rfl⟩, hi⟩
      · exact ⟨_, .inr rfl, hi⟩

theorem handle_not_empty {ranges : List Range} {d r : Range} (h : r ∈ handle ranges d) : r.empty = false := by
  unfold handle at h
  simpa using (mem_partition_fst.1 h).2

/-- Nothing that was not missing becomes missing, and what has arrived is not missing. -/
theorem missing_handle_subset {ranges : List Range} {d : Range} {i : Nat} (h : i ∈ missing (handle ranges d)) :
    i ∈ missing ranges ∧ i ∉ d.toSet := by
  rcases (mem_missing_handle ranges d i).1 h with ⟨r, hr, hi⟩ | hi
  · have := (Range.mem_subtract r d i).1 (.inl hi)
    exact ⟨⟨r, hr, this.1⟩, this.2⟩
  · rcases List.eq_nil_or_concat ranges with rfl | ⟨init, last, rfl⟩
    · simp [subtractAll, Range.null] at hi
    · rw [List.concat_eq_append, subtractAll_snd_append] at hi
      have := (Range.mem_subtract last d i).1 (.inr hi)
      exact ⟨⟨last, by simp, this.1⟩, this.2⟩

/-- No range but the last one has the transport strictly inside. -/
def keepsTail (ranges : List Range) (d : Range) : Prop :=
  ∀ r ∈ ranges.dropLast, ¬ (r.begin < d.begin ∧ r.end > d.end)

instance (ranges : List Range) (d : Range) : Decidable (keepsTail ranges d) :=
  inferInstanceAs (Decidable (∀ r ∈ ranges.dropLast, _))

/-- When only the last range is split, a transport removes exactly its own positions. -/
theorem mem_missing_handle_of_keepsTail {ranges : List Range} {d : Range} (h : keepsTail ranges d) (i : Nat) :
    i ∈ missing (handle ranges d) ↔ i ∈ missing ranges ∧ i ∉ d.toSet := by
  refine ⟨missing_handle_subset, ?_⟩
  rintro ⟨⟨r, hr, hi⟩, hd⟩
  rw [mem_missing_handle]
  rcases List.eq_nil_or_concat ranges with rfl | ⟨init, last, rfl⟩
  · cases hr
  · rw [List.concat_eq_append] at h hr ⊢
    rw [subtractAll_snd_append]
    rcases (Range.mem_subtract r d i).2 ⟨hi, hd⟩ with h1 | h2
    · exact .inl ⟨r, hr, h1⟩
    · rcases List.mem_append.1 hr with hr | hr
      · -- a range in front of the last one is not split
        rw [Range.subtract_snd_empty (h r (by simpa using hr))] at h2
        exact absurd h2 (Set.notMem_empty i)
      · rw [List.mem_singleton] at hr
        subst hr; exact .inr h2

/-- A list of ranges none of which is empty is empty when nothing is missing. -/
theorem eq_nil_of_missing_empty {ranges : List Range} (hne : ∀ r ∈ ranges, r.empty = false)
    (h : ∀ i, i ∉ missing ranges) : ranges = [] := by
  cases ranges with
  | nil => rfl
  | cons r rest =>
    exfalso
    have he := hne r List.mem_cons_self
    have : r.toSet ≠ ∅ := by rw [Ne, Range.toSet_eq_empty, he]; simp
    obtain ⟨i, hi⟩ := Set.nonempty_iff_ne_empty.2 this
    exact h i ⟨r, List.mem_cons_self, hi⟩

/-! ## Feeding a message -/

/-- Each transport is taken in without forgetting a part: none lies strictly inside a missing
range other than the last one of the list. -/
def Orderly : Complete → List Transport → Prop
  | _, [] => True
  | c, t :: ts => keepsTail c.unhandled t.range ∧ Orderly (c.add t) ts

/-- Every byte below `n` is in one of the transports. -/
def Covered (fed : List Transport) (n : Nat) : Prop := ∀ i < n, ∃ t ∈ fed, i ∈ t.range.toSet

theorem foldl_add_missing_subset : ∀ (ts : List Transport) (c : Complete) (i : Nat),
    i ∈ missing (ts.foldl Complete.add c).unhandled →
      i ∈ missing c.unhandled ∧ ∀ t ∈ ts, i ∉ t.range.toSet
  | [], c, i, h => ⟨h, by simp⟩
  | t :: ts, c, i, h => by
    obtain ⟨h1, h2⟩ := foldl_add_missing_subset ts (c.add t) i h
    obtain ⟨h3, h4⟩ := missing_handle_subset h1
    refine ⟨h3, ?_⟩
    rintro u (_ | ⟨_, hu⟩)
    · exact h4
    · exact h2 u hu

theorem foldl_add_mem_missing : ∀ (ts : List Transport) (c : Complete), Orderly c ts → ∀ i,
    (i ∈ missing (ts.foldl Complete.add c).unhandled ↔
      i ∈ missing c.unhandled ∧ ∀ t ∈ ts, i ∉ t.range.toSet)
  | [], c, _, i => by simp
  | t :: ts, c, ho, i => by
    rw [List.foldl_cons, foldl_add_mem_missing ts (c.add t) ho.2 i, Complete.add_unhandled,
      mem_missing_handle_of_keepsTail ho.1]
    simp only [List.forall_mem_cons]
    tauto

theorem foldl_add_not_empty : ∀ (ts : List Transport) (c : Complete), (∀ r ∈ c.unhandled, r.empty = false) →
    ∀ r ∈ (ts.foldl Complete.add c).unhandled, r.empty = false
  | [], _, h => h
  | t :: ts, c, _ => foldl_add_not_empty ts (c.add t) fun _ hr => handle_not_empty hr

theorem mem_missing_ofTransport (t : Transport) (i : Nat) :
    i ∈ missing (Complete.ofTransport t).unhandled ↔ i < t.completeSize ∧ i ∉ t.range.toSet := by
  unfold Complete.ofTransport
  rw [Complete.add_unhandled, mem_missing_handle_of_keepsTail (by simp [keepsTail])]
  simp [mem_missing]

/-- A message is complete exactly when nothing is missing. -/
theorem feed_complete_iff (t : Transport) (ts : List Transport) :
    (Complete.feed t ts).complete = true ↔ ∀ i, i ∉ missing (Complete.feed t ts).unhandled := by
  rw [Complete.complete_iff]
  constructor
  · intro h i; rw [h]; simp
  · refine eq_nil_of_missing_empty (foldl_add_not_empty ts _ fun r hr => ?_)
    unfold Complete.ofTransport at hr
    exact handle_not_empty hr

/-- Fed in an orderly way, a message is complete exactly when its transports cover it. -/
theorem feed_complete_iff_covered {t : Transport} {ts : List Transport} {n : Nat}
    (hn : t.completeSize = n) (ho : Orderly (Complete.ofTransport t) ts) :
    (Complete.feed t ts).complete = true ↔ Covered (t :: ts) n := by
  rw [feed_complete_iff]
  unfold Complete.feed Covered
  simp only [foldl_add_mem_missing ts _ ho, mem_missing_ofTransport, hn]
  constructor
  · intro h i hi
    by_contra hno
    push Not at hno
    exact h i ⟨⟨hi, hno t List.mem_cons_self⟩, fun u hu => hno u (List.mem_cons_of_mem _ hu)⟩
  · rintro h i ⟨⟨hi, ht⟩, hts⟩
    obtain ⟨u, hu, hiu⟩ := h i hi
    rcases List.mem_cons.1 hu with rfl | hu
    · exact ht hiu
    · exact hts u hu hiu

/-! ## The payload -/

theorem length_overwrite {payload source : List UInt8} {offset : Nat}
    (h : offset + source.length ≤ payload.length) : (overwrite payload offset source).length = payload.length := by
  simp only [overwrite, List.length_append, List.length_take, List.length_drop]; omega

theorem getElem?_overwrite {payload source : List UInt8} {offset : Nat}
    (h : offset + source.length ≤ payload.length) (i : Nat) :
    (overwrite payload offset source)[i]? =
      if offset ≤ i ∧ i < offset + source.length then source[i - offset]? else payload[i]? := by
  have hl : (payload.take offset).length = offset := by rw [List.length_take]; omega
  unfold overwrite
  split_ifs with hi
  · rw [List.append_assoc, List.getElem?_append_right (by omega), hl, List.getElem?_append_left (by omega)]
  · by_cases h0 : i < offset
    · rw [List.append_assoc, List.getElem?_append_left (by omega), List.getElem?_take_of_lt h0]
    · rw [List.getElem?_append_right (by rw [List.length_append, hl]; omega), List.getElem?_drop,
        List.length_append, hl]
      congr 1; omega

/-- A transport of a payload: it says how long the payload is, lies within it, and carries the
payload's own bytes. -/
structure IsPart (payload : List UInt8) (t : Transport) : Prop where
  size : t.completeSize = payload.length
  within : t.offset + t.count ≤ payload.length
  bytes : ∀ i, i ∈ t.range.toSet → t.payload[i - t.offset]? = payload[i]?

/-- A message agrees with a payload on the bytes of the given transports. -/
structure Agrees (payload : List UInt8) (fed : List Transport) (c : Complete) : Prop where
  length : c.payload.length = payload.length
  bytes : ∀ i, (∃ t ∈ fed, i ∈ t.range.toSet) → c.payload[i]? = payload[i]?

theorem Agrees.add {payload : List UInt8} {fed : List Transport} {c : Complete} {t : Transport}
    (h : Agrees payload fed c) (ht : IsPart payload t) : Agrees payload (fed ++ [t]) (c.add t) := by
  have hw : t.offset + t.payload.length ≤ c.payload.length := by rw [h.length]; exact ht.within
  refine ⟨?_, ?_⟩
  · rw [Complete.add_payload, length_overwrite hw]; exact h.length
  · rintro i ⟨u, hu, hi⟩
    rw [Complete.add_payload, getElem?_overwrite hw]
    split_ifs with hin
    · exact ht.bytes i hin
    · rcases List.mem_append.1 hu with hu | hu
      · exact h.bytes i ⟨u, hu, hi⟩
      · rw [List.mem_singleton] at hu; subst hu; exact absurd hi hin

theorem foldl_add_agrees {payload : List UInt8} : ∀ (ts fed : List Transport) (c : Complete),
    Agrees payload fed c → (∀ t ∈ ts, IsPart payload t) → Agrees payload (fed ++ ts) (ts.foldl Complete.add c)
  | [], fed, c, h, _ => by simpa using h
  | t :: ts, fed, c, h, hp => by
    have := foldl_add_agrees ts (fed ++ [t]) (c.add t) (h.add (hp t List.mem_cons_self))
      fun u hu => hp u (List.mem_cons_of_mem _ hu)
    simpa using this

theorem feed_agrees {payload : List UInt8} {t : Transport} {ts : List Transport}
    (hp : ∀ u ∈ t :: ts, IsPart payload u) : Agrees payload (t :: ts) (Complete.feed t ts) := by
  have h0 : Agrees payload [] ⟨t.type, t.correlation, List.replicate t.completeSize 0, [⟨0, t.completeSize⟩]⟩ :=
    ⟨by simp [(hp t List.mem_cons_self).size], by simp⟩
  have h1 := h0.add (hp t List.mem_cons_self)
  exact foldl_add_agrees ts [t] _ h1 fun u hu => hp u (List.mem_cons_of_mem _ hu)

/-- Covered by its transports, a message has the original payload. -/
theorem Agrees.payload_eq {payload : List UInt8} {fed : List Transport} {c : Complete}
    (h : Agrees payload fed c) (hc : Covered fed payload.length) : c.payload = payload := by
  apply List.ext_getElem?
  intro i
  by_cases hi : i < payload.length
  · exact h.bytes i (hc i hi)
  · rw [List.getElem?_eq_none (by rw [h.length]; omega), List.getElem?_eq_none (by omega)]

/-! ## The transports of a message -/

section Put

variable {size : TransportSize} {m : Complete}

theorem nth_completeSize (k : Nat) : (nth size m k).completeSize = m.payload.length := rfl

theorem nth_offset (k : Nat) : (nth size m k).offset = k * size.payloadMaxSize := rfl

theorem nth_range {k : Nat} (hk : k * size.payloadMaxSize ≤ m.payload.length) :
    (nth size m k).range =
      ⟨k * size.payloadMaxSize, min size.payloadMaxSize (m.payload.length - k * size.payloadMaxSize)⟩ := by
  unfold nth
  rw [part_range (partEnd_le size hk), partEnd_eq_min size hk]
  congr 1; omega

theorem mem_nth_range {k i : Nat} (hk : k * size.payloadMaxSize ≤ m.payload.length) :
    i ∈ (nth size m k).range.toSet ↔
      k * size.payloadMaxSize ≤ i ∧ i < k * size.payloadMaxSize + size.payloadMaxSize ∧ i < m.payload.length := by
  rw [nth_range hk, Range.mem_toSet]
  simp only
  omega

theorem start_le {k : Nat} (hk : k = 0 ∨ k * size.payloadMaxSize < m.payload.length) :
    k * size.payloadMaxSize ≤ m.payload.length := by
  rcases hk with rfl | hk
  · simp
  · exact hk.le

theorem isPart_nth {k : Nat} (hk : k * size.payloadMaxSize ≤ m.payload.length) :
    IsPart m.payload (nth size m k) := by
  refine ⟨rfl, ?_, ?_⟩
  · unfold nth
    rw [part_count (partEnd_le size hk), part_offset]
    have := partEnd_le size hk; have := le_partEnd size hk; omega
  · intro i hi
    rw [mem_nth_range hk] at hi
    rw [nth_offset]
    simp only [nth, part, partEnd_eq_min size hk]
    rw [List.getElem?_take_of_lt (by omega), List.getElem?_drop]
    congr 1; omega

theorem isPart_of_mem_put {t : Transport} (h : t ∈ put size m) : IsPart m.payload t := by
  obtain ⟨k, hk, rfl⟩ := mem_put.1 h
  exact isPart_nth (start_le hk)

/-- Every byte of the payload is in the transport it belongs to by its position. -/
theorem mem_nth_div (size : TransportSize) {i : Nat} (hi : i < m.payload.length) :
    nth size m (i / size.payloadMaxSize) ∈ put size m ∧ i ∈ (nth size m (i / size.payloadMaxSize)).range.toSet := by
  have hM := size.payloadMaxSize_pos
  have hle := Nat.div_mul_le_self i size.payloadMaxSize
  have hlt : i < i / size.payloadMaxSize * size.payloadMaxSize + size.payloadMaxSize := Nat.lt_div_mul_add hM
  refine ⟨mem_put.2 ⟨_, .inr (by omega), rfl⟩, ?_⟩
  rw [mem_nth_range (by omega)]
  exact ⟨hle, hlt, hi⟩

/-- A transport that holds a byte is the one the byte belongs to. -/
theorem eq_nth_div {t : Transport} {i : Nat} (ht : t ∈ put size m) (hi : i ∈ t.range.toSet) :
    t = nth size m (i / size.payloadMaxSize) := by
  obtain ⟨k, hk, rfl⟩ := mem_put.1 ht
  have hM := size.payloadMaxSize_pos
  obtain ⟨h1, h2, -⟩ := (mem_nth_range (start_le hk)).1 hi
  have : i / size.payloadMaxSize = k := Nat.div_eq_of_lt_le h1 (by rw [Nat.succ_mul]; exact h2)
  rw [this]

theorem put_covered : Covered (put size m) m.payload.length :=
  fun _ hi => ⟨_, mem_nth_div size hi⟩

theorem put_ne_nil : put size m ≠ [] := by simp [put, putFrom]

theorem correlation_of_mem_put {t : Transport} (h : t ∈ put size m) : t.correlation = m.correlation := by
  obtain ⟨k, -, rfl⟩ := mem_put.1 h
  rfl

theorem type_of_mem_put {t : Transport} (h : t ∈ put size m) : t.type = m.type := by
  obtain ⟨k, -, rfl⟩ := mem_put.1 h
  rfl

/-! ### In the order they are sent -/

/-- What is missing is the rest of the payload, and a transport takes its first bytes away. -/
theorem handle_rest {b e n : Nat} (hb : b ≤ e) (he : e ≤ n) :
    handle [⟨b, n - b⟩] ⟨b, e - b⟩ = if e = n then [] else [⟨e, n - e⟩] := by
  have hover : (⟨b, n - b⟩ : Range).overlap ⟨b, e - b⟩ := by
    simp only [Range.overlap, Range.begin, Range.end]; omega
  have hfront : ¬ (⟨b, n - b⟩ : Range).begin < (⟨b, e - b⟩ : Range).begin := by simp [Range.begin]
  by_cases hend : e = n
  · have hsub : Range.subtract ⟨b, n - b⟩ ⟨b, e - b⟩ = (.null, .null) := by
      unfold Range.subtract
      rw [if_pos hover, if_neg (fun h => hfront h.1), if_neg hfront, if_neg]
      simp only [Range.end]; omega
    rw [if_pos hend]
    simp [handle, subtractAll, hsub, Range.null, Range.empty, partition, partitionAux, findLast]
  · have hsub : Range.subtract ⟨b, n - b⟩ ⟨b, e - b⟩ = (⟨e, n - e⟩, .null) := by
      unfold Range.subtract
      rw [if_pos hover, if_neg (fun h => hfront h.1), if_neg hfront, if_pos (by simp only [Range.end]; omega)]
      simp only [Range.make, Range.end, Prod.mk.injEq, Range.mk.injEq, and_true]
      omega
    have hne : ¬ (n - e = 0) := by omega
    rw [if_neg hend]
    simp [handle, subtractAll, hsub, Range.null, Range.empty, partition, partitionAux, hne]

theorem putFrom_last {t : Transport} : ∀ {fuel b : Nat} {pre post : List Transport}, b ≤ m.payload.length →
    m.payload.length - b < fuel → putFrom size m fuel b = pre ++ t :: post → (t.last = true ↔ post = [])
  | 0, _, _, _, _, hf, _ => by omega
  | fuel + 1, b, pre, post, hb, hf, h => by
    have hM := size.payloadMaxSize_pos
    have he := partEnd_eq_min size hb
    simp only [putFrom] at h
    cases pre with
    | nil =>
      simp only [List.nil_append, List.cons.injEq] at h
      obtain ⟨rfl, h⟩ := h
      rw [part_last (le_partEnd size hb) (partEnd_le size hb)]
      split_ifs at h with hend
      · simp [hend, ← h]
      · -- the rest is not empty, as there is fuel left
        refine ⟨fun h' => absurd h' hend, fun hpost => ?_⟩
        obtain ⟨f, rfl⟩ : ∃ f, fuel = f + 1 := ⟨fuel - 1, by omega⟩
        rw [hpost] at h
        simp [putFrom] at h
    | cons u pre =>
      simp only [List.cons_append, List.cons.injEq] at h
      split_ifs at h with hend
      · simp at h
      · exact putFrom_last (partEnd_le size hb) (by omega) h.2

/-- The last transport says that it is the last one, and no other does. -/
theorem put_last {t : Transport} {pre post : List Transport} (h : put size m = pre ++ t :: post) :
    t.last = true ↔ post = [] := putFrom_last (by omega) (by omega) h

theorem foldl_putFrom_complete : ∀ {fuel b : Nat} {pre post : List Transport} {c : Complete},
    b ≤ m.payload.length → m.payload.length - b < fuel → c.unhandled = [⟨b, m.payload.length - b⟩] →
    pre ≠ [] → putFrom size m fuel b = pre ++ post → ((pre.foldl Complete.add c).complete = true ↔ post = [])
  | 0, _, _, _, _, _, hf, _, _, _ => by omega
  | fuel + 1, b, [], _, _, _, _, _, hpre, _ => absurd rfl hpre
  | fuel + 1, b, t :: pre, post, c, hb, hf, hc, _, h => by
    have hM := size.payloadMaxSize_pos
    have he := partEnd_eq_min size hb
    simp only [putFrom, List.cons_append, List.cons.injEq] at h
    obtain ⟨rfl, h⟩ := h
    have hadd : (c.add (part m b (partEnd size m b))).unhandled =
        if partEnd size m b = m.payload.length then []
        else [⟨partEnd size m b, m.payload.length - partEnd size m b⟩] := by
      rw [Complete.add_unhandled, hc, part_range (partEnd_le size hb)]
      exact handle_rest (le_partEnd size hb) (partEnd_le size hb)
    rw [List.foldl_cons]
    split_ifs at h hadd with hend
    · obtain ⟨rfl, rfl⟩ : pre = [] ∧ post = [] := by simpa using h.symm
      rw [List.foldl_nil, Complete.complete_iff, hadd]
      simp
    · cases pre with
      | nil =>
        obtain ⟨f, rfl⟩ : ∃ f, fuel = f + 1 := ⟨fuel - 1, by omega⟩
        have : post ≠ [] := by
          rintro rfl
          simp [putFrom] at h
        rw [List.foldl_nil, Complete.complete_iff, hadd]
        simp [this]
      | cons u pre => exact foldl_putFrom_complete (partEnd_le size hb) (by omega) hadd (by simp) h

theorem foldl_add_type : ∀ (ts : List Transport) (c : Complete),
    (ts.foldl Complete.add c).type = c.type ∧ (ts.foldl Complete.add c).correlation = c.correlation
  | [], _ => ⟨rfl, rfl⟩
  | t :: ts, c => foldl_add_type ts (c.add t)

theorem feed_type (t : Transport) (ts : List Transport) :
    (Complete.feed t ts).type = t.type ∧ (Complete.feed t ts).correlation = t.correlation :=
  foldl_add_type ts _

/-- Fed with its transports in the order they are sent, a message is complete with the last one. -/
theorem feed_put_complete {t : Transport} {ts post : List Transport} (h : put size m = t :: ts ++ post) :
    (Complete.feed t ts).complete = true ↔ post = [] := by
  have ht : t ∈ put size m := by rw [h]; simp
  have hsize := (isPart_of_mem_put ht).size
  exact foldl_putFrom_complete (c := ⟨t.type, t.correlation, List.replicate t.completeSize 0, [⟨0, t.completeSize⟩]⟩)
    (Nat.zero_le _) (by omega) (by simp [hsize]) (List.cons_ne_nil t ts) h

/-- Fed with all of them it is the message. -/
theorem feed_put {t : Transport} {ts : List Transport} (h : put size m = t :: ts) :
    Complete.feed t ts = Complete.make m.type m.correlation m.payload := by
  have hcomplete : (Complete.feed t ts).unhandled = [] := by
    rw [← Complete.complete_iff]
    exact (feed_put_complete (show put size m = t :: ts ++ [] by simpa using h)).2 rfl
  have hpayload : (Complete.feed t ts).payload = m.payload := by
    have hparts : ∀ u ∈ t :: ts, IsPart m.payload u := fun u hu => isPart_of_mem_put (h ▸ hu)
    exact (feed_agrees hparts).payload_eq (h ▸ put_covered)
  obtain ⟨k, -, rfl⟩ := mem_put.1 (show t ∈ put size m by rw [h]; simp)
  obtain ⟨htype, hcorrelation⟩ := feed_type (nth size m k) ts
  cases hf : Complete.feed (nth size m k) ts with
  | mk type correlation payload unhandled =>
    rw [hf] at hcomplete hpayload htype hcorrelation
    subst hcomplete hpayload htype hcorrelation
    rfl

end Put

end Casual.Communication

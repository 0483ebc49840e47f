/-
What the triggers of a queuebase do: each moves the totals of the queues by what the message it is
fired for counts for after the change, less what it counted for before.
-/
import Casual.Queue.Database

namespace Casual.Queue

open Casual.Common Casual.Communication Casual.Lib

/-! ## What a message counts for -/

/-- Count, size and uncommitted count. -/
abbrev Totals := Int × Int × Int

/-- What the triggers count of a queue. -/
def QueueRow.totals (q : QueueRow) : Totals := (q.count, q.size, q.uncommittedCount)

/-- The length of a payload; one that is `NULL` counts for nothing. -/
def MessageRow.length (m : MessageRow) : Int := m.payload.elim 0 fun p => p.length

/-- What a message counts for in its queue. -/
def Message.State.totals (s : Message.State) (length : Int) : Totals :=
  match s with
  | .added => (0, 0, 1)
  | .enqueued => (1, length, 0)
  | .removed => (1, length, 0)
  | .dequeued => 0

/-- What a message counts for in each queue. -/
def MessageRow.totals (m : MessageRow) : Nat → Totals :=
  fun k => if k = m.queue then m.state.totals m.length else 0

/-- What does not change in a row of `queue`. -/
def QueueRow.static (q : QueueRow) : Nat × String × Nat × Nat × QueueType :=
  (q.id, q.name, q.retries, q.error, q.type)

theorem static_eq {q q' : QueueRow} (h : q'.static = q.static) :
    q'.id = q.id ∧ q'.name = q.name ∧ q'.retries = q.retries ∧ q'.error = q.error ∧ q'.type = q.type := by
  simpa [QueueRow.static] using h

/-- The totals of the queues have changed by `d`, and nothing else. -/
def Shift (d : Nat → Totals) : List QueueRow → List QueueRow → Prop :=
  List.Forall₂ fun q q' => q'.static = q.static ∧ q'.totals = q.totals + d q.id

theorem Shift.zero (qs : List QueueRow) : Shift 0 qs qs :=
  List.forall₂_same.2 fun q _ => ⟨rfl, by simp⟩

theorem Shift.add {a b : Nat → Totals} {qs qs' qs'' : List QueueRow} (h : Shift a qs qs') (h' : Shift b qs' qs'') :
    Shift (a + b) qs qs'' := by
  unfold Shift at h h' ⊢
  induction h generalizing qs'' with
  | nil => cases h'; exact .nil
  | cons hq _ ih =>
    cases h' with
    | cons hq' hrest =>
      refine .cons ⟨hq'.1.trans hq.1, ?_⟩ (ih hrest)
      rw [hq'.2, hq.2, (static_eq hq.1).1, Pi.add_apply, add_assoc]

theorem Shift.statics {d : Nat → Totals} {qs qs' : List QueueRow} (h : Shift d qs qs') :
    qs'.map QueueRow.static = qs.map QueueRow.static := by
  unfold Shift at h
  induction h with
  | nil => rfl
  | cons hq _ ih => rw [List.map_cons, List.map_cons, hq.1, ih]

theorem Shift.mem {d : Nat → Totals} {qs qs' : List QueueRow} (h : Shift d qs qs') {q' : QueueRow} (hq' : q' ∈ qs') :
    ∃ q ∈ qs, q'.static = q.static ∧ q'.totals = q.totals + d q.id := by
  unfold Shift at h
  induction h with
  | nil => cases hq'
  | cons hq _ ih =>
    rcases List.mem_cons.1 hq' with rfl | hq'
    · exact ⟨_, List.mem_cons_self, hq⟩
    · obtain ⟨q, hmem, hrest⟩ := ih hq'
      exact ⟨q, List.mem_cons_of_mem _ hmem, hrest⟩

/-- An update of the queues that match shifts them. -/
theorem updateQueues_shift {affects : QueueRow → Bool} {set : QueueRow → Option QueueRow} {d : Nat → Totals}
    (hset : ∀ q q', affects q = true → set q = some q' → q'.static = q.static ∧ q'.totals = q.totals + d q.id)
    (hrest : ∀ q, affects q = false → d q.id = 0) :
    ∀ {qs qs' : List QueueRow}, updateQueues affects set qs = some qs' → Shift d qs qs'
  | [], _, h => by cases h; exact .nil
  | q :: qs, _, h => by
    unfold updateQueues at h
    split at h
    · next q' qs' hq hqs =>
      cases h
      refine .cons ?_ (updateQueues_shift hset hrest hqs)
      split_ifs at hq with ha
      · exact hset q q' ha hq
      · cases hq
        refine ⟨rfl, ?_⟩
        rw [hrest q (by simpa using ha), add_zero]
    · cases h

theorem updateQueues_isSome (affects : QueueRow → Bool) (set : QueueRow → Option QueueRow) :
    ∀ (qs : List QueueRow), (∀ q ∈ qs, affects q = true → ∃ q', set q = some q') →
      ∃ qs', updateQueues affects set qs = some qs'
  | [], _ => ⟨[], rfl⟩
  | q :: qs, h => by
    obtain ⟨qs', hqs⟩ := updateQueues_isSome affects set qs fun q' hq' => h q' (List.mem_cons_of_mem _ hq')
    unfold updateQueues
    rw [hqs]
    split_ifs with ha
    · obtain ⟨q', hq'⟩ := h q List.mem_cons_self ha
      exact ⟨q' :: qs', by rw [hq']⟩
    · exact ⟨q :: qs', rfl⟩

/-- A row that was updated could be updated. -/
theorem updateQueues_some {affects : QueueRow → Bool} {set : QueueRow → Option QueueRow} :
    ∀ {qs qs' : List QueueRow}, updateQueues affects set qs = some qs' →
      ∀ q ∈ qs, affects q = true → ∃ q', set q = some q'
  | [], _, _, q, hq, _ => by cases hq
  | p :: qs, _, h, q, hq, ha => by
    unfold updateQueues at h
    split at h
    · next p' qs' hp hqs =>
      rcases List.mem_cons.1 hq with rfl | hq
      · rw [if_pos ha] at hp
        exact ⟨p', hp⟩
      · exact updateQueues_some hqs q hq ha
    · cases h

/-! ## The triggers -/

theorem addLength_eq {size size' : Int} {m : MessageRow} (h : addLength size m.payload = some size') :
    size' = size + m.length := by
  unfold addLength at h
  obtain ⟨p, hp, rfl⟩ := Option.map_eq_some_iff.1 h
  simp [MessageRow.length, hp]

theorem subLength_eq {size size' : Int} {m : MessageRow} (h : subLength size m.payload = some size') :
    size' = size - m.length := by
  unfold subLength at h
  obtain ⟨p, hp, rfl⟩ := Option.map_eq_some_iff.1 h
  simp [MessageRow.length, hp]

theorem insertMessage_shift {new : MessageRow} {qs qs' : List QueueRow} (h : insertMessage new qs = some qs')
    (hstate : new.state = .added ∨ new.state = .enqueued) : Shift new.totals qs qs' := by
  obtain ⟨qs₁, h₁, h₂⟩ := Option.bind_eq_some_iff.1 h
  have hs₁ : Shift (fun k => if k = new.queue ∧ new.state = .added then (0, 0, 1) else 0) qs qs₁ := by
    refine updateQueues_shift ?_ ?_ h₁
    · rintro q q' ha hq
      cases hq
      simp only [Bool.and_eq_true, beq_iff_eq] at ha
      exact ⟨rfl, by simp [QueueRow.totals, ha]⟩
    · intro q ha
      simp only [Bool.and_eq_false_iff, beq_eq_false_iff_ne] at ha
      exact if_neg (by tauto)
  have hs₂ : Shift (fun k => if k = new.queue ∧ new.state = .enqueued then (1, new.length, 0) else 0) qs₁ qs' := by
    refine updateQueues_shift ?_ ?_ h₂
    · rintro q q' ha hq
      obtain ⟨size, hsize, rfl⟩ := Option.map_eq_some_iff.1 hq
      simp only [Bool.and_eq_true, beq_iff_eq] at ha
      exact ⟨rfl, by simp [QueueRow.totals, ha, addLength_eq hsize]⟩
    · intro q ha
      simp only [Bool.and_eq_false_iff, beq_eq_false_iff_ne] at ha
      exact if_neg (by tauto)
  have hsum := hs₁.add hs₂
  convert hsum using 1
  funext k
  rcases hstate with hstate | hstate <;> by_cases hk : k = new.queue <;>
    simp [MessageRow.totals, Message.State.totals, hstate, hk]

theorem updateMessageState_shift {old new : MessageRow} {qs qs' : List QueueRow}
    (h : updateMessageState old new qs = some qs') (hqueue : new.queue = old.queue) (hpayload : new.payload = old.payload)
    (hstate : old.state = .added ∧ new.state = .enqueued ∨ old.state = .enqueued ∧ new.state = .removed ∨
      old.state = .removed ∧ new.state = .enqueued) : Shift (new.totals - old.totals) qs qs' := by
  have hlength : new.length = old.length := by simp [MessageRow.length, hpayload]
  have hs : Shift (fun k => if k = new.queue ∧ old.state = .added ∧ new.state = .enqueued then
      (1, new.length, -1) else 0) qs qs' := by
    refine updateQueues_shift ?_ ?_ h
    · rintro q q' ha hq
      obtain ⟨size, hsize, rfl⟩ := Option.map_eq_some_iff.1 hq
      simp only [Bool.and_eq_true, beq_iff_eq] at ha
      refine ⟨rfl, ?_⟩
      simp [QueueRow.totals, ha, addLength_eq hsize]
      omega
    · intro q ha
      simp only [Bool.and_eq_false_iff, beq_eq_false_iff_ne] at ha
      exact if_neg (by tauto)
  convert hs using 1
  funext k
  rcases hstate with ⟨h₁, h₂⟩ | ⟨h₁, h₂⟩ | ⟨h₁, h₂⟩ <;> by_cases hk : k = old.queue <;>
    simp [MessageRow.totals, Message.State.totals, h₁, h₂, hk, hqueue, hlength]

theorem updateMessageQueue_shift {old new : MessageRow} {qs qs' : List QueueRow}
    (h : updateMessageQueue old new qs = some qs') (hstate : old.state = .enqueued) (hstate' : new.state = .enqueued)
    (hpayload : new.payload = old.payload) : Shift (new.totals - old.totals) qs qs' := by
  have hlength : new.length = old.length := by simp [MessageRow.length, hpayload]
  obtain ⟨qs₁, h₁, h₂⟩ := Option.bind_eq_some_iff.1 h
  have hs₁ : Shift (fun k => if k = new.queue ∧ new.queue ≠ old.queue then (1, new.length, 0) else 0) qs qs₁ := by
    refine updateQueues_shift ?_ ?_ h₁
    · rintro q q' ha hq
      obtain ⟨size, hsize, rfl⟩ := Option.map_eq_some_iff.1 hq
      simp only [Bool.and_eq_true, beq_iff_eq, bne_iff_ne] at ha
      exact ⟨rfl, by simp [QueueRow.totals, ha, addLength_eq hsize]⟩
    · intro q ha
      simp only [Bool.and_eq_false_iff, beq_eq_false_iff_ne, bne_eq_false_iff_eq] at ha
      exact if_neg (by tauto)
  have hs₂ : Shift (fun k => if k = old.queue ∧ old.queue ≠ new.queue then (-1, -old.length, 0) else 0) qs₁ qs' := by
    refine updateQueues_shift ?_ ?_ h₂
    · rintro q q' ha hq
      obtain ⟨size, hsize, rfl⟩ := Option.map_eq_some_iff.1 hq
      simp only [Bool.and_eq_true, beq_iff_eq, bne_iff_ne] at ha
      refine ⟨rfl, ?_⟩
      simp [QueueRow.totals, ha, subLength_eq hsize]
      omega
    · intro q ha
      simp only [Bool.and_eq_false_iff, beq_eq_false_iff_ne, bne_eq_false_iff_eq] at ha
      exact if_neg (by tauto)
  convert hs₁.add hs₂ using 1
  funext k
  by_cases hsame : new.queue = old.queue
  · simp [MessageRow.totals, hstate, hstate', hsame, hlength]
  · have hsame' : old.queue ≠ new.queue := fun h' => hsame h'.symm
    by_cases hk : k = new.queue
    · simp [MessageRow.totals, Message.State.totals, hstate', hk, hsame]
    · by_cases hk' : k = old.queue <;>
        simp [MessageRow.totals, Message.State.totals, hstate, hk, hk', hsame, hsame']

theorem deleteMessage_shift {old : MessageRow} {qs qs' : List QueueRow} (h : deleteMessage old qs = some qs')
    (hstate : old.state ≠ .dequeued) : Shift (-old.totals) qs qs' := by
  obtain ⟨qs₁, h₁, h₂⟩ := Option.bind_eq_some_iff.1 h
  have hs₁ : Shift (fun k => if k = old.queue ∧ (old.state = .enqueued ∨ old.state = .removed) then
      (-1, -old.length, 0) else 0) qs qs₁ := by
    refine updateQueues_shift ?_ ?_ h₁
    · rintro q q' ha hq
      obtain ⟨size, hsize, rfl⟩ := Option.map_eq_some_iff.1 hq
      simp only [Bool.and_eq_true, Bool.or_eq_true, beq_iff_eq] at ha
      refine ⟨rfl, ?_⟩
      simp [QueueRow.totals, ha, subLength_eq hsize]
      omega
    · intro q ha
      simp only [Bool.and_eq_false_iff, Bool.or_eq_false_iff, beq_eq_false_iff_ne] at ha
      exact if_neg (by tauto)
  have hs₂ : Shift (fun k => if k = old.queue ∧ old.state = .added then (0, 0, -1) else 0) qs₁ qs' := by
    refine updateQueues_shift ?_ ?_ h₂
    · rintro q q' ha hq
      cases hq
      simp only [Bool.and_eq_true, beq_iff_eq] at ha
      refine ⟨rfl, ?_⟩
      simp [QueueRow.totals, ha]
      omega
    · intro q ha
      simp only [Bool.and_eq_false_iff, beq_eq_false_iff_ne] at ha
      exact if_neg (by tauto)
  convert hs₁.add hs₂ using 1
  funext k
  cases hs : old.state <;> by_cases hk : k = old.queue <;>
    simp_all [MessageRow.totals, Message.State.totals]

end Casual.Queue

/-
`suspend` and `resume` of `common/transaction/context.cpp`: in every history of transactions that are begun,
suspended and resumed, and of resources that register, what a resume finds, and what it leaves of the stack.
-/
import Casual.Tx.Stack

namespace Casual.Tx

open Lib Common Communication Call Server

/-! ## Histories -/

/-- What a program does in a history. -/
inductive Move
  | begin (created : Transaction.XID)
  | suspend (xid : Bool)
  | resume (xid : Option (Option Transaction.XID))
  | register (rmid : Nat)
  | unregister (rmid : Nat)

/-- The call of a move. -/
def Move.event : Move → Event
  | .begin created => .begin created
  | .suspend xid => .suspend xid
  | .resume xid => .resume xid
  | .register rmid => .register rmid
  | .unregister rmid => .unregister rmid

/-- A context, and the ids that `suspend` has given. -/
structure Parked where
  state : Context
  suspended : List Transaction.XID

namespace Parked

/-- The id that is written to where the pointer of `suspend` points. -/
def given (s : Context) : Move → List Transaction.XID
  | .suspend true => (s.current.trid.map Transaction.ID.xid).toList
  | _ => []

/-- A move, and the ids it has given out. -/
def move (w : Parked) (m : Move) : Parked := ⟨after (call m.event w.state), w.suspended ++ given w.state m⟩

/-- Any context; the transaction of `current` outside of the stack is null. -/
def machine : Machine Parked Move where
  init w := w.state.singleton.trid = none ∧ w.suspended = []
  admits _ _ := True
  step := move

end Parked

/-- The transaction has the id. -/
def Named (x : Transaction.XID) (t : Transaction) : Prop := t.trid.map Transaction.ID.xid = some x

/-- What `range::find` looks for. -/
def isNamed (x : Transaction.XID) (t : Transaction) : Bool := t.trid.any fun id => id.xid == x

theorem isNamed_iff {t : Transaction} {x : Transaction.XID} : isNamed x t = true ↔ Named x t := by
  unfold isNamed Named
  cases t.trid with
  | none => simp
  | some id => simp

/-! ## A resume -/

/-- The transaction is current, the static resources are started in resume mode, and the stack is as it was,
without the null transaction that was on top. -/
structure Resumed (s : Context) (x : Transaction.XID) (t : Context) : Prop where
  current : Named x t.current
  log : t.log = s.log ++ s.fixed.map fun rm => ⟨rm, x, true, .TMRESUME⟩
  stack : (t.transactions ++ [s.current]).Perm s.transactions
  rest : (t.process, t.dynamic, t.fixed, t.control, t.logged, t.singleton) =
    (s.process, s.dynamic, s.fixed, s.control, s.logged, s.singleton)

variable {s : Context}

/-- Where the transaction is: below the null transaction on top. -/
theorem found_below {x : Transaction.XID} (hnone : s.current.trid = none) (hfound : ∃ t ∈ s.transactions, Named x t) :
    ∃ before found behind, Named x found ∧ s.transactions = before ++ found :: (behind ++ [s.current]) ∧
      s.transactions.find? (isNamed x) = some found ∧ s.pop.transactions.eraseP (isNamed x) = before ++ behind := by
  obtain ⟨found, hsome⟩ : ∃ found, s.transactions.find? (isNamed x) = some found := by
    obtain ⟨t, ht, hnamed⟩ := hfound
    rw [← Option.isSome_iff_exists, List.find?_isSome]
    exact ⟨t, ht, isNamed_iff.2 hnamed⟩
  obtain ⟨hfound, before, rest, htransactions, hbefore⟩ := List.find?_eq_some_iff_append.1 hsome
  have hcurrent : s.transactions.getLast? = some s.current := by
    unfold Context.current
    rw [htransactions, List.getLast?_append_of_ne_nil _ (List.cons_ne_nil _ _)]
    cases hlast : (found :: rest).getLast? with
    | none => simp at hlast
    | some top => rfl
  rcases List.eq_nil_or_concat rest with rfl | ⟨behind, top, rfl⟩
  · -- the null transaction has no id
    rw [htransactions, List.getLast?_concat] at hcurrent
    obtain rfl := Option.some.inj hcurrent
    have hid := isNamed_iff.1 hfound
    unfold Named at hid
    rw [hnone] at hid
    cases hid
  · rw [List.concat_eq_append] at htransactions
    have htop : top = s.current := by
      rw [htransactions, ← List.cons_append, ← List.append_assoc, List.getLast?_concat] at hcurrent
      exact Option.some.inj hcurrent
    subst htop
    refine ⟨before, found, behind, isNamed_iff.1 hfound, htransactions, hsome, ?_⟩
    have hpop : s.pop.transactions = before ++ found :: behind := by
      unfold Context.pop
      rw [htransactions, ← List.cons_append, ← List.append_assoc, List.dropLast_concat]
    have hnot : ∀ t ∈ before, ¬ isNamed x t = true := fun t ht => by simpa using hbefore t ht
    rw [hpop, List.eraseP_append_right _ hnot, List.eraseP_cons_of_pos hfound]

theorem resume_ok {x : Transaction.XID} (hnone : s.current.trid = none) (hresources : s.current.resources = [])
    (hfound : ∃ t ∈ s.transactions, Named x t) : ∃ t, resume (some (some x)) s = .ok TX_OK t ∧ Resumed s x t := by
  obtain ⟨before, found, behind, hnamed, htransactions, hsome, herase⟩ := found_below hnone hfound
  obtain ⟨id, hid, rfl⟩ := Option.map_eq_some_iff.1 hnamed
  have hstart : s.resourcesStart found .TMRESUME =
      { s with log := s.log ++ s.fixed.map fun rm => ⟨rm, id.xid, true, .TMRESUME⟩ } := by
    unfold Context.resourcesStart
    rw [hid]
  refine ⟨Context.push found { (s.resourcesStart found .TMRESUME) with transactions := before ++ behind }, ?_, ?_⟩
  · have hfind : s.transactions.find? (fun t => t.trid.any fun i => i.xid == id.xid) = some found := hsome
    unfold resume
    simp only [hnone, hresources, hfind, Option.isSome_none, Bool.false_eq_true, if_false, ne_eq, not_true_eq_false, hstart]
    show EStateM.Result.ok TX_OK (Context.push found { s with
      transactions := s.pop.transactions.eraseP (isNamed id.xid)
      log := s.log ++ s.fixed.map fun rm => ⟨rm, id.xid, true, .TMRESUME⟩ }) = _
    rw [herase]
  · constructor
    · rw [current_push]
      exact hnamed
    · rw [hstart]
      rfl
    · rw [htransactions]
      show ((before ++ behind ++ [found]) ++ [s.current]).Perm _
      rw [List.append_assoc, List.append_assoc]
      exact List.Perm.append_left before (List.perm_append_comm_assoc behind [found] [s.current])
    · rw [hstart]
      rfl

/-- Whatever is in the way, a resume that fails changes nothing. -/
theorem resume_error (xid : Option (Option Transaction.XID))
    (h : (∀ x, xid = some (some x) → ∀ t ∈ s.transactions, ¬ Named x t) ∨ s.current.trid ≠ none ∨ s.current.resources ≠ []) :
    ∃ e, resume xid s = .error e s := by
  rcases xid with _ | _ | x
  · exact ⟨.argument, rfl⟩
  · exact ⟨.argument, rfl⟩
  · unfold resume
    by_cases hcurrent : s.current.trid.isSome
    · exact ⟨.protocol, if_pos hcurrent⟩
    by_cases hresources : s.current.resources ≠ []
    · exact ⟨.outside, (if_neg hcurrent).trans (if_pos hresources)⟩
    have hnone : s.current.trid = none := Option.not_isSome_iff_eq_none.1 hcurrent
    have hunknown := h.resolve_right (not_or.2 ⟨not_not.2 hnone, hresources⟩) x rfl
    have hfind : s.transactions.find? (fun t => t.trid.any fun i => i.xid == x) = none :=
      List.find?_eq_none.2 fun t ht his => hunknown t ht (isNamed_iff.1 his)
    simp only [if_neg hcurrent, if_neg hresources, hfind]
    exact ⟨.argument, rfl⟩

/-! ## What histories keep -/

namespace Parked

/-- Every id that was given is that of a transaction on the stack. -/
structure Kept (w : Parked) : Prop where
  single : w.state.singleton.trid = none
  stacked : ∀ x ∈ w.suspended, ∃ t ∈ w.state.transactions, Named x t

/-- Nothing leaves the stack that has an id. -/
theorem Kept.of_subset {w : Parked} (h : w.Kept) {t : Context} {given : List Transaction.XID}
    (hsingle : t.singleton = w.state.singleton) (hstacked : ∀ u ∈ w.state.transactions, ∀ x, Named x u → u ∈ t.transactions)
    (hgiven : ∀ x ∈ given, ∃ u ∈ w.state.transactions, Named x u) : Kept ⟨t, w.suspended ++ given⟩ where
  single := by rw [hsingle, h.single]
  stacked x hx := by
    obtain ⟨u, hu, hnamed⟩ := (List.mem_append.1 hx).elim (h.stacked x) (hgiven x)
    exact ⟨u, hstacked u hu x hnamed, hnamed⟩

/-- Nothing has happened. -/
theorem Kept.same {w : Parked} (h : w.Kept) : Kept ⟨w.state, w.suspended ++ []⟩ :=
  h.of_subset rfl (fun _ hu _ _ => hu) (List.forall_mem_nil _)

theorem Kept.started {w : Parked} (h : w.Kept) (created : Transaction.XID) {s : Context}
    (hsingle : s.singleton = w.state.singleton) (hsame : s.transactions = w.state.transactions) :
    Kept ⟨started created s, w.suspended ++ []⟩ := by
  refine h.of_subset ?_ (fun u hu _ _ => ?_) (List.forall_mem_nil _)
  · unfold Tx.started Context.push
    rw [resourcesStart_singleton, hsingle]
  · unfold Tx.started Context.push
    rw [resourcesStart_transactions, hsame]
    exact List.mem_append_left _ hu

theorem Kept.begin {w : Parked} (h : w.Kept) (created : Transaction.XID) : (w.move (.begin created)).Kept := by
  show Kept ⟨after (Tx.begin created w.state), w.suspended ++ []⟩
  unfold Tx.begin
  simp only
  split_ifs
  · exact h.same
  · exact h.started created (resourcesEnd_singleton _ _ _) (resourcesEnd_transactions _ _ _)
  · exact h.same
  · exact h.started created rfl rfl

/-- A transaction that has an id is on the stack. -/
theorem Kept.current_mem {w : Parked} (h : w.Kept) {id : Transaction.ID} (hid : w.state.current.trid = some id) :
    w.state.current ∈ w.state.transactions := by
  unfold Context.current at hid ⊢
  cases hlast : w.state.transactions.getLast? with
  | none =>
    rw [hlast] at hid
    cases h.single.symm.trans hid
  | some top => exact List.mem_of_getLast? hlast

theorem Kept.suspend {w : Parked} (h : w.Kept) (xid : Bool) : (w.move (.suspend xid)).Kept := by
  cases xid with
  | false => exact h.same
  | true =>
    cases hid : w.state.current.trid with
    | none =>
      have hmove : w.move (.suspend true) = ⟨after (EStateM.Result.error .protocol w.state), w.suspended ++ []⟩ := by
        simp only [move, given, Move.event, call, Tx.suspend, hid]
        rfl
      rw [hmove]
      exact h.same
    | some id =>
      have hmove : w.move (.suspend true) =
          ⟨(w.state.resourcesEnd w.state.current .TMSUSPEND).push (.make none), w.suspended ++ [id.xid]⟩ := by
        simp only [move, given, Move.event, call, Tx.suspend, hid]
        rfl
      rw [hmove]
      refine h.of_subset (resourcesEnd_singleton _ _ _) (fun u hu _ _ => ?_) fun x hx => ?_
      · unfold Context.push
        rw [resourcesEnd_transactions]
        exact List.mem_append_left _ hu
      · refine ⟨w.state.current, h.current_mem hid, ?_⟩
        unfold Named
        rw [hid, List.mem_singleton.1 hx]
        rfl

theorem Kept.resume {w : Parked} (h : w.Kept) (xid : Option (Option Transaction.XID)) : (w.move (.resume xid)).Kept := by
  show Kept ⟨after (Tx.resume xid w.state), w.suspended ++ []⟩
  by_cases hok : ∃ x, xid = some (some x) ∧ (∃ t ∈ w.state.transactions, Named x t) ∧ w.state.current.trid = none ∧
      w.state.current.resources = []
  · obtain ⟨x, rfl, hfound, hnone, hresources⟩ := hok
    obtain ⟨t, ht, hresumed⟩ := resume_ok hnone hresources hfound
    rw [ht]
    refine h.of_subset (congrArg (·.2.2.2.2.2) hresumed.rest) (fun u hu x' hnamed => ?_) nofun
    rcases List.mem_append.1 (hresumed.stack.mem_iff.2 hu) with hu | hu
    · exact hu
    · unfold Named at hnamed
      rw [List.mem_singleton.1 hu, hnone] at hnamed
      cases hnamed
  · obtain ⟨e, he⟩ := resume_error (s := w.state) xid (by
      by_contra hnot
      push Not at hnot
      obtain ⟨⟨x, hx, t, ht, hnamed⟩, hnone, hresources⟩ := hnot
      exact hok ⟨x, hx, ⟨t, ht, hnamed⟩, hnone, hresources⟩)
    rw [he]
    exact h.same

/-- The current transaction has other resources. -/
theorem Kept.setResources {w : Parked} (h : w.Kept) (resources : List Nat) :
    Kept ⟨w.state.setCurrent { w.state.current with resources }, w.suspended ++ []⟩ := by
  cases hlast : w.state.transactions.getLast? with
  | none =>
    have hcurrent : w.state.current = w.state.singleton := by
      unfold Context.current
      rw [hlast]
      rfl
    have hset : w.state.setCurrent { w.state.current with resources } =
        { w.state with singleton := { w.state.current with resources } } := by
      unfold Context.setCurrent
      rw [hlast]
    rw [hset, List.append_nil]
    refine ⟨?_, h.stacked⟩
    show w.state.current.trid = none
    rw [hcurrent, h.single]
  | some top =>
    have hcurrent : w.state.current = top := by
      unfold Context.current
      rw [hlast]
      rfl
    have hset : w.state.setCurrent { w.state.current with resources } =
        w.state.pop.push { w.state.current with resources } := by
      unfold Context.setCurrent
      rw [hlast]
    have hsplit : w.state.transactions = w.state.pop.transactions ++ [top] := (List.dropLast_append_getLast? top hlast).symm
    rw [hset, hcurrent, List.append_nil]
    refine ⟨h.single, fun x hx => ?_⟩
    obtain ⟨u, hu, hnamed⟩ := h.stacked x hx
    rw [hsplit] at hu
    rcases List.mem_append.1 hu with hu | hu
    · exact ⟨u, List.mem_append_left _ hu, hnamed⟩
    · rw [List.mem_singleton.1 hu] at hnamed
      exact ⟨_, List.mem_append_right _ (List.mem_singleton_self _), hnamed⟩

theorem Kept.register {w : Parked} (h : w.Kept) (rmid : Nat) : (w.move (.register rmid)).Kept := by
  show Kept ⟨after (resourceRegistration rmid w.state), w.suspended ++ []⟩
  unfold resourceRegistration
  by_cases hdynamic : rmid ∉ w.state.dynamic
  · rw [if_pos hdynamic]
    exact h.same
  · rw [if_neg hdynamic]
    split_ifs
    · exact h.same
    · exact h.setResources _

theorem Kept.unregister {w : Parked} (h : w.Kept) (rmid : Nat) : (w.move (.unregister rmid)).Kept := by
  show Kept ⟨after (resourceUnregistration rmid w.state), w.suspended ++ []⟩
  unfold resourceUnregistration
  split_ifs
  · exact h.setResources _
  · exact h.same

theorem kept_of_reachable {w : Parked} (h : machine.Reachable w) : w.Kept := by
  refine h.invariant (fun w hinit => ⟨hinit.1, by rw [hinit.2]; exact List.forall_mem_nil _⟩) ?_
  rintro w (created | xid | xid | rmid | rmid) hw -
  · exact hw.begin created
  · exact hw.suspend xid
  · exact hw.resume xid
  · exact hw.register rmid
  · exact hw.unregister rmid

/-- In every history: an id that was suspended is resumed, when no transaction is current and no resource works
outside of one; else a resume fails and changes nothing. -/
theorem resume_of_reachable {w : Parked} (h : machine.Reachable w) (xid : Option (Option Transaction.XID)) :
    (∀ x ∈ w.suspended, xid = some (some x) → w.state.current.trid = none → w.state.current.resources = [] →
      ∃ s, resume xid w.state = .ok TX_OK s ∧ Resumed w.state x s) ∧
    ((∀ x, xid = some (some x) → ∀ t ∈ w.state.transactions, ¬ Named x t) ∨ w.state.current.trid ≠ none ∨
        w.state.current.resources ≠ [] → ∃ e, resume xid w.state = .error e w.state) := by
  refine ⟨?_, resume_error xid⟩
  rintro x hx rfl hnone hresources
  exact resume_ok hnone hresources ((kept_of_reachable h).stacked x hx)

/-! ### Two histories -/

/-- A process that starts with a static and a dynamic resource. -/
def idle : Parked := ⟨fresh ⟨1, 1⟩ [7] [5], []⟩

theorem idle_reachable : machine.Reachable idle := .of_init ⟨rfl, rfl⟩

/-- Two transactions are suspended, and the first is resumed. -/
def twoSuspended : Parked :=
  [.begin (Watched.xid 1), .suspend true, .begin (Watched.xid 2), .suspend true].foldl move idle

theorem first_resumed : ∃ s, resume (some (some (Watched.xid 1))) twoSuspended.state = .ok TX_OK s ∧
    Resumed twoSuspended.state (Watched.xid 1) s :=
  (resume_of_reachable (idle_reachable.foldl (by repeat constructor)) (some (some (Watched.xid 1)))).1 _ (by decide) rfl
    (by decide) (by decide)

/-- One is suspended while another is current. -/
def oneSuspended : Parked := [.begin (Watched.xid 1), .suspend true, .begin (Watched.xid 2)].foldl move idle

/-- One is suspended, and the dynamic resource registers. -/
def oneOutside : Parked := [.begin (Watched.xid 1), .suspend true, .register 7].foldl move idle

/-- An id that was suspended, and is not current, is not resumed while another transaction is, and neither is one
while none is and a resource works outside. -/
theorem other_current :
    (¬ ∀ w, machine.Reachable w → ∀ x ∈ w.suspended, ¬ Named x w.state.current →
      ∃ s, resume (some (some x)) w.state = .ok TX_OK s) ∧
    ¬ ∀ w, machine.Reachable w → ∀ x ∈ w.suspended, w.state.current.trid = none →
      ∃ s, resume (some (some x)) w.state = .ok TX_OK s := by
  constructor
  · intro h
    obtain ⟨s, hs⟩ := h oneSuspended (idle_reachable.foldl (by repeat constructor)) (Watched.xid 1) (by decide)
      (by unfold Named; decide)
    cases hs
  · intro h
    obtain ⟨s, hs⟩ := h oneOutside (idle_reachable.foldl (by repeat constructor)) (Watched.xid 1) (by decide) (by decide)
    cases hs

end Parked

end Casual.Tx

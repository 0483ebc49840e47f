/-
`common/transaction/context.cpp`: what becomes of each transaction that is left when a service ends.
-/
import Casual.Server.Transaction
import Casual.Call.Effects

namespace Casual.Server

open Lib Common Communication Call

variable {Sender : Type} [DecidableEq Sender] (env : Surroundings Sender)

/-! ## What is done with each transaction -/

/-- What is done with a transaction when a service has ended. -/
inductive Handling
  | committed
  | rolledBack
  | reported
  deriving DecidableEq, Repr

/-- A process that serves a call, and what was done with the transactions. -/
structure Ledger (Sender : Type) where
  state : State Sender
  handled : List (Option Transaction.ID × Handling)

/-- What is done when a service has ended, with a record of it. -/
abbrev L (Sender : Type) := EStateM Exception (Ledger Sender)

/-- What handles no transaction. -/
def aside {α : Type} (x : M Sender α) : L Sender α := fun w =>
  match x w.state with
  | .ok a state => .ok a { w with state }
  | .error e state => .error e { w with state }

/-- A transaction has been handled. -/
def record (t : Transaction) (handling : Handling) : L Sender Unit :=
  modify fun w => { w with handled := w.handled ++ [(t.trid, handling)] }

namespace Ledger

/-- `commit`, and it has returned. -/
def commit (i : Nat) (t : Transaction) : L Sender Int := do
  let result ← aside (Server.commit env i t)
  record t .committed
  return result

/-- `rollback`, and it has returned. -/
def rollback (i : Nat) (t : Transaction) : L Sender Int := do
  let result ← aside (Server.rollback env i t)
  record t .rolledBack
  return result

/-- `trans_commit_rollback`. -/
def complete (value : Int) (t : Transaction) (i : Nat) : L Sender Unit := do
  let result ← if value = TPSUCCESS ∧ t.state = .active then commit env i t else rollback env i t
  aside (modify fun s => { s with results := s.results ++ [result] })
  aside (modify fun s => if result ≠ TX_OK then noted TPESVCERR s else s)

/-- The loop of `Context::finalize` over the transactions that are owned. -/
def completeOwned (value : Int) : List Transaction → Nat → L Sender Unit
  | [], _ => pure ()
  | t :: rest, i => do
    complete env value t i
    completeOwned value rest (i + 1)

/-- What the reply says of the transaction of the caller it says when it has its id. -/
def finalize (value : Int) : L Sender Unit := do
  let transactions := (← get).state.context.transactions
  aside (modify fun s => { s with context := { s.context with transactions := [] } })
  aside (modify fun s => if value = TPESVCERR ∨ value = TPSUCCESS then s else noted TPESVCFAIL s)
  aside (transactions.forM pendingCheck)
  let actual := (transactions.map checked).filter (·.trid.isSome)
  completeOwned env value (actual.filter (owns env)) 0
  aside (answerCaller env value (actual.filter (! owns env ·)))
  let caller := (← get).state.caller
  aside (modify fun s =>
    { s with
      reply := { s.reply with transaction := { s.reply.transaction with trid := s.caller } }
      caller := none
      completed := true })
  ((actual.filter (! owns env ·)).find? fun t => caller.any t.is).toList.forM (record · .reported)

end Ledger

/-! ## What is right -/

/-- The transactions there are, without the null ones. -/
def actual (s : State Sender) : List Transaction := s.context.transactions.filter (·.trid.isSome)

/-- The service has succeeded, and nothing speaks against the transaction. -/
def Succeeds (value : Int) (t : Transaction) : Prop := value = TPSUCCESS ∧ t.state = .active ∧ t.descriptors = []

instance (value : Int) (t : Transaction) : Decidable (Succeeds value t) := inferInstanceAs (Decidable (_ ∧ _ ∧ _))

/-- What is to become of a transaction the service owns. -/
def due (value : Int) (t : Transaction) : Option Transaction.ID × Handling :=
  (t.trid, if Succeeds value t then .committed else .rolledBack)

/-- What replies tell about the transactions, one after the other. -/
def hear (replies : List (Outcome × Nat)) (transactions : List Transaction) : Option (List Transaction) :=
  replies.foldlM (fun transactions reply => update reply.1 reply.2 transactions) transactions

/-- Each transaction is handled once: one the service owns is committed or rolled back, and that of the caller is
reported with a state that is as severe as any failure. -/
structure Finalized (value : Int) (s : State Sender) (w : Ledger Sender) : Prop where
  once : (w.handled.map Prod.fst).Perm ((actual s).map (·.trid))
  ended : (w.handled.filter (·.2 ≠ .reported)).Perm
    (((actual s).filter fun t => owns env t && !s.caller.any t.is).map (due value))
  reported : ∀ t ∈ s.context.transactions, s.caller.any t.is →
    (t.trid, .reported) ∈ w.handled ∧ w.state.reply.transaction.trid = s.caller
  severe : ∀ t ∈ s.context.transactions, s.caller.any t.is →
    t.state.value ≤ w.state.reply.transaction.state.value ∧
    (value ≠ TPSUCCESS ∨ t.descriptors ≠ [] → w.state.reply.transaction.state = .rollback)
  heard : ∀ before replies, hear replies before = some s.context.transactions →
    ∀ reply ∈ replies, (∃ id ∈ reply.1.trid, ∃ caller ∈ s.caller, id.xid = caller.xid) →
      reply.1.state.value ≤ w.state.reply.transaction.state.value

/-! ## When it is -/

/-- The calls with some descriptors can be cancelled. -/
def Cancellable (pending : Pending) (descriptors : List Nat) : Prop :=
  descriptors.Nodup ∧ ∀ descriptor ∈ descriptors, (pending.get descriptor).isSome

/-- A commit returns: the resource is one of the process, or the TM answers. -/
def commits (i : Nat) (t : Transaction) : Bool :=
  if t.isLocal ∧ t.resources.length + env.fixed.length ≤ 1 then (t.resources ++ env.fixed).head?.all (· ∈ env.all)
  else t.trid.any fun id =>
    match env.commit i ⟨id, env.process, env.fixed ++ t.resources⟩ with
    | none => false
    | some ⟨_, .prepare, _⟩ => env.logged || (env.committed i).isSome
    | some _ => true

/-- A rollback returns: the TM answers. -/
def rollsBack (i : Nat) (t : Transaction) : Bool :=
  t.trid.any fun id => (env.rollback i ⟨id, env.process, env.fixed ++ t.resources⟩).isSome

/-- Transactions the service owns are ended one after the other, and each end returns. -/
def Answered (value : Int) : List Transaction → Nat → Prop
  | [], _ => True
  | t :: rest, i => (if Succeeds value t then commits env i t else rollsBack env i t) = true ∧ Answered value rest (i + 1)

/-- The resources that are involved in a transaction can be told, if there are any. -/
def Told (t : Transaction) : Prop := env.fixed ++ t.resources ≠ [] → env.fails .involved = false

/-- The pending calls can be cancelled, each transaction that is owned can be ended, the caller's is not owned,
any that is not owned is the caller's and there is one at most, and the resources involved in it can be told. -/
structure Ends (value : Int) (s : State Sender) : Prop where
  cancellable : Cancellable s.context.pending (s.context.transactions.flatMap (·.descriptors))
  answered : Answered env value ((actual s).filter (owns env)) 0
  foreign : ∀ t ∈ actual s, owns env t → s.caller.any t.is = false
  single : ((actual s).filter (! owns env ·)).length ≤ 1
  expected : ∀ t ∈ actual s, owns env t = false → s.caller.any t.is
  told : ∀ t ∈ actual s, s.caller.any t.is → Told env t

/-! ## Without the record -/

section Projected

omit [DecidableEq Sender]

theorem projects_aside {α : Type} (x : M Sender α) : Projects Ledger.state (aside x) x := by
  constructor
  intro w
  unfold aside
  cases x w.state with
  | ok a s => rfl
  | error e s => rfl

theorem projects_get {α : Type} {x : Ledger Sender → L Sender α} {y : M Sender α}
    (h : ∀ w, Projects Ledger.state (x w) y) : Projects Ledger.state (get >>= x) y := ⟨fun w => (h w).run w⟩

theorem projects_record (t : Transaction) (handling : Handling) :
    Projects Ledger.state (record t handling : L Sender Unit) (pure ()) := .modify fun _ => rfl

theorem projects_records (handling : Handling) : ∀ ts : List Transaction,
    Projects Ledger.state (ts.forM fun t => (record t handling : L Sender Unit)) (pure ())
  | [] => .pure _
  | t :: ts => (projects_record t handling).before fun _ => projects_records handling ts

end Projected

theorem projects_complete (value : Int) (t : Transaction) (i : Nat) :
    Projects Ledger.state (Ledger.complete env value t i) (complete env value t i) := by
  unfold Ledger.complete complete
  dsimp only
  apply Projects.ite
  · apply Projects.bind
    · exact (projects_aside _).before fun result => .behind (fun _ => rfl) (.pure _)
    · exact fun result => (projects_aside _).bind fun _ => projects_aside _
  · apply Projects.bind
    · exact (projects_aside _).before fun result => .behind (fun _ => rfl) (.pure _)
    · exact fun result => (projects_aside _).bind fun _ => projects_aside _

theorem projects_completeOwned (value : Int) : ∀ (ts : List Transaction) (i : Nat),
    Projects Ledger.state (Ledger.completeOwned env value ts i) (completeOwned env value ts i)
  | [], _ => .pure _
  | t :: ts, i => (projects_complete env value t i).bind fun _ => projects_completeOwned value ts (i + 1)

/-- Without the record it is `finalize`. -/
theorem projects_finalize (value : Int) :
    Projects Ledger.state (Ledger.finalize env value) (finalize env value) := by
  apply Projects.get_bind
  intro w
  refine (projects_aside _).bind fun _ => ?_
  refine (projects_aside _).bind fun _ => ?_
  refine (projects_aside _).bind fun _ => ?_
  refine (projects_completeOwned env value _ 0).bind fun _ => ?_
  refine (projects_aside _).bind fun _ => ?_
  exact projects_get fun _ => (projects_aside _).before fun _ => projects_records .reported _

/-! ## Transactions that are owned -/

/-- Nothing is said of the caller's transaction. -/
structure Unsaid (s t : State Sender) : Prop where
  caller : t.caller = s.caller
  outcome : t.reply.transaction = s.reply.transaction

omit [DecidableEq Sender] in
theorem Unsaid.refl (s : State Sender) : Unsaid s s := ⟨rfl, rfl⟩

omit [DecidableEq Sender] in
theorem Unsaid.trans {s t u : State Sender} (h : Unsaid s t) (h' : Unsaid t u) : Unsaid s u :=
  ⟨h'.caller.trans h.caller, h'.outcome.trans h.outcome⟩

omit [DecidableEq Sender] in
theorem decides_aside {α : Type} {c : Prop} {x : M Sender α} {w : Ledger Sender} {Q : α → State Sender → Prop}
    {E : Exception → State Sender → Prop} (h : Decides c x w.state Q E) :
    Decides c (aside x) w (fun a v => Q a v.state ∧ v.handled = w.handled)
      (fun e v => E e v.state ∧ v.handled = w.handled) := by
  constructor
  · intro hc
    obtain ⟨a, s, hx, hs⟩ := h.returns hc
    exact ⟨a, { w with state := s }, by unfold aside; rw [hx], hs, rfl⟩
  · intro hc
    obtain ⟨e, s, hx, hs⟩ := h.throws hc
    exact ⟨e, { w with state := s }, by unfold aside; rw [hx], hs, rfl⟩

@[simp] theorem trid_checked (t : Transaction) : (checked t).trid = t.trid := by
  unfold checked
  split_ifs <;> rfl

@[simp] theorem resources_checked (t : Transaction) : (checked t).resources = t.resources := by
  unfold checked
  split_ifs <;> rfl

@[simp] theorem descriptors_checked (t : Transaction) : (checked t).descriptors = t.descriptors := by
  unfold checked
  split_ifs <;> rfl

@[simp] theorem isLocal_checked (t : Transaction) : (checked t).isLocal = t.isLocal := by
  unfold checked
  split_ifs <;> rfl

theorem state_checked {t : Transaction} (h : t.trid.isSome) :
    (checked t).state = if t.descriptors = [] then t.state else .rollback := by
  unfold checked
  by_cases hd : t.descriptors = []
  · rw [if_neg fun hc => hc.1 hd, if_pos hd]
  · rw [if_pos ⟨hd, h⟩, if_neg hd]

/-- A transaction is committed as the check leaves it. -/
theorem succeeds_iff {value : Int} {t : Transaction} (h : t.trid.isSome) :
    Succeeds value t ↔ value = TPSUCCESS ∧ (checked t).state = .active := by
  unfold Succeeds
  rw [state_checked h]
  by_cases hd : t.descriptors = []
  · rw [if_pos hd]
    tauto
  · rw [if_neg hd]
    exact ⟨fun hc => absurd hc.2.2 hd, fun hc => nomatch hc.2⟩

theorem decides_commit {t : Transaction} {id : Transaction.ID} (htrid : t.trid = some id)
    (howner : id.owner = env.process) (hstate : t.state = .active) (hdescriptors : t.descriptors = []) (i : Nat)
    (s : State Sender) :
    Decides (commits env i t = true) (commit env i t) s (fun _ u => Unsaid s u) (fun _ _ => True) := by
  unfold commit commits
  rw [htrid]
  dsimp only [Option.any_some]
  rw [if_neg (not_not.2 howner), if_neg (not_not.2 hstate), if_neg (not_not.2 hdescriptors)]
  by_cases hlocal : t.isLocal ∧ t.resources.length + env.fixed.length ≤ 1
  · rw [if_pos hlocal, if_pos hlocal]
    cases t.resources ++ env.fixed with
    | nil => exact (Decides.pure (.refl s)).congr (by simp)
    | cons rm rest =>
      dsimp only
      unfold resourceCommit
      by_cases hrm : rm ∈ env.all
      · rw [if_pos hrm]
        exact (Decides.pure (.refl s)).congr (by simp [hrm])
      · rw [if_neg hrm]
        exact (Decides.throw trivial).congr (by simp [hrm])
  · rw [if_neg hlocal, if_neg hlocal]
    rcases env.commit i ⟨id, env.process, env.fixed ++ t.resources⟩ with _ | ⟨correlation, stage, state⟩
    · exact (Decides.throw trivial).congr (by simp)
    · cases stage with
      | commit => exact (Decides.pure (.refl s)).congr (by simp)
      | error => exact (Decides.pure (.refl s)).congr (by simp)
      | prepare =>
        dsimp only
        by_cases hlogged : env.logged = true
        · rw [if_pos hlogged]
          have hdiscard : onContext (discardCorrelation correlation) s =
            .ok () { s with context := { s.context with net := s.context.net.step (.discard correlation) } } := rfl
          refine ⟨fun _ => ⟨_, _, bind_ok hdiscard, ⟨rfl, rfl⟩⟩, fun h => absurd ?_ h⟩
          rw [hlogged, Bool.true_or]
        · rw [if_neg hlogged]
          cases hcommitted : env.committed i with
          | none => exact (Decides.throw trivial).congr (by simp [hlogged])
          | some state => exact (Decides.pure (.refl s)).congr (by simp)

omit [DecidableEq Sender] in
theorem decides_rollback {t : Transaction} {id : Transaction.ID} (htrid : t.trid = some id)
    (howner : id.owner = env.process) (i : Nat) (s : State Sender) :
    Decides (rollsBack env i t = true) (rollback env i t) s (fun _ u => Unsaid s u) (fun _ _ => True) := by
  unfold rollback rollsBack
  rw [htrid]
  dsimp only [Option.any_some]
  rw [if_neg (not_not.2 howner)]
  cases env.rollback i ⟨id, env.process, env.fixed ++ t.resources⟩ with
  | none => exact (Decides.throw trivial).congr (by simp)
  | some state => exact (Decides.pure (.refl s)).congr (by simp)

omit [DecidableEq Sender] in
/-- What was called is recorded when it has returned. -/
theorem decides_record {c : Prop} {x : M Sender Int} {w : Ledger Sender} (t : Transaction) (handling : Handling)
    (h : Decides c x w.state (fun _ s => Unsaid w.state s) (fun _ _ => True)) :
    Decides c (do
        let result ← aside x
        record t handling
        return result) w
      (fun _ v => Unsaid w.state v.state ∧ v.handled = w.handled ++ [(t.trid, handling)])
      (fun _ v => v.handled = w.handled) := by
  have hlast : ∀ (result : Int) (v : Ledger Sender), Unsaid w.state v.state ∧ v.handled = w.handled →
      Decides True (record t handling >>= fun _ => pure result) v
        (fun _ v => Unsaid w.state v.state ∧ v.handled = w.handled ++ [(t.trid, handling)])
        (fun _ v => v.handled = w.handled) := by
    intro result v hv
    exact .modify_bind (.pure ⟨hv.1, by rw [← hv.2]⟩)
  have haside := (decides_aside h).mono (fun _ _ hv => hv) fun _ _ _ hv => hv.2
  exact haside.andThen hlast

/-- One that is owned is ended if the end returns. -/
theorem decides_complete (value : Int) {t : Transaction} (hsome : t.trid.isSome) (howns : owns env t = true) (i : Nat)
    (w : Ledger Sender) :
    Decides ((if Succeeds value t then commits env i t else rollsBack env i t) = true)
      (Ledger.complete env value (checked t) i) w
      (fun _ v => Unsaid w.state v.state ∧ v.handled = w.handled ++ [due value t])
      (fun _ v => v.handled = w.handled) := by
  obtain ⟨id, htrid⟩ := Option.isSome_iff_exists.1 hsome
  have htrid' : (checked t).trid = some id := (trid_checked t).trans htrid
  have howner : id.owner = env.process := by
    unfold owns at howns
    rw [htrid] at howns
    exact of_decide_eq_true howns
  -- the result is kept, and an error noted
  have hrest : ∀ (result : Int) (v : Ledger Sender),
      Unsaid w.state v.state ∧ v.handled = w.handled ++ [due value t] →
      Decides True (do
          aside (modify fun s => { s with results := s.results ++ [result] })
          aside (modify fun s => if result ≠ TX_OK then noted TPESVCERR s else s)) v
        (fun _ v => Unsaid w.state v.state ∧ v.handled = w.handled ++ [due value t])
        (fun _ v => v.handled = w.handled) := by
    intro result v hv
    refine ⟨fun _ => ⟨_, _, rfl, hv.1.trans ?_, hv.2⟩, fun h => absurd trivial h⟩
    dsimp only
    split_ifs <;> exact ⟨rfl, rfl⟩
  unfold Ledger.complete
  dsimp only
  by_cases hsucceeds : Succeeds value t
  · have hbranch := (succeeds_iff hsome).1 hsucceeds
    have hdue : due value t = ((checked t).trid, .committed) := by
      unfold due
      rw [if_pos hsucceeds, trid_checked]
    have hcommits : commits env i (checked t) = commits env i t := by
      unfold commits
      simp only [trid_checked, resources_checked, isLocal_checked]
    have hcommit := decides_record (checked t) .committed
      (decides_commit env htrid' howner hbranch.2 ((descriptors_checked t).trans hsucceeds.2.2) i w.state)
    rw [if_pos hsucceeds, if_pos hbranch, ← hcommits]
    rw [hdue] at hrest ⊢
    exact hcommit.andThen hrest
  · have hbranch := fun h => hsucceeds ((succeeds_iff hsome).2 h)
    have hdue : due value t = ((checked t).trid, .rolledBack) := by
      unfold due
      rw [if_neg hsucceeds, trid_checked]
    have hrollsBack : rollsBack env i (checked t) = rollsBack env i t := by
      unfold rollsBack
      simp only [trid_checked, resources_checked]
    have hrollback := decides_record (checked t) .rolledBack (decides_rollback env htrid' howner i w.state)
    rw [if_neg hsucceeds, if_neg hbranch, ← hrollsBack]
    rw [hdue] at hrest ⊢
    exact hrollback.andThen hrest

/-- All that are owned are ended if each end returns; otherwise some are not. -/
theorem decides_completeOwned (value : Int) : ∀ (ts : List Transaction) (i : Nat) (w : Ledger Sender),
    (∀ t ∈ ts, t.trid.isSome ∧ owns env t = true) →
    Decides (Answered env value ts i) (Ledger.completeOwned env value (ts.map checked) i) w
      (fun _ v => Unsaid w.state v.state ∧ v.handled = w.handled ++ ts.map (due value))
      (fun _ v => v.handled.length < w.handled.length + ts.length)
  | [], i, w, _ => .pure ⟨.refl _, (List.append_nil _).symm⟩
  | t :: ts, i, w, h => by
    obtain ⟨hsome, howns⟩ := h t List.mem_cons_self
    refine ((decides_complete env value hsome howns i w).mono (fun _ _ hv => hv) fun _ _ v hv => ?_).bind fun _ v hv => ?_
    · rw [hv, List.length_cons]
      omega
    · refine (decides_completeOwned value ts (i + 1) v fun u hu => h u (List.mem_cons_of_mem _ hu)).mono ?_ ?_
      · rintro _ u ⟨hunsaid, hhandled⟩
        refine ⟨hv.1.trans hunsaid, ?_⟩
        rw [hhandled, hv.2, List.append_assoc]
        rfl
      · intro _ _ u hu
        rw [hv.2, List.length_append] at hu
        rw [List.length_cons]
        simp only [List.length_cons, List.length_nil] at hu
        omega

/-! ## Pending calls -/

/-- Some descriptors are no longer active, the others are as before. -/
structure Cancelled (descriptors : List Nat) (s t : State Sender) : Prop extends Unsaid s t where
  transactions : t.context.transactions = []
  pending : ∀ d, (t.context.pending.get d).isSome ↔ (s.context.pending.get d).isSome ∧ d ∉ descriptors

omit [DecidableEq Sender] in
theorem Cancelled.append {ds es : List Nat} {s t u : State Sender} (h : Cancelled ds s t) (h' : Cancelled es t u) :
    Cancelled (ds ++ es) s u := by
  refine ⟨h.toUnsaid.trans h'.toUnsaid, h'.transactions, fun d => ?_⟩
  rw [h'.pending, h.pending, List.mem_append, not_or, and_assoc]

theorem cancellable_append {pending : Pending} {ds es : List Nat} :
    Cancellable pending (ds ++ es) ↔ Cancellable pending ds ∧ Cancellable pending es ∧ ds.Disjoint es := by
  unfold Cancellable
  rw [List.nodup_append', List.forall_mem_append]
  tauto

omit [DecidableEq Sender] in
theorem Cancelled.cancellable {ds es : List Nat} {s t : State Sender} (h : Cancelled ds s t) :
    Cancellable t.context.pending es ↔ Cancellable s.context.pending es ∧ ds.Disjoint es := by
  unfold Cancellable
  simp only [h.pending]
  constructor
  · rintro ⟨hnodup, hes⟩
    exact ⟨⟨hnodup, fun d hd => (hes d hd).1⟩, fun d hd he => (hes d he).2 hd⟩
  · rintro ⟨⟨hnodup, hes⟩, hdisjoint⟩
    exact ⟨hnodup, fun d hd => ⟨hes d hd, fun h => hdisjoint h hd⟩⟩

omit [DecidableEq Sender] in
/-- A loop cancels what each round cancels. -/
theorem decides_forM {ι : Type} {f : ι → M Sender Unit} {g : ι → List Nat}
    (h : ∀ i (s : State Sender), s.context.transactions = [] →
      Decides (Cancellable s.context.pending (g i)) (f i) s (fun _ t => Cancelled (g i) s t) (fun _ _ => True)) :
    ∀ (l : List ι) (s : State Sender), s.context.transactions = [] →
      Decides (Cancellable s.context.pending (l.flatMap g)) (l.forM f) s
        (fun _ t => Cancelled (l.flatMap g) s t) (fun _ _ => True)
  | [], s, hs => by
    refine Decides.congr (.pure ⟨.refl s, hs, fun d => ?_⟩) ⟨fun _ => trivial, fun _ => ⟨List.nodup_nil, nofun⟩⟩
    simp
  | i :: l, s, hs => by
    refine ((h i s hs).bind (f := fun _ => l.forM f) fun _ t ht => ?_).congr cancellable_append
    refine ((decides_forM h l t ht.transactions).congr ht.cancellable.symm).mono (fun _ u hu => ?_) fun _ _ _ h => h
    exact ht.append hu

theorem isSome_get {pending : Pending} {d : Nat} :
    (pending.get d).isSome ↔ ∃ e ∈ pending.actives, e.descriptor = d := by
  simp only [Option.isSome_iff_exists, Pending.get_eq_some]

theorem cancellable_singleton {pending : Pending} {d : Nat} : Cancellable pending [d] ↔ (pending.get d).isSome := by
  unfold Cancellable
  simp

/-- Without transactions, a call that is pending can be cancelled. -/
theorem returns_cancel (descriptor : Nat) {s : Context Sender} (hs : s.transactions = []) :
    Decides ((s.pending.get descriptor).isSome) (cancel descriptor) s
      (fun _ t => t.transactions = [] ∧ Released s.pending t.pending descriptor) (fun _ _ => True) := by
  have hassociated : ¬ associated s.transactions descriptor = true := by
    rw [hs]
    exact Bool.false_ne_true
  have hget := getDescriptor_run descriptor s
  unfold cancel
  apply Decides.get_bind
  rw [if_neg hassociated]
  cases hfound : s.pending.get descriptor with
  | none =>
    rw [hfound] at hget
    exact ⟨nofun, fun _ => ⟨_, _, bind_error hget, trivial⟩⟩
  | some found =>
    rw [hfound] at hget
    have hdiscard : discardCorrelation found.correlation s =
      .ok () { s with net := s.net.step (.discard found.correlation) } := rfl
    have hfind := Pending.find_eq_some.2
      ⟨(Pending.mem_actives.1 (Pending.get_eq_some.1 hfound).1).1, (Pending.get_eq_some.1 hfound).2⟩
    have hq : s.pending.unreserve descriptor = some (s.pending.assign found.descriptor false id) := by
      unfold Pending.unreserve
      rw [hfind]
      rfl
    have hrun : (getDescriptor descriptor >>= fun found => discardCorrelation found.correlation >>= fun _ =>
        unreserve descriptor : Call.M Sender Unit) s = .ok () { s with
          net := s.net.step (.discard found.correlation)
          pending := s.pending.assign found.descriptor false id } := by
      rw [bind_ok hget, bind_ok hdiscard, unreserve_run]
      simp only [hq]
    exact ⟨fun _ => ⟨_, _, hrun, hs, fun d => Pending.actives_unreserve hq⟩, fun h => absurd rfl h⟩

omit [DecidableEq Sender] in
theorem decides_onContext {α : Type} {c : Prop} {x : Call.M Sender α} {s : State Sender}
    {Q : α → Context Sender → Prop} (h : Decides c x s.context Q fun _ _ => True) :
    Decides c (onContext x) s (fun a t => Unsaid s t ∧ Q a t.context) (fun _ _ => True) := by
  constructor
  · intro hc
    obtain ⟨a, context, hx, ht⟩ := h.returns hc
    exact ⟨a, { s with context }, by unfold onContext; rw [hx], ⟨rfl, rfl⟩, ht⟩
  · intro hc
    obtain ⟨e, context, hx, _⟩ := h.throws hc
    exact ⟨.call e, { s with context }, by unfold onContext; rw [hx], trivial⟩

theorem decides_cancel (descriptor : Nat) (s : State Sender) (hs : s.context.transactions = []) :
    Decides (Cancellable s.context.pending [descriptor]) (onContext (cancel descriptor)) s
      (fun _ t => Cancelled [descriptor] s t) (fun _ _ => True) := by
  refine ((decides_onContext (returns_cancel descriptor hs)).congr cancellable_singleton).mono ?_ fun _ _ _ h => h
  rintro _ t ⟨hunsaid, htransactions, hreleased⟩
  refine ⟨hunsaid, htransactions, fun d => ?_⟩
  rw [isSome_get, isSome_get, List.mem_singleton]
  constructor
  · rintro ⟨e, he, rfl⟩
    obtain ⟨he, hne⟩ := (hreleased e).1 he
    exact ⟨⟨e, he, rfl⟩, hne⟩
  · rintro ⟨⟨e, he, rfl⟩, hne⟩
    exact ⟨e, (hreleased e).2 ⟨he, hne⟩, rfl⟩

theorem decides_pendingCheck (t : Transaction) (s : State Sender) (hs : s.context.transactions = []) :
    Decides (Cancellable s.context.pending t.descriptors) (pendingCheck t) s
      (fun _ u => Cancelled t.descriptors s u) (fun _ _ => True) := by
  unfold pendingCheck
  by_cases hd : t.descriptors = []
  · rw [if_pos hd, hd]
    exact decides_forM (fun d s => decides_cancel d s) [] s hs
  · rw [if_neg hd]
    apply Decides.modify_bind
    have hnoted : ∀ s : State Sender, Unsaid s (if t.trid.isSome then noted TPESVCERR s else s) ∧
        (if t.trid.isSome then noted TPESVCERR s else s).context = s.context := by
      intro s
      split_ifs <;> exact ⟨⟨rfl, rfl⟩, rfl⟩
    obtain ⟨hunsaid, hcontext⟩ := hnoted s
    have hloop := decides_forM (fun d s => decides_cancel d s) t.descriptors
      (if t.trid.isSome then noted TPESVCERR s else s) (hcontext ▸ hs)
    rw [List.flatMap_singleton', hcontext] at hloop
    refine hloop.mono (fun _ u hu => ?_) fun _ _ _ h => h
    exact ⟨hunsaid.trans hu.toUnsaid, hu.transactions, fun d => hcontext ▸ hu.pending d⟩

/-! ## The transaction of the caller -/

omit [DecidableEq Sender] in
theorem decides_involved (trid : Transaction.ID) (resources : List Nat) (s : State Sender) :
    Decides (resources ≠ [] → env.fails .involved = false) (involved env trid resources) s
      (fun _ t => Unsaid s t) (fun _ _ => True) := by
  unfold involved
  by_cases hresources : resources = []
  · rw [if_pos hresources]
    exact (Decides.pure (.refl s)).congr (by simp [hresources])
  · rw [if_neg hresources]
    cases hfails : env.fails .involved with
    | false =>
      have hattempt : attempt env .involved s = .ok () s := by
        unfold attempt
        rw [hfails]
        rfl
      exact ⟨fun _ => ⟨_, _, bind_ok hattempt, rfl, rfl⟩, fun h => absurd (fun _ => rfl) h⟩
    | true =>
      have hattempt : attempt env .involved s = .error .other s := by
        unfold attempt
        rw [hfails]
        rfl
      exact ⟨fun h => absurd (h hresources) nofun, fun _ => ⟨_, _, bind_error hattempt, trivial⟩⟩

omit [DecidableEq Sender] in
/-- What is said of a transaction is said before the resources are told. -/
theorem decides_outcome (value : Int) {found : Transaction} (hfound : found.trid.isSome) (s : State Sender) :
    Decides (Told env found) (outcome env value found) s
      (fun _ t => t.caller = s.caller ∧
        t.reply.transaction.state = if value = TPSUCCESS then found.state else .rollback) (fun _ _ => True) := by
  obtain ⟨id, htrid⟩ := Option.isSome_iff_exists.1 hfound
  unfold outcome
  apply Decides.modify_bind
  rw [htrid]
  refine (decides_involved env id (env.fixed ++ found.resources) _).mono (fun _ t ht => ?_) fun _ _ _ h => h
  exact ⟨ht.caller, by rw [ht.outcome]⟩

theorem isSome_of_callers {caller : Option Transaction.ID} {t : Transaction} (h : caller.any t.is = true) :
    t.trid.isSome := by
  obtain ⟨id, _, his⟩ := (Option.any_eq_true t.is caller).1 h
  obtain ⟨trid, htrid, _⟩ := (Option.any_eq_true _ t.trid).1 his
  exact Option.isSome_iff_exists.2 ⟨trid, htrid⟩

theorem callers_checked (caller : Option Transaction.ID) :
    ((fun t : Transaction => caller.any t.is) ∘ checked) = fun t => caller.any t.is := by
  funext t
  unfold Transaction.is
  simp only [Function.comp_apply, trid_checked]

omit [DecidableEq Sender] in
theorem decides_answerCaller (value : Int) (others : List Transaction) (s : State Sender) :
    Decides (∀ found ∈ others.find? fun t => s.caller.any t.is, Told env found)
      (answerCaller env value (others.map checked)) s
      (fun _ t => t.caller = s.caller ∧ ∀ found ∈ others.find? fun t => s.caller.any t.is,
        t.reply.transaction.state = if value = TPSUCCESS then (checked found).state else .rollback)
      (fun _ _ => True) := by
  unfold answerCaller
  apply Decides.get_bind
  dsimp only
  rw [List.find?_map, callers_checked]
  cases hfound : others.find? fun t => s.caller.any t.is with
  | none => exact (Decides.pure ⟨rfl, nofun⟩).congr ⟨fun _ => trivial, fun _ => nofun⟩
  | some found =>
    have hsome : (checked found).trid.isSome := by
      rw [trid_checked]
      have his := List.find?_some (p := fun t : Transaction => s.caller.any t.is) hfound
      exact isSome_of_callers his
    refine ((decides_outcome env value hsome s).congr ?_).mono ?_ fun _ _ _ h => h
    · unfold Told
      simp
    · rintro _ t ⟨hcaller, hstate⟩
      refine ⟨hcaller, fun t ht => ?_⟩
      rw [Option.mem_some.1 ht] at hstate
      exact hstate

/-! ## All transactions -/

omit [DecidableEq Sender] in
/-- The state is changed first, which handles no transaction. -/
theorem decides_modify {α : Type} {c : Prop} {f : State Sender → State Sender} {x : Unit → L Sender α} {w : Ledger Sender}
    {Q : α → Ledger Sender → Prop} {E : Exception → Ledger Sender → Prop}
    (h : Decides c (x ()) { w with state := f w.state } Q E) : Decides c (aside (modify f) >>= x) w Q E :=
  ⟨h.returns, h.throws⟩

omit [DecidableEq Sender] in
theorem decides_records (handling : Handling) : ∀ (ts : List Transaction) (w : Ledger Sender)
    {E : Exception → Ledger Sender → Prop},
    Decides True (ts.forM fun t => record t handling) w
      (fun _ v => v.state = w.state ∧ v.handled = w.handled ++ ts.map fun t => (t.trid, handling)) E
  | [], w, _ => .pure ⟨rfl, (List.append_nil _).symm⟩
  | t :: ts, w, _ => by
    apply Decides.modify_bind
    refine (decides_records handling ts _).mono (fun _ v hv => ?_) fun _ _ _ h => h
    refine ⟨hv.1, ?_⟩
    rw [hv.2, List.append_assoc]
    rfl

omit [DecidableEq Sender] in
theorem owns_checked (t : Transaction) : owns env (checked t) = owns env t := by
  unfold owns
  rw [trid_checked]

/-- Those that the service owns, and those it does not. -/
def own (s : State Sender) : List Transaction := (actual s).filter (owns env)

/-- The transactions that are not owned. -/
def others (s : State Sender) : List Transaction := (actual s).filter (! owns env ·)

/-- The transaction that is taken for the caller's. -/
def callers (s : State Sender) : Option Transaction := (others env s).find? fun t => s.caller.any t.is

/-- What `finalize` does if nothing is thrown. -/
structure Completed (value : Int) (s : State Sender) (w : Ledger Sender) : Prop where
  handled : w.handled = (own env s).map (due value) ++ (callers env s).toList.map fun t => (t.trid, .reported)
  trid : w.state.reply.transaction.trid = s.caller
  state : ∀ found ∈ callers env s,
    w.state.reply.transaction.state = if value = TPSUCCESS then (checked found).state else .rollback

omit [DecidableEq Sender] in
theorem length_own_add (s : State Sender) : (own env s).length + (others env s).length = (actual s).length := by
  unfold own others
  exact (List.length_eq_length_filter_add (owns env)).symm

omit [DecidableEq Sender] in
/-- A call that is pending belongs to a transaction that is not null. -/
theorem cancellable_of_actual {s : State Sender} (h : actual s = []) (pending : Pending) :
    Cancellable pending (s.context.transactions.flatMap (·.descriptors)) := by
  have hnil : s.context.transactions.flatMap (·.descriptors) = [] := by
    rw [List.flatMap_eq_nil_iff]
    intro t ht
    have hnone := List.filter_eq_nil_iff.1 h t ht
    exact t.unassociated (Option.not_isSome_iff_eq_none.1 hnone)
  rw [hnil]
  exact ⟨List.nodup_nil, nofun⟩

/-- Unless something is thrown all are handled, and otherwise some are not. -/
theorem decides_finalize (value : Int) (s : State Sender) :
    Decides (Cancellable s.context.pending (s.context.transactions.flatMap (·.descriptors)) ∧
        Answered env value (own env s) 0 ∧ ∀ found ∈ callers env s, Told env found)
      (Ledger.finalize env value) ⟨s, []⟩ (fun _ w => Completed env value s w)
      (fun _ w => w.handled.length < (actual s).length) := by
  have hactual : (s.context.transactions.map checked).filter (·.trid.isSome) = (actual s).map checked := by
    unfold actual
    rw [List.filter_map]
    congr 2
    funext t
    exact congrArg Option.isSome (trid_checked t)
  have hown : ((actual s).map checked).filter (owns env) = (own env s).map checked := by
    unfold own
    rw [List.filter_map]
    congr 2
    funext t
    exact owns_checked env t
  have hothers : ((actual s).map checked).filter (! owns env ·) = (others env s).map checked := by
    unfold others
    rw [List.filter_map]
    congr 2
    funext t
    exact congrArg not (owns_checked env t)
  unfold Ledger.finalize
  apply Decides.get_bind
  dsimp only
  rw [hactual, hown, hothers]
  apply decides_modify
  apply decides_modify
  dsimp only
  -- what is noted says nothing of the caller's transaction
  generalize hnoted : (if value = TPESVCERR ∨ value = TPSUCCESS then
    { s with context := { s.context with transactions := [] } } else
    noted TPESVCFAIL { s with context := { s.context with transactions := [] } }) = noted
  have hstart : Unsaid s noted ∧ noted.context = { s.context with transactions := [] } := by
    rw [← hnoted]
    split_ifs <;> exact ⟨⟨rfl, rfl⟩, rfl⟩
  have htransactions : noted.context.transactions = [] := by rw [hstart.2]
  have hcheck := decides_forM (fun t s => decides_pendingCheck t s) s.context.transactions noted htransactions
  have hpending : noted.context.pending = s.context.pending := by rw [hstart.2]
  rw [hpending] at hcheck
  have hchecked := decides_aside (w := ⟨noted, []⟩) hcheck
  refine (hchecked.mono (fun _ _ h => h) fun h _ v hv => ?_).bind fun _ v hv => ?_
  · rw [hv.2]
    exact List.length_pos_of_ne_nil fun hnil => h (cancellable_of_actual hnil _)
  obtain ⟨hcancelled, hhandled⟩ := hv
  have howned := decides_completeOwned env value (own env s) 0 v fun t ht => by
    obtain ⟨ht, howns⟩ := List.mem_filter.1 ht
    exact ⟨(List.mem_filter.1 ht).2, howns⟩
  rw [hhandled] at howned
  refine (howned.mono (fun _ _ h => h) fun _ _ u hu => ?_).bind fun _ u hu => ?_
  · have := length_own_add env s
    simp only [List.length_nil] at hu
    omega
  obtain ⟨hunsaid, hhandled⟩ := hu
  have hcaller : u.state.caller = s.caller := hunsaid.caller.trans (hcancelled.caller.trans hstart.1.caller)
  have hanswer := decides_aside (decides_answerCaller env value (others env s) u.state)
  rw [hcaller] at hanswer
  have hcount : ∀ v : Ledger Sender, v.handled = u.handled → v.handled.length = (own env s).length := by
    intro v hv
    rw [hv, hhandled, List.nil_append, List.length_map]
  refine (hanswer.mono (fun _ _ h => h) fun h _ v hv => ?_).andThen fun _ v hv => ?_
  · -- there is one that is not owned
    rw [hcount v hv.2, ← length_own_add env s]
    have hne : others env s ≠ [] := by
      intro hnil
      rw [hnil] at h
      exact h nofun
    have := List.length_pos_of_ne_nil hne
    omega
  obtain ⟨⟨hcaller', hstate⟩, hsame⟩ := hv
  apply Decides.get_bind
  apply decides_modify
  rw [hcaller']
  refine (decides_records .reported _ _).mono (fun _ w hw => ?_) fun _ _ _ h => h
  have hfind : (((others env s).map checked).find? fun t => s.caller.any t.is) = (callers env s).map checked := by
    rw [List.find?_map, callers_checked]
    rfl
  constructor
  · rw [hw.2, hfind, hsame, hhandled, List.nil_append]
    cases callers env s with
    | none => rfl
    | some found => simp
  · rw [hw.1]
  · rw [hw.1]
    exact hstate

/-! ## What replies have told -/

/-- A transaction is found again with its state, or a more severe one. -/
def Worse (t u : Transaction) : Prop := u.trid = t.trid ∧ t.state.value ≤ u.state.value

theorem worse_discard (t : Transaction) (descriptor : Nat) : Worse t (t.discard descriptor) := ⟨rfl, le_rfl⟩

theorem exists_worse_modify {f : Transaction → Transaction} (hf : ∀ t, Worse t (f t)) (i : Nat) (ts : List Transaction) :
    ∀ t ∈ ts, ∃ u ∈ ts.modify i f, Worse t u := by
  intro t ht
  obtain ⟨j, hj, rfl⟩ := List.getElem_of_mem ht
  have hj' : j < (ts.modify i f).length := (List.length_modify f ts i).symm ▸ hj
  refine ⟨_, List.getElem_mem hj', ?_⟩
  rw [List.getElem_modify]
  split_ifs
  · exact hf _
  · exact ⟨rfl, le_rfl⟩

theorem mem_modify (f : Transaction → Transaction) {i : Nat} {ts : List Transaction} (hi : i < ts.length) :
    f ts[i] ∈ ts.modify i f := by
  have hi' : i < (ts.modify i f).length := (List.length_modify f ts i).symm ▸ hi
  have hmem := List.getElem_mem hi'
  rwa [List.getElem_modify_eq] at hmem

/-- `update` keeps each transaction, and the one that the reply is about is as severe as the reply. -/
theorem update_spec {outcome : Outcome} {descriptor : Nat} {ts us : List Transaction}
    (h : update outcome descriptor ts = some us) :
    (∀ t ∈ ts, ∃ u ∈ us, Worse t u) ∧
      ∀ id ∈ outcome.trid, ∃ u ∈ us, u.is id = true ∧ outcome.state.value ≤ u.state.value := by
  unfold update at h
  cases htrid : outcome.trid with
  | none =>
    rw [htrid] at h
    cases h
    exact ⟨fun t ht => ⟨_, List.mem_map_of_mem ht, worse_discard t descriptor⟩, nofun⟩
  | some id =>
    rw [htrid] at h
    obtain ⟨found, hfound, rfl⟩ := Option.map_eq_some_iff.1 h
    obtain ⟨hlt, his, _⟩ := List.findIdx?_eq_some_iff_getElem.1 hfound
    -- what is done with the one that is found
    have hworse : ∀ t : Transaction,
        Worse t ((if t.state.value < outcome.state.value then { t with state := outcome.state } else t).discard descriptor) ∧
          outcome.state.value ≤
            ((if t.state.value < outcome.state.value then { t with state := outcome.state } else t).discard descriptor).state.value := by
      intro t
      split_ifs with hstate
      · exact ⟨⟨rfl, hstate.le⟩, le_rfl⟩
      · exact ⟨⟨rfl, le_rfl⟩, not_lt.1 hstate⟩
    refine ⟨exists_worse_modify (fun t => (hworse t).1) found ts, fun id' hid => ?_⟩
    refine ⟨_, mem_modify _ hlt, ?_, (hworse ts[found]).2⟩
    rw [← Option.mem_some.1 hid]
    unfold Transaction.is at his ⊢
    rw [← (hworse ts[found]).1.1] at his
    exact his

/-- What has been told of a transaction stays with it. -/
theorem hear_spec : ∀ {replies : List (Outcome × Nat)} {ts us : List Transaction}, hear replies ts = some us →
    (∀ t ∈ ts, ∃ u ∈ us, Worse t u) ∧
      ∀ reply ∈ replies, ∀ id ∈ reply.1.trid, ∃ u ∈ us, u.is id = true ∧ reply.1.state.value ≤ u.state.value
  | [], ts, us, h => by
    cases h
    exact ⟨fun t ht => ⟨t, ht, rfl, le_rfl⟩, nofun⟩
  | reply :: replies, ts, us, h => by
    unfold hear at h
    rw [List.foldlM_cons] at h
    obtain ⟨ts', hupdate, hrest⟩ := Option.bind_eq_some_iff.1 h
    obtain ⟨hkept, htold⟩ := update_spec hupdate
    obtain ⟨hkept', htold'⟩ := hear_spec hrest
    constructor
    · intro t ht
      obtain ⟨u, hu, htrid, hstate⟩ := hkept t ht
      obtain ⟨v, hv, htrid', hstate'⟩ := hkept' u hu
      exact ⟨v, hv, htrid'.trans htrid, hstate.trans hstate'⟩
    · intro r hr id hid
      rcases List.mem_cons.1 hr with rfl | hr
      · obtain ⟨u, hu, his, hstate⟩ := htold id hid
        obtain ⟨v, hv, htrid, hstate'⟩ := hkept' u hu
        refine ⟨v, hv, ?_, hstate.trans hstate'⟩
        unfold Transaction.is at his ⊢
        rw [htrid]
        exact his
      · exact htold' r hr id hid

/-! ## Exactly when it is right -/

section

variable {env} {value : Int} {s : State Sender} {w : Ledger Sender}

omit [DecidableEq Sender] in
theorem others_eq_of_length (h : (others env s).length = (callers env s).toList.length) :
    others env s = (callers env s).toList := by
  cases hfound : callers env s with
  | none =>
    rw [hfound] at h
    exact List.length_eq_zero_iff.1 h
  | some found =>
    rw [hfound] at h
    obtain ⟨t, ht⟩ := List.length_eq_one_iff.1 h
    have hmem := List.mem_of_find?_eq_some hfound
    rw [ht] at hmem ⊢
    rw [List.mem_singleton.1 hmem]
    rfl

omit [DecidableEq Sender] in
theorem others_eq (h : (others env s).length ≤ 1) (hcallers : ∀ t ∈ others env s, s.caller.any t.is = true) :
    others env s = (callers env s).toList := by
  apply others_eq_of_length
  unfold callers
  rcases hothers : others env s with _ | ⟨t, ts⟩
  · rfl
  · rw [hothers] at h hcallers
    rw [List.find?_cons_of_pos (p := fun t : Transaction => s.caller.any t.is) (hcallers t List.mem_cons_self)]
    simp only [List.length_cons, Option.toList_some, List.length_nil] at h ⊢
    omega

omit [DecidableEq Sender] in
theorem Ends.others_eq (h : Ends env value s) : others env s = (callers env s).toList := by
  apply Server.others_eq h.single
  intro t ht
  obtain ⟨ht, howns⟩ := List.mem_filter.1 ht
  exact h.expected t ht (Bool.not_eq_true' _ ▸ howns)

omit [DecidableEq Sender] in
/-- The transaction of the caller is the one that is not owned. -/
theorem mem_callers (hforeign : ∀ t ∈ actual s, owns env t → s.caller.any t.is = false)
    (hothers : others env s = (callers env s).toList) {t : Transaction} (ht : t ∈ actual s)
    (hcaller : s.caller.any t.is = true) : t ∈ callers env s := by
  have howns : owns env t = false := by
    by_contra howns
    rw [hforeign t ht (Bool.not_eq_false _ ▸ howns)] at hcaller
    cases hcaller
  have hmem : t ∈ others env s := List.mem_filter.2 ⟨ht, by rw [howns]; rfl⟩
  rw [hothers] at hmem
  exact Option.mem_toList.1 hmem

omit [DecidableEq Sender] in
theorem filter_due (l : List Transaction) (found : Option Transaction) :
    (l.map (due value) ++ found.toList.map fun t => (t.trid, Handling.reported)).filter (·.2 ≠ .reported) =
      l.map (due value) := by
  rw [List.filter_append, List.filter_eq_self.2, List.filter_eq_nil_iff.2, List.append_nil]
  · intro x hx
    obtain ⟨t, _, rfl⟩ := List.mem_map.1 hx
    simp
  · intro x hx
    obtain ⟨t, _, rfl⟩ := List.mem_map.1 hx
    unfold due
    split_ifs <;> rfl

omit [DecidableEq Sender] in
theorem Completed.finalized (hw : Completed env value s w) (h : Ends env value s) : Finalized env value s w := by
  have hothers := h.others_eq
  have hmem : ∀ t ∈ s.context.transactions, s.caller.any t.is = true → t ∈ callers env s := fun t ht hcaller =>
    mem_callers h.foreign hothers (List.mem_filter.2 ⟨ht, isSome_of_callers hcaller⟩) hcaller
  have hsevere : ∀ t ∈ s.context.transactions, s.caller.any t.is = true →
      t.state.value ≤ w.state.reply.transaction.state.value ∧
      (value ≠ TPSUCCESS ∨ t.descriptors ≠ [] → w.state.reply.transaction.state = .rollback) := by
    intro t ht hcaller
    rw [hw.state t (hmem t ht hcaller), state_checked (isSome_of_callers hcaller)]
    have hle : ∀ state : Transaction.State, state.value ≤ Transaction.State.rollback.value := by
      intro state
      cases state <;> decide
    split_ifs with hvalue hdescriptors
    · exact ⟨le_rfl, fun h => h.elim (absurd hvalue) (absurd hdescriptors)⟩
    · exact ⟨hle _, fun _ => rfl⟩
    · exact ⟨hle _, fun _ => rfl⟩
  refine ⟨?_, ?_, ?_, hsevere, ?_⟩
  · rw [hw.handled, ← hothers, List.map_append, List.map_map, List.map_map]
    have hperm := List.filter_append_perm (owns env) (actual s)
    exact (List.map_append (f := fun t : Transaction => t.trid)) ▸ hperm.map _
  · have hown : ((actual s).filter fun t => owns env t && !s.caller.any t.is) = own env s := by
      apply List.filter_congr
      intro t ht
      cases howns : owns env t with
      | false => rfl
      | true => rw [h.foreign t ht howns]; rfl
    rw [hw.handled, filter_due, hown]
  · intro t ht hcaller
    refine ⟨?_, hw.trid⟩
    rw [hw.handled]
    exact List.mem_append_right _ (List.mem_map.2 ⟨t, Option.mem_toList.2 (hmem t ht hcaller), rfl⟩)
  · rintro before replies hhear reply hreply ⟨id, hid, caller, hcaller, hxid⟩
    obtain ⟨t, ht, his, hstate⟩ := (hear_spec hhear).2 reply hreply id hid
    refine hstate.trans (hsevere t ht ?_).1
    rw [hcaller, Option.any_some]
    unfold Transaction.is at his ⊢
    rwa [hxid] at his

omit [DecidableEq Sender] in
theorem Completed.ends (hw : Completed env value s w) (h : Finalized env value s w)
    (hcancellable : Cancellable s.context.pending (s.context.transactions.flatMap (·.descriptors)))
    (hanswered : Answered env value (own env s) 0) (htold : ∀ found ∈ callers env s, Told env found) :
    Ends env value s := by
  have hothers : others env s = (callers env s).toList := by
    apply others_eq_of_length
    have hlength := h.once.length_eq
    have hadd := length_own_add env s
    rw [hw.handled] at hlength
    simp only [List.length_map, List.length_append] at hlength
    omega
  have hforeign : ∀ t ∈ actual s, owns env t → s.caller.any t.is = false := by
    have hlength := h.ended.length_eq
    rw [hw.handled, filter_due, List.length_map, List.length_map] at hlength
    have hsplit : ((actual s).filter fun t => owns env t && !s.caller.any t.is) =
        (own env s).filter fun t => !s.caller.any t.is := by
      unfold own
      rw [List.filter_filter]
      simp only [Bool.and_comm]
    rw [hsplit] at hlength
    intro t ht howns
    have hall := List.length_filter_eq_length_iff.1 hlength.symm t (List.mem_filter.2 ⟨ht, howns⟩)
    exact Bool.not_eq_true' _ ▸ hall
  refine ⟨hcancellable, hanswered, hforeign, ?_, ?_, ?_⟩
  · change (others env s).length ≤ 1
    rw [hothers]
    cases callers env s <;> simp
  · intro t ht howns
    have hmem : t ∈ others env s := List.mem_filter.2 ⟨ht, by rw [howns]; rfl⟩
    rw [hothers] at hmem
    exact List.find?_some (p := fun t : Transaction => s.caller.any t.is) (Option.mem_toList.1 hmem)
  · intro t ht hcaller
    exact htold t (mem_callers hforeign hothers ht hcaller)

end

/-- `finalize`, seen without the record, does what is right exactly if the transactions can be ended. -/
theorem finalized_iff (value : Int) (s : State Sender) :
    (after (Ledger.finalize env value ⟨s, []⟩)).state = after (finalize env value s) ∧
      (Finalized env value s (after (Ledger.finalize env value ⟨s, []⟩)) ↔ Ends env value s) := by
  refine ⟨(projects_finalize env value).after_guard ⟨s, []⟩, ?_⟩
  have hdecides := decides_finalize env value s
  constructor
  · intro h
    by_cases hc : Cancellable s.context.pending (s.context.transactions.flatMap (·.descriptors)) ∧
        Answered env value (own env s) 0 ∧ ∀ found ∈ callers env s, Told env found
    · obtain ⟨_, w, hw, hcompleted⟩ := hdecides.returns hc
      rw [hw] at h
      exact hcompleted.ends h hc.1 hc.2.1 hc.2.2
    · obtain ⟨_, w, hw, hlength⟩ := hdecides.throws hc
      rw [hw] at h
      have := h.once.length_eq
      simp only [List.length_map, after_error] at this
      omega
  · intro h
    have htold : ∀ found ∈ callers env s, Told env found := by
      intro found hfound
      have hmem := List.mem_of_find?_eq_some hfound
      exact h.told found (List.mem_filter.1 hmem).1
        (List.find?_some (p := fun t : Transaction => s.caller.any t.is) hfound)
    obtain ⟨_, w, hw, hcompleted⟩ := hdecides.returns ⟨h.cancellable, h.answered, htold⟩
    rw [hw]
    exact hcompleted.finalized h

/-! ## A TM that does not answer -/

/-- A transaction that a process owns. -/
def started (n : UInt8) (owner : Process) : Transaction.ID := ⟨⟨0, [n], [], by simp⟩, owner⟩

/-- The first rollback is interrupted, others are answered. -/
def interrupted : Surroundings Unit where
  process := ⟨1, 2⟩
  all := []
  fixed := []
  logged := false
  services _ := none
  user _ context := (.returned, context)
  created := started 0 ⟨1, 2⟩
  owned := rfl
  call := ⟨fun _ => 0, fun _ => false, fun _ => ⟨⟨"", []⟩, ⟨0, 0⟩, .absent⟩, fun _ => ⟨0, 0, 0, 0, ⟨"", []⟩, ⟨none, .active⟩⟩⟩
  lookupCorrelation := 0
  fails _ := false
  resource _ := 0
  commit _ _ := none
  committed _ := none
  rollback i _ := if i = 0 then none else some 0

/-- A service is left with two transactions of its own, on top of the one of its caller. -/
def left : State Unit where
  context :=
    { net := ⟨fun _ => [], ⟨[], [], []⟩, [], [], [], []⟩
      pending := .initial
      userCode := 0
      transactions := [.make (some (started 3 ⟨8, 9⟩)), .make (some (started 1 ⟨1, 2⟩)), .make (some (started 2 ⟨1, 2⟩))]
      lookup := none
      sent := []
      steps := 0 }
  caller := some (started 3 ⟨8, 9⟩)
  reply := ⟨1, 1, 0, 0, ⟨"", []⟩, ⟨none, .active⟩⟩
  armed := []
  sent := []
  results := []
  completed := false

/-- No transaction is ended then, and nothing is said of the caller's. -/
theorem interrupted_skips : (after (Ledger.finalize interrupted TPFAIL ⟨left, []⟩)).handled = [] ∧
    (after (finalize interrupted TPFAIL left)).reply.transaction = ⟨none, .active⟩ ∧
    ¬ Finalized interrupted TPFAIL left (after (Ledger.finalize interrupted TPFAIL ⟨left, []⟩)) := by
  have hhandled : (after (Ledger.finalize interrupted TPFAIL ⟨left, []⟩)).handled = [] := by decide +kernel
  refine ⟨hhandled, by decide +kernel, fun h => ?_⟩
  have hlength := h.once.length_eq
  rw [hhandled] at hlength
  exact absurd hlength (by decide)

end Casual.Server

/-
How many transactions are on the stack of a process: what each function adds and takes away, and what a
transaction that is begun and ended leaves behind.
-/
import Casual.Tx.Stack

namespace Casual.Tx

open Lib Common Communication Call Server

/-- How many transactions are on the stack. -/
def Context.depth (s : Context) : Nat := s.transactions.length

/-- `tx_commit` and `tx_rollback`. -/
def Event.ends : Event → Bool
  | .commit _ _ => true
  | .rollback _ _ => true
  | _ => false

/-- What neither begins, ends, suspends nor resumes a transaction, nor sets the mode. -/
def Event.neutral : Event → Bool
  | .commitReturn _ => true
  | .register _ => true
  | .unregister _ => true
  | .associate _ => true
  | .update _ _ => true
  | _ => false

/-- The event, which succeeds unless it is neutral. -/
def Passes (e : Event) (s t : Context) : Prop := if e.neutral then t = after (call e s) else call e s = .ok TX_OK t

/-- The events, one after the other. -/
def Follows : List Event → Context → Context → Prop
  | [], s, t => t = s
  | e :: es, s, t => ∃ u, Passes e s u ∧ Follows es u t

/-- What a program does with its transactions, each of them ended where it was begun and resumed where it was
suspended. -/
inductive Work : List Event → Prop
  | nil : Work []
  | append {es es' : List Event} : Work es → Work es' → Work (es ++ es')
  | neutral {e : Event} : e.neutral → Work [e]
  | pair {created : Transaction.XID} {es : List Event} {e : Event} : Work es → e.ends → Work (.begin created :: (es ++ [e]))
  | suspended {xid : Option (Option Transaction.XID)} {es : List Event} : Work es →
      Work (.suspend true :: (es ++ [.resume xid]))

/-! ## One event -/

variable {s t u : Context} {e : Event}

theorem Passes.of_ends (h : Passes e s t) (he : e.ends) : call e s = .ok TX_OK t := by
  have hneutral : e.neutral = false := by
    cases e with
    | commit a created => rfl
    | rollback a created => rfl
    | _ => cases he
  unfold Passes at h
  rwa [hneutral, if_neg Bool.false_ne_true] at h

theorem depth_push (s : Context) (transaction : Transaction) : (s.push transaction).depth = s.depth + 1 := by
  unfold Context.depth Context.push
  rw [List.length_append, List.length_singleton]

theorem depth_pop (h : s.transactions ≠ []) : s.pop.depth + 1 = s.depth := by
  unfold Context.depth Context.pop
  rw [List.length_dropLast]
  have := List.length_pos_of_ne_nil h
  omega

theorem started_depth (created : Transaction.XID) (s : Context) : (started created s).depth = s.depth + 1 := by
  unfold started
  rw [depth_push]
  unfold Context.depth
  rw [resourcesStart_transactions]

theorem started_control (created : Transaction.XID) (s : Context) : (started created s).control = s.control := by
  unfold started Context.push Context.resourcesStart
  cases (startTransaction created s).trid <;> rfl

/-- `begin` pushes, whatever is current. -/
theorem begin_depth {created : Transaction.XID} {result : Int} (h : begin created s = .ok result t) :
    t.depth = s.depth + 1 ∧ t.control = s.control := by
  unfold begin at h
  simp only at h
  split_ifs at h
  · cases h
    rw [started_depth, started_control, resourcesEnd_control]
    unfold Context.depth
    rw [resourcesEnd_transactions]
    exact ⟨rfl, rfl⟩
  · cases h
    exact ⟨started_depth created s, started_control created s⟩

/-- What the end of a transaction adds to the stack, and what it takes away. -/
theorem popTransaction_depth {created : Transaction.XID} {result : Int} (h : popTransaction created s = .ok result t) :
    t.control = s.control ∧
      (s.control = .unchained → t.depth = s.depth) ∧
      (s.control = .chained → t.depth = s.depth + 1) ∧
      (s.control = .stacked → t.depth + 1 = s.depth) := by
  unfold popTransaction at h
  cases hlast : s.transactions.getLast? with
  | none =>
    simp only [hlast] at h
    cases h
  | some top =>
    have hne : s.transactions ≠ [] := by
      intro hnil
      rw [hnil] at hlast
      cases hlast
    have hpush : (s.pop.push (.make none)).depth = s.depth := by rw [depth_push, depth_pop hne]
    simp only [hlast] at h
    cases hcontrol : s.control with
    | unchained =>
      simp only [hcontrol] at h
      cases h
      exact ⟨hcontrol, fun _ => hpush, Control.noConfusion, Control.noConfusion⟩
    | chained =>
      simp only [hcontrol] at h
      obtain ⟨hdepth, hsame⟩ := begin_depth h
      exact ⟨hsame.trans hcontrol, Control.noConfusion, fun _ => hdepth.trans (congrArg (· + 1) hpush), Control.noConfusion⟩
    | stacked =>
      simp only [hcontrol] at h
      cases hbelow : s.pop.transactions.getLast? with
      | none =>
        simp only [hbelow] at h
        cases h
      | some previous =>
        simp only [hbelow] at h
        cases h
        refine ⟨(resourcesEnd_control _ _ _).trans hcontrol, Control.noConfusion, Control.noConfusion, fun _ => ?_⟩
        have hsame : (s.pop.resourcesEnd previous .TMRESUME).depth = s.pop.depth := by
          unfold Context.depth
          rw [resourcesEnd_transactions]
        rw [hsame, depth_pop hne]

theorem completed_depth {answer : Except Exception Int} {created : Transaction.XID} {transaction : Transaction}
    (h : completed answer created (s.resourcesEnd transaction .TMSUCCESS) = .ok TX_OK t) :
    popTransaction created (s.resourcesEnd transaction .TMSUCCESS) = .ok TX_OK t := by
  unfold completed at h
  cases answer with
  | error e => cases h
  | ok result =>
    simp only at h
    split_ifs at h with hresult
    · exact h
    · cases h
      exact absurd rfl hresult

theorem completes_pop {created : Transaction.XID} (hcompletes : Completes s e created) (h : call e s = .ok TX_OK t) :
    popTransaction created (s.resourcesEnd s.current .TMSUCCESS) = .ok TX_OK t := by
  cases hcompletes with
  | refused hcall hne hcompletion =>
    rw [hcall] at h
    cases h
  | ended htrid hanswer hcall hcompletion =>
    rw [hcall] at h
    exact completed_depth h

/-- What a successful end comes to. -/
theorem ends_pop (he : e.ends) (h : call e s = .ok TX_OK t) :
    ∃ created, popTransaction created (s.resourcesEnd s.current .TMSUCCESS) = .ok TX_OK t := by
  cases e with
  | commit a created => exact ⟨created, completes_pop (commit_completes a created s) h⟩
  | rollback a created => exact ⟨created, completes_pop (rollback_completes a created s) h⟩
  | _ => cases he

theorem ends_depth (he : e.ends) (h : call e s = .ok TX_OK t) :
    t.control = s.control ∧
      (s.control = .unchained → t.depth = s.depth) ∧
      (s.control = .chained → t.depth = s.depth + 1) ∧
      (s.control = .stacked → t.depth + 1 = s.depth) := by
  obtain ⟨created, hpop⟩ := ends_pop he h
  have hdepth := popTransaction_depth hpop
  rw [resourcesEnd_control] at hdepth
  have hsame : (s.resourcesEnd s.current .TMSUCCESS).depth = s.depth := by
    unfold Context.depth
    rw [resourcesEnd_transactions]
  rwa [hsame] at hdepth

theorem suspend_depth {xid : Bool} (h : suspend xid s = .ok TX_OK t) : t.depth = s.depth + 1 ∧ t.control = s.control := by
  unfold suspend at h
  simp only at h
  split_ifs at h
  cases h
  rw [depth_push]
  unfold Context.depth Context.push
  rw [resourcesEnd_transactions]
  exact ⟨rfl, resourcesEnd_control _ _ _⟩

/-- The transaction that is resumed lies below the one that is popped. -/
theorem resume_depth {xid : Option (Option Transaction.XID)} (h : resume xid s = .ok TX_OK t) :
    t.depth + 1 = s.depth ∧ t.control = s.control := by
  unfold resume at h
  cases xid with
  | none => cases h
  | some xid =>
    cases xid with
    | none => cases h
    | some xid =>
      simp only at h
      split_ifs at h with htrid
      cases hfound : s.transactions.find? fun t : Transaction => t.trid.any fun id => id.xid == xid with
      | none =>
        simp only [hfound] at h
        cases h
      | some found =>
        simp only [hfound] at h
        cases h
        have his := List.find?_some hfound
        have hne : s.transactions ≠ [] := List.ne_nil_of_mem (List.mem_of_find?_eq_some hfound)
        -- the one at the end is not the one that is found
        have hmem : found ∈ s.pop.transactions := by
          have hlast : s.transactions = s.transactions.dropLast ++ [s.transactions.getLast hne] :=
            (List.dropLast_append_getLast hne).symm
          have hfound := List.mem_of_find?_eq_some hfound
          rw [hlast] at hfound
          rcases List.mem_append.1 hfound with hmem | hmem
          · exact hmem
          · obtain rfl := List.mem_singleton.1 hmem
            have hcurrent : s.current = s.transactions.getLast hne := current_of_last (List.getLast?_eq_some_getLast hne)
            rw [← hcurrent] at his
            rw [Option.any_eq_true] at his
            obtain ⟨id, hid, -⟩ := his
            rw [hid] at htrid
            exact absurd rfl htrid
        have hpop : ((s.resourcesStart found .TMRESUME).pop).transactions = s.pop.transactions := by
          unfold Context.pop
          rw [resourcesStart_transactions]
        have herase := @List.length_eraseP_of_mem _ _ _ (fun t : Transaction => t.trid.any fun id => id.xid == xid) hmem his
        have hpos := List.length_pos_of_mem hmem
        have hdepth := depth_pop hne
        rw [depth_push]
        refine ⟨?_, ?_⟩
        · unfold Context.depth at hdepth ⊢
          show ((s.resourcesStart found .TMRESUME).pop.transactions.eraseP _).length + 1 + 1 = _
          rw [hpop, herase]
          omega
        · unfold Context.push Context.pop Context.resourcesStart
          cases found.trid <;> rfl

theorem setCurrent_depth (s : Context) (transaction : Transaction) :
    (s.setCurrent transaction).depth = s.depth ∧ (s.setCurrent transaction).control = s.control := by
  unfold Context.setCurrent
  cases hlast : s.transactions.getLast? with
  | none => exact ⟨rfl, rfl⟩
  | some top =>
    have hne : s.transactions ≠ [] := by
      intro hnil
      rw [hnil] at hlast
      cases hlast
    exact ⟨(depth_push _ _).trans (depth_pop hne), rfl⟩

theorem neutral_depth (he : e.neutral) (s : Context) :
    (after (call e s)).depth = s.depth ∧ (after (call e s)).control = s.control := by
  cases e with
  | commitReturn value => exact ⟨rfl, rfl⟩
  | register rmid =>
    show (after (resourceRegistration rmid s)).depth = _ ∧ (after (resourceRegistration rmid s)).control = _
    unfold resourceRegistration
    split_ifs
    · exact ⟨rfl, rfl⟩
    · exact setCurrent_depth s _
    · exact ⟨rfl, rfl⟩
  | unregister rmid =>
    show (after (resourceUnregistration rmid s)).depth = _ ∧ (after (resourceUnregistration rmid s)).control = _
    unfold resourceUnregistration
    split_ifs
    · exact setCurrent_depth s _
    · exact ⟨rfl, rfl⟩
  | associate descriptor =>
    by_cases hnone : s.current.trid = none
    · have hcall : call (.associate descriptor) s = .ok TX_OK s := dif_pos hnone
      rw [hcall]
      exact ⟨rfl, rfl⟩
    · have hcall : call (.associate descriptor) s = .ok TX_OK (s.setCurrent (s.current.associate hnone descriptor)) :=
        dif_neg hnone
      rw [hcall]
      exact setCurrent_depth s _
  | update outcome descriptor =>
    cases hupdate : Call.update outcome descriptor s.transactions with
    | none =>
      have hcall : call (.update outcome descriptor) s = .error .other s := by simp only [call, hupdate]
      rw [hcall]
      exact ⟨rfl, rfl⟩
    | some updated =>
      have hcall : call (.update outcome descriptor) s = .ok TX_OK { s with transactions := updated } := by
        simp only [call, hupdate]
      rw [hcall]
      refine ⟨?_, rfl⟩
      have hlength := congrArg List.length (Watched.Kept.update_trids hupdate)
      rw [List.length_map, List.length_map] at hlength
      exact hlength
  | _ => cases he

/-! ## Runs -/

theorem Follows.append : ∀ {es es' : List Event} {s t : Context}, Follows (es ++ es') s t →
    ∃ u, Follows es s u ∧ Follows es' u t
  | [], _, _, _, h => ⟨_, rfl, h⟩
  | _ :: _, _, _, _, ⟨v, hv, h⟩ => by
    obtain ⟨u, hes, hes'⟩ := Follows.append h
    exact ⟨u, ⟨v, hv, hes⟩, hes'⟩

theorem Follows.snoc : ∀ {es : List Event} {e : Event} {s u t : Context}, Follows es s u → Passes e u t →
    Follows (es ++ [e]) s t
  | [], _, _, _, t, h, he => ⟨t, h ▸ he, rfl⟩
  | _ :: _, _, _, _, _, ⟨v, hv, h⟩, he => ⟨v, hv, Follows.snoc h he⟩

theorem Follows.single (h : Follows [e] s t) : Passes e s t := by
  obtain ⟨u, hu, rfl⟩ := h
  exact hu

/-- What is left behind by each of the transactions: in stacked mode nothing, in unchained mode one. -/
structure Leaves (es : List Event) (s t : Context) : Prop where
  control : t.control = s.control
  stacked : s.control = .stacked → t.depth = s.depth
  unchained : s.control = .unchained → t.depth = s.depth + es.countP Event.ends

theorem pair_leaves {created : Transaction.XID} {es : List Event} (he : e.ends)
    (ih : ∀ {s t : Context}, Follows es s t → Leaves es s t) (h : Follows (.begin created :: (es ++ [e])) s t) :
    Leaves (.begin created :: (es ++ [e])) s t := by
  obtain ⟨v, hbegin, h⟩ := h
  obtain ⟨u, hes, hend⟩ := Follows.append h
  obtain ⟨hv, hvc⟩ := begin_depth (show begin created s = .ok TX_OK v from hbegin)
  have hcall : call e u = .ok TX_OK t := hend.single.of_ends he
  obtain ⟨htc, hunchained, -, hstacked⟩ := ends_depth he hcall
  have hbody := ih hes
  have hu : u.control = s.control := hbody.control.trans hvc
  refine ⟨htc.trans hu, fun hs => ?_, fun hs => ?_⟩
  · have h₁ := hbody.stacked (hvc.trans hs)
    have h₂ := hstacked (hu.trans hs)
    omega
  · have h₁ := hbody.unchained (hvc.trans hs)
    have h₂ := hunchained (hu.trans hs)
    rw [List.countP_cons_of_neg (by exact Bool.false_ne_true), List.countP_append, List.countP_singleton, if_pos he]
    omega

theorem suspended_leaves {xid : Option (Option Transaction.XID)} {es : List Event}
    (ih : ∀ {s t : Context}, Follows es s t → Leaves es s t) (h : Follows (.suspend true :: (es ++ [.resume xid])) s t) :
    Leaves (.suspend true :: (es ++ [.resume xid])) s t := by
  obtain ⟨v, hsuspend, h⟩ := h
  obtain ⟨u, hes, hresume⟩ := Follows.append h
  obtain ⟨hv, hvc⟩ := suspend_depth (show suspend true s = .ok TX_OK v from hsuspend)
  obtain ⟨ht, htc⟩ := resume_depth (show resume xid u = .ok TX_OK t from hresume.single)
  have hbody := ih hes
  refine ⟨htc.trans (hbody.control.trans hvc), fun hs => ?_, fun hs => ?_⟩
  · have h₁ := hbody.stacked (hvc.trans hs)
    omega
  · have h₁ := hbody.unchained (hvc.trans hs)
    rw [List.countP_cons_of_neg (by exact Bool.false_ne_true), List.countP_append,
      List.countP_cons_of_neg (by exact Bool.false_ne_true), List.countP_nil]
    omega

theorem Work.leaves {es : List Event} (hw : Work es) : ∀ {s t : Context}, Follows es s t → Leaves es s t := by
  induction hw with
  | nil =>
    rintro s t rfl
    exact ⟨rfl, fun _ => rfl, fun _ => rfl⟩
  | append _ _ ih ih' =>
    intro s t h
    obtain ⟨u, hes, hes'⟩ := Follows.append h
    have h₁ := ih hes
    have h₂ := ih' hes'
    refine ⟨h₂.control.trans h₁.control, fun hs => ?_, fun hs => ?_⟩
    · exact (h₂.stacked (h₁.control.trans hs)).trans (h₁.stacked hs)
    · have h₃ := h₁.unchained hs
      have h₄ := h₂.unchained (h₁.control.trans hs)
      rw [List.countP_append]
      omega
  | @neutral e he =>
    intro s t h
    have hpasses := h.single
    unfold Passes at hpasses
    rw [if_pos he] at hpasses
    subst hpasses
    obtain ⟨hdepth, hcontrol⟩ := neutral_depth he s
    have hends : e.ends = false := by
      cases e with
      | commit a created => cases he
      | rollback a created => cases he
      | _ => rfl
    refine ⟨hcontrol, fun _ => hdepth, fun _ => ?_⟩
    rw [hdepth, List.countP_singleton, if_neg (by rw [hends]; exact Bool.false_ne_true), Nat.add_zero]
  | pair _ he ih => exact pair_leaves he ih
  | suspended _ ih => exact suspended_leaves ih

/-! ## A transaction that is begun and ended -/

/-- From `s` on a transaction is worked on up to `u`; in chained mode it is the one that is current. -/
def Since (created : Transaction.XID) (es : List Event) (s u : Context) : Prop :=
  if s.control = .chained then u = s else Follows (.begin created :: es) s u

/-- The stack is as deep as before exactly in stacked mode: otherwise what is ended leaves an entry. -/
theorem depth_iff {created : Transaction.XID} {es : List Event} (hw : Work es) (he : e.ends) (hs : Since created es s u)
    (ht : Passes e u t) : t.depth = s.depth ↔ s.control = .stacked := by
  have hcall : call e u = .ok TX_OK t := ht.of_ends he
  unfold Since at hs
  split_ifs at hs with hchained
  · subst hs
    obtain ⟨-, -, hdepth, -⟩ := ends_depth he hcall
    rw [hdepth hchained, hchained]
    exact ⟨fun h => by omega, Control.noConfusion⟩
  · have hall : Follows (.begin created :: (es ++ [e])) s t := Follows.snoc hs ht
    have hleaves := (Work.pair hw he).leaves hall
    constructor
    · intro hdepth
      cases hcontrol : s.control with
      | stacked => rfl
      | chained => exact absurd hcontrol hchained
      | unchained =>
        have hmore := hleaves.unchained hcontrol
        rw [List.countP_cons_of_neg (by exact Bool.false_ne_true), List.countP_append, List.countP_singleton, if_pos he] at hmore
        omega
    · exact hleaves.stacked

/-- A process without resources, in a mode and with no transaction in its stack. -/
def idle (control : Control) : Context := { fresh ⟨1, 1⟩ [] [] with control := control, transactions := [.make none] }

/-- A transaction that is begun and committed. -/
def within : List Event := [.begin (Watched.xid 2), .commit Watched.yes (Watched.xid 0)]

/-- In stacked mode it lies within another one. -/
theorem stacked_depth : (after (call (.commit Watched.yes (Watched.xid 0))
    (within.foldl (fun s e => after (call e s)) (after (call (.begin (Watched.xid 1)) (idle .stacked)))))).depth =
      (idle .stacked).depth ↔ (idle .stacked).control = .stacked :=
  @depth_iff (idle .stacked) _ _ (.commit Watched.yes (Watched.xid 0)) (Watched.xid 1) within
    (@Work.pair (Watched.xid 2) [] (.commit Watched.yes (Watched.xid 0)) .nil rfl) rfl ⟨_, rfl, _, rfl, _, rfl, rfl⟩ rfl

/-- In unchained mode each transaction that is begun and committed leaves one more on the stack. -/
theorem unchained_grows : ∃ t u : Context,
    Follows [.begin (Watched.xid 1), .commit Watched.yes (Watched.xid 0)] (fresh ⟨1, 1⟩ [] []) t ∧
    Follows within t u ∧
    (fresh ⟨1, 1⟩ [] []).depth = 0 ∧ t.depth = 1 ∧ u.depth = 2 :=
  ⟨_, _, ⟨_, rfl, _, rfl, rfl⟩, ⟨_, rfl, _, rfl, rfl⟩, rfl, rfl, rfl⟩

end Casual.Tx

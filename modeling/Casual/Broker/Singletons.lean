/-
What lookups of processes, connects and deaths do to the identities and to those who wait for one.
-/
import Casual.Broker.Sought

namespace Casual.Broker

open Casual.Common Casual.Communication Casual.Lib State

/-! ## Lookups -/

namespace State

/-- The answer to a lookup. -/
def answerTo (l : ProcessLookup) (process : Process) : Nat × Reply :=
  (l.process.queue, .process l.correlation l.identification process)

/-- The answers to those of some lookups that do not wait. -/
def told (singletons : List (Uuid × Process)) (ls : List ProcessLookup) : List (Nat × Reply) :=
  ls.filterMap fun l => (response singletons l).map (answerTo l)

/-- Lookups that are handled one after the other: some are answered, the others wait. -/
structure Served (ls : List ProcessLookup) (s t : State) : Prop where
  singletons : t.singletons = s.singletons
  running : t.running = s.running
  processLookup : t.processLookup = s.processLookup ++ ls.filter fun l => (response s.singletons l).isNone
  answers : (t.outgoing.filter isAnswer).Perm (told s.singletons ls ++ s.outgoing.filter isAnswer)
  readings : t.readings = s.readings + Sought.reached s.singletons ls

theorem Served.nil (s : State) : Served [] s s := ⟨rfl, rfl, (List.append_nil _).symm, .refl _, rfl⟩

theorem Served.cons {l : ProcessLookup} {ls : List ProcessLookup} {s t u : State} (h : Served [l] s t) (h' : Served ls t u) :
    Served (l :: ls) s u := by
  refine ⟨h'.singletons.trans h.singletons, h'.running.trans h.running, ?_, ?_, ?_⟩
  · rw [h'.processLookup, h.processLookup, h.singletons, List.append_assoc, ← List.filter_append]
    rfl
  · refine h'.answers.trans ?_
    rw [h.singletons]
    refine (h.answers.append_left _).trans ?_
    rw [← List.append_assoc]
    refine List.Perm.append_right _ ?_
    refine List.perm_append_comm.trans ?_
    unfold told
    rw [← List.filterMap_append]
    exact .refl _
  · rw [h'.readings, h.readings, h.singletons]
    unfold Sought.reached
    rw [List.countP_cons, List.countP_cons, List.countP_nil]
    omega

variable (env : Environment)

theorem nonBlockingSend_run (queue : Nat) (reply : Reply) (s : State) :
    nonBlockingSend env queue reply s =
      if env.gone s.readings queue = true then .error .unavailable { s with readings := s.readings + 1 }
      else if env.full s.readings queue = true then .ok false { s with readings := s.readings + 1 }
      else .ok true (push queue reply { s with readings := s.readings + 1 }) := by
  have hread : reading s = .ok s.readings { s with readings := s.readings + 1 } := rfl
  unfold nonBlockingSend
  rw [bind_ok hread]
  split_ifs <;> rfl

theorem blockingSend_run (queue : Nat) (reply : Reply) (s : State) :
    blockingSend env queue reply s =
      if env.gone s.readings queue = true then .error .unavailable { s with readings := s.readings + 1 }
      else .ok () (push queue reply { s with readings := s.readings + 1 }) := by
  have hread : reading s = .ok s.readings { s with readings := s.readings + 1 } := rfl
  unfold blockingSend
  rw [bind_ok hread]
  split_ifs <;> rfl

/-- What is sent to the process that has asked, now or by the pump. -/
theorem decides_sendReply (l : ProcessLookup) (process : Process) (s : State) :
    Decides (env.gone s.readings l.process.queue = false) (do
        let reply := Reply.process l.correlation l.identification process
        if !(← nonBlockingSend env l.process.queue reply) then
          modify fun s => { s with replies := s.replies ++ [([l.process.queue], reply)] } : M Unit) s
      (fun _ t => t.singletons = s.singletons ∧ t.running = s.running ∧ t.processLookup = s.processLookup ∧
        (t.outgoing.filter isAnswer).Perm (answerTo l process :: s.outgoing.filter isAnswer) ∧
        t.readings = s.readings + 1)
      (fun _ _ => True) := by
  have hsend := nonBlockingSend_run env l.process.queue (.process l.correlation l.identification process) s
  by_cases hgone : env.gone s.readings l.process.queue = true
  · rw [if_pos hgone] at hsend
    exact ⟨fun h => absurd (hgone.symm.trans h) nofun, fun _ => ⟨_, _, bind_error hsend, trivial⟩⟩
  · rw [if_neg hgone] at hsend
    refine ⟨fun _ => ?_, fun h => absurd (Bool.not_eq_true _ ▸ hgone) h⟩
    split_ifs at hsend with hfull
    · -- it is left to the pump
      refine ⟨_, _, bind_ok hsend, rfl, rfl, rfl, ?_, rfl⟩
      unfold outgoing
      rw [flatten_append, ← List.append_assoc, List.filter_append]
      exact List.perm_append_comm
    · refine ⟨_, _, bind_ok hsend, rfl, rfl, rfl, ?_, rfl⟩
      unfold outgoing push
      simp only [List.filter_append]
      rw [List.append_assoc]
      exact List.perm_middle

theorem decides_lookupProcess (l : ProcessLookup) (s : State) :
    Decides (Sought.Reaches env s.singletons [l] s.readings) (lookupProcess env l) s
      (fun _ t => Served [l] s t) (fun _ _ => True) := by
  have hsend : ∀ process, response s.singletons l = some process →
      Decides (Sought.Reaches env s.singletons [l] s.readings) (do
          let reply := Reply.process l.correlation l.identification process
          if !(← nonBlockingSend env l.process.queue reply) then
            modify fun s => { s with replies := s.replies ++ [([l.process.queue], reply)] } : M Unit) s
        (fun _ t => Served [l] s t) (fun _ _ => True) := by
    intro process hprocess
    refine ((decides_sendReply env l process s).congr ?_).mono ?_ fun _ _ _ h => h
    · unfold Sought.Reaches Sought.Reaches
      rw [hprocess]
      simp
    · rintro _ t ⟨hsingletons, hrunning, hlookup, hanswers, hreadings⟩
      refine ⟨hsingletons, hrunning, ?_, ?_, ?_⟩
      · rw [hlookup, List.filter_cons_of_neg (by rw [hprocess]; exact Bool.false_ne_true), List.filter_nil, List.append_nil]
      · unfold told
        rw [List.filterMap_cons_some (b := answerTo l process) (by rw [hprocess]; rfl), List.filterMap_nil]
        exact hanswers
      · unfold Sought.reached
        rw [hreadings, List.countP_cons_of_pos (by rw [hprocess]; rfl), List.countP_nil]
  unfold lookupProcess
  apply Decides.get_bind
  dsimp only
  cases hfind : s.singletons.find? fun entry => entry.1 == l.identification with
  | some found =>
    apply hsend
    unfold response
    rw [hfind]
  | none =>
    dsimp only
    by_cases hwait : l.wait = true
    · have hnone : response s.singletons l = none := by
        unfold response
        rw [hfind]
        exact if_pos hwait
      rw [if_pos hwait]
      refine (Decides.modify ?_).congr ?_
      · refine ⟨rfl, rfl, ?_, ?_, ?_⟩
        · rw [List.filter_cons_of_pos (by rw [hnone]; rfl), List.filter_nil]
        · unfold told
          rw [List.filterMap_cons_none (by rw [hnone]; rfl), List.filterMap_nil]
          exact .refl _
        · unfold Sought.reached
          rw [List.countP_cons_of_neg (by rw [hnone]; exact Bool.false_ne_true), List.countP_nil, Nat.add_zero]
      · unfold Sought.Reaches Sought.Reaches
        rw [hnone]
        simp
    · rw [if_neg hwait]
      apply hsend
      unfold response
      rw [hfind]
      exact if_neg hwait

/-- Lookups that waited are handled again. -/
theorem decides_lookups : ∀ (ls : List ProcessLookup) (s : State),
    Decides (Sought.Reaches env s.singletons ls s.readings) (ls.forM (lookupProcess env)) s
      (fun _ t => Served ls s t) (fun _ _ => True)
  | [], s => .pure (.nil s)
  | l :: ls, s => by
    have hrest : ∀ (_ : Unit) (t : State), Served [l] s t →
        Decides (Sought.Reaches env s.singletons ls (s.readings + Sought.reached s.singletons [l]))
          (ls.forM (lookupProcess env)) t (fun _ u => Served (l :: ls) s u) (fun _ _ => True) := by
      intro _ t ht
      have hrest := decides_lookups ls t
      rw [ht.singletons, ht.readings] at hrest
      exact hrest.mono (fun _ _ hu => ht.cons hu) fun _ _ _ h => h
    refine ((decides_lookupProcess env l s).bind hrest).congr ?_
    have hcount : Sought.reached s.singletons [l] = if (response s.singletons l).isSome then 1 else 0 :=
      List.countP_singleton
    rw [hcount]
    simp only [Sought.Reaches]
    split_ifs with hsome
    · rw [and_true]
    · rw [true_and, Nat.add_zero]

end State

/-! ## Connects -/

namespace State

/-- The identity is given to the process that connects, and the lookups that wait are taken. -/
def granting (message : ConnectRequest) (s : State) : State :=
  { s with
    singletons := insertSingleton message.identification message.process s.singletons
    processLookup := [] }

/-- A process has connected: it has the identity, and those that waited for it have been answered; or nothing of
this has changed. -/
def Connected (message : ConnectRequest) (s t : State) : Prop :=
  Elsewhere s t ∨ Sought.Registers s message ∧ ∃ u, Served s.processLookup (s.granting message) u ∧ Elsewhere u t

theorem Connected.aside {message : ConnectRequest} {s t u : State} (h : Connected message s t) (h' : Elsewhere t u) :
    Connected message s u := by
  rcases h with h | ⟨hregisters, v, hserved, h⟩
  · exact .inl (IsTrans.trans _ _ _ h h')
  · exact .inr ⟨hregisters, v, hserved, IsTrans.trans _ _ _ h h'⟩

section

variable {env : Environment} {message : ConnectRequest} {s : State}

/-- What has to do with no identity, and throws only that something is missing. -/
theorem connected_triple {α : Type} {x : M α} (haside : Moves Elsewhere x) (hmissing : ∀ s e t, x s = .error e t → e = .missing) :
    Triple (Connected message s) x (fun _ => Connected message s)
      (fun e t => e = .missing ∧ Connected message s t) := by
  intro t ht
  have hafter := haside.after t
  cases hx : x t with
  | ok a u =>
    rw [hx] at hafter
    exact ht.aside hafter
  | error e u =>
    rw [hx] at hafter
    exact ⟨hmissing t e u hx, ht.aside hafter⟩

theorem connected_send {queue : Nat} {reply : Reply} (h : isAnswer (queue, reply) = false) :
    Triple (fun t => Connected message s t ∧ env.gone t.readings queue = false) (blockingSend env queue reply)
      (fun _ => Connected message s) (fun e t => e = .missing ∧ Connected message s t) := by
  rintro t ⟨ht, hgone⟩
  have hafter := (elsewhere_blockingSend env queue h).after t
  rw [blockingSend_run, if_neg (by simp [hgone])] at hafter ⊢
  exact ht.aside hafter

theorem missing_getInstance {pid : Nat} (t : State) (e : Exception) (u : State) (h : getInstance pid t = .error e u) :
    e = .missing := by
  unfold getInstance at h
  split at h <;> cases h
  rfl

theorem missing_getServer {id : Nat} (t : State) (e : Exception) (u : State) (h : getServer id t = .error e u) :
    e = .missing := by
  unfold getServer at h
  split at h <;> cases h
  rfl

theorem mem_singletons {singletons : List (Uuid × Process)} {identification : Uuid} :
    identification ∈ singletons.map Prod.fst ↔
      (singletons.find? fun entry => entry.1 == identification).isSome = true := by
  rw [List.find?_isSome, List.mem_map]
  simp only [beq_iff_eq]

/-- The queues that a connect has to reach are there. -/
def Reachable (env : Environment) (s : State) (message : ConnectRequest) : Prop :=
  if Sought.Registers s message then
    Sought.Reaches env (insertSingleton message.identification message.process s.singletons) s.processLookup s.readings ∧
      env.gone (s.readings + Sought.reached (insertSingleton message.identification message.process s.singletons)
        s.processLookup) message.process.queue = false
  else env.gone s.readings message.process.queue = false

theorem connectSingleton_spec (hreachable : Reachable env s message) (hmode : s.shutdownMode = false)
    (hid : message.identification ≠ 0) :
    Triple (fun t => t = s) (connectSingleton env message)
      (fun accepted t => Connected message s t ∧ (accepted = true → env.gone t.readings message.process.queue = false))
      (fun e t => e = .missing ∧ Connected message s t) := by
  unfold connectSingleton
  apply Triple.bind (Triple.get (R := fun u t => u = s ∧ t = s) fun t ht => ⟨ht, ht⟩)
  intro u
  apply Triple.of_forall
  rintro t ⟨hu, ht⟩
  subst ht
  subst hu
  cases hfind : u.singletons.find? fun entry => entry.1 == message.identification with
  | some found =>
    have hheld : ¬ Sought.Registers u message := fun h => h.2.2 (mem_singletons.2 (by rw [hfind]; rfl))
    have hgone : env.gone u.readings message.process.queue = false := by
      unfold Reachable at hreachable
      rwa [if_neg hheld] at hreachable
    dsimp only
    apply Triple.ite
    · intro _
      have hsend : Triple (fun t => t = u) (blockingSend env message.process.queue (.connect message.correlation .singleton))
          (fun _ => Connected message u) (fun e t => e = .missing ∧ Connected message u t) := by
        refine (connected_send rfl).conseq ?_ (fun _ _ h => h) fun _ _ h => h
        rintro t rfl
        exact ⟨.inl (Std.Refl.refl t), hgone⟩
      refine hsend.bind fun _ => ?_
      refine (connected_triple (elsewhere_getInstance _) missing_getInstance).bind fun i => ?_
      refine (connected_triple (elsewhere_getServer _) missing_getServer).bind fun server => ?_
      refine (connected_triple (elsewhere_modify fun _ => ?_) nofun).bind fun _ => ?_
      · rfl
      · exact .pure fun t ht => ⟨ht, nofun⟩
    · intro _
      refine .pure ?_
      rintro t rfl
      exact ⟨.inl (Std.Refl.refl t), fun _ => hgone⟩
  | none =>
    have hregisters : Sought.Registers u message := by
      refine ⟨hmode, hid, fun hmem => ?_⟩
      have := mem_singletons.1 hmem
      rw [hfind] at this
      cases this
    unfold Reachable at hreachable
    rw [if_pos hregisters] at hreachable
    obtain ⟨_, t, hrun, hserved⟩ := (decides_lookups env u.processLookup (u.granting message)).returns hreachable.1
    have hmodify : (modify fun s => { s with
        singletons := insertSingleton message.identification message.process s.singletons, processLookup := [] } : M Unit) u =
      .ok () (u.granting message) := rfl
    rintro v rfl
    dsimp only
    rw [bind_ok hmodify, bind_ok hrun]
    refine ⟨.inr ⟨hregisters, t, hserved, Std.Refl.refl t⟩, fun _ => ?_⟩
    rw [hserved.readings]
    exact hreachable.2

theorem connect_spec (hreachable : Reachable env s message) :
    Triple (fun t => t = s) (connect env message) (fun _ => Connected message s)
      (fun e t => e = .missing ∧ Connected message s t) := by
  have hsend : ∀ accepted : Bool, Triple
      (fun t => Connected message s t ∧ (accepted = true → env.gone t.readings message.process.queue = false)) (do
        if accepted then
          blockingSend env message.process.queue (.connect message.correlation .start)
        return accepted : M Bool) (fun _ => Connected message s) (fun e t => e = .missing ∧ Connected message s t) := by
    intro accepted
    apply Triple.ite
    · intro haccepted
      have hstart : Triple
          (fun t => Connected message s t ∧ (accepted = true → env.gone t.readings message.process.queue = false))
          (blockingSend env message.process.queue (.connect message.correlation .start))
          (fun _ => Connected message s) (fun e t => e = .missing ∧ Connected message s t) := by
        refine (connected_send rfl).conseq ?_ (fun _ _ h => h) fun _ _ h => h
        exact fun t ht => ⟨ht.1, ht.2 haccepted⟩
      exact hstart.bind fun _ => .pure fun _ ht => ht
    · exact fun _ => .pure fun _ ht => ht.1
  have hfree : ¬ Sought.Registers s message → env.gone s.readings message.process.queue = false := by
    intro h
    unfold Reachable at hreachable
    rwa [if_neg h] at hreachable
  unfold connect
  apply Triple.bind (Triple.get (R := fun u t => u = s ∧ t = s) fun t ht => ⟨ht, ht⟩)
  intro u
  apply Triple.of_forall
  rintro t ⟨hu, ht⟩
  subst ht
  subst hu
  apply Triple.ite
  · intro hmode
    have hrefuse : Triple (fun t => t = u) (blockingSend env message.process.queue (.connect message.correlation .shutdown))
        (fun _ => Connected message u) (fun e t => e = .missing ∧ Connected message u t) := by
      refine (connected_send rfl).conseq ?_ (fun _ _ h => h) fun _ _ h => h
      rintro t rfl
      exact ⟨.inl (Std.Refl.refl t), hfree fun h => absurd (hmode.symm.trans h.1) nofun⟩
    exact hrefuse.bind fun _ => .pure fun _ ht => ht
  · intro hmode
    dsimp only
    apply Triple.ite
    · intro hid
      exact (connectSingleton_spec hreachable (Bool.not_eq_true _ ▸ hmode) hid).bind hsend
    · intro hid
      refine Triple.bind (.pure ?_) hsend
      rintro t rfl
      exact ⟨.inl (Std.Refl.refl t), fun _ => hfree fun h => hid h.2.1⟩

/-- Where the queue of an instance is does not matter. -/
theorem Connected.of_located {t : State} (h : Connected message (s.located message) t) : Connected message s t := by
  have haside : Elsewhere s (s.located message) := .of_desk rfl
  rcases h with h | ⟨hregisters, u, hserved, h⟩
  · exact .inl (IsTrans.trans _ _ _ haside h)
  · exact .inr ⟨hregisters, u, ⟨hserved.singletons, hserved.running, hserved.processLookup, hserved.answers, hserved.readings⟩, h⟩

theorem connectServer_spec (hconnects : Sought.Connects env s message) :
    ∃ t, connectServer env message s = .ok () t ∧ Connected message s t := by
  -- what is missing is caught
  have hbody : Triple (fun t => t = s) (do
      let _ ← getInstance message.process.pid
      modify (located message)
      if ← connect env message then
        addServices message.process.pid (message.services.map Service.transform)
        modify (alterState message.process.pid .idle) : M Unit) (fun _ => Connected message s)
      (fun e t => e = .missing ∧ Connected message s t) := by
    rintro t rfl
    cases hi : t.instances message.process.pid with
    | none =>
      have hget : getInstance message.process.pid t = .error .missing t := by
        unfold getInstance
        rw [hi]
      rw [bind_error hget]
      exact ⟨rfl, .inl (Std.Refl.refl t)⟩
    | some i =>
      have hget : getInstance message.process.pid t = .ok i t := by
        unfold getInstance
        rw [hi]
      have hmodify : (modify (located message) : M Unit) t = .ok () (t.located message) := rfl
      have hreachable : Reachable env t message := hconnects (by rw [hi]; rfl)
      rw [bind_ok hget, bind_ok hmodify]
      have hconnect : Triple (fun u => u = t.located message) (connect env message) (fun _ => Connected message t)
          (fun e u => e = .missing ∧ Connected message t u) :=
        (connect_spec (s := t.located message) hreachable).conseq (fun _ h => h) (fun _ _ h => h.of_located)
          fun _ _ h => ⟨h.1, h.2.of_located⟩
      refine (hconnect.bind fun accepted => ?_) (t.located message) rfl
      apply Triple.ite
      · intro _
        refine (connected_triple (elsewhere_addServices _ _) ?_).bind fun _ => ?_
        · intro u e v h
          rcases of_bind_error h with h | ⟨_, _, _, h⟩
          · exact missing_getInstance u e v h
          · rcases of_bind_error h with h | ⟨_, _, _, h⟩
            · exact missing_getServer _ e v h
            · cases h
        · exact connected_triple (elsewhere_modify fun _ => rfl) nofun
      · exact fun _ => .pure fun _ ht => ht
  have hrun := hbody s rfl
  unfold connectServer catchMissing
  split at hrun
  · rename_i a t ht
    exact ⟨t, tryCatch_ok ht, hrun⟩
  · rename_i e t ht
    obtain ⟨rfl, hconnected⟩ := hrun
    exact ⟨t, tryCatch_error ht, hconnected⟩

end

/-! ### The connects of others -/

section

variable {env : Environment} {message : ConnectRequest} {s : State}

theorem unavailable_blockingSend {queue : Nat} {reply : Reply} {t u : State} {e : Exception}
    (h : blockingSend env queue reply t = .error e u) : e = .unavailable := by
  rw [blockingSend_run] at h
  split_ifs at h
  cases h
  rfl

theorem unavailable_lookupProcess {l : ProcessLookup} {t u : State} {e : Exception}
    (h : lookupProcess env l t = .error e u) : e = .unavailable := by
  have hsend : ∀ process : Process, (do
      let reply := Reply.process l.correlation l.identification process
      if !(← nonBlockingSend env l.process.queue reply) then
        modify fun s => { s with replies := s.replies ++ [([l.process.queue], reply)] } : M Unit) t = .error e u →
      e = .unavailable := by
    intro process h
    rcases of_bind_error h with h | ⟨sent, v, -, h⟩
    · rw [nonBlockingSend_run] at h
      split_ifs at h
      cases h
      rfl
    · split_ifs at h <;> cases h
  have hget : (get : M State) t = .ok t t := rfl
  unfold lookupProcess at h
  rw [bind_ok hget] at h
  cases hfind : t.singletons.find? fun entry => entry.1 == l.identification with
  | some found =>
    simp only [hfind] at h
    exact hsend _ h
  | none =>
    simp only [hfind] at h
    split_ifs at h
    · cases h
    · exact hsend _ h

theorem unavailable_lookups : ∀ {ls : List ProcessLookup} {t u : State} {e : Exception},
    ls.forM (lookupProcess env) t = .error e u → e = .unavailable
  | [], _, _, _, h => by cases h
  | l :: ls, t, u, e, h => by
    rcases of_bind_error (f := fun _ => ls.forM (lookupProcess env)) h with h | ⟨_, v, -, h⟩
    · exact unavailable_lookupProcess h
    · exact unavailable_lookups h

theorem clashes_of_missing_singleton {t : State} (hmode : s.shutdownMode = false) (hid : message.identification ≠ 0)
    (h : connectSingleton env message s = .error .missing t) :
    Sought.Clashes s message ∧ s.serverOf message.process.pid = none := by
  have hget : (get : M State) s = .ok s s := rfl
  unfold connectSingleton at h
  rw [bind_ok hget] at h
  cases hfind : s.singletons.find? fun entry => entry.1 == message.identification with
  | some found =>
    rw [hfind] at h
    dsimp only at h
    split_ifs at h with hne
    · refine ⟨⟨hmode, hid, by rw [hfind]; simpa using hne⟩, ?_⟩
      rcases of_bind_error h with h | ⟨_, u, hsend, h⟩
      · cases unavailable_blockingSend h
      · -- what is sent leaves the instances and the servers
        have hsame : u.instances = s.instances ∧ u.servers = s.servers := by
          rw [blockingSend_run] at hsend
          split_ifs at hsend
          cases hsend
          exact ⟨rfl, rfl⟩
        unfold serverOf
        rw [← hsame.1, ← hsame.2]
        rcases of_bind_error h with h | ⟨i, v, hi, h⟩
        · unfold getInstance at h
          split at h
          · cases h
          next hnone => rw [hnone]; rfl
        · unfold getInstance at hi
          split at hi <;> cases hi
          next hsome =>
            rcases of_bind_error h with h | ⟨_, x, -, h⟩
            · unfold getServer at h
              split at h
              · cases h
              next hnone => rw [hsome]; exact hnone
            · cases h
    · cases h
  | none =>
    rw [hfind] at h
    rcases of_bind_error h with h | ⟨_, u, -, h⟩
    · cases h
    · rcases of_bind_error h with h | ⟨_, v, -, h⟩
      · cases unavailable_lookups h
      · cases h

/-- Something is missing only when another process holds the identity, and the server of the one that connects is not
known. -/
theorem clashes_of_missing {t : State} (h : connect env message s = .error .missing t) :
    Sought.Clashes s message ∧ s.serverOf message.process.pid = none := by
  have hget : (get : M State) s = .ok s s := rfl
  have hsend : ∀ {accepted : Bool} {u : State}, (do
      if accepted then
        blockingSend env message.process.queue (.connect message.correlation .start)
      return accepted : M Bool) u ≠ .error .missing t := by
    intro accepted u h
    cases accepted with
    | false => cases h
    | true =>
      rcases of_bind_error h with h | ⟨_, v, -, h⟩
      · cases unavailable_blockingSend h
      · cases h
  unfold connect at h
  rw [bind_ok hget] at h
  dsimp only at h
  split_ifs at h with hmode hid
  · rcases of_bind_error h with h | ⟨_, u, -, h⟩
    · cases unavailable_blockingSend h
    · cases h
  · rcases of_bind_error h with h | ⟨accepted, u, -, h⟩
    · exact clashes_of_missing_singleton (Bool.not_eq_true _ ▸ hmode) hid h
    · exact absurd h hsend
  · rcases of_bind_error h with h | ⟨accepted, u, -, h⟩
    · cases h
    · exact absurd h hsend

/-- A connect that reaches whom it has to is handled to its end. -/
theorem returns_connect (hreachable : Reachable env s message)
    (hknown : Sought.Clashes s message → (s.serverOf message.process.pid).isSome) :
    ∃ accepted t, connect env message s = .ok accepted t ∧ Connected message s t := by
  have hrun := connect_spec hreachable s rfl
  cases h : connect env message s with
  | ok accepted t =>
    rw [h] at hrun
    exact ⟨accepted, t, rfl, hrun⟩
  | error e t =>
    rw [h] at hrun
    obtain ⟨rfl, -⟩ := hrun
    obtain ⟨hclashes, hnone⟩ := clashes_of_missing h
    have hsome := hknown hclashes
    rw [hnone] at hsome
    cases hsome

theorem send_there {queue : Nat} {reply : Reply} {t : State} (h : ∀ n, env.gone n queue = false) :
    blockingSend env queue reply t = .ok () (push queue reply { t with readings := t.readings + 1 }) := by
  rw [blockingSend_run, if_neg (by simp [h])]

theorem Connected.send {queue : Nat} {reply : Reply} {t : State} (h : Connected message s t)
    (hreply : isAnswer (queue, reply) = false) :
    Connected message s (push queue reply { t with readings := t.readings + 1 }) := by
  have hread := elsewhere_reading.after t
  exact h.aside (IsTrans.trans _ _ _ hread ((elsewhere_push hreply).after _))

/-- Whoever connects is handled to the end. -/
theorem connects_spec {caller : Connecting} (hjoins : Sought.Joins env s caller message) :
    ∃ t, caller.program env message s = .ok () t ∧ Connected message s t := by
  obtain ⟨hthere, hreaches, hknown⟩ := hjoins
  have hreachable : (caller = .client → (s.instances message.process.pid).isSome) → Reachable env s message := by
    intro hinstance
    unfold Reachable
    split_ifs with hregisters
    · exact ⟨hreaches hinstance hregisters, hthere _⟩
    · exact hthere _
  cases caller with
  | monitor =>
    obtain ⟨accepted, t, ht, hconnected⟩ := returns_connect (hreachable nofun) (hknown nofun)
    have haside : Moves Elsewhere (modify fun s =>
        if s.monitors.contains message.process.queue then s
        else { s with monitors := s.monitors ++ [message.process.queue] } : M Unit) := by
      refine elsewhere_modify fun s => ?_
      split_ifs <;> rfl
    cases accepted with
    | false => exact ⟨t, bind_ok ht, hconnected⟩
    | true => exact ⟨_, bind_ok ht, hconnected.aside (haside.after t)⟩
  | manager =>
    obtain ⟨accepted, t, ht, hconnected⟩ := returns_connect (hreachable nofun) (hknown nofun)
    cases accepted with
    | false => exact ⟨t, bind_ok ht, hconnected⟩
    | true => exact ⟨_, (bind_ok ht).trans (send_there hthere), hconnected.send rfl⟩
  | forward =>
    obtain ⟨accepted, t, ht, hconnected⟩ := returns_connect (hreachable nofun) (hknown nofun)
    have haside : Moves Elsewhere (modify fun s => { s with forward := message.process } : M Unit) :=
      elsewhere_modify fun _ => rfl
    cases accepted with
    | false => exact ⟨t, bind_ok ht, hconnected⟩
    | true => exact ⟨_, bind_ok ht, hconnected.aside (haside.after t)⟩
  | client =>
    have hmissing : ∀ {x : M Unit} {t : State}, x s = .error .missing t → Connected message s t →
        ∃ u, catchMissing x (blockingSend env message.process.queue (.connect 0 .start)) s = .ok () u ∧
          Connected message s u :=
      fun hx hconnected => ⟨_, (tryCatch_error hx).trans (send_there hthere), hconnected.send rfl⟩
    cases hi : s.instances message.process.pid with
    | none =>
      have hget : getInstance message.process.pid s = .error .missing s := by
        unfold getInstance
        rw [hi]
      exact hmissing (bind_error hget) (.inl (Std.Refl.refl s))
    | some i =>
      have hget : getInstance message.process.pid s = .ok i s := by
        unfold getInstance
        rw [hi]
      have hrun := connect_spec (hreachable fun _ => by rw [hi]; rfl) s rfl
      cases h : connect env message s with
      | ok accepted t =>
        rw [h] at hrun
        exact ⟨t, tryCatch_ok ((bind_ok hget).trans (bind_ok h)), hrun⟩
      | error e t =>
        rw [h] at hrun
        obtain ⟨rfl, hconnected⟩ := hrun
        exact hmissing ((bind_ok hget).trans (bind_error h)) hconnected

end

/-! ### A connect that is refused -/

/-- Nothing changes for the identities, and nothing is sent but that the process is not to start. -/
structure Refused (message : ConnectRequest) (s t : State) : Prop where
  singletons : t.singletons = s.singletons
  processLookup : t.processLookup = s.processLookup
  replies : t.replies = s.replies
  sent : ∃ told, t.sent = s.sent ++ told ∧ ∀ x ∈ told, ∃ directive, directive ≠ .start ∧
    x = (message.process.queue, Reply.connect message.correlation directive)

section

variable {message : ConnectRequest} {s : State}

instance : Std.Refl (Refused message) := ⟨fun _ => ⟨rfl, rfl, rfl, [], (List.append_nil _).symm, nofun⟩⟩

instance : IsTrans State (Refused message) := by
  constructor
  rintro s t u ⟨hsingletons, hlookup, hreplies, told, hsent, hall⟩ ⟨hsingletons', hlookup', hreplies', told', hsent', hall'⟩
  refine ⟨hsingletons'.trans hsingletons, hlookup'.trans hlookup, hreplies'.trans hreplies, told ++ told', ?_, ?_⟩
  · rw [hsent', hsent, List.append_assoc]
  · exact List.forall_mem_append.2 ⟨hall, hall'⟩

theorem refused_modify {f : State → State} (h : ∀ s, (f s).desk = s.desk) : Moves (Refused message) (modify f : M Unit) := by
  refine .modify fun s => ?_
  have hdesk : (f s).singletons = s.singletons ∧ (f s).processLookup = s.processLookup ∧
      (f s).running = s.running ∧ (f s).sent = s.sent ∧ (f s).replies = s.replies := by
    simpa [desk] using h s
  exact ⟨hdesk.1, hdesk.2.1, hdesk.2.2.2.2, [], by rw [hdesk.2.2.2.1, List.append_nil], nofun⟩

theorem refused_getInstance (pid : Nat) : Moves (Refused message) (getInstance pid) := by
  refine ⟨fun s => ?_⟩
  unfold getInstance
  split <;> exact Std.Refl.refl s

theorem refused_getServer (id : Nat) : Moves (Refused message) (getServer id) := by
  refine ⟨fun s => ?_⟩
  unfold getServer
  split <;> exact Std.Refl.refl s

theorem refused_send (env : Environment) {directive : Directive} (h : directive ≠ .start) :
    Moves (Refused message) (blockingSend env message.process.queue (.connect message.correlation directive)) := by
  refine ⟨fun s => ?_⟩
  rw [blockingSend_run]
  split_ifs
  · exact ⟨rfl, rfl, rfl, [], (List.append_nil _).symm, nofun⟩
  · refine ⟨rfl, rfl, rfl, _, rfl, fun x hx => ⟨directive, h, List.mem_singleton.1 hx⟩⟩

/-- Who connects with the identity of another is not accepted. -/
theorem refused_connect (env : Environment) (hid : message.identification ≠ 0) {found : Uuid × Process}
    (hfind : s.singletons.find? (fun entry => entry.1 == message.identification) = some found)
    (hne : found.2 ≠ message.process) :
    Triple (fun t => t = s) (connect env message) (fun accepted t => accepted = false ∧ Refused message s t)
      (fun _ t => Refused message s t) := by
  have hrefl : ∀ t, t = s → Refused message s t := by
    rintro t rfl
    exact Std.Refl.refl t
  have hkeeps : ∀ t, Refused message s t → ∀ u, Refused message t u → Refused message s u :=
    fun t ht u hu => IsTrans.trans _ _ _ ht hu
  unfold connect
  apply Triple.bind (Triple.get (R := fun u t => u = s ∧ t = s) fun t ht => ⟨ht, ht⟩)
  intro u
  apply Triple.of_forall
  rintro t ⟨hu, ht⟩
  subst ht
  subst hu
  apply Triple.ite
  · intro _
    have hsend := (@refused_send message env .shutdown nofun).triple hkeeps
    refine (hsend.conseq hrefl (fun _ _ h => h) fun _ _ h => h).bind fun _ => .pure fun t ht => ⟨rfl, ht⟩
  · intro _
    dsimp only
    rw [if_pos hid]
    have hrest : ∀ accepted : Bool, Triple (fun t => accepted = false ∧ Refused message u t) (do
        if accepted then
          blockingSend env message.process.queue (.connect message.correlation .start)
        return accepted : M Bool) (fun accepted t => accepted = false ∧ Refused message u t)
        (fun _ t => Refused message u t) := by
      rintro accepted t ⟨rfl, ht⟩
      exact ⟨rfl, ht⟩
    refine Triple.bind ?_ hrest
    unfold connectSingleton
    apply Triple.bind (Triple.get (R := fun v t => v = u ∧ t = u) fun t ht => ⟨ht, ht⟩)
    rintro v
    apply Triple.of_forall
    rintro t ⟨hv, ht⟩
    rw [hv, ht, hfind]
    dsimp only
    rw [if_pos hne]
    have hsend := (@refused_send message env .singleton nofun).triple hkeeps
    refine (hsend.conseq hrefl (fun _ _ h => h) fun _ _ h => h).bind fun _ => ?_
    refine ((refused_getInstance _).triple hkeeps).bind fun i => ((refused_getServer _).triple hkeeps).bind fun server => ?_
    refine ((refused_modify fun _ => ?_).triple hkeeps).bind fun _ => .pure fun t ht => ⟨rfl, ht⟩
    rfl

theorem refused_connectServer (env : Environment) (hid : message.identification ≠ 0) {found : Uuid × Process}
    (hfind : s.singletons.find? (fun entry => entry.1 == message.identification) = some found)
    (hne : found.2 ≠ message.process) : Refused message s (after (connectServer env message s)) := by
  have hkeeps : ∀ t, Refused message s t → ∀ u, Refused message t u → Refused message s u :=
    fun t ht u hu => IsTrans.trans _ _ _ ht hu
  have hlocated : Refused message s (s.located message) := ⟨rfl, rfl, rfl, [], (List.append_nil _).symm, nofun⟩
  have hconnect : Triple (fun t => t = s.located message) (connect env message)
      (fun accepted t => accepted = false ∧ Refused message s t) (fun _ t => Refused message s t) := by
    refine (refused_connect (s := s.located message) env hid hfind hne).conseq (fun _ h => h) ?_ ?_
    · exact fun _ t h => ⟨h.1, IsTrans.trans _ _ _ hlocated h.2⟩
    · exact fun _ t h => IsTrans.trans _ _ _ hlocated h
  have hserver : Triple (fun t => t = s) (connectServer env message) (fun _ => Refused message s) (fun _ => Refused message s) := by
    refine Triple.tryCatch (?_ : Triple _ _ _ fun _ => Refused message s) fun e => ?_
    · rintro t rfl
      cases hi : t.instances message.process.pid with
      | none =>
        have hget : getInstance message.process.pid t = .error .missing t := by
          unfold getInstance
          rw [hi]
        rw [bind_error hget]
        exact Std.Refl.refl t
      | some i =>
        have hget : getInstance message.process.pid t = .ok i t := by
          unfold getInstance
          rw [hi]
        have hmodify : (modify (located message) : M Unit) t = .ok () (t.located message) := rfl
        rw [bind_ok hget, bind_ok hmodify]
        refine (hconnect.bind fun accepted => ?_) (t.located message) rfl
        rintro u ⟨rfl, hu⟩
        exact hu
    · cases e with
      | missing => exact .pure fun _ h => h
      | _ => exact .throw fun _ h => h
  exact hserver.after rfl

/-- Whoever else connects is refused, if a client is an instance of a server. -/
theorem refused_connects (env : Environment) (hid : message.identification ≠ 0) {found : Uuid × Process}
    (hfind : s.singletons.find? (fun entry => entry.1 == message.identification) = some found)
    (hne : found.2 ≠ message.process) {caller : Connecting}
    (hclient : caller = .client → (s.serverOf message.process.pid).isSome) :
    Refused message s (after (caller.program env message s)) := by
  have hconnect := refused_connect env hid hfind hne s rfl
  -- who is not accepted is left at that
  have hleft : ∀ f : Bool → M Unit, f false = pure () → Refused message s (after ((connect env message >>= f) s)) := by
    intro f hf
    cases h : connect env message s with
    | ok accepted t =>
      rw [h] at hconnect
      obtain ⟨rfl, hrefused⟩ := hconnect
      rw [bind_ok h, hf]
      exact hrefused
    | error e t =>
      rw [h] at hconnect
      rw [bind_error h]
      exact hconnect
  cases caller with
  | monitor => exact hleft _ rfl
  | manager => exact hleft _ rfl
  | forward => exact hleft _ rfl
  | client =>
    obtain ⟨server, hserver⟩ := Option.isSome_iff_exists.1 (hclient rfl)
    obtain ⟨i, hi, -⟩ := Option.bind_eq_some_iff.1 hserver
    have hget : getInstance message.process.pid s = .ok i s := by
      unfold getInstance
      rw [hi]
    change Refused message s (after (connectClient env message s))
    unfold connectClient catchMissing
    cases h : connect env message s with
    | ok accepted t =>
      rw [h] at hconnect
      rw [tryCatch_ok ((bind_ok hget).trans (bind_ok h))]
      exact hconnect.2
    | error e t =>
      rw [h] at hconnect
      rw [tryCatch_error ((bind_ok hget).trans (bind_error h))]
      cases e with
      | missing =>
        have hnone := (clashes_of_missing h).2
        rw [hserver] at hnone
        cases hnone
      | _ => exact hconnect

theorem refuses_of_single (hsingle : (s.singletons.map Prod.fst).Nodup) : Sought.Refuses s := by
  intro env message hid holder hholder hne t hconnects
  obtain ⟨found, hfind⟩ := Option.isSome_iff_exists.1 (mem_singletons.1 (List.mem_map_of_mem (f := Prod.fst) hholder))
  have hfound : found = (message.identification, holder) := by
    apply List.inj_on_of_nodup_map hsingle (List.mem_of_find?_eq_some hfind) hholder
    simpa using List.find?_some hfind
  have hheld : found.2 ≠ message.process := by rwa [hfound]
  -- a pump that ends has refused all the same
  have hended : ∀ {r : EStateM.Result Exception State Unit}, Refused message s (after r) →
      Refused message s (Sought.ended r) := by
    intro r h
    cases r with
    | ok a u => exact h
    | error e u => exact ⟨h.singletons, h.processLookup, h.replies, h.sent⟩
  have ht : Refused message s t := by
    rcases hconnects with rfl | ⟨caller, hclient, rfl⟩
    · exact hended (refused_connectServer env hid hfind hheld)
    · exact hended (refused_connects env hid hfind hheld hclient)
  exact ⟨ht.singletons, ht.processLookup, ht.replies, ht.sent⟩

end

/-! ## Deaths -/

section

variable (env : Environment)

theorem spawn_run : ∀ (k : Nat) (s : State), (∀ n, s.readings ≤ n → n < s.readings + k → (env.spawn n).isSome) →
    ∃ pids, spawn env k s = .ok pids { s with readings := s.readings + k }
  | 0, s, _ => ⟨[], rfl⟩
  | k + 1, s, h => by
    obtain ⟨pid, hpid⟩ := Option.isSome_iff_exists.1 (h s.readings le_rfl (by omega))
    obtain ⟨pids, hpids⟩ := spawn_run k { s with readings := s.readings + 1 } fun n hn hlt =>
      h n (by dsimp only at hn; omega) (by dsimp only at hlt; omega)
    have hread : reading s = .ok s.readings { s with readings := s.readings + 1 } := rfl
    refine ⟨pid :: pids, ?_⟩
    unfold spawn
    rw [bind_ok hread, hpid]
    dsimp only
    rw [bind_ok hpids, show s.readings + (k + 1) = s.readings + 1 + k by omega]
    rfl

/-- An instance that cannot be told is left as it is. -/
theorem returns_shutdownInstance (pid : Nat) (s : State) : ∃ t, shutdownInstance env pid s = .ok () t := by
  have hget : (get : M State) s = .ok s s := rfl
  -- nothing is started, so what is thrown is caught
  have hbody : ∀ (e : Exception) (t : State), (do
      let i ← getInstance pid
      modify (alterState pid .shutdown)
      if !(← nonBlockingSend env i.process.queue .shutdown) then
        modify fun s => { s with replies := s.replies ++ [([i.process.queue], .shutdown)] } : M Unit) s = .error e t →
      e = .missing ∨ e = .unavailable := by
    intro e t h
    rcases of_bind_error h with h | ⟨i, u, -, h⟩
    · exact .inl (missing_getInstance s e t h)
    · rcases of_bind_error h with h | ⟨_, v, -, h⟩
      · cases h
      · rcases of_bind_error h with h | ⟨sent, x, -, h⟩
        · rw [nonBlockingSend_run] at h
          split_ifs at h
          cases h
          exact .inr rfl
        · split_ifs at h <;> cases h
  unfold shutdownInstance
  rw [bind_ok hget]
  split_ifs with hself
  · cases hrun : (do
        let i ← getInstance pid
        modify (alterState pid .shutdown)
        if !(← nonBlockingSend env i.process.queue .shutdown) then
          modify fun s => { s with replies := s.replies ++ [([i.process.queue], .shutdown)] } : M Unit) s with
    | ok a t => exact ⟨t, tryCatch_ok hrun⟩
    | error e t =>
      rw [tryCatch_error hrun]
      rcases hbody e t hrun with rfl | rfl <;> exact ⟨t, rfl⟩
  · exact ⟨s, rfl⟩

theorem returns_shutdown : ∀ (pids : List Nat) (s : State), ∃ t, pids.forM (shutdownInstance env) s = .ok () t
  | [], s => ⟨s, rfl⟩
  | pid :: pids, s => by
    obtain ⟨t, ht⟩ := returns_shutdownInstance env pid s
    obtain ⟨u, hu⟩ := returns_shutdown pids t
    exact ⟨u, (bind_ok (f := fun _ => pids.forM (shutdownInstance env)) ht).trans hu⟩

theorem returns_updateInstances {s : State} {server : Server} {id : Nat}
    (hfind : s.servers.find? (fun server => server.id == id) = some server)
    (hspawn : ∀ n, s.readings ≤ n → n < s.readings + (server.configuredInstances - server.instances.length) →
      (env.spawn n).isSome) : ∃ t, updateInstances env id s = .ok () t := by
  have hget : getServer id s = .ok server s := by
    unfold getServer
    rw [hfind]
  unfold updateInstances
  rw [bind_ok hget]
  by_cases hmore : server.configuredInstances > server.instances.length
  · rw [if_pos hmore]
    obtain ⟨pids, hpids⟩ := spawn_run env _ s hspawn
    unfold boot
    have hcount : max server.configuredInstances (server.configuredInstances - server.instances.length) - server.instances.length =
        server.configuredInstances - server.instances.length := by omega
    rw [hcount, if_pos (by omega), bind_ok hpids]
    unfold addInstances
    have hany : (s.servers.any fun other => other.id == server.id) = true :=
      List.any_eq_true.2 ⟨server, List.mem_of_find?_eq_some hfind, beq_self_eq_true _⟩
    rw [if_pos hany]
    exact ⟨_, rfl⟩
  · rw [if_neg hmore]
    exact returns_shutdown env _ s

/-- A holder may be gone, otherwise it is as before. -/
structure Fewer (s t : State) : Prop where
  singletons : t.singletons.Sublist s.singletons
  processLookup : t.processLookup = s.processLookup
  running : t.running = s.running
  answers : (t.outgoing.filter isAnswer).Perm (s.outgoing.filter isAnswer)

theorem Elsewhere.fewer {s t : State} (h : Elsewhere s t) : Fewer s t :=
  ⟨h.singletons ▸ List.Sublist.refl _, h.processLookup, h.running, h.answers⟩

/-- A death is handled to its end. -/
theorem deadEvent_spec {s : State} {pid : Nat} {reason : Reason} (hlinked : s.Linked) (hhosted : s.Hosted)
    (hreason : reason.deceased = true) (hdies : Sought.Dies env s pid) :
    ∃ t, deadEvent env pid reason s = .ok () t ∧ Fewer s t := by
  obtain ⟨server, hserver, hspawn⟩ := hdies
  obtain ⟨i, hi, hfind⟩ := serverOf_eq_some hserver
  obtain ⟨out, kept, n, heq, hout, hkept, -, hn⟩ := @deadEvent_some env pid reason s hlinked hhosted hreason i server hi hfind
  have hid : server.id = i.server := by simpa using List.find?_some hfind
  generalize hleft : withoutInstance pid i { s with
    listeners := s.listeners.takeWhile fun listener => listener.pid != pid
    sent := s.sent ++ out
    replies := s.replies ++ kept
    readings := n } = left at heq
  have hfewer : Fewer s left := by
    rw [← hleft]
    refine ⟨List.eraseP_sublist, rfl, rfl, ?_⟩
    have hnone : ∀ l : List (Nat × Reply), (∀ x ∈ l, x.2 = .dead pid reason) → l.filter isAnswer = [] := by
      intro l hl
      rw [List.filter_eq_nil_iff]
      intro x hx
      unfold isAnswer
      rw [hl x hx]
      exact Bool.false_ne_true
    have hflat : (flatten kept).filter isAnswer = [] := by
      apply hnone
      intro x hx
      obtain ⟨entry, hentry, hx⟩ := List.mem_flatMap.1 hx
      obtain ⟨queue, -, rfl⟩ := List.mem_map.1 hx
      exact hkept entry hentry
    unfold outgoing withoutInstance
    simp only [flatten_append, List.filter_append, hnone out hout, hflat, List.append_nil]
    exact .refl _
  have hreturns : ∃ t, revive env (some server) left = .ok () t := by
    unfold revive
    dsimp only
    split_ifs with hrestart
    · refine @returns_updateInstances env left { server with
        instances := server.instances.filter (· != pid)
        deaths := server.deaths + 1
        invoked := server.invoked + i.invoked } server.id ?_ ?_
      · rw [← hleft]
        unfold withoutInstance
        dsimp only
        rw [List.find?_map, Option.map_eq_some_iff]
        refine ⟨server, ?_, if_pos hid⟩
        rw [← hfind]
        congr 1
        funext other
        rw [Function.comp_apply, hid]
        split_ifs <;> rfl
      · rw [← hleft]
        exact fun m hm hlt => hspawn hrestart m (hn ▸ hm) (by rw [← hn]; exact hlt)
    · exact ⟨left, rfl⟩
  obtain ⟨t, ht⟩ := hreturns
  have haside : Moves Elsewhere (revive env (some server)) := by
    unfold revive
    exact .ite (elsewhere_updateInstances env _) (.pure _)
  have hafter := haside.after left
  rw [ht] at hafter
  refine ⟨t, heq.trans ht, ?_⟩
  exact ⟨hafter.singletons ▸ hfewer.singletons, hafter.processLookup.trans hfewer.processLookup,
    hafter.running.trans hfewer.running, hafter.answers.trans hfewer.answers⟩

end

end State

end Casual.Broker

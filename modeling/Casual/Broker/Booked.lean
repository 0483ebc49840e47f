/-
Instances and the calls they are looked up for: no instance is given to a second caller before it has acknowledged the
call of the first, and one that is idle has acknowledged all it was given.
-/
import Casual.Broker.Routing

namespace Casual.Broker

open Casual.Common Casual.Communication Casual.Lib

/-- How many answers name an instance. -/
def bookings (pid : Nat) (sent : List (Nat × Reply)) : Nat := sent.countP fun entry => entry.2.answer == some pid

theorem bookings_append (pid : Nat) (l l' : List (Nat × Reply)) : bookings pid (l ++ l') = bookings pid l + bookings pid l' :=
  List.countP_append

theorem bookings_silent {pid : Nat} {l : List (Nat × Reply)} (h : ∀ entry ∈ l, ∀ p, entry.2.answer = some p → False) :
    bookings pid l = 0 := by
  refine List.countP_eq_zero.2 fun entry hentry hpid => h entry hentry pid ?_
  simpa using hpid

theorem bookings_answer (pid queue : Nat) (correlation : Uuid) (information : Information) (process : Process) :
    bookings pid [(queue, .lookup correlation information process .idle)] = if process.pid = pid then 1 else 0 := by
  unfold bookings
  rw [List.countP_singleton]
  exact if_congr (by simp [Reply.answer]) rfl rfl

namespace State

/-! ## Instances that do not become idle -/

/-- Who is idle was idle, those aside that are spared. -/
def Rests (spared : Nat → Prop) (s t : State) : Prop := ∀ pid, ¬ spared pid → t.idle pid → s.idle pid

section

variable {spared : Nat → Prop}

instance : Std.Refl (Rests spared) := ⟨fun _ _ _ h => h⟩

instance : IsTrans State (Rests spared) := ⟨fun _ _ _ h h' pid hpid hidle => h pid hpid (h' pid hpid hidle)⟩

theorem Rests.of_instances {s t : State} (h : t.instances = s.instances) : Rests spared s t := by
  intro pid _ hidle
  unfold idle at hidle ⊢
  rwa [h] at hidle

theorem rests_setInstance (s : State) (pid : Nat) {f : Instance → Instance} (h : spared pid ∨ ∀ i, (f i).state = .idle → i.state = .idle) :
    Rests spared s (s.setInstance pid f) := by
  intro pid' hpid' hidle
  obtain ⟨i, hi, hstate⟩ := idle_iff.1 hidle
  by_cases heq : pid' = pid
  · subst heq
    rw [instances_setInstance_self] at hi
    obtain ⟨j, hj, rfl⟩ := Option.map_eq_some_iff.1 hi
    exact idle_iff.2 ⟨j, hj, (h.resolve_left hpid') j hstate⟩
  · have hother : (s.setInstance pid f).instances pid' = s.instances pid' := Function.update_of_ne heq ..
    exact idle_iff.2 ⟨i, hother ▸ hi, hstate⟩

/-- An instance that is put in its place, or taken from it. -/
theorem rests_update {s t : State} {pid : Nat} {value : Option Instance} (hinstances : t.instances = Function.update s.instances pid value)
    (h : spared pid ∨ ∀ i, value = some i → i.state ≠ .idle) : Rests spared s t := by
  intro pid' hpid' hidle
  obtain ⟨i, hi, hstate⟩ := idle_iff.1 hidle
  rw [hinstances] at hi
  by_cases heq : pid' = pid
  · subst heq
    rw [Function.update_self] at hi
    exact absurd hstate ((h.resolve_left hpid') i hi)
  · rw [Function.update_of_ne heq] at hi
    exact idle_iff.2 ⟨i, hi, hstate⟩

section Programs

variable (env : Environment)

theorem rests_modify {f : State → State} (h : ∀ s, Rests spared s (f s)) : Moves (Rests spared) (modify f : M Unit) := .modify h

theorem rests_of_aside {α : Type} {x : M α} (h : Moves Aside x) : Moves (Rests spared) x :=
  h.mono fun _ _ haside => .of_instances haside.instances

theorem rests_catchMissing {x handler : M Unit} (hx : Moves (Rests spared) x) (hhandler : Moves (Rests spared) handler) :
    Moves (Rests spared) (catchMissing x handler) := by
  apply Moves.tryCatch hx
  intro e
  cases e
  · exact hhandler
  · exact .throw _
  · exact .throw _

theorem rests_foldl {α : Type} {f : State → α → State} (h : ∀ s a, Rests spared s (f s a)) : ∀ (l : List α) (s : State),
    Rests spared s (l.foldl f s)
  | [], s => Std.Refl.refl s
  | a :: l, s => IsTrans.trans _ _ _ (h s a) (rests_foldl h l (f s a))

theorem rests_addService (s : State) (pid : Nat) (service : Service) : Rests spared s (addService pid service s) := by
  have hemplace : Rests spared s (s.emplace service) := .of_instances (instances_emplace s service)
  refine IsTrans.trans _ _ _ hemplace (IsTrans.trans _ _ _ ?_ (rests_setInstance _ pid (.inr fun _ h => h)))
  exact .of_instances rfl

theorem rests_addServices (pid : Nat) (services : List Service) : Moves (Rests spared) (addServices pid services) := by
  refine .bind (rests_of_aside (aside_getInstance _)) fun i => .bind (rests_of_aside (aside_getServer _)) fun server => ?_
  exact rests_modify fun s => rests_foldl (fun s service => rests_addService s pid service) _ s

theorem rests_removeServices (pid : Nat) (services : List Service) : Moves (Rests spared) (removeServices pid services) := by
  refine .bind (rests_of_aside (aside_getInstance _)) fun _ => ?_
  refine rests_modify fun s => rests_foldl (fun s service => ?_) _ s
  exact IsTrans.trans _ (s.setInstance pid fun i => { i with services := i.services.erase service.information.name }) _
    (rests_setInstance s pid (.inr fun _ h => h)) (.of_instances rfl)

theorem rests_started (s : State) (id pid : Nat) : Rests spared s (if (s.instances pid).isSome then s
    else { s with instances := Function.update s.instances pid (some (started id pid)) }) := by
  split_ifs
  · exact Std.Refl.refl s
  · refine rests_update rfl (.inr ?_)
    rintro _ ⟨⟩ h
    cases h

theorem rests_addInstances (id : Nat) (pids : List Nat) : Moves (Rests spared) (addInstances id pids) := by
  refine ⟨fun s => ?_⟩
  unfold addInstances
  split_ifs
  · refine IsTrans.trans _ _ _ (rests_foldl (fun s pid => rests_started s id pid) pids s) ?_
    exact .of_instances rfl
  · exact .of_instances rfl
  · exact Std.Refl.refl s

theorem rests_boot (executable : Executable) (instances : Nat) : Moves (Rests spared) (boot env executable instances) := by
  refine .ite ?_ (.pure _)
  exact .bind (rests_of_aside (aside_spawn env _)) fun _ => rests_addInstances _ _

theorem rests_bootExecutable (executable : Executable) : Moves (Rests spared) (bootExecutable env executable) := by
  refine .tryCatch (rests_boot env _ _) fun e => ?_
  cases e with
  | spawn => exact .pure _
  | _ => exact .throw _

theorem rests_bootOne (id : Nat) : Moves (Rests spared) (bootOne env id) := by
  refine .bind .get fun s => ?_
  split
  · exact rests_bootExecutable env _
  · refine .bind .get fun s => ?_
    split
    · exact rests_bootExecutable env _
    · exact .pure _

theorem rests_shutdownInstance (pid : Nat) : Moves (Rests spared) (shutdownInstance env pid) := by
  refine .bind .get fun s => .ite ?_ (.pure _)
  apply Moves.tryCatch
  · refine .bind (rests_of_aside (aside_getInstance _)) fun i => .bind ?_ fun _ =>
      .bind (rests_of_aside (aside_nonBlockingSend env _ rfl)) fun sent => .ite ?_ (.pure _)
    · exact rests_modify fun s => rests_setInstance s pid (.inr fun _ h => by cases h)
    · exact rests_modify fun _ => .of_instances rfl
  · intro e
    cases e
    · exact .pure _
    · exact .pure _
    · exact .throw _

theorem rests_updateInstances (id : Nat) : Moves (Rests spared) (updateInstances env id) := by
  refine .bind (rests_of_aside (aside_getServer _)) fun server => .ite (rests_boot env _ _) ?_
  exact .forM (rests_shutdownInstance env) _

theorem rests_updateServers (name : String) (instances : Nat) : Moves (Rests spared) (updateServers env name instances) := by
  refine .bind .get fun _ => .forM (fun server => .bind ?_ fun _ => rests_updateInstances env _) _
  exact rests_modify fun _ => .of_instances rfl

theorem rests_serviceUpdateInstances (name : String) (instances : Nat) :
    Moves (Rests spared) (serviceUpdateInstances env name instances) :=
  .tryCatch (rests_updateServers env name instances) fun _ => .pure _

theorem rests_removeFromServices (pid : Nat) : ∀ names, Moves (Rests spared) (removeFromServices pid names)
  | [] => .pure _
  | name :: names => by
    refine .bind (rests_of_aside (aside_getService _)) fun _ => .bind ?_ fun _ => rests_removeFromServices pid names
    exact rests_modify fun _ => .of_instances rfl

theorem rests_removeInstance (pid : Nat) (i : Instance) : Moves (Rests spared) (removeInstance pid i) := by
  refine .bind (rests_removeFromServices pid _) fun _ => .bind (rests_of_aside (aside_getServer _)) fun server => ?_
  exact rests_modify fun s => rests_update rfl (.inr nofun)

theorem rests_removeProcess (pid : Nat) : Moves (Rests spared) (removeProcess pid) := by
  have hsingleton : Moves (Rests spared) (modify (removeSingleton pid) : M Unit) := rests_modify fun _ => .of_instances rfl
  apply Moves.bind .get
  intro s
  split
  · exact .bind (rests_removeInstance pid _) fun _ => hsingleton
  · split
    · exact rests_modify fun _ => .of_instances rfl
    · exact hsingleton

theorem rests_deadEvent (pid : Nat) (reason : Reason) : Moves (Rests spared) (deadEvent env pid reason) := by
  refine .ite (.bind ?_ fun _ => .bind (rests_of_aside (aside_notify env pid reason)) fun _ => ?_) (.pure _)
  · exact rests_modify fun _ => .of_instances rfl
  · refine .bind (rests_of_aside (aside_getInstance _)) fun i => .bind (rests_of_aside (aside_getServer _)) fun server => ?_
    refine .bind ?_ fun _ => .bind (rests_removeProcess pid) fun _ => .ite (rests_updateInstances env _) (.pure _)
    exact rests_modify fun _ => .of_instances rfl

theorem rests_connectForward (message : ConnectRequest) : Moves (Rests spared) (connectForward env message) := by
  refine .bind (rests_of_aside (aside_connect env message)) fun accepted => .ite ?_ (.pure _)
  exact rests_modify fun _ => .of_instances rfl

theorem rests_connectServer {message : ConnectRequest} (h : spared message.process.pid) :
    Moves (Rests spared) (connectServer env message) := by
  refine rests_catchMissing ?_ (.pure _)
  refine .bind (rests_of_aside (aside_getInstance _)) fun _ => .bind ?_ fun _ =>
    .bind (rests_of_aside (aside_connect env message)) fun accepted => .ite ?_ (.pure _)
  · exact rests_modify fun s => rests_setInstance s _ (.inr fun _ h => h)
  · refine .bind (rests_addServices _ _) fun _ => ?_
    exact rests_modify fun s => rests_setInstance s _ (.inl h)

theorem rests_connectBroker (id : Nat) {process : Process} (h : spared process.pid) (services : List Information) :
    Moves (Rests spared) (connectBroker id process services) := by
  refine .bind .get fun s => .ite (.bind ?_ fun _ => rests_addServices _ _) (.pure _)
  exact rests_modify fun s => rests_update rfl (.inl h)

theorem rests_ready {pid : Nat} (h : spared pid) : Moves (Rests spared) (ready pid) := by
  refine .bind (rests_of_aside (aside_getInstance pid)) fun _ => ?_
  exact rests_modify fun s => rests_setInstance s _ (.inl h)

end Programs

/-! ## Idle instances and answers -/

/-- An idle instance can be given to one caller. -/
def credit (s : State) (pid : Nat) : Nat := (s.idle pid).toNat

theorem credit_le_one (s : State) (pid : Nat) : s.credit pid ≤ 1 := Bool.toNat_le _

theorem credit_mono {s t : State} {pid : Nat} (h : t.idle pid → s.idle pid) : t.credit pid ≤ s.credit pid := by
  unfold credit
  cases ht : t.idle pid with
  | false => exact Nat.zero_le _
  | true => rw [h ht]

/-- Each answer that names an instance takes it from the idle ones, those aside that name the forward cache. -/
structure Spends (forward : Nat) (s t : State) : Prop where
  keyed : s.Keyed → t.Keyed
  sent : ∃ new, t.sent = s.sent ++ new ∧ ∀ pid, t.credit pid ≤ s.credit pid ∧
    (pid ≠ forward → bookings pid new + t.credit pid ≤ s.credit pid)

/-- What gives no answer. -/
theorem Discreet.spends {forward : Nat} {s t : State} (h : Discreet spared (fun _ => False) s t)
    (hrests : Rests (fun _ => False) s t) : Spends forward s t := by
  obtain ⟨new, hnew, hsilent⟩ := h.sent
  have hcredit : ∀ pid, t.credit pid ≤ s.credit pid := fun pid => credit_mono (hrests pid not_false)
  refine ⟨h.keyed, new, hnew, fun pid => ⟨hcredit pid, fun _ => ?_⟩⟩
  rw [bookings_silent hsilent, Nat.zero_add]
  exact hcredit pid

theorem Aside.spends {forward : Nat} {s t : State} (h : Aside s t) : Spends forward s t :=
  Discreet.spends (@Aside.discreet (fun _ => True) _ s t h) (.of_instances h.instances)

instance {forward : Nat} : Std.Refl (Spends forward) :=
  ⟨fun _ => ⟨fun h => h, [], (List.append_nil _).symm, fun _ => ⟨le_rfl, fun _ => (Nat.zero_add _).le⟩⟩⟩

instance {forward : Nat} : IsTrans State (Spends forward) := by
  constructor
  rintro s t u h h'
  obtain ⟨new, hnew, hspent⟩ := h.sent
  obtain ⟨new', hnew', hspent'⟩ := h'.sent
  refine ⟨fun hs => h'.keyed (h.keyed hs), new ++ new', by rw [hnew', hnew, List.append_assoc], fun pid => ⟨?_, fun hpid => ?_⟩⟩
  · exact (hspent' pid).1.trans (hspent pid).1
  · have h1 := (hspent pid).2 hpid
    have h2 := (hspent' pid).2 hpid
    rw [bookings_append]
    omega

/-- Something is sent, or the receiver is gone. -/
theorem blockingSend_cases (env : Environment) (queue : Nat) (reply : Reply) (s : State) :
    blockingSend env queue reply s = .ok () { s with readings := s.readings + 1, sent := s.sent ++ [(queue, reply)] } ∨
      blockingSend env queue reply s = .error .unavailable { s with readings := s.readings + 1 } := by
  have hread : reading s = .ok s.readings { s with readings := s.readings + 1 } := rfl
  unfold blockingSend
  rw [bind_ok hread]
  cases env.gone s.readings queue with
  | true => exact .inr rfl
  | false => exact .inl rfl

/-- An idle instance is given to a caller, who may be gone. -/
theorem spends_given {forward : Nat} (env : Environment) {s : State} (hs : s.Keyed) {pid : Nat} {i : Instance}
    (hi : s.instances pid = some i) (hidle : s.idle pid) (queue : Nat) (correlation : Uuid) (information : Information)
    (name : String) :
    Spends forward s (after ((do
      modify (alterState pid .busy)
      blockingSend env queue (.lookup correlation information i.process .idle)
      modify (setService name fun service => { service with lookedup := service.lookedup + 1 }) : M Unit) s)) := by
  have hset : (modify (alterState pid .busy) : M Unit) s = .ok () (s.alterState pid .busy) := rfl
  have hprocess : i.process.pid = pid := hs pid i hi
  have hcredit : ∀ pid', (s.alterState pid .busy).credit pid' + (if pid' = pid then 1 else 0) = s.credit pid' := by
    intro pid'
    unfold credit
    rw [idle_alterState]
    split_ifs with heq
    · rw [heq, hidle]
      simp
    · rfl
  -- the answer names the instance that has become busy
  have hspends : ∀ {t : State} {new : List (Nat × Reply)}, t.instances = (s.alterState pid .busy).instances → t.sent = s.sent ++ new →
      (∀ pid', bookings pid' new ≤ if pid' = pid then 1 else 0) → Spends forward s t := by
    intro t new hinstances hnew hbookings
    have ht : ∀ pid', t.credit pid' = (s.alterState pid .busy).credit pid' := by
      intro pid'
      unfold credit idle
      rw [hinstances]
    refine ⟨fun _ => ?_, new, hnew, fun pid' => ?_⟩
    · unfold Keyed
      rw [hinstances]
      exact keyed_setInstance hs pid fun _ => rfl
    · have h1 := hcredit pid'
      have h2 := hbookings pid'
      rw [ht]
      omega
  rw [bind_ok hset]
  rcases blockingSend_cases env queue (.lookup correlation information i.process .idle) (s.alterState pid .busy) with h | h
  · rw [bind_ok h]
    refine hspends rfl rfl fun pid' => ?_
    rw [bookings_answer, hprocess]
    exact (if_congr eq_comm rfl rfl).le
  · rw [bind_error h]
    exact hspends rfl (List.append_nil _).symm fun pid' => Nat.zero_le _

/-- A lookup takes at most one instance that is idle. -/
theorem spends_serviceLookup (env : Environment) {s : State} (hs : s.Keyed) (message : LookupRequest) :
    Spends s.forward.pid s (after (serviceLookup env message s)) := by
  have hstate : (get : M State) s = .ok s s := rfl
  have hsend : ∀ {reply : Reply}, reply.answer = none → Moves (Spends s.forward.pid) (blockingSend env message.process.queue reply) :=
    fun h => (aside_blockingSend env _ h).mono fun _ _ => Aside.spends
  have hcatch : ∀ {x : M Unit}, Spends s.forward.pid s (after (x s)) → Spends s.forward.pid s (after (catchMissing x (blockingSend env
      message.process.queue (.lookup message.correlation ⟨message.requested, 0, 0, [], 0⟩ nullProcess .absent)) s)) := by
    intro x hx
    unfold catchMissing
    cases hr : x s with
    | ok a t =>
      rw [hr] at hx
      rw [tryCatch_ok hr]
      exact hx
    | error e t =>
      rw [hr] at hx
      rw [tryCatch_error hr]
      cases e
      · exact IsTrans.trans _ _ _ hx ((hsend rfl).after t)
      · exact hx
      · exact hx
  apply hcatch
  cases hservice : s.services message.requested with
  | none =>
    have hget : getService message.requested s = .error .missing s := by
      unfold getService
      rw [hservice]
    rw [bind_error hget]
    exact Std.Refl.refl s
  | some service =>
    have hget : getService message.requested s = .ok service s := by
      unfold getService
      rw [hservice]
    rw [bind_ok hget, bind_ok hstate]
    cases hfind : service.instances.find? s.idle with
    | some pid =>
      have hpid := List.find?_some hfind
      obtain ⟨i, hi, -⟩ := idle_iff.1 hpid
      have hgetInstance : getInstance pid s = .ok i s := by
        unfold getInstance
        rw [hi]
      simp only []
      rw [bind_ok hgetInstance]
      exact spends_given env hs hi hpid _ _ _ _
    | none =>
      simp only []
      split_ifs with hcontext
      · -- the forward cache is given as often as it is asked for
        rcases blockingSend_cases env message.process.queue (.lookup message.correlation
          { service.information with monitors := s.monitors } s.forward .idle) s with h | h
        · rw [h]
          refine ⟨fun h => h, _, rfl, fun pid => ⟨le_rfl, fun hpid => ?_⟩⟩
          rw [bookings_answer, if_neg (Ne.symm hpid)]
          exact (Nat.zero_add (s.credit pid)).le
        · rw [h]
          exact ⟨fun h => h, [], (List.append_nil _).symm, fun pid => ⟨le_rfl, fun _ => (Nat.zero_add _).le⟩⟩
      · refine IsTrans.trans _ { s with requests := s.requests ++ [message] } _ ?_ ((hsend rfl).after _)
        exact ⟨fun h => h, [], (List.append_nil _).symm, fun pid => ⟨le_rfl, fun _ => (Nat.zero_add _).le⟩⟩

/-- An instance that has acknowledged is idle, and serves the first request that waits for it. -/
theorem spends_ack (env : Environment) {s : State} (hs : s.Keyed) (pid : Nat) :
    Spends s.forward.pid s (after (ack env pid s)) ∨ Spends s.forward.pid (s.acked pid) (after (ack env pid s)) := by
  have hset : (modify (acked pid) : M Unit) s = .ok () (s.acked pid) := rfl
  have hstate : (get : M State) (s.acked pid) = .ok (s.acked pid) (s.acked pid) := rfl
  have hkeyed : (s.acked pid).Keyed := keyed_setInstance hs pid fun _ => rfl
  have hserve : ∀ services, Spends s.forward.pid (s.acked pid) (after (servePending env services (s.acked pid))) := by
    intro services
    unfold servePending
    rw [bind_ok hstate]
    cases hfind : (s.acked pid).requests.find? (waitsFor services) with
    | none => exact Std.Refl.refl _
    | some request =>
      have hlookup : Spends s.forward.pid (s.acked pid) (after (serviceLookup env request (s.acked pid))) :=
        spends_serviceLookup env hkeyed request
      simp only []
      cases hr : serviceLookup env request (s.acked pid) with
      | error e t =>
        rw [hr] at hlookup
        rw [bind_error hr]
        exact hlookup
      | ok a t =>
        rw [hr] at hlookup
        rw [bind_ok hr]
        refine IsTrans.trans _ t _ hlookup ?_
        exact ⟨fun h => h, [], (List.append_nil _).symm, fun pid => ⟨le_rfl, fun _ => (Nat.zero_add _).le⟩⟩
  unfold ack catchMissing
  cases hi : s.instances pid with
  | none =>
    have hget : getInstance pid s = .error .missing s := by
      unfold getInstance
      rw [hi]
    rw [tryCatch_error (bind_error hget)]
    exact .inl (Std.Refl.refl s)
  | some i =>
    have hget : getInstance pid s = .ok i s := by
      unfold getInstance
      rw [hi]
    have hbody : ((do
        let i ← getInstance pid
        modify (acked pid)
        servePending env i.services) : M Unit) s = servePending env i.services (s.acked pid) := by
      rw [bind_ok hget, bind_ok hset]
    have hafter := hserve i.services
    cases hr : servePending env i.services (s.acked pid) with
    | ok a t =>
      rw [hr] at hafter
      rw [tryCatch_ok (hbody.trans hr)]
      exact .inr hafter
    | error e t =>
      rw [hr] at hafter
      rw [tryCatch_error (hbody.trans hr)]
      cases e <;> exact .inr hafter

end

end State

/-! ## Runs -/

/-- A broker with, of each instance, the calls it has been given to somebody for and has not acknowledged. -/
structure Serving where
  broker : State
  calls : Nat → Nat

namespace Serving

/-- What an event says of the calls of an instance: an acknowledgement is of one, and a dead process has none. -/
def settle (w : Serving) (work : Work) (pid : Nat) : Nat :=
  match work with
  | .act (.message (.ack p)) => if p = pid then w.calls pid - 1 else w.calls pid
  | work => if work.buries pid then 0 else w.calls pid

/-- An event, the answers it gives and the calls it settles. -/
def step (w : Serving) (x : Environment × Work) : Serving :=
  let t := Watched.left (x.2.program x.1 w.broker)
  { broker := t
    calls pid := w.settle x.2 pid +
      if pid = w.broker.forward.pid then 0 else bookings pid (t.sent.drop w.broker.sent.length) }

/-- An instance acknowledges a call that it has been given to somebody for, and connects, or is ready, before it is. -/
def admits (w : Serving) (x : Environment × Work) : Prop :=
  w.broker.running = true ∧
    match x.2 with
    | .act (.message (.ack pid)) => 0 < w.calls pid
    | .act (.message (.connect message)) => w.calls message.process.pid = 0
    | .act (.message (.ready pid)) => w.calls pid = 0
    | .act (.connectBroker _ process _) => w.calls process.pid = 0
    | _ => True

/-- A broker from its start. -/
def machine : Machine Serving (Environment × Work) where
  init w := (∀ pid, w.broker.instances pid = none) ∧ w.broker.running = true ∧ ∀ pid, w.calls pid = 0
  admits := admits
  step := step

/-- An instance has one call at most, and none when it is idle. -/
structure Single (w : Serving) : Prop where
  keyed : w.broker.Keyed
  calls : ∀ pid, w.calls pid + w.broker.credit pid ≤ 1

variable {w : Serving} {x : Environment × Work}

theorem settle_le (w : Serving) (work : Work) (pid : Nat) : w.settle work pid ≤ w.calls pid := by
  unfold settle
  split
  · split_ifs
    · exact Nat.sub_le _ _
    · exact le_rfl
  · split_ifs
    · exact Nat.zero_le _
    · exact le_rfl

/-- An exception that ends the pump changes nothing of that. -/
theorem left_eq (r : EStateM.Result Exception State Unit) : (Watched.left r).instances = (after r).instances ∧
    (Watched.left r).sent = (after r).sent := by cases r <;> exact ⟨rfl, rfl⟩

theorem credit_left (r : EStateM.Result Exception State Unit) (pid : Nat) : (Watched.left r).credit pid = (after r).credit pid := by
  unfold State.credit State.idle
  rw [(left_eq r).1]

theorem keyed_left {r : EStateM.Result Exception State Unit} (h : (after r).Keyed) : (Watched.left r).Keyed := by
  unfold State.Keyed
  rw [(left_eq r).1]
  exact h

/-- What is looked up, from a state with the calls that are left. -/
theorem Single.given {s : State} (hs : s.Keyed) (hsent : s.sent = w.broker.sent)
    (hcalls : ∀ pid, w.settle x.2 pid + s.credit pid ≤ 1)
    (h : State.Spends w.broker.forward.pid s (after (x.2.program x.1 w.broker))) : (w.step x).Single := by
  refine ⟨keyed_left (h.keyed hs), fun pid => ?_⟩
  obtain ⟨new, hnew, hspent⟩ := h.sent
  have hcall := hcalls pid
  show w.settle x.2 pid + (if pid = w.broker.forward.pid then 0 else bookings pid
    ((Watched.left (x.2.program x.1 w.broker)).sent.drop w.broker.sent.length)) +
      (Watched.left (x.2.program x.1 w.broker)).credit pid ≤ 1
  rw [credit_left, (left_eq _).2, hnew, hsent, List.drop_left]
  split_ifs with hforward
  · have hle := (hspent pid).1
    omega
  · have hle := (hspent pid).2 hforward
    omega

/-- What gives no answer, and makes none idle but those without a call. -/
theorem Single.silent (h : w.Single) {spared spared' : Nat → Prop}
    (hdiscreet : State.Discreet spared' (fun _ => False) w.broker (after (x.2.program x.1 w.broker)))
    (hrests : State.Rests spared w.broker (after (x.2.program x.1 w.broker))) (hspared : ∀ pid, spared pid → w.calls pid = 0) :
    (w.step x).Single := by
  refine ⟨keyed_left (hdiscreet.keyed h.keyed), fun pid => ?_⟩
  obtain ⟨new, hnew, hanswers⟩ := hdiscreet.sent
  have hsettle := w.settle_le x.2 pid
  have hcalls := h.calls pid
  show w.settle x.2 pid + (if pid = w.broker.forward.pid then 0 else bookings pid
    ((Watched.left (x.2.program x.1 w.broker)).sent.drop w.broker.sent.length)) +
      (Watched.left (x.2.program x.1 w.broker)).credit pid ≤ 1
  rw [credit_left, (left_eq _).2, hnew, List.drop_left, bookings_silent hanswers, ite_self]
  by_cases hpid : spared pid
  · have hnone := hspared pid hpid
    have hle := (after (x.2.program x.1 w.broker)).credit_le_one pid
    omega
  · have hle := State.credit_mono (hrests pid hpid)
    omega

theorem Single.ack {env : Environment} {pid : Nat} (h : w.Single) (hcall : 0 < w.calls pid) :
    (w.step (env, .act (.message (.ack pid)))).Single := by
  have hsettle : ∀ pid', w.settle (.act (.message (.ack pid))) pid' = if pid = pid' then w.calls pid' - 1 else w.calls pid' :=
    fun _ => rfl
  rcases State.spends_ack env h.keyed pid with hspends | hspends
  · refine Single.given h.keyed rfl (fun pid' => ?_) hspends
    have hle := w.settle_le (.act (.message (.ack pid))) pid'
    have hcalls := h.calls pid'
    show w.settle (.act (.message (.ack pid))) pid' + w.broker.credit pid' ≤ 1
    omega
  · refine @Single.given w (env, .act (.message (.ack pid))) (w.broker.acked pid)
      (State.keyed_setInstance h.keyed pid fun _ => rfl) rfl (fun pid' => ?_) hspends
    have hcalls := h.calls pid'
    show w.settle (.act (.message (.ack pid))) pid' + (w.broker.acked pid).credit pid' ≤ 1
    rw [hsettle]
    by_cases heq : pid = pid'
    · -- it was the only call
      subst heq
      have hle := (w.broker.acked pid).credit_le_one pid
      rw [if_pos rfl]
      omega
    · have hother : (w.broker.acked pid).credit pid' = w.broker.credit pid' := by
        unfold State.credit
        rw [State.idle_acked, if_neg (Ne.symm heq)]
      rw [if_neg heq, hother]
      exact hcalls

theorem Single.step (h : w.Single) (hx : w.admits x) : (w.step x).Single := by
  obtain ⟨env, work⟩ := x
  have hquiet : ∀ {work : Work}, Moves (State.Discreet (fun _ => True) fun _ => False) (work.program env) →
      Moves (State.Rests fun _ => False) (work.program env) → (w.step (env, work)).Single :=
    fun hdiscreet hrests => h.silent (hdiscreet.after _) (hrests.after _) fun _ => False.elim
  cases work with
  | forward message => exact hquiet (State.discreet_connectForward env message) (State.rests_connectForward env message)
  | act a =>
    cases a with
    | connectBroker id process services =>
      refine h.silent ((@State.discreet_connectBroker (fun _ => True) (fun _ => False) id process services).after _)
        ((@State.rests_connectBroker (· = process.pid) id process rfl services).after _) ?_
      rintro _ rfl
      exact hx.2
    | boot id => exact hquiet (State.discreet_bootOne env id) (State.rests_bootOne env id)
    | message e =>
      cases e with
      | connect message =>
        refine h.silent ((@State.discreet_connectServer (fun _ => True) (fun _ => False) env message trivial).after _)
          ((@State.rests_connectServer (· = message.process.pid) env message rfl).after _) ?_
        rintro _ rfl
        exact hx.2
      | advertise pid services =>
        exact hquiet (State.discreet_catchMissing (State.discreet_addServices pid _) (.pure _))
          (State.rests_catchMissing (State.rests_addServices pid _) (.pure _))
      | unadvertise pid services =>
        exact hquiet (State.discreet_catchMissing (State.discreet_removeServices pid _) (.pure _))
          (State.rests_catchMissing (State.rests_removeServices pid _) (.pure _))
      | lookup message =>
        refine Single.given h.keyed rfl (fun pid => ?_) (State.spends_serviceLookup env h.keyed message)
        have hsettle := w.settle_le (.act (.message (.lookup message))) pid
        have hcalls := h.calls pid
        show w.settle (.act (.message (.lookup message))) pid + w.broker.credit pid ≤ 1
        omega
      | ack pid => exact h.ack hx.2
      | dead pid reason =>
        exact hquiet (State.discreet_deadEvent env fun _ => trivial) (State.rests_deadEvent env pid reason)
      | update name instances =>
        exact hquiet (State.discreet_serviceUpdateInstances env name instances)
          (State.rests_serviceUpdateInstances env name instances)
      | registration process =>
        exact hquiet (State.discreet_modify fun _ => .of_instances rfl rfl rfl) (State.rests_modify fun _ => .of_instances rfl)
      | lookupProcess message =>
        exact hquiet (State.discreet_of_aside (State.aside_lookupProcess env message))
          (State.rests_of_aside (State.aside_lookupProcess env message))
      | ready pid =>
        have hready : Moves (State.Discreet (fun _ => True) fun _ => False) (State.ready pid) := by
          refine .bind (State.discreet_of_aside (State.aside_getInstance pid)) fun _ => ?_
          exact State.discreet_modify fun s => State.discreet_alterState s trivial _
        refine h.silent (hready.after _) ((@State.rests_ready (· = pid) pid rfl).after _) ?_
        rintro _ rfl
        exact hx.2

/-- In every run an instance is given to one caller at a time: what it is looked up for while it is busy waits, and when
it is idle it has acknowledged every call it was given for. -/
theorem booked_once {w : Serving} (h : machine.Reachable w) (pid : Nat) :
    w.calls pid ≤ 1 ∧ (w.broker.idle pid → w.calls pid = 0) := by
  have hsingle : w.Single := by
    apply h.invariant
    · rintro w ⟨hinstances, -, hcalls⟩
      refine ⟨fun pid i hi => ?_, fun pid => ?_⟩
      · rw [hinstances] at hi
        cases hi
      · rw [hcalls, Nat.zero_add]
        exact w.broker.credit_le_one pid
    · rintro w x hsingle hx
      exact hsingle.step hx
  have hcalls := hsingle.calls pid
  refine ⟨by omega, fun hidle => ?_⟩
  unfold State.credit at hcalls
  rw [hidle] at hcalls
  exact Nat.le_zero.1 (Nat.le_of_succ_le_succ hcalls)

/-! ### A run -/

instance : ∀ w x, Decidable (admits w x)
  | w, (_, .act (.message (.ack pid))) => inferInstanceAs (Decidable (w.broker.running = true ∧ 0 < w.calls pid))
  | w, (_, .act (.message (.connect message))) =>
    inferInstanceAs (Decidable (w.broker.running = true ∧ w.calls message.process.pid = 0))
  | w, (_, .act (.message (.ready pid))) => inferInstanceAs (Decidable (w.broker.running = true ∧ w.calls pid = 0))
  | w, (_, .act (.connectBroker _ process _)) => inferInstanceAs (Decidable (w.broker.running = true ∧ w.calls process.pid = 0))
  | w, (_, .forward _) | w, (_, .act (.boot _)) | w, (_, .act (.message (.lookup _))) | w, (_, .act (.message (.advertise ..)))
  | w, (_, .act (.message (.unadvertise ..))) | w, (_, .act (.message (.dead ..))) | w, (_, .act (.message (.update ..)))
  | w, (_, .act (.message (.registration _))) | w, (_, .act (.message (.lookupProcess _))) =>
    inferInstanceAs (Decidable (w.broker.running = true ∧ True))

instance : ∀ w x, Decidable (machine.admits w x) := fun w x => inferInstanceAs (Decidable (admits w x))

/-- A broker with a server of two instances that have not connected. -/
def idleServers : Serving := ⟨State.configured 2, fun _ => 0⟩

/-- Three callers look up a service of two instances, one of which acknowledges. -/
def contended : List (Environment × Work) := Watched.messages
  [.update "server" 2, State.connectOf 1, State.connectOf 2, State.lookupOf 1, State.lookupOf 2, State.lookupOf 3, .ack 1]

/-- The third caller gets the one that has acknowledged. -/
theorem contended_booked : ∃ w, machine.Reachable w ∧ w.calls 1 = 1 ∧ w.calls 1 ≤ 1 ∧ (w.broker.idle 1 → w.calls 1 = 0) := by
  have hinit : machine.init idleServers := ⟨fun _ => rfl, rfl, fun _ => rfl⟩
  have hreach : machine.Reachable (contended.foldl machine.step idleServers) := by
    apply Machine.Reachable.foldl (.of_init hinit)
    decide +kernel
  exact ⟨_, hreach, by decide +kernel, booked_once hreach 1⟩

end Serving

end Casual.Broker

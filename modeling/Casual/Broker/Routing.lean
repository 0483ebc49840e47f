/-
Lookups and instances that are told to shut down: none is answered with such an instance, as long as what
the instance sends does not flag it as idle again.
-/
import Casual.Broker.References

namespace Casual.Broker

open Casual.Common Casual.Communication Casual.Lib

/-- The process that a lookup is answered with. -/
def Reply.answer : Reply → Option Nat
  | .lookup _ _ p .idle => some p.pid
  | _ => none

namespace State

/-- An instance that is flagged as one that shuts down. -/
def marked (s : State) (pid : Nat) : Bool := (s.instances pid).any fun i => i.state == .shutdown

/-- Instances are known by their pids. -/
def Keyed (s : State) : Prop := ∀ pid i, s.instances pid = some i → i.process.pid = pid

theorem marked_iff {s : State} {pid : Nat} : s.marked pid ↔ ∃ i, s.instances pid = some i ∧ i.state = .shutdown := by
  unfold marked
  rw [Option.any_eq_true]
  simp only [beq_iff_eq]

theorem idle_iff {s : State} {pid : Nat} : s.idle pid ↔ ∃ i, s.instances pid = some i ∧ i.state = .idle := by
  unfold idle
  rw [Option.any_eq_true]
  simp only [beq_iff_eq]

theorem not_idle_of_marked {s : State} {pid : Nat} (h : s.marked pid) : ¬ s.idle pid := by
  intro hidle
  obtain ⟨i, hi, hstate⟩ := marked_iff.1 h
  obtain ⟨j, hj, hstate'⟩ := idle_iff.1 hidle
  obtain rfl := Option.some.inj (hi.symm.trans hj)
  rw [hstate] at hstate'
  cases hstate'

/-! ## What is sent besides -/

/-- Lookups are answered only with processes of a kind. -/
def Answered (ok : Nat → Prop) (s t : State) : Prop :=
  ∃ new, t.sent = s.sent ++ new ∧ ∀ entry ∈ new, ∀ pid, entry.2.answer = some pid → ok pid

theorem Answered.of_same {ok : Nat → Prop} {s t : State} (h : t.sent = s.sent) : Answered ok s t :=
  ⟨[], by rw [h, List.append_nil], fun _ hmem => absurd hmem List.not_mem_nil⟩

theorem Answered.trans {ok : Nat → Prop} {s t u : State} (h : Answered ok s t) (h' : Answered ok t u) : Answered ok s u := by
  obtain ⟨new, hnew, hok⟩ := h
  obtain ⟨new', hnew', hok'⟩ := h'
  refine ⟨new ++ new', by rw [hnew', hnew, List.append_assoc], fun entry hentry => ?_⟩
  rcases List.mem_append.1 hentry with hentry | hentry
  · exact hok entry hentry
  · exact hok' entry hentry

theorem Answered.mono {ok ok' : Nat → Prop} {s t : State} (h : Answered ok s t) (hok : ∀ pid, ok pid → ok' pid) : Answered ok' s t := by
  obtain ⟨new, hnew, hanswer⟩ := h
  exact ⟨new, hnew, fun entry hentry pid hpid => hok pid (hanswer entry hentry pid hpid)⟩

/-- Neither instances nor requests are touched, and no lookup is answered. -/
structure Aside (s t : State) : Prop where
  instances : t.instances = s.instances
  requests : t.requests = s.requests
  sent : Answered (fun _ => False) s t

theorem Aside.of_same {s t : State} (hinstances : t.instances = s.instances) (hrequests : t.requests = s.requests)
    (hsent : t.sent = s.sent) : Aside s t := ⟨hinstances, hrequests, .of_same hsent⟩

instance : Std.Refl Aside := ⟨fun _ => .of_same rfl rfl rfl⟩

instance : IsTrans State Aside := by
  constructor
  rintro s t u h h'
  exact ⟨h'.instances.trans h.instances, h'.requests.trans h.requests, h.sent.trans h'.sent⟩

section Programs

variable (env : Environment)

theorem aside_modify {f : State → State} (h : ∀ s, Aside s (f s)) : Moves Aside (modify f : M Unit) := .modify h

theorem aside_getInstance (pid : Nat) : Moves Aside (getInstance pid) := by
  refine ⟨fun s => ?_⟩
  unfold getInstance
  split <;> exact Std.Refl.refl s

theorem aside_getService (name : String) : Moves Aside (getService name) := by
  refine ⟨fun s => ?_⟩
  unfold getService
  split <;> exact Std.Refl.refl s

theorem aside_getServer (id : Nat) : Moves Aside (getServer id) := by
  refine ⟨fun s => ?_⟩
  unfold getServer
  split <;> exact Std.Refl.refl s

theorem aside_reading : Moves Aside reading := ⟨fun _ => .of_same rfl rfl rfl⟩

theorem aside_push (queue : Nat) {reply : Reply} (h : reply.answer = none) : Moves Aside (modify (push queue reply) : M Unit) := by
  refine aside_modify fun s => ⟨rfl, rfl, [(queue, reply)], rfl, ?_⟩
  intro entry hentry pid hpid
  rw [List.mem_singleton.1 hentry, h] at hpid
  cases hpid

theorem aside_blockingSend (queue : Nat) {reply : Reply} (h : reply.answer = none) : Moves Aside (blockingSend env queue reply) := by
  refine .bind aside_reading fun _ => .ite ?_ (aside_push _ h)
  exact .bind (.throw _) fun _ => aside_push _ h

theorem aside_nonBlockingSend (queue : Nat) {reply : Reply} (h : reply.answer = none) :
    Moves Aside (nonBlockingSend env queue reply) := by
  refine .bind aside_reading fun n => .ite (.throw _) (.ite (.pure _) ?_)
  exact .bind (aside_push _ h) fun _ => .pure _

theorem aside_pendingSend {reply : Reply} (h : reply.answer = none) : ∀ targets, Moves Aside (pendingSend env reply targets)
  | [] => .pure _
  | queue :: targets => by
    have ih := aside_pendingSend h targets
    refine .bind aside_reading fun n => .ite ih (.ite ?_ ?_)
    · exact .bind ih fun _ => .pure _
    · exact .bind (aside_push _ h) fun _ => ih

theorem aside_lookupProcess (message : ProcessLookup) : Moves Aside (lookupProcess env message) := by
  have hsend : ∀ process : Process, Moves Aside (do
      let reply := Reply.process message.correlation message.identification process
      if !(← nonBlockingSend env message.process.queue reply) then
        modify fun s => { s with replies := s.replies ++ [([message.process.queue], reply)] } : M Unit) := by
    intro process
    refine .bind (aside_nonBlockingSend env _ rfl) fun sent => .ite ?_ (.pure _)
    exact aside_modify fun _ => .of_same rfl rfl rfl
  apply Moves.bind .get
  intro s
  simp only []
  split
  · exact hsend _
  · refine .ite ?_ (hsend _)
    exact aside_modify fun _ => .of_same rfl rfl rfl

theorem aside_connectSingleton (message : ConnectRequest) : Moves Aside (connectSingleton env message) := by
  apply Moves.bind .get
  intro s
  split
  · refine .ite ?_ (.pure _)
    refine .bind (aside_blockingSend env _ rfl) fun _ => .bind (aside_getInstance _) fun i => .bind (aside_getServer _) fun server => ?_
    refine .bind ?_ fun _ => .pure _
    exact aside_modify fun s => .of_same rfl rfl rfl
  · refine .bind ?_ fun _ => .bind (.forM (aside_lookupProcess env) _) fun _ => .pure _
    exact aside_modify fun _ => .of_same rfl rfl rfl

theorem aside_connect (message : ConnectRequest) : Moves Aside (connect env message) := by
  have hsend : ∀ accepted : Bool, Moves Aside (do
      if accepted then
        blockingSend env message.process.queue (.connect message.correlation .start)
      return accepted : M Bool) := by
    intro accepted
    apply Moves.ite
    · exact .bind (aside_blockingSend env _ rfl) fun _ => .pure _
    · exact .pure _
  refine .bind .get fun _ => .ite ?_ (.ite ?_ ?_)
  · exact .bind (aside_blockingSend env _ rfl) fun _ => .pure _
  · exact .bind (aside_connectSingleton env message) hsend
  · exact .bind (.pure _) hsend

theorem aside_notify (pid : Nat) (reason : Reason) : Moves Aside (notify env pid reason) := by
  refine .bind .get fun s => .ite ?_ (.pure _)
  refine .bind (aside_pendingSend env rfl _) fun left => .ite ?_ (.pure _)
  exact aside_modify fun _ => .of_same rfl rfl rfl

theorem aside_spawn : ∀ n, Moves Aside (spawn env n)
  | 0 => .pure _
  | n + 1 => by
    apply Moves.bind aside_reading
    intro reading
    split
    · exact .throw _
    · exact .bind (aside_spawn n) fun _ => .pure _

end Programs

/-! ## Marks that stay -/

/-- A request that waits is one of a caller that awaits the answer. -/
def Regular (s : State) : Prop := ∀ request ∈ s.requests, request.context = .regular

/-- Marks stay, except those of the instances that are spared, and lookups are answered only with processes of a kind. -/
structure Discreet (spared ok : Nat → Prop) (s t : State) : Prop where
  keyed : s.Keyed → t.Keyed
  marked : ∀ pid, ¬ spared pid → s.marked pid → t.marked pid
  regular : s.Regular → t.Regular
  sent : Answered ok s t

section

variable {spared ok : Nat → Prop}

instance : Std.Refl (Discreet spared ok) := ⟨fun _ => ⟨fun h => h, fun _ _ h => h, fun h => h, .of_same rfl⟩⟩

instance : IsTrans State (Discreet spared ok) := by
  constructor
  rintro s t u h h'
  exact ⟨fun hs => h'.keyed (h.keyed hs), fun pid hpid hs => h'.marked pid hpid (h.marked pid hpid hs),
    fun hs => h'.regular (h.regular hs), h.sent.trans h'.sent⟩

theorem Aside.discreet {s t : State} (h : Aside s t) : Discreet spared ok s t := by
  refine ⟨fun hs => ?_, fun pid _ hs => ?_, fun hs => ?_, h.sent.mono fun _ => False.elim⟩
  · unfold Keyed
    rw [h.instances]
    exact hs
  · unfold State.marked
    rw [h.instances]
    exact hs
  · unfold Regular
    rw [h.requests]
    exact hs

theorem Discreet.of_instances {s t : State} (hinstances : t.instances = s.instances) (hrequests : t.requests = s.requests)
    (hsent : t.sent = s.sent) : Discreet spared ok s t :=
  Aside.discreet ⟨hinstances, hrequests, .of_same hsent⟩

theorem keyed_setInstance {s : State} (hs : s.Keyed) (pid : Nat) {f : Instance → Instance}
    (hf : ∀ i, (f i).process.pid = i.process.pid) : (s.setInstance pid f).Keyed := by
  intro pid' i hi
  by_cases heq : pid' = pid
  · subst heq
    rw [instances_setInstance_self] at hi
    obtain ⟨j, hj, rfl⟩ := Option.map_eq_some_iff.1 hi
    exact (hf j).trans (hs pid' j hj)
  · have hother : (s.setInstance pid f).instances pid' = s.instances pid' := Function.update_of_ne heq ..
    exact hs pid' i (hother ▸ hi)

theorem marked_setInstance_of_ne (s : State) {pid pid' : Nat} (h : pid' ≠ pid) (f : Instance → Instance) :
    (s.setInstance pid f).marked pid' = s.marked pid' := by
  have hother : (s.setInstance pid f).instances pid' = s.instances pid' := Function.update_of_ne h ..
  unfold State.marked
  rw [hother]

theorem marked_setInstance {s : State} {pid pid' : Nat} {f : Instance → Instance}
    (hf : ∀ i, i.state = .shutdown → (f i).state = .shutdown) (h : s.marked pid') : (s.setInstance pid f).marked pid' := by
  by_cases heq : pid' = pid
  · subst heq
    obtain ⟨i, hi, hstate⟩ := marked_iff.1 h
    refine marked_iff.2 ⟨f i, ?_, hf i hstate⟩
    rw [instances_setInstance_self, hi]
    rfl
  · rw [marked_setInstance_of_ne s heq]
    exact h

theorem discreet_setInstance (s : State) (pid : Nat) {f : Instance → Instance} (hprocess : ∀ i, (f i).process.pid = i.process.pid)
    (hf : ∀ i, i.state = .shutdown → (f i).state = .shutdown) : Discreet spared ok s (s.setInstance pid f) :=
  ⟨fun hs => keyed_setInstance hs pid hprocess, fun _ _ => marked_setInstance hf, fun hs => hs, .of_same rfl⟩

theorem discreet_alterState (s : State) {pid : Nat} (h : spared pid) (state : InstanceState) :
    Discreet spared ok s (s.alterState pid state) := by
  refine ⟨fun hs => keyed_setInstance hs pid fun _ => rfl, fun pid' hpid' hs => ?_, fun hs => hs, .of_same rfl⟩
  have hne : pid' ≠ pid := fun heq => hpid' (heq ▸ h)
  exact (marked_setInstance_of_ne s hne _).trans hs

/-- An instance that is put in its place, or taken from it, where no mark is lost. -/
theorem discreet_update {s t : State} {pid : Nat} {value : Option Instance} (hinstances : t.instances = Function.update s.instances pid value)
    (hrequests : t.requests = s.requests) (hsent : t.sent = s.sent) (hkey : ∀ i, value = some i → i.process.pid = pid)
    (hmark : spared pid ∨ ¬ s.marked pid) : Discreet spared ok s t := by
  refine ⟨fun hs pid' i hi => ?_, fun pid' hpid' hs => ?_, fun hs => ?_, .of_same hsent⟩
  · rw [hinstances] at hi
    by_cases heq : pid' = pid
    · subst heq
      rw [Function.update_self] at hi
      exact hkey i hi
    · rw [Function.update_of_ne heq] at hi
      exact hs pid' i hi
  · obtain ⟨i, hi, hstate⟩ := marked_iff.1 hs
    have hne : pid' ≠ pid := by
      rintro rfl
      exact hmark.elim hpid' fun hunmarked => hunmarked hs
    refine marked_iff.2 ⟨i, ?_, hstate⟩
    rw [hinstances, Function.update_of_ne hne, hi]
  · unfold Regular
    rw [hrequests]
    exact hs

section Programs

variable (env : Environment)

theorem discreet_modify {f : State → State} (h : ∀ s, Discreet spared ok s (f s)) : Moves (Discreet spared ok) (modify f : M Unit) := .modify h

theorem discreet_of_aside {α : Type} {x : M α} (h : Moves Aside x) : Moves (Discreet spared ok) x := h.mono fun _ _ => Aside.discreet

theorem discreet_catchMissing {x handler : M Unit} (hx : Moves (Discreet spared ok) x) (hhandler : Moves (Discreet spared ok) handler) :
    Moves (Discreet spared ok) (catchMissing x handler) := by
  apply Moves.tryCatch hx
  intro e
  cases e
  · exact hhandler
  · exact .throw _
  · exact .throw _

theorem discreet_foldl {α : Type} {f : State → α → State} (h : ∀ s a, Discreet spared ok s (f s a)) : ∀ (l : List α) (s : State),
    Discreet spared ok s (l.foldl f s)
  | [], s => Std.Refl.refl s
  | a :: l, s => IsTrans.trans _ _ _ (h s a) (discreet_foldl h l (f s a))

theorem discreet_addService (s : State) (pid : Nat) (service : Service) : Discreet spared ok s (addService pid service s) := by
  have hemplace : Discreet spared ok s (s.emplace service) := by
    refine .of_instances (instances_emplace s service) (requests_emplace s service) ?_
    unfold emplace
    split <;> rfl
  refine IsTrans.trans _ _ _ hemplace (IsTrans.trans _ _ _ ?_ (discreet_setInstance _ pid (fun _ => rfl) fun _ h => h))
  exact .of_instances rfl rfl rfl

theorem discreet_addServices (pid : Nat) (services : List Service) : Moves (Discreet spared ok) (addServices pid services) := by
  refine .bind (discreet_of_aside (aside_getInstance _)) fun i => .bind (discreet_of_aside (aside_getServer _)) fun server => ?_
  exact discreet_modify fun s => discreet_foldl (fun s service => discreet_addService s pid service) _ s

theorem discreet_removeServices (pid : Nat) (services : List Service) : Moves (Discreet spared ok) (removeServices pid services) := by
  refine .bind (discreet_of_aside (aside_getInstance _)) fun _ => ?_
  refine discreet_modify fun s => discreet_foldl (fun s service => ?_) _ s
  exact IsTrans.trans _ (s.setInstance pid fun i => { i with services := i.services.erase service.information.name }) _
    (discreet_setInstance s pid (fun _ => rfl) fun _ h => h) (.of_instances rfl rfl rfl)

theorem discreet_started (s : State) (id pid : Nat) : Discreet spared ok s (if (s.instances pid).isSome then s
    else { s with instances := Function.update s.instances pid (some (started id pid)) }) := by
  split_ifs with hsome
  · exact Std.Refl.refl s
  · have hunmarked : ¬ s.marked pid := by
      intro hmarked
      obtain ⟨i, hi, -⟩ := marked_iff.1 hmarked
      rw [hi] at hsome
      exact hsome rfl
    refine discreet_update rfl rfl rfl ?_ (.inr hunmarked)
    rintro _ ⟨⟩
    rfl

theorem discreet_addInstances (id : Nat) (pids : List Nat) : Moves (Discreet spared ok) (addInstances id pids) := by
  refine ⟨fun s => ?_⟩
  unfold addInstances
  split_ifs
  · refine IsTrans.trans _ _ _ (discreet_foldl (fun s pid => discreet_started s id pid) pids s) ?_
    exact .of_instances rfl rfl rfl
  · exact .of_instances rfl rfl rfl
  · exact Std.Refl.refl s

theorem discreet_boot (executable : Executable) (instances : Nat) : Moves (Discreet spared ok) (boot env executable instances) := by
  refine .ite ?_ (.pure _)
  exact .bind (discreet_of_aside (aside_spawn env _)) fun _ => discreet_addInstances _ _

theorem discreet_shutdownInstance (pid : Nat) : Moves (Discreet spared ok) (shutdownInstance env pid) := by
  refine .bind .get fun s => .ite ?_ (.pure _)
  apply Moves.tryCatch
  · refine .bind (discreet_of_aside (aside_getInstance _)) fun i => .bind ?_ fun _ =>
      .bind (discreet_of_aside (aside_nonBlockingSend env _ rfl)) fun sent => .ite ?_ (.pure _)
    · exact discreet_modify fun s => discreet_setInstance s pid (fun _ => rfl) fun _ _ => rfl
    · exact discreet_modify fun _ => .of_instances rfl rfl rfl
  · intro e
    cases e
    · exact .pure _
    · exact .pure _
    · exact .throw _

theorem discreet_updateInstances (id : Nat) : Moves (Discreet spared ok) (updateInstances env id) := by
  refine .bind (discreet_of_aside (aside_getServer _)) fun server => .ite (discreet_boot env _ _) ?_
  exact .forM (discreet_shutdownInstance env) _

theorem discreet_updateServers (name : String) (instances : Nat) : Moves (Discreet spared ok) (updateServers env name instances) := by
  refine .bind .get fun _ => .forM (fun server => .bind ?_ fun _ => discreet_updateInstances env _) _
  exact discreet_modify fun _ => .of_instances rfl rfl rfl

theorem discreet_serviceUpdateInstances (name : String) (instances : Nat) :
    Moves (Discreet spared ok) (serviceUpdateInstances env name instances) :=
  .tryCatch (discreet_updateServers env name instances) fun _ => .pure _

/-! ### Processes that are gone -/

theorem discreet_removeFromServices (pid : Nat) : ∀ names, Moves (Discreet spared ok) (removeFromServices pid names)
  | [] => .pure _
  | name :: names => by
    refine .bind (discreet_of_aside (aside_getService _)) fun _ => .bind ?_ fun _ => discreet_removeFromServices pid names
    exact discreet_modify fun _ => .of_instances rfl rfl rfl

theorem discreet_removeInstance {pid : Nat} (h : spared pid) (i : Instance) : Moves (Discreet spared ok) (removeInstance pid i) := by
  refine .bind (discreet_removeFromServices pid _) fun _ => .bind (discreet_of_aside (aside_getServer _)) fun server => ?_
  exact discreet_modify fun s => discreet_update rfl rfl rfl nofun (.inl h)

theorem discreet_removeProcess {pid : Nat} (h : spared pid) : Moves (Discreet spared ok) (removeProcess pid) := by
  have hsingleton : Moves (Discreet spared ok) (modify (removeSingleton pid) : M Unit) :=
    discreet_modify fun _ => .of_instances rfl rfl rfl
  apply Moves.bind .get
  intro s
  split
  · exact .bind (discreet_removeInstance h _) fun _ => hsingleton
  · split
    · exact discreet_modify fun _ => .of_instances rfl rfl rfl
    · exact hsingleton

theorem discreet_deadEvent {pid : Nat} {reason : Reason} (h : reason.deceased → spared pid) :
    Moves (Discreet spared ok) (deadEvent env pid reason) := by
  unfold deadEvent
  split_ifs with hdeceased
  case neg => exact .pure _
  have h := h hdeceased
  refine .bind ?_ fun _ => .bind (discreet_of_aside (aside_notify env pid reason)) fun _ => ?_
  · exact discreet_modify fun _ => .of_instances rfl rfl rfl
  · refine .bind (discreet_of_aside (aside_getInstance _)) fun i => .bind (discreet_of_aside (aside_getServer _)) fun server => ?_
    refine .bind ?_ fun _ => .bind (discreet_removeProcess h) fun _ => .ite (discreet_updateInstances env _) (.pure _)
    exact discreet_modify fun _ => .of_instances rfl rfl rfl

/-! ### Lookups -/

theorem discreet_push (queue : Nat) {reply : Reply} (h : ∀ pid, reply.answer = some pid → ok pid) :
    Moves (Discreet spared ok) (modify (push queue reply) : M Unit) := by
  refine discreet_modify fun s => ⟨fun hs => hs, fun _ _ hs => hs, fun hs => hs, [(queue, reply)], rfl, ?_⟩
  intro entry hentry
  rw [List.mem_singleton.1 hentry]
  exact h

theorem discreet_blockingSend (queue : Nat) {reply : Reply} (h : ∀ pid, reply.answer = some pid → ok pid) :
    Moves (Discreet spared ok) (blockingSend env queue reply) := by
  refine .bind (discreet_of_aside aside_reading) fun _ => .ite ?_ (discreet_push _ h)
  exact .bind (.throw _) fun _ => discreet_push _ h

theorem discreet_busy {s : State} {pid : Nat} (h : s.idle pid) : Discreet spared ok s (s.alterState pid .busy) := by
  refine ⟨fun hs => keyed_setInstance hs pid fun _ => rfl, fun pid' _ hs => ?_, fun hs => hs, .of_same rfl⟩
  have hne : pid' ≠ pid := by
    rintro rfl
    exact not_idle_of_marked hs h
  exact (marked_setInstance_of_ne s hne _).trans hs

/-- A lookup is answered with an idle instance, or with the forward cache when nobody awaits the answer of the call. -/
theorem discreet_serviceLookup {s : State} {message : LookupRequest}
    (hidle : ∀ pid i, s.instances pid = some i → i.state = .idle → ok i.process.pid)
    (hforward : message.context ≠ .regular → (s.services message.requested).isSome →
      (s.hosts message.requested).find? s.idle = none → ok s.forward.pid) :
    Discreet spared ok s (after (serviceLookup env message s)) := by
  have habsent : Moves (Discreet spared ok) (blockingSend env message.process.queue
      (.lookup message.correlation ⟨message.requested, 0, 0, [], 0⟩ nullProcess .absent)) := discreet_blockingSend env _ nofun
  have hstate : (get : M State) s = .ok s s := rfl
  -- what the body leaves, and the handler after it when something is missing
  have hcatch : ∀ {x : M Unit}, Discreet spared ok s (after (x s)) → Discreet spared ok s (after (catchMissing x (blockingSend env
      message.process.queue (.lookup message.correlation ⟨message.requested, 0, 0, [], 0⟩ nullProcess .absent)) s)) := by
    intro x hx
    unfold catchMissing
    cases hr : x s with
    | ok a t =>
      rw [hr] at hx
      rw [tryCatch_ok hr]
      exact hx
    | error e t =>
      rw [hr] at hx
      rw [tryCatch_error hr]
      cases e
      · exact IsTrans.trans _ _ _ hx (habsent.after t)
      · exact hx
      · exact hx
  apply hcatch
  cases hservice : s.services message.requested with
  | none =>
    have hget : getService message.requested s = .error .missing s := by
      unfold getService
      rw [hservice]
    rw [bind_error hget]
    exact Std.Refl.refl s
  | some service =>
    have hget : getService message.requested s = .ok service s := by
      unfold getService
      rw [hservice]
    rw [bind_ok hget, bind_ok hstate]
    cases hfind : service.instances.find? s.idle with
    | some pid =>
      have hpid := List.find?_some hfind
      obtain ⟨i, hi, hi'⟩ := idle_iff.1 hpid
      have hgetInstance : getInstance pid s = .ok i s := by
        unfold getInstance
        rw [hi]
      have halter : (modify (alterState pid .busy) : M Unit) s = .ok () (s.alterState pid .busy) := rfl
      simp only []
      rw [bind_ok hgetInstance, bind_ok halter]
      refine IsTrans.trans _ _ _ (discreet_busy hpid) (Moves.after (Moves.bind (discreet_blockingSend env _ ?_) fun _ => ?_) _)
      · rintro _ ⟨⟩
        exact hidle pid i hi hi'
      · exact discreet_modify fun _ => .of_instances rfl rfl rfl
    | none =>
      have hhosts : s.hosts message.requested = service.instances := by
        unfold hosts
        rw [hservice]
        rfl
      simp only []
      split_ifs with hcontext
      · refine (discreet_blockingSend env _ ?_).after s
        rintro _ ⟨⟩
        exact hforward hcontext (by rw [hservice]; rfl) (hhosts ▸ hfind)
      · refine IsTrans.trans _ { s with requests := s.requests ++ [message] } _ ?_ ((discreet_blockingSend env _ nofun).after _)
        refine ⟨fun hs => hs, fun _ _ hs => hs, fun hs request hrequest => ?_, .of_same rfl⟩
        rcases List.mem_append.1 hrequest with hrequest | hrequest
        · exact hs request hrequest
        · rw [List.mem_singleton.1 hrequest]
          exact not_not.1 hcontext

/-- An instance that acknowledges is idle, and may serve a request that waits. -/
theorem discreet_ack {s : State} {pid : Nat} (hs : s.Regular)
    (hidle : ∀ pid i, s.instances pid = some i → i.state = .idle → ok i.process.pid)
    (hack : ∀ i, s.instances pid = some i → ok i.process.pid) (hpid : spared pid) :
    Discreet spared ok s (after (ack env pid s)) := by
  have hset : (modify (acked pid) : M Unit) s = .ok () (s.acked pid) := rfl
  have hstate : (get : M State) (s.acked pid) = .ok (s.acked pid) (s.acked pid) := rfl
  have hacked : Discreet spared ok s (s.acked pid) := by
    refine ⟨fun hs => keyed_setInstance hs pid fun _ => rfl, fun pid' hpid' hs => ?_, fun hs => hs, .of_same rfl⟩
    have hne : pid' ≠ pid := fun heq => hpid' (heq ▸ hpid)
    exact (marked_setInstance_of_ne s hne _).trans hs
  have hidle' : ∀ pid' i, (s.acked pid).instances pid' = some i → i.state = .idle → ok i.process.pid := by
    intro pid' i hi hi'
    by_cases heq : pid' = pid
    · subst heq
      unfold acked at hi
      rw [instances_setInstance_self] at hi
      obtain ⟨j, hj, rfl⟩ := Option.map_eq_some_iff.1 hi
      exact hack j hj
    · have hother : (s.acked pid).instances pid' = s.instances pid' := Function.update_of_ne heq ..
      exact hidle pid' i (hother ▸ hi) hi'
  have hserve : ∀ services, Discreet spared ok (s.acked pid) (after (servePending env services (s.acked pid))) := by
    intro services
    unfold servePending
    rw [bind_ok hstate]
    cases hfind : (s.acked pid).requests.find? (waitsFor services) with
    | none => exact Std.Refl.refl _
    | some request =>
      have hregular : request.context = .regular := hs request (List.mem_of_find?_eq_some hfind)
      have hlookup : Discreet spared ok (s.acked pid) (after (serviceLookup env request (s.acked pid))) :=
        discreet_serviceLookup env hidle' fun hcontext => absurd hregular hcontext
      simp only []
      cases hr : serviceLookup env request (s.acked pid) with
      | error e t =>
        rw [hr] at hlookup
        rw [bind_error hr]
        exact hlookup
      | ok a t =>
        rw [hr] at hlookup
        rw [bind_ok hr]
        refine IsTrans.trans _ t _ hlookup ?_
        exact ⟨fun ht => ht, fun _ _ ht => ht, fun ht request hrequest => ht request (List.eraseP_subset hrequest), .of_same rfl⟩
  unfold ack catchMissing
  cases hi : s.instances pid with
  | none =>
    have hget : getInstance pid s = .error .missing s := by
      unfold getInstance
      rw [hi]
    rw [tryCatch_error (bind_error hget)]
    exact Std.Refl.refl s
  | some i =>
    have hget : getInstance pid s = .ok i s := by
      unfold getInstance
      rw [hi]
    have hbody : ((do
        let i ← getInstance pid
        modify (acked pid)
        servePending env i.services) : M Unit) s = servePending env i.services (s.acked pid) := by
      rw [bind_ok hget, bind_ok hset]
    have hafter := IsTrans.trans _ _ _ hacked (hserve i.services)
    cases hr : servePending env i.services (s.acked pid) with
    | ok a t =>
      rw [hr] at hafter
      rw [tryCatch_ok (hbody.trans hr)]
      exact hafter
    | error e t =>
      rw [hr] at hafter
      rw [tryCatch_error (hbody.trans hr)]
      cases e <;> exact hafter

/-! ### Connects -/

theorem discreet_located (s : State) (message : ConnectRequest) : Discreet spared ok s (s.located message) :=
  discreet_setInstance s _ (fun _ => rfl) fun _ h => h

theorem discreet_connectServer {message : ConnectRequest} (h : spared message.process.pid) :
    Moves (Discreet spared ok) (connectServer env message) := by
  refine discreet_catchMissing ?_ (.pure _)
  refine .bind (discreet_of_aside (aside_getInstance _)) fun _ => .bind ?_ fun _ =>
    .bind (discreet_of_aside (aside_connect env message)) fun accepted => .ite ?_ (.pure _)
  · exact discreet_modify fun s => discreet_located s message
  · refine .bind (discreet_addServices _ _) fun _ => ?_
    exact discreet_modify fun s => discreet_alterState s h _

/-- Of a connect that is refused only the queue is kept. -/
theorem discreet_refused {s : State} {message : ConnectRequest} (h : ¬ s.accepts message) :
    Discreet spared ok s (after (connectServer env message s)) := by
  have hset : (modify (located message) : M Unit) s = .ok () (s.located message) := rfl
  unfold connectServer catchMissing
  cases hi : s.instances message.process.pid with
  | none =>
    have hget : getInstance message.process.pid s = .error .missing s := by
      unfold getInstance
      rw [hi]
    rw [tryCatch_error (bind_error hget)]
    exact Std.Refl.refl s
  | some i =>
    have hget : getInstance message.process.pid s = .ok i s := by
      unfold getInstance
      rw [hi]
    have hconnect : Discreet spared ok s (after (connect env message (s.located message))) :=
      IsTrans.trans _ _ _ (discreet_located s message) ((aside_connect env message).after _).discreet
    cases hr : connect env message (s.located message) with
    | error e t =>
      rw [hr] at hconnect
      rw [tryCatch_error (by rw [bind_ok hget, bind_ok hset, bind_error hr])]
      cases e <;> exact hconnect
    | ok accepted t =>
      rw [hr] at hconnect
      cases accepted with
      | true => exact absurd (connect_true env hr).1 h
      | false =>
        rw [tryCatch_ok (by rw [bind_ok hget, bind_ok hset, bind_ok hr]; rfl)]
        exact hconnect

theorem discreet_connectForward (message : ConnectRequest) : Moves (Discreet spared ok) (connectForward env message) := by
  refine .bind (discreet_of_aside (aside_connect env message)) fun accepted => .ite ?_ (.pure _)
  exact discreet_modify fun _ => .of_instances rfl rfl rfl

theorem discreet_connectBroker (id : Nat) (process : Process) (services : List Information) :
    Moves (Discreet spared ok) (connectBroker id process services) := by
  refine ⟨fun s => ?_⟩
  have hget : (get : M State) s = .ok s s := rfl
  unfold connectBroker
  rw [bind_ok hget]
  cases hi : s.instances process.pid with
  | some i => exact Std.Refl.refl s
  | none =>
    have hset : (modify (joined id process) : M Unit) s = .ok () (s.joined id process) := rfl
    have hunmarked : ¬ s.marked process.pid := by
      intro hmarked
      obtain ⟨i, hi', -⟩ := marked_iff.1 hmarked
      rw [hi] at hi'
      cases hi'
    simp only [Option.isNone_none, if_true]
    rw [bind_ok hset]
    refine IsTrans.trans _ (s.joined id process) _ (discreet_update rfl rfl rfl ?_ (.inr hunmarked)) ((discreet_addServices _ _).after _)
    rintro _ ⟨⟩
    rfl

theorem discreet_bootExecutable (executable : Executable) : Moves (Discreet spared ok) (bootExecutable env executable) := by
  refine .tryCatch (discreet_boot env _ _) fun e => ?_
  cases e with
  | spawn => exact .pure _
  | _ => exact .throw _

theorem discreet_bootOne (id : Nat) : Moves (Discreet spared ok) (bootOne env id) := by
  refine .bind .get fun s => ?_
  split
  · exact discreet_bootExecutable env _
  · refine .bind .get fun s => ?_
    split
    · exact discreet_bootExecutable env _
    · exact .pure _

end Programs

end

end State

/-! ## Runs -/

/-- What the broker does, the connect of the forward cache included. -/
inductive Work
  | act (a : State.Action)
  | forward (message : ConnectRequest)

namespace Work

/-- What the broker does. -/
def program (env : Environment) : Work → M Unit
  | act a => State.act env a
  | forward message => State.connectForward env message

/-- A process is gone, and its pid may be given to another. -/
def buries : Work → Nat → Bool
  | act (.message (.dead p reason)), pid => reason.deceased && p == pid
  | _, _ => false

end Work

/-- A broker that is watched: which instances it has told to shut down, and with which of these lookups were
answered since. -/
structure Watched where
  broker : State
  told : Nat → Bool
  misrouted : List Nat

namespace Watched

/-- The broker when it has ended; an exception that nothing catches ends the pump. -/
def left (r : EStateM.Result Exception State Unit) : State :=
  match r with
  | .ok _ s => s
  | .error _ s => { s with running := false }

/-- What the broker does, and what is seen of it. -/
def watch (w : Watched) (x : Environment × Work) : Watched :=
  let t := left (x.2.program x.1 w.broker)
  { broker := t
    told pid := t.marked pid || (w.told pid && !x.2.buries pid)
    misrouted := w.misrouted ++ ((t.sent.drop w.broker.sent.length).filterMap fun entry => entry.2.answer).filter w.told }

/-- A broker from its start. -/
def machine : Machine Watched (Environment × Work) where
  init w := (∀ pid, w.broker.instances pid = none) ∧ w.broker.requests = [] ∧ w.broker.running = true ∧
    (∀ pid, w.told pid = false) ∧ w.misrouted = []
  admits w _ := w.broker.running = true
  step := watch

instance : ∀ w x, Decidable (machine.admits w x) := fun w _ => inferInstanceAs (Decidable (w.broker.running = true))

/-- Nothing flags an instance as idle that was told to shut down, neither an ACK nor a connect that is accepted
nor that it is ready; and no call is left to a forward cache that was. -/
def Orderly (w : Watched) (x : Environment × Work) : Prop :=
  match x.2 with
  | .act (.message (.ack pid)) => ¬ w.told pid
  | .act (.message (.ready pid)) => ¬ w.told pid
  | .act (.message (.connect message)) => w.broker.accepts message → ¬ w.told message.process.pid
  | .act (.message (.lookup message)) => message.context ≠ .regular → (w.broker.services message.requested).isSome →
    (w.broker.hosts message.requested).find? w.broker.idle = none → ¬ w.told w.broker.forward.pid
  | _ => True

/-- Who was told is still flagged, and none of them was an answer. -/
structure Safe (w : Watched) : Prop where
  keyed : w.broker.Keyed
  regular : w.broker.Regular
  told : ∀ pid, w.told pid → w.broker.marked pid
  misrouted : w.misrouted = []

theorem Safe.idle {w : Watched} (h : w.Safe) : ∀ pid i, w.broker.instances pid = some i → i.state = .idle → ¬ w.told i.process.pid := by
  intro pid i hi hstate htold
  rw [h.keyed pid i hi] at htold
  exact State.not_idle_of_marked (h.told pid htold) (State.idle_iff.2 ⟨i, hi, hstate⟩)

/-- What is discreet to those that were told is safe. -/
theorem Safe.watch {w : Watched} (h : w.Safe) {x : Environment × Work} {spared : Nat → Prop}
    (hx : State.Discreet spared (fun pid => ¬ w.told pid) w.broker (after (x.2.program x.1 w.broker)))
    (hspared : ∀ pid, spared pid → w.told pid → x.2.buries pid) : (w.watch x).Safe := by
  have hleft : State.Discreet spared (fun pid => ¬ w.told pid) w.broker (left (x.2.program x.1 w.broker)) := by
    cases hr : x.2.program x.1 w.broker with
    | ok a t =>
      rw [hr] at hx
      exact hx
    | error e t =>
      rw [hr] at hx
      exact ⟨hx.keyed, hx.marked, hx.regular, hx.sent⟩
  refine ⟨hleft.keyed h.keyed, hleft.regular h.regular, fun pid htold => ?_, ?_⟩
  · rcases Bool.or_eq_true_iff.1 htold with hmarked | hkept
    · exact hmarked
    · obtain ⟨htold, hburies⟩ := Bool.and_eq_true_iff.1 hkept
      refine hleft.marked pid (fun hpid => ?_) (h.told pid htold)
      rw [hspared pid hpid htold] at hburies
      cases hburies
  · obtain ⟨new, hnew, hanswer⟩ := hleft.sent
    show w.misrouted ++ (((left (x.2.program x.1 w.broker)).sent.drop w.broker.sent.length).filterMap
      fun entry => entry.2.answer).filter w.told = []
    rw [h.misrouted, List.nil_append, hnew, List.drop_left, List.filter_eq_nil_iff]
    intro pid hpid
    obtain ⟨entry, hentry, hentry'⟩ := List.mem_filterMap.1 hpid
    exact hanswer entry hentry pid hentry'

theorem Safe.act {w : Watched} (h : w.Safe) {x : Environment × Work} (hx : w.Orderly x) : (w.watch x).Safe := by
  obtain ⟨env, work⟩ := x
  have hkeeps : ∀ {work : Work}, Moves (State.Discreet (fun _ => False) fun pid => ¬ w.told pid) (work.program env) →
      (w.watch (env, work)).Safe := fun hwork => h.watch (hwork.after _) fun _ => False.elim
  cases work with
  | forward message => exact hkeeps (State.discreet_connectForward env message)
  | act a =>
    cases a with
    | connectBroker id process services => exact hkeeps (State.discreet_connectBroker id process services)
    | boot id => exact hkeeps (State.discreet_bootOne env id)
    | message e =>
      cases e with
      | connect message =>
        by_cases haccepts : w.broker.accepts message
        · refine h.watch ((@State.discreet_connectServer (· = message.process.pid) _ env message rfl).after _) ?_
          rintro _ rfl htold
          exact absurd htold (hx haccepts)
        · exact h.watch (State.discreet_refused env haccepts) fun _ => False.elim
      | advertise pid services => exact hkeeps (State.discreet_catchMissing (State.discreet_addServices pid _) (.pure _))
      | unadvertise pid services => exact hkeeps (State.discreet_catchMissing (State.discreet_removeServices pid _) (.pure _))
      | lookup message => exact h.watch (State.discreet_serviceLookup env h.idle hx) fun _ => False.elim
      | ack pid =>
        refine h.watch (@State.discreet_ack (· = pid) _ env _ pid h.regular h.idle ?_ rfl) ?_
        · intro i hi
          rw [h.keyed pid i hi]
          exact hx
        · rintro _ rfl htold
          exact absurd htold hx
      | dead pid reason =>
        refine h.watch ((@State.discreet_deadEvent (fun p => reason.deceased ∧ p = pid) _ env pid reason fun hdead => ⟨hdead, rfl⟩).after _) ?_
        rintro _ ⟨hdead, rfl⟩ -
        exact Bool.and_eq_true_iff.2 ⟨hdead, beq_self_eq_true _⟩
      | update name instances => exact hkeeps (State.discreet_serviceUpdateInstances env name instances)
      | registration process => exact hkeeps (State.discreet_modify fun _ => .of_instances rfl rfl rfl)
      | lookupProcess message => exact hkeeps (State.discreet_of_aside (State.aside_lookupProcess env message))
      | ready pid =>
        have hready : Moves (State.Discreet (· = pid) fun pid => ¬ w.told pid) (State.ready pid) := by
          refine .bind (State.discreet_of_aside (State.aside_getInstance pid)) fun _ => ?_
          exact State.discreet_modify fun s => @State.discreet_alterState (· = pid) _ s pid rfl _
        refine h.watch (hready.after _) ?_
        · rintro _ rfl htold
          exact absurd htold hx

/-- In every orderly run no lookup is answered with an instance that was told to shut down. -/
theorem misrouted_of_reachable {w : Watched} (h : (machine.restrict Orderly).Reachable w) : w.misrouted = [] := by
  suffices hsafe : w.Safe from hsafe.misrouted
  apply h.invariant
  · rintro w ⟨hinstances, hrequests, -, htold, hmisrouted⟩
    refine ⟨fun pid i hi => ?_, fun request hrequest => ?_, fun pid hpid => ?_, hmisrouted⟩
    · rw [hinstances] at hi
      cases hi
    · rw [hrequests] at hrequest
      exact absurd hrequest List.not_mem_nil
    · rw [htold] at hpid
      cases hpid
  · rintro w x hsafe ⟨-, horderly⟩
    exact hsafe.act horderly

instance : ∀ w x, Decidable (Orderly w x)
  | w, (_, .act (.message (.ack pid))) => inferInstanceAs (Decidable ¬ (w.told pid : Prop))
  | w, (_, .act (.message (.ready pid))) => inferInstanceAs (Decidable ¬ (w.told pid : Prop))
  | w, (_, .act (.message (.connect message))) =>
    inferInstanceAs (Decidable (w.broker.accepts message → ¬ (w.told message.process.pid : Prop)))
  | w, (_, .act (.message (.lookup message))) => inferInstanceAs (Decidable (message.context ≠ .regular →
      (w.broker.services message.requested).isSome → (w.broker.hosts message.requested).find? w.broker.idle = none →
      ¬ (w.told w.broker.forward.pid : Prop)))
  | _, (_, .forward _) | _, (_, .act (.connectBroker ..)) | _, (_, .act (.boot _)) | _, (_, .act (.message (.advertise ..)))
  | _, (_, .act (.message (.unadvertise ..))) | _, (_, .act (.message (.dead ..))) | _, (_, .act (.message (.update ..)))
  | _, (_, .act (.message (.registration _))) | _, (_, .act (.message (.lookupProcess _))) => .isTrue trivial

/-! ### Two runs -/

/-- A broker that is started. -/
def fresh (instances : Nat) : Watched := ⟨State.configured instances, fun _ => false, []⟩

theorem fresh_init (instances : Nat) : machine.init (fresh instances) := ⟨fun _ => rfl, rfl, rfl, fun _ => rfl, rfl⟩

/-- Messages that arrive in this order. -/
def messages (l : List Event) : List (Environment × Work) := l.map fun e => (State.plain, .act (.message e))

/-- One of two instances is told to shut down while the other serves, and lookups go on. -/
def reduced : List Event := [.update "server" 2, State.connectOf 1, State.connectOf 2, .update "server" 1, State.lookupOf 1, .ack 1, State.lookupOf 2]

/-- The lookups are answered with the one that stays. -/
theorem reduced_misrouted : ∃ w, (machine.restrict Orderly).Reachable w ∧ w.told 2 = true ∧ w.misrouted = [] := by
  have hreach : (machine.restrict Orderly).Reachable ((messages reduced).foldl (machine.restrict Orderly).step (fresh 2)) := by
    have hinit : (machine.restrict Orderly).init (fresh 2) := fresh_init 2
    apply Machine.Reachable.foldl (.of_init hinit)
    decide
  exact ⟨_, hreach, by decide, misrouted_of_reachable hreach⟩

/-- An instance that serves is told to shut down, and acknowledges. -/
def acknowledging : List Event := [.update "server" 1, State.connectOf 1, State.lookupOf 1, .update "server" 0, .ack 1, State.lookupOf 2]

/-- It is idle again, and the next lookup is answered with it. -/
theorem acknowledging_misrouted : ∃ w, machine.Reachable w ∧ w.told 1 = true ∧ w.misrouted = [1] := by
  have hreach : machine.Reachable ((messages acknowledging).foldl machine.step (fresh 1)) := by
    apply Machine.Reachable.foldl (.of_init (fresh_init 1))
    decide
  exact ⟨_, hreach, by decide, by decide⟩

end Watched

end Casual.Broker

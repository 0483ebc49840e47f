/-
The death of a process in the broker: the roles a process can have, what the broker removes of them when
the process dies, and which it forgets.
-/
import Casual.Broker.References

namespace Casual.Broker

open Casual.Common Casual.Communication Casual.Lib

namespace State

/-! ## What a death should leave -/

/-- The process has no role. -/
structure Gone (pid : Nat) (t : State) : Prop where
  instances : t.instances pid = none
  servers : ∀ server ∈ t.servers, pid ∉ server.instances
  executables : ∀ e ∈ t.executables, pid ∉ e.instances
  singletons : ∀ entry ∈ t.singletons, entry.2.pid ≠ pid
  services : ∀ name, pid ∉ t.hosts name
  requests : ∀ request ∈ t.requests, request.process.pid ≠ pid
  processLookup : ∀ request ∈ t.processLookup, request.process.pid ≠ pid

/-- What does not concern the process is as it was. The server of an instance counts the death and what the
instance was invoked. -/
structure Spared (pid : Nat) (s t : State) : Prop where
  instances : ∀ p, p ≠ pid → t.instances p = s.instances p
  servers : List.Forall₂ (fun a b => b = a ∨ (s.instances pid).map Instance.server = some a.id ∧
    b = { a with instances := a.instances.filter (· != pid), deaths := b.deaths, invoked := b.invoked }) s.servers t.servers
  executables : t.executables = s.executables.map fun e => { e with instances := e.instances.filter (· != pid) }
  singletons : t.singletons = s.singletons.filter fun entry => entry.2.pid != pid
  services : ∀ name, t.services name = (s.services name).map fun service =>
    { service with instances := service.instances.filter (· != pid) }
  requests : t.requests = s.requests.filter fun request => request.process.pid != pid
  processLookup : t.processLookup = s.processLookup.filter fun request => request.process.pid != pid
  timeout : t.timeout = s.timeout
  monitors : t.monitors = s.monitors
  forward : t.forward = s.forward
  shutdownMode : t.shutdownMode = s.shutdownMode
  self : t.self = s.self
  running : t.running = s.running

/-- A queue is told of the death, now or with the pending replies, unless it is gone. -/
def Told (env : Environment) (pid : Nat) (reason : Reason) (s t : State) (queue : Nat) : Prop :=
  (queue, Reply.dead pid reason) ∈ t.sent.drop s.sent.length ∨
    (∃ entry ∈ t.replies.drop s.replies.length, queue ∈ entry.1 ∧ entry.2 = .dead pid reason) ∨
      ∃ n, s.readings ≤ n ∧ n < t.readings ∧ env.gone n queue = true

/-- The process is gone, the listeners that are left are told, and all else is spared. -/
structure Died (env : Environment) (pid : Nat) (reason : Reason) (s t : State) : Prop where
  listeners : t.listeners = s.listeners.filter fun listener => listener.pid != pid
  told : ∀ listener ∈ t.listeners, Told env pid reason s t listener.queue
  sent : ∃ l, t.sent = s.sent ++ l ∧ ∀ x ∈ l, x.2 = .dead pid reason
  replies : ∃ l, t.replies = s.replies ++ l ∧ ∀ x ∈ l, x.2 = .dead pid reason
  gone : Gone pid t
  spared : Spared pid s t

/-- The server of a process. -/
def serverOf (s : State) (pid : Nat) : Option Server :=
  (s.instances pid).bind fun i => s.servers.find? fun server => server.id == i.server

/-- What is done last: the server gets another instance for the one that is gone. -/
def revive (env : Environment) : Option Server → M Unit
  | none => pure ()
  | some server => if server.restart then updateInstances env server.id else pure ()

/-- A death is handled: the process is gone, and its server gets another instance. -/
def Handled (env : Environment) (pid : Nat) (reason : Reason) (s : State) : Prop :=
  ∃ t, Died env pid reason s t ∧ deadEvent env pid reason s = revive env (s.serverOf pid) t

/-- An instance of a server that is nothing else but perhaps a singleton, once, and the last of the listeners. -/
structure Ordinary (pid : Nat) (s : State) : Prop where
  hosted : ∃ server, s.serverOf pid = some server
  listeners : s.listeners.Pairwise fun a b => a.pid = pid → b.pid = pid
  executables : ∀ e ∈ s.executables, pid ∉ e.instances
  singletons : (s.singletons.filter fun entry => entry.2.pid == pid).length ≤ 1
  requests : ∀ request ∈ s.requests, request.process.pid ≠ pid
  processLookup : ∀ request ∈ s.processLookup, request.process.pid ≠ pid

/-! ## Lists that lose an element -/

section Lists

variable {α : Type} {p : α → Bool}

/-- Up to the first that does not match is all that matches when none that matches comes later. -/
theorem takeWhile_eq_filter_iff : ∀ {l : List α},
    l.takeWhile p = l.filter p ↔ l.Pairwise fun a b => p a = false → p b = false
  | [] => by simp
  | a :: l => by
    rw [List.pairwise_cons, ← takeWhile_eq_filter_iff]
    cases ha : p a with
    | true => simp [ha]
    | false =>
      rw [List.takeWhile_cons_of_neg (by simp [ha]), List.filter_cons_of_neg (by simp [ha]), eq_comm, List.filter_eq_nil_iff]
      constructor
      · intro h
        have hall : ∀ b ∈ l, p b = false := fun b hb => by simpa using h b hb
        refine ⟨fun b hb _ => hall b hb, ?_⟩
        rw [List.filter_eq_nil_iff.2 h]
        cases l with
        | nil => rfl
        | cons b l => exact List.takeWhile_cons_of_neg (by simp [hall b List.mem_cons_self])
      · rintro ⟨h, -⟩ b hb
        simp [h b hb rfl]

/-- The first that matches is all that matches when there is at most one. -/
theorem eraseP_eq_filter_iff : ∀ {l : List α}, l.eraseP p = l.filter (fun a => !p a) ↔ (l.filter p).length ≤ 1
  | [] => by simp
  | a :: l => by
    cases ha : p a with
    | true =>
      rw [List.eraseP_cons_of_pos ha, List.filter_cons_of_neg (by simp [ha]), List.filter_cons_of_pos ha, List.length_cons,
        eq_comm, List.filter_eq_self]
      constructor
      · intro h
        rw [List.filter_eq_nil_iff.2 fun b hb => by simpa using h b hb]
        exact le_refl _
      · intro h b hb
        have hnil : l.filter p = [] := List.length_eq_zero_iff.1 (by omega)
        simpa using List.filter_eq_nil_iff.1 hnil b hb
    | false =>
      rw [List.eraseP_cons_of_neg (by simp [ha]), List.filter_cons_of_pos (by simp [ha]), List.filter_cons_of_neg (by simp [ha]),
        ← eraseP_eq_filter_iff, List.cons_inj_right]

theorem eq_filter_iff {l : List α} : l = l.filter p ↔ ∀ a ∈ l, p a = true := by
  rw [eq_comm, List.filter_eq_self]

end Lists

/-! ## What the handler does -/

variable {env : Environment} {pid : Nat} {reason : Reason}

/-- A queue has got what was sent, is left for later, or was gone at one of the readings. -/
def Noticed (env : Environment) (out left : List Nat) (a b queue : Nat) : Prop :=
  queue ∈ out ∨ queue ∈ left ∨ ∃ n, a ≤ n ∧ n < b ∧ env.gone n queue = true

theorem Noticed.mono {out left out' left' : List Nat} {a b a' b' queue : Nat} (h : Noticed env out left a b queue)
    (hout : out ⊆ out') (hleft : left ⊆ left') (ha : a' ≤ a) (hb : b ≤ b') : Noticed env out' left' a' b' queue := by
  rcases h with h | h | ⟨n, hle, hlt, h⟩
  · exact .inl (hout h)
  · exact .inr (.inl (hleft h))
  · exact .inr (.inr ⟨n, ha.trans hle, hlt.trans_le hb, h⟩)

theorem pendingSend_spec (reply : Reply) : ∀ (targets : List Nat) (s : State), ∃ left out : List Nat,
    pendingSend env reply targets s = .ok left { s with
      sent := s.sent ++ out.map fun queue => (queue, reply)
      readings := s.readings + targets.length } ∧
    ∀ queue ∈ targets, Noticed env out left s.readings (s.readings + targets.length) queue
  | [], s => ⟨[], [], by simp [pendingSend, pure, EStateM.pure], by simp⟩
  | queue :: targets, s => by
    have hread : reading s = .ok s.readings { s with readings := s.readings + 1 } := rfl
    have hlength : s.readings + 1 + targets.length = s.readings + (queue :: targets).length := by
      rw [List.length_cons]
      omega
    by_cases hgone : env.gone s.readings queue = true
    · obtain ⟨left, out, h, hall⟩ := pendingSend_spec reply targets { s with readings := s.readings + 1 }
      refine ⟨left, out, ?_, ?_⟩
      · unfold pendingSend
        rw [bind_ok hread, if_pos hgone, h, ← hlength]
      · rintro q hq
        rcases List.mem_cons.1 hq with rfl | hq
        · exact .inr (.inr ⟨s.readings, le_refl _, by omega, hgone⟩)
        · exact (hall q hq).mono (List.Subset.refl _) (List.Subset.refl _) (Nat.le_succ _) hlength.le
    · by_cases hfull : env.full s.readings queue = true
      · obtain ⟨left, out, h, hall⟩ := pendingSend_spec reply targets { s with readings := s.readings + 1 }
        refine ⟨queue :: left, out, ?_, ?_⟩
        · unfold pendingSend
          rw [bind_ok hread, if_neg hgone, if_pos hfull, bind_ok h, ← hlength]
          rfl
        · rintro q hq
          rcases List.mem_cons.1 hq with rfl | hq
          · exact .inr (.inl List.mem_cons_self)
          · exact (hall q hq).mono (List.Subset.refl _) (List.subset_cons_self _ _) (Nat.le_succ _) hlength.le
      · obtain ⟨left, out, h, hall⟩ := pendingSend_spec reply targets (push queue reply { s with readings := s.readings + 1 })
        refine ⟨left, queue :: out, ?_, ?_⟩
        · have hpush : (modify (push queue reply) : M Unit) { s with readings := s.readings + 1 } =
            .ok () (push queue reply { s with readings := s.readings + 1 }) := rfl
          unfold pendingSend
          rw [bind_ok hread, if_neg hgone, if_neg hfull, bind_ok hpush, h, ← hlength, List.map_cons]
          simp only [push, List.append_assoc, List.singleton_append]
        · rintro q hq
          rcases List.mem_cons.1 hq with rfl | hq
          · exact .inl List.mem_cons_self
          · exact (hall q hq).mono (List.subset_cons_self _ _) (List.Subset.refl _) (Nat.le_succ _) hlength.le

/-- The listeners are told. -/
theorem notify_spec (s : State) : ∃ (out : List (Nat × Reply)) (kept : List (List Nat × Reply)), notify env pid reason s = .ok () { s with
      sent := s.sent ++ out
      replies := s.replies ++ kept
      readings := s.readings + s.listeners.length } ∧
    (∀ x ∈ out, x.2 = .dead pid reason) ∧ (∀ x ∈ kept, x.2 = .dead pid reason) ∧
    ∀ listener ∈ s.listeners, (listener.queue, Reply.dead pid reason) ∈ out ∨ (∃ x ∈ kept, listener.queue ∈ x.1 ∧ x.2 = .dead pid reason) ∨
      ∃ n, s.readings ≤ n ∧ n < s.readings + s.listeners.length ∧ env.gone n listener.queue = true := by
  have hget : (get : M State) s = .ok s s := rfl
  unfold notify
  rw [bind_ok hget]
  by_cases hempty : s.listeners = []
  · rw [if_neg (by simp [hempty])]
    refine ⟨[], [], ?_, by simp, by simp, by simp [hempty]⟩
    simp only [hempty, List.append_nil, List.length_nil, Nat.add_zero]
    rw [← hempty]
    rfl
  · obtain ⟨left, out, hsend, hall⟩ := @pendingSend_spec env (.dead pid reason) (s.listeners.map Process.queue) s
    rw [List.length_map] at hsend hall
    have hout : ∀ x ∈ out.map (fun queue => (queue, Reply.dead pid reason)), x.2 = .dead pid reason := by
      intro x hx
      obtain ⟨queue, -, rfl⟩ := List.mem_map.1 hx
      rfl
    rw [if_pos (by simpa using hempty), bind_ok hsend]
    by_cases hleft : left = []
    · refine ⟨_, [], ?_, hout, by simp, fun listener hmem => ?_⟩
      · rw [if_neg (by simp [hleft]), List.append_nil]
        rfl
      · rcases hall listener.queue (List.mem_map_of_mem hmem) with h | h | h
        · exact .inl (List.mem_map_of_mem h)
        · rw [hleft] at h
          cases h
        · exact .inr (.inr h)
    · refine ⟨_, [(left, .dead pid reason)], ?_, hout, by simp, fun listener hmem => ?_⟩
      · rw [if_pos (by simpa using hleft)]
        rfl
      · rcases hall listener.queue (List.mem_map_of_mem hmem) with h | h | h
        · exact .inl (List.mem_map_of_mem h)
        · exact .inr (.inl ⟨_, List.mem_singleton_self _, h, rfl⟩)
        · exact .inr (.inr h)

/-- The process is erased from services that differ and that are known. -/
theorem removeFromServices_eq : ∀ {names : List String} {s : State}, names.Nodup → (∀ name ∈ names, (s.services name).isSome) →
    removeFromServices pid names s = .ok () { s with
      services := fun name => if name ∈ names then (s.services name).map fun service =>
        { service with instances := service.instances.erase pid } else s.services name }
  | [], s, _, _ => by simp [removeFromServices, pure, EStateM.pure]
  | name :: names, s, hnodup, hknown => by
    obtain ⟨hnot, hnodup⟩ := List.nodup_cons.1 hnodup
    obtain ⟨service, hservice⟩ := Option.isSome_iff_exists.1 (hknown name List.mem_cons_self)
    have hget : getService name s = .ok service s := by
      unfold getService
      rw [hservice]
    have hset : (modify (setService name fun service => { service with instances := service.instances.erase pid }) : M Unit) s =
      .ok () (s.setService name fun service => { service with instances := service.instances.erase pid }) := rfl
    have hother : ∀ name' ∈ names, name' ≠ name := fun name' hname' heq => hnot (heq ▸ hname')
    have hrest := @removeFromServices_eq names (s.setService name fun service => { service with instances := service.instances.erase pid })
      hnodup fun name' hname' => by
        simpa [setService, Function.update_of_ne (hother name' hname')] using hknown name' (List.mem_cons_of_mem _ hname')
    unfold removeFromServices
    rw [bind_ok hget, bind_ok hset, hrest]
    congr 2
    funext name'
    by_cases heq : name' = name
    · subst heq
      rw [if_neg hnot, if_pos List.mem_cons_self]
      exact Function.update_self ..
    · have hupdate : (s.setService name fun service => { service with instances := service.instances.erase pid }).services name' =
          s.services name' := Function.update_of_ne heq ..
      simp only [hupdate, List.mem_cons, heq, false_or]

theorem removeProcess_eq {s : State} {i : Instance} {server : Server} (hi : s.instances pid = some i)
    (hfind : s.servers.find? (fun server => server.id == i.server) = some server) (hnodup : i.services.Nodup)
    (hknown : ∀ name ∈ i.services, (s.services name).isSome) :
    removeProcess pid s = .ok () { s with
      servers := s.servers.map fun server => if server.id = i.server then
        { server with toExecutable := server.toExecutable.remove pid, invoked := server.invoked + i.invoked } else server
      services := fun name => if name ∈ i.services then (s.services name).map fun service =>
        { service with instances := service.instances.erase pid } else s.services name
      instances := Function.update s.instances pid none
      singletons := s.singletons.eraseP fun entry => entry.2.pid == pid } := by
  have hid : server.id = i.server := by simpa using List.find?_some hfind
  have hget : (get : M State) s = .ok s s := rfl
  have hserver : ∀ services, getServer i.server { s with services := services } = .ok server { s with services := services } := by
    intro services
    unfold getServer
    rw [hfind]
  have hinstance : ∃ t, removeInstance pid i s = .ok () t ∧ removeSingleton pid t = { s with
      servers := s.servers.map fun server => if server.id = i.server then
        { server with toExecutable := server.toExecutable.remove pid, invoked := server.invoked + i.invoked } else server
      services := fun name => if name ∈ i.services then (s.services name).map fun service =>
        { service with instances := service.instances.erase pid } else s.services name
      instances := Function.update s.instances pid none
      singletons := s.singletons.eraseP fun entry => entry.2.pid == pid } := by
    unfold removeInstance
    rw [bind_ok (removeFromServices_eq hnodup hknown), bind_ok (hserver _), hid]
    exact ⟨_, rfl, rfl⟩
  obtain ⟨t, ht, hleft⟩ := hinstance
  unfold removeProcess
  rw [bind_ok hget, hi]
  dsimp only
  rw [bind_ok ht, ← hleft]
  rfl

/-- What is left when an instance is removed. -/
def withoutInstance (pid : Nat) (i : Instance) (s : State) : State :=
  { s with
    servers := s.servers.map fun server => if server.id = i.server then { server with
      instances := server.instances.filter (· != pid)
      deaths := server.deaths + 1
      invoked := server.invoked + i.invoked } else server
    services := fun name => (s.services name).map fun service =>
      { service with instances := service.instances.filter (· != pid) }
    instances := Function.update s.instances pid none
    singletons := s.singletons.eraseP fun entry => entry.2.pid == pid }

theorem removeDead_eq {s : State} (hlinked : s.Linked) (hhosted : s.Hosted) {i : Instance} {server : Server}
    (hi : s.instances pid = some i) (hfind : s.servers.find? (fun server => server.id == i.server) = some server) :
    removeDead env pid s = revive env (some server) (withoutInstance pid i s) := by
  have hid : server.id = i.server := by simpa using List.find?_some hfind
  have hget : getInstance pid s = .ok i s := by
    unfold getInstance
    rw [hi]
  have hget' : getServer i.server s = .ok server s := by
    unfold getServer
    rw [hfind]
  have hmodify : (modify (setServer server.id fun server => { server with deaths := server.deaths + 1 }) : M Unit) s =
    .ok () (s.setServer server.id fun server => { server with deaths := server.deaths + 1 }) := rfl
  have hoffers : s.offers pid = i.services := by
    unfold offers
    rw [hi]
    rfl
  have hnodup : i.services.Nodup := hoffers ▸ nodup_of_sorted (hlinked.offers pid)
  have hknown : ∀ name ∈ i.services, (s.services name).isSome := by
    intro name hname
    rw [← hoffers, ← hlinked.iff] at hname
    obtain ⟨service, hservice⟩ := exists_of_mem_hosts hname
    rw [hservice]
    rfl
  obtain ⟨server', hfind'⟩ := find_setServer (fun server => { server with deaths := server.deaths + 1 })
    (fun _ => rfl) hfind server.id
  have hservers : ((s.setServer server.id fun server => { server with deaths := server.deaths + 1 }).servers.map fun server =>
      if server.id = i.server then
        { server with toExecutable := server.toExecutable.remove pid, invoked := server.invoked + i.invoked } else server) =
      (withoutInstance pid i s).servers := by
    unfold setServer withoutInstance
    rw [List.map_map]
    refine List.map_congr_left fun x hx => ?_
    rw [Function.comp_apply, hid]
    by_cases hx' : x.id = i.server
    · simp only [if_pos hx', Executable.remove, (nodup_of_sorted (hhosted.once x hx)).erase_eq_filter]
    · simp only [if_neg hx']
  have hservices : (fun name => if name ∈ i.services then (s.services name).map fun service =>
      { service with instances := service.instances.erase pid } else s.services name) = (withoutInstance pid i s).services := by
    funext name
    have hsorted := hlinked.hosts name
    have hiff := hlinked.iff name pid
    unfold withoutInstance
    cases hservice : s.services name with
    | none => simp [hservice]
    | some service =>
      have hhosts : s.hosts name = service.instances := by
        unfold hosts
        rw [hservice]
        rfl
      rw [hhosts] at hsorted hiff
      by_cases hname : name ∈ i.services
      · simp only [if_pos hname, hservice, Option.map_some, (nodup_of_sorted hsorted).erase_eq_filter]
      · -- a service that the instance does not offer does not refer to it
        have hnot : pid ∉ service.instances := fun h => hname (hoffers ▸ hiff.1 h)
        have hself : service.instances.filter (· != pid) = service.instances :=
          List.filter_eq_self.2 fun p hp => by simpa using fun heq : p = pid => hnot (heq ▸ hp)
        simp only [if_neg hname, hservice, Option.map_some, hself]
  have hprocess : removeProcess pid (s.setServer server.id fun server => { server with deaths := server.deaths + 1 }) =
      .ok () (withoutInstance pid i s) := by
    have h := @removeProcess_eq pid (s.setServer server.id fun server => { server with deaths := server.deaths + 1 })
      i server' hi hfind' hnodup hknown
    rw [hservers] at h
    rw [h]
    exact congrArg (fun services => EStateM.Result.ok () { withoutInstance pid i s with services := services }) hservices
  unfold removeDead
  rw [bind_ok hget, bind_ok hget', bind_ok hmodify, bind_ok hprocess]
  rfl

/-! ## What a new instance does not touch -/

/-- What a process can be other than an instance. -/
def roles (s : State) : List Process × List Executable × List (Uuid × Process) × List LookupRequest × List ProcessLookup :=
  (s.listeners, s.executables, s.singletons, s.requests, s.processLookup)

/-- The roles are not touched, as long as the server is there. -/
structure KeepsRoles (id : Nat) (s t : State) : Prop where
  ids : t.servers.map (·.id) = s.servers.map (·.id)
  roles : id ∈ s.servers.map (·.id) → t.roles = s.roles

section Roles

variable {id : Nat}

instance : Std.Refl (KeepsRoles id) := ⟨fun _ => ⟨rfl, fun _ => rfl⟩⟩

instance : IsTrans State (KeepsRoles id) :=
  ⟨fun _ _ _ h h' => ⟨h'.ids.trans h.ids, fun hid => (h'.roles (h.ids ▸ hid)).trans (h.roles hid)⟩⟩

theorem roles_modify {f : State → State} (h : ∀ s, (f s).roles = s.roles ∧ (f s).servers = s.servers) :
    Moves (KeepsRoles id) (modify f : M Unit) :=
  .modify fun s => ⟨by rw [(h s).2], fun _ => (h s).1⟩

theorem roles_reading : Moves (KeepsRoles id) reading := ⟨fun _ => ⟨rfl, fun _ => rfl⟩⟩

theorem roles_getInstance (pid : Nat) : Moves (KeepsRoles id) (getInstance pid) := by
  refine ⟨fun s => ?_⟩
  unfold getInstance
  split <;> exact Std.Refl.refl s

theorem roles_nonBlockingSend (queue : Nat) (reply : Reply) : Moves (KeepsRoles id) (nonBlockingSend env queue reply) := by
  refine .bind roles_reading fun n => .ite (.throw _) (.ite (.pure _) ?_)
  exact .bind (roles_modify fun _ => ⟨rfl, rfl⟩) fun _ => .pure _

theorem roles_shutdownInstance (pid : Nat) : Moves (KeepsRoles id) (shutdownInstance env pid) := by
  refine .bind .get fun s => .ite ?_ (.pure _)
  apply Moves.tryCatch
  · refine .bind (roles_getInstance _) fun i => .bind ?_ fun _ => .bind (roles_nonBlockingSend _ _) fun sent => .ite ?_ (.pure _)
    · exact roles_modify fun s => ⟨rfl, rfl⟩
    · exact roles_modify fun _ => ⟨rfl, rfl⟩
  · intro e
    cases e
    · exact .pure _
    · exact .pure _
    · exact .throw _

theorem roles_spawn : ∀ n, Moves (KeepsRoles id) (spawn env n)
  | 0 => .pure _
  | n + 1 => by
    apply Moves.bind roles_reading
    intro reading
    split
    · exact .throw _
    · exact .bind (roles_spawn n) fun _ => .pure _

theorem foldl_started_roles : ∀ (pids : List Nat) (s : State),
    (pids.foldl (fun s pid => if (s.instances pid).isSome then s
      else { s with instances := Function.update s.instances pid (some (started id pid)) }) s).roles = s.roles
  | [], _ => rfl
  | p :: pids, s => by
    rw [List.foldl_cons, foldl_started_roles pids]
    split_ifs <;> rfl

/-- Instances are added to the server, not to an executable. -/
theorem roles_addInstances (pids : List Nat) : Moves (KeepsRoles id) (addInstances id pids) := by
  refine ⟨fun s => ?_⟩
  unfold addInstances
  split_ifs with hserver
  · obtain ⟨hservers, -⟩ := foldl_started_same id pids s
    have hroles := @foldl_started_roles id pids s
    refine ⟨?_, fun _ => hroles⟩
    rw [after_ok, setServer]
    simp only [hservers, List.map_map]
    refine List.map_congr_left fun server _ => ?_
    rw [Function.comp_apply]
    split_ifs <;> rfl
  · refine ⟨rfl, fun hid => absurd ?_ hserver⟩
    obtain ⟨server, hmem, hid⟩ := List.mem_map.1 hid
    exact List.any_eq_true.2 ⟨server, hmem, by simpa using hid⟩
  · exact Std.Refl.refl s

theorem roles_updateInstances : Moves (KeepsRoles id) (updateInstances env id) := by
  refine ⟨fun s => ?_⟩
  unfold updateInstances
  cases hfind : s.servers.find? fun server => server.id == id with
  | none =>
    have hget : getServer id s = .error .missing s := by
      unfold getServer
      rw [hfind]
    rw [bind_error hget]
    exact Std.Refl.refl s
  | some server =>
    have hid : server.id = id := by simpa using List.find?_some hfind
    have hget : getServer id s = .ok server s := by
      unfold getServer
      rw [hfind]
    rw [bind_ok hget]
    refine Moves.after (.ite ?_ (.forM roles_shutdownInstance _)) s
    refine .ite (.bind (roles_spawn _) fun pids => ?_) (.pure _)
    change Moves (KeepsRoles id) (addInstances server.id pids)
    rw [hid]
    exact roles_addInstances pids

theorem roles_revive (server : Server) : Moves (KeepsRoles server.id) (revive env (some server)) :=
  .ite roles_updateInstances (.pure _)

end Roles

/-! ## A death -/

theorem serverOf_eq_some {s : State} {server : Server} (h : s.serverOf pid = some server) :
    ∃ i, s.instances pid = some i ∧ s.servers.find? (fun server => server.id == i.server) = some server :=
  Option.bind_eq_some_iff.1 h

theorem removeDead_none {s : State} (h : s.serverOf pid = none) : removeDead env pid s = .error .missing s := by
  unfold removeDead
  cases hi : s.instances pid with
  | none =>
    have hget : getInstance pid s = .error .missing s := by
      unfold getInstance
      rw [hi]
    rw [bind_error hget]
  | some i =>
    have hfind : s.servers.find? (fun server => server.id == i.server) = none := by
      unfold serverOf at h
      rw [hi] at h
      exact h
    have hget : getInstance pid s = .ok i s := by
      unfold getInstance
      rw [hi]
    have hget' : getServer i.server s = .error .missing s := by
      unfold getServer
      rw [hfind]
    rw [bind_ok hget, bind_error hget']

/-- Without an instance, or its server, the exception leaves the handler. -/
theorem deadEvent_none {s : State} (hreason : reason.deceased = true) (h : s.serverOf pid = none) :
    ∃ t, deadEvent env pid reason s = .error .missing t := by
  obtain ⟨out, kept, hnotify, -⟩ := @notify_spec env pid reason
    { s with listeners := s.listeners.takeWhile fun listener => listener.pid != pid }
  have hmodify : (modify fun s : State => { s with listeners := s.listeners.takeWhile fun listener => listener.pid != pid } : M Unit) s =
    .ok () { s with listeners := s.listeners.takeWhile fun listener => listener.pid != pid } := rfl
  unfold deadEvent
  rw [if_pos hreason, bind_ok hmodify, bind_ok hnotify]
  refine ⟨_, removeDead_none ?_⟩
  exact h

/-- The listeners up to the process are told, and the instance is removed. -/
theorem deadEvent_some {s : State} (hlinked : s.Linked) (hhosted : s.Hosted) (hreason : reason.deceased = true) {i : Instance}
    {server : Server} (hi : s.instances pid = some i) (hfind : s.servers.find? (fun server => server.id == i.server) = some server) :
    ∃ (out : List (Nat × Reply)) (kept : List (List Nat × Reply)) (n : Nat),
      deadEvent env pid reason s = revive env (some server) (withoutInstance pid i { s with
        listeners := s.listeners.takeWhile fun listener => listener.pid != pid
        sent := s.sent ++ out
        replies := s.replies ++ kept
        readings := n }) ∧
      (∀ x ∈ out, x.2 = .dead pid reason) ∧ (∀ x ∈ kept, x.2 = .dead pid reason) ∧
      (∀ listener ∈ s.listeners.takeWhile fun listener => listener.pid != pid,
        (listener.queue, Reply.dead pid reason) ∈ out ∨ (∃ x ∈ kept, listener.queue ∈ x.1 ∧ x.2 = .dead pid reason) ∨
          ∃ m, s.readings ≤ m ∧ m < n ∧ env.gone m listener.queue = true) ∧
      n = s.readings + (s.listeners.takeWhile fun listener => listener.pid != pid).length := by
  obtain ⟨out, kept, hnotify, hout, hkept, htold⟩ := @notify_spec env pid reason
    { s with listeners := s.listeners.takeWhile fun listener => listener.pid != pid }
  have hmodify : (modify fun s : State => { s with listeners := s.listeners.takeWhile fun listener => listener.pid != pid } : M Unit) s =
    .ok () { s with listeners := s.listeners.takeWhile fun listener => listener.pid != pid } := rfl
  refine ⟨out, kept, s.readings + (s.listeners.takeWhile fun listener => listener.pid != pid).length, ?_, hout, hkept, htold, rfl⟩
  unfold deadEvent
  rw [if_pos hreason, bind_ok hmodify, bind_ok hnotify]
  exact @removeDead_eq env pid { s with
      listeners := s.listeners.takeWhile fun listener => listener.pid != pid
      sent := s.sent ++ out
      replies := s.replies ++ kept
      readings := s.readings + (s.listeners.takeWhile fun listener => listener.pid != pid).length }
    (hlinked.congr rfl rfl) ⟨hhosted.ids, hhosted.resident, hhosted.once⟩ i server hi hfind

theorem withoutInstance_gone {s : State} (hhosted : s.Hosted) (h : s.Ordinary pid) {i : Instance}
    (hi : s.instances pid = some i) (listeners : List Process) (sent : List (Nat × Reply)) (replies : List (List Nat × Reply)) (n : Nat) :
    Gone pid (withoutInstance pid i { s with listeners := listeners, sent := sent, replies := replies, readings := n }) := by
  refine ⟨Function.update_self .., ?_, h.executables, ?_, ?_, h.requests, h.processLookup⟩
  · intro server hserver hmem
    obtain ⟨x, hx, rfl⟩ := List.mem_map.1 hserver
    split_ifs at hmem with hid
    · simp at hmem
    · -- no other server has the process
      have hresident := hhosted.resident x hx pid hmem
      rw [hi] at hresident
      exact hid (Option.some.inj hresident).symm
  · intro entry hentry
    have heq := eraseP_eq_filter_iff.2 h.singletons
    change entry ∈ s.singletons.eraseP _ at hentry
    rw [heq] at hentry
    simpa using (List.mem_filter.1 hentry).2
  · intro name hmem
    unfold hosts withoutInstance at hmem
    cases hservice : s.services name with
    | none => simp [hservice] at hmem
    | some service => simp [hservice] at hmem

theorem withoutInstance_spared {s : State} (h : s.Ordinary pid) {i : Instance}
    (hi : s.instances pid = some i) (listeners : List Process) (sent : List (Nat × Reply)) (replies : List (List Nat × Reply)) (n : Nat) :
    Spared pid s (withoutInstance pid i { s with listeners := listeners, sent := sent, replies := replies, readings := n }) := by
  refine ⟨fun p hp => Function.update_of_ne hp .., ?_, ?_, eraseP_eq_filter_iff.2 h.singletons, fun _ => rfl, ?_, ?_, rfl, rfl, rfl,
    rfl, rfl, rfl⟩
  · refine List.forall₂_map_right_iff.2 (List.forall₂_same.2 fun server _ => ?_)
    split_ifs with hid
    · exact .inr ⟨by rw [hi, hid]; rfl, rfl⟩
    · exact .inl rfl
  · have hexecutables : (s.executables.map fun e => { e with instances := e.instances.filter (· != pid) }) = s.executables.map id :=
      List.map_congr_left fun e he => by
        rw [List.filter_eq_self.2 fun p hp => by simpa using fun heq : p = pid => h.executables e he (heq ▸ hp)]
        rfl
    exact (hexecutables.trans (List.map_id _)).symm
  · exact (List.filter_eq_self.2 fun request hrequest => by simpa using h.requests request hrequest).symm
  · exact (List.filter_eq_self.2 fun request hrequest => by simpa using h.processLookup request hrequest).symm

theorem Spared.ids {s t : State} (h : Spared pid s t) : t.servers.map (·.id) = s.servers.map (·.id) := by
  have hids : List.Forall₂ (fun a b => a.id = b.id) s.servers t.servers := by
    refine h.servers.imp fun a b hab => ?_
    rcases hab with rfl | ⟨-, hb⟩
    · rfl
    · rw [hb]
  exact (List.forall₂_eq_eq_eq ▸ List.forall₂_map_left_iff.2 (List.forall₂_map_right_iff.2 hids) : _ = _).symm

/-- The listeners are compared with what is erased of them, and so are the other roles. -/
theorem ordinary_of_roles {s t : State} (hdied : Died env pid reason s t) {server : Server} (hserver : s.serverOf pid = some server)
    (h : t.roles = (s.listeners.takeWhile fun listener => listener.pid != pid, s.executables,
      s.singletons.eraseP fun entry => entry.2.pid == pid, s.requests, s.processLookup)) : s.Ordinary pid := by
  obtain ⟨hlisteners, hexecutables, hsingletons, hrequests, hlookup⟩ :
      t.listeners = s.listeners.takeWhile (fun listener => listener.pid != pid) ∧ t.executables = s.executables ∧
        t.singletons = s.singletons.eraseP (fun entry => entry.2.pid == pid) ∧ t.requests = s.requests ∧
        t.processLookup = s.processLookup := by
    simpa [roles] using h
  refine ⟨⟨server, hserver⟩, ?_, ?_, ?_, ?_, ?_⟩
  · have hpairwise := takeWhile_eq_filter_iff.1 (hlisteners.symm.trans hdied.listeners)
    refine hpairwise.imp fun {a b} hab ha => ?_
    simpa using hab (by simpa using ha)
  · intro e he hmem
    have hself : e ∈ s.executables.map fun e => { e with instances := e.instances.filter (· != pid) } := by
      rw [← hdied.spared.executables, hexecutables]
      exact he
    obtain ⟨x, -, rfl⟩ := List.mem_map.1 hself
    simp at hmem
  · exact eraseP_eq_filter_iff.1 (hsingletons.symm.trans hdied.spared.singletons)
  · have hself := eq_filter_iff.1 (hrequests.symm.trans hdied.spared.requests)
    exact fun request hrequest => by simpa using hself request hrequest
  · have hself := eq_filter_iff.1 (hlookup.symm.trans hdied.spared.processLookup)
    exact fun request hrequest => by simpa using hself request hrequest

/-- A process that is something else, or more than one of it, is not removed as it should. -/
theorem ordinary_of_handled {s : State} (h : domain.Reachable s) (hreason : reason.deceased = true)
    (hhandled : Handled env pid reason s) : s.Ordinary pid := by
  obtain ⟨hlinked, hhosted⟩ := referenced_of_reachable h
  obtain ⟨t, hdied, ht⟩ := hhandled
  cases hserver : s.serverOf pid with
  | none =>
    obtain ⟨u, hu⟩ := @deadEvent_none env pid reason s hreason hserver
    rw [hserver, hu] at ht
    cases ht
  | some server =>
    obtain ⟨i, hi, hfind⟩ := serverOf_eq_some hserver
    obtain ⟨out, kept, n, heq, -⟩ := @deadEvent_some env pid reason s hlinked hhosted hreason i server hi hfind
    rw [heq, hserver] at ht
    have hmem : server.id ∈ s.servers.map (·.id) := List.mem_map_of_mem (List.mem_of_find?_eq_some hfind)
    -- what is done last touches no role, so the states before it have the same
    have hleft := ((@roles_revive env server).after (withoutInstance pid i { s with
      listeners := s.listeners.takeWhile fun listener => listener.pid != pid
      sent := s.sent ++ out
      replies := s.replies ++ kept
      readings := n })).roles ?_
    · have hright := ((@roles_revive env server).after t).roles (hdied.spared.ids ▸ hmem)
      exact ordinary_of_roles hdied hserver ((hright.symm.trans (ht ▸ hleft)).trans rfl)
    · unfold withoutInstance
      rw [List.map_map]
      refine (List.map_congr_left fun x _ => ?_).symm ▸ hmem
      rw [Function.comp_apply]
      split_ifs <;> rfl

theorem handled_of_ordinary {s : State} (h : domain.Reachable s) (hreason : reason.deceased = true)
    (hordinary : s.Ordinary pid) : Handled env pid reason s := by
  obtain ⟨hlinked, hhosted⟩ := referenced_of_reachable h
  obtain ⟨server, hserver⟩ := hordinary.hosted
  obtain ⟨i, hi, hfind⟩ := serverOf_eq_some hserver
  obtain ⟨out, kept, n, heq, hout, hkept, htold, -⟩ := @deadEvent_some env pid reason s hlinked hhosted hreason i server hi hfind
  refine ⟨_, ⟨?_, ?_, ⟨out, rfl, hout⟩, ⟨kept, rfl, hkept⟩, withoutInstance_gone hhosted hordinary hi _ _ _ n,
    withoutInstance_spared hordinary hi _ _ _ n⟩, hserver ▸ heq⟩
  · refine takeWhile_eq_filter_iff.2 (hordinary.listeners.imp fun {a b} hab ha => ?_)
    simpa using hab (by simpa using ha)
  · intro listener hlistener
    rcases htold listener hlistener with h | ⟨x, hx, hqueue, hdead⟩ | h
    · refine .inl ?_
      change _ ∈ (s.sent ++ out).drop s.sent.length
      rwa [List.drop_left]
    · refine .inr (.inl ⟨x, ?_, hqueue, hdead⟩)
      change _ ∈ (s.replies ++ kept).drop s.replies.length
      rwa [List.drop_left]
    · exact .inr (.inr h)

/-- An event that is not of a death changes nothing. -/
theorem deadEvent_alive (s : State) (hreason : reason.deceased = false) : deadEvent env pid reason s = .ok () s := by
  unfold deadEvent
  rw [if_neg (by simp [hreason])]
  rfl

/-- A death is handled when the process is an instance of a server and nothing else that the handler forgets. -/
theorem handled_iff {s : State} (h : domain.Reachable s) (hreason : reason.deceased = true) :
    Handled env pid reason s ↔ s.Ordinary pid :=
  ⟨ordinary_of_handled h hreason, handled_of_ordinary h hreason⟩

/-- A server is booted, connects and listens, and so does another process. -/
def listened : List (Environment × Action) :=
  [(starting (some 1) 0, .boot 1), (starting none 0, .message (connectOf 1)), (starting none 0, .message (.registration ⟨5, 5⟩))]

theorem listened_reachable : domain.Reachable (listened.foldl perform (configured 1)) := by
  apply Machine.Reachable.foldl (configured_reachable 1)
  refine ⟨admitted_boot ?_ ?_, admitted_message _ _ ?_, admitted_message _ _ ?_, trivial⟩
  all_goals decide

theorem listened_handled : Handled (starting none 0) 1 .core (listened.foldl perform (configured 1)) := by
  refine (handled_iff listened_reachable rfl).2 ⟨⟨_, rfl⟩, ?_, ?_, ?_, ?_, ?_⟩ <;> decide

/-- The server listens too: when it dies, the listener behind it is erased. -/
def listening : State :=
  perform (listened.foldl perform (configured 1)) (starting none 0, .message (.registration ⟨1, 1⟩))

theorem listening_erased : domain.Reachable listening ∧ ¬Handled (starting none 0) 1 .core listening := by
  have hrunning : (listened.foldl perform (configured 1)).running = true := by decide
  have hreachable : domain.Reachable listening := .step listened_reachable (admitted_message 0 (.registration ⟨1, 1⟩) hrunning)
  refine ⟨hreachable, fun hhandled => ?_⟩
  have hlisteners := (ordinary_of_handled hreachable rfl hhandled).listeners
  revert hlisteners
  decide

end State

end Casual.Broker

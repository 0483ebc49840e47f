/-
Cross references of the broker: services and instances refer to each other, servers refer to instances
that are there, and nothing refers to a process that is gone.
-/
import Casual.Broker.Conservation

namespace Casual.Broker

open Casual.Common Casual.Communication Casual.Lib

namespace State

/-! ## Startup -/

/-- The part of `connect_broker` for a broker that has no instance of its own yet. -/
def joined (id : Nat) (process : Process) (s : State) : State :=
  { s with
    servers := s.servers ++ [{ id := id, name := "casual-broker", configuredInstances := 1, instances := [process.pid] }]
    instances := Function.update s.instances process.pid (some ⟨process, 0, id, [], .idle⟩) }

/-- `connect_broker`. -/
def connectBroker (id : Nat) (process : Process) (services : List Information) : M Unit := do
  if ((← get).instances process.pid).isNone then
    modify (joined id process)
    addServices process.pid (services.map Service.transform)

/-- `Boot`. That a process cannot be started is an invalid argument, which is only logged. -/
def bootExecutable (env : Environment) (executable : Executable) : M Unit :=
  tryCatch (boot env executable executable.configuredInstances) fun e =>
    match e with
    | .spawn => pure ()
    | e => throw e

/-- `Boot` of a server or an executable. -/
def bootOne (env : Environment) (id : Nat) : M Unit := do
  match (← get).servers.find? fun server => server.id == id with
  | some server => bootExecutable env server.toExecutable
  | none =>
    match (← get).executables.find? fun e => e.id == id with
    | some executable => bootExecutable env executable
    | none => pure ()

/-! ## What stays as it is -/

/-- Who refers to whom is not touched. -/
structure Still (s t : State) : Prop where
  hosts : t.hosts = s.hosts
  offers : t.offers = s.offers
  residents : ∀ pid, (t.instances pid).map Instance.server = (s.instances pid).map Instance.server
  servers : (t.servers.map fun server => (server.id, server.instances)) = s.servers.map fun server => (server.id, server.instances)
  readings : s.readings ≤ t.readings

theorem Still.of_same {s t : State} (hservices : t.services = s.services) (hinstances : t.instances = s.instances)
    (hservers : t.servers = s.servers) (hreadings : s.readings ≤ t.readings) : Still s t := by
  refine ⟨?_, ?_, ?_, ?_, hreadings⟩
  · unfold State.hosts
    rw [hservices]
  · unfold State.offers
    rw [hinstances]
  · intro pid
    rw [hinstances]
  · rw [hservers]

instance : Std.Refl Still := ⟨fun _ => .of_same rfl rfl rfl le_rfl⟩

instance : IsTrans State Still := by
  constructor
  rintro s t u h h'
  exact ⟨h'.hosts.trans h.hosts, h'.offers.trans h.offers, fun pid => (h'.residents pid).trans (h.residents pid),
    h'.servers.trans h.servers, h.readings.trans h'.readings⟩

theorem still_modify {f : State → State} (h : ∀ s, Still s (f s)) : Moves Still (modify f : M Unit) := .modify h

theorem still_setInstance (s : State) (pid : Nat) {f : Instance → Instance} (hservices : ∀ i, (f i).services = i.services)
    (hserver : ∀ i, (f i).server = i.server) : Still s (s.setInstance pid f) := by
  refine ⟨rfl, ?_, ?_, rfl, le_rfl⟩
  · exact (offers_setInstance s pid f id hservices (.inr rfl)).trans (Function.update_eq_self _ _)
  · intro pid'
    by_cases heq : pid' = pid
    · subst heq
      rw [instances_setInstance_self, Option.map_map]
      exact congrArg (Option.map · _) (funext hserver)
    · have hother : (s.setInstance pid f).instances pid' = s.instances pid' := Function.update_of_ne heq ..
      rw [hother]

theorem still_setService (s : State) (name : String) {f : Service → Service} (h : ∀ service, (f service).instances = service.instances) :
    Still s (s.setService name f) := by
  refine ⟨?_, rfl, fun _ => rfl, rfl, le_rfl⟩
  exact (hosts_setService s name f id h (.inr rfl)).trans (Function.update_eq_self _ _)

theorem still_setServer (s : State) (id : Nat) {f : Server → Server} (hid : ∀ server, (f server).id = server.id)
    (hinstances : ∀ server, (f server).instances = server.instances) : Still s (s.setServer id f) := by
  refine ⟨rfl, rfl, fun _ => rfl, ?_, le_rfl⟩
  unfold setServer
  rw [List.map_map]
  refine List.map_congr_left fun server _ => ?_
  rw [Function.comp_apply]
  split_ifs
  · rw [hid, hinstances]
  · rfl

theorem still_alterState (s : State) (pid : Nat) (state : InstanceState) : Still s (s.alterState pid state) :=
  still_setInstance s pid (fun _ => rfl) fun _ => rfl

section Programs

variable (env : Environment)

theorem still_getInstance (pid : Nat) : Moves Still (getInstance pid) := by
  refine ⟨fun s => ?_⟩
  unfold getInstance
  split <;> exact Std.Refl.refl s

theorem still_getService (name : String) : Moves Still (getService name) := by
  refine ⟨fun s => ?_⟩
  unfold getService
  split <;> exact Std.Refl.refl s

theorem still_getServer (id : Nat) : Moves Still (getServer id) := by
  refine ⟨fun s => ?_⟩
  unfold getServer
  split <;> exact Std.Refl.refl s

theorem still_reading : Moves Still reading := ⟨fun _ => .of_same rfl rfl rfl (Nat.le_succ _)⟩

theorem still_push (queue : Nat) (reply : Reply) : Moves Still (modify (push queue reply) : M Unit) :=
  still_modify fun _ => .of_same rfl rfl rfl le_rfl

theorem still_blockingSend (queue : Nat) (reply : Reply) : Moves Still (blockingSend env queue reply) := by
  refine .bind still_reading fun _ => .ite ?_ (still_push _ _)
  exact .bind (.throw _) fun _ => still_push _ _

theorem still_nonBlockingSend (queue : Nat) (reply : Reply) : Moves Still (nonBlockingSend env queue reply) := by
  refine .bind still_reading fun n => .ite (.throw _) (.ite (.pure _) ?_)
  exact .bind (still_push _ _) fun _ => .pure _

theorem still_pendingSend (reply : Reply) : ∀ targets, Moves Still (pendingSend env reply targets)
  | [] => .pure _
  | queue :: targets => by
    have ih := still_pendingSend reply targets
    refine .bind still_reading fun n => .ite ih (.ite ?_ ?_)
    · exact .bind ih fun _ => .pure _
    · exact .bind (still_push _ _) fun _ => ih

theorem still_catchMissing {x handler : M Unit} (hx : Moves Still x) (hhandler : Moves Still handler) :
    Moves Still (catchMissing x handler) := by
  apply Moves.tryCatch hx
  intro e
  cases e
  · exact hhandler
  · exact .throw _
  · exact .throw _

theorem still_lookupProcess (message : ProcessLookup) : Moves Still (lookupProcess env message) := by
  have hsend : ∀ process : Process, Moves Still (do
      let reply := Reply.process message.correlation message.identification process
      if !(← nonBlockingSend env message.process.queue reply) then
        modify fun s => { s with replies := s.replies ++ [([message.process.queue], reply)] } : M Unit) := by
    intro process
    refine .bind (still_nonBlockingSend env _ _) fun sent => .ite ?_ (.pure _)
    exact still_modify fun _ => .of_same rfl rfl rfl le_rfl
  apply Moves.bind .get
  intro s
  simp only []
  split
  · exact hsend _
  · refine .ite ?_ (hsend _)
    exact still_modify fun _ => .of_same rfl rfl rfl le_rfl

theorem still_connectSingleton (message : ConnectRequest) : Moves Still (connectSingleton env message) := by
  apply Moves.bind .get
  intro s
  split
  · refine .ite ?_ (.pure _)
    refine .bind (still_blockingSend env _ _) fun _ => .bind (still_getInstance _) fun i => .bind (still_getServer _) fun server => ?_
    refine .bind ?_ fun _ => .pure _
    exact still_modify fun s => still_setServer s _ (fun _ => rfl) fun _ => rfl
  · refine .bind ?_ fun _ => .bind (.forM (still_lookupProcess env) _) fun _ => .pure _
    exact still_modify fun _ => .of_same rfl rfl rfl le_rfl

theorem still_connect (message : ConnectRequest) : Moves Still (connect env message) := by
  have hsend : ∀ accepted : Bool, Moves Still (do
      if accepted then
        blockingSend env message.process.queue (.connect message.correlation .start)
      return accepted : M Bool) := by
    intro accepted
    apply Moves.ite
    · exact .bind (still_blockingSend env _ _) fun _ => .pure _
    · exact .pure _
  refine .bind .get fun _ => .ite ?_ (.ite ?_ ?_)
  · exact .bind (still_blockingSend env _ _) fun _ => .pure _
  · exact .bind (still_connectSingleton env message) hsend
  · exact .bind (.pure _) hsend

theorem still_serviceLookup (message : LookupRequest) : Moves Still (serviceLookup env message) := by
  refine still_catchMissing ?_ (still_blockingSend env _ _)
  refine .bind (still_getService _) fun service => .bind .get fun s => ?_
  dsimp only
  split
  · refine .bind (still_getInstance _) fun i => .bind ?_ fun _ => .bind (still_blockingSend env _ _) fun _ => ?_
    · exact still_modify fun s => still_alterState s _ _
    · exact still_modify fun s => still_setService s _ fun _ => rfl
  · refine .ite (still_blockingSend env _ _) (.bind ?_ fun _ => still_blockingSend env _ _)
    exact still_modify fun _ => .of_same rfl rfl rfl le_rfl

theorem still_ack (pid : Nat) : Moves Still (ack env pid) := by
  refine still_catchMissing ?_ (.pure _)
  refine .bind (still_getInstance _) fun i => .bind ?_ fun _ => ?_
  · exact still_modify fun s => still_setInstance s _ (fun _ => rfl) fun _ => rfl
  · apply Moves.bind .get
    intro s
    split
    · refine .bind (still_serviceLookup env _) fun _ => ?_
      exact still_modify fun _ => .of_same rfl rfl rfl le_rfl
    · exact .pure _

theorem still_ready (pid : Nat) : Moves Still (ready pid) :=
  .bind (still_getInstance _) fun _ => still_modify fun s => still_alterState s _ _

theorem still_notify (pid : Nat) (reason : Reason) : Moves Still (notify env pid reason) := by
  refine .bind .get fun s => .ite ?_ (.pure _)
  refine .bind (still_pendingSend env _ _) fun left => .ite ?_ (.pure _)
  exact still_modify fun _ => .of_same rfl rfl rfl le_rfl

theorem still_shutdownInstance (pid : Nat) : Moves Still (shutdownInstance env pid) := by
  refine .bind .get fun s => .ite ?_ (.pure _)
  apply Moves.tryCatch
  · refine .bind (still_getInstance _) fun i => .bind ?_ fun _ => .bind (still_nonBlockingSend env _ _) fun sent => .ite ?_ (.pure _)
    · exact still_modify fun s => still_alterState s _ _
    · exact still_modify fun _ => .of_same rfl rfl rfl le_rfl
  · intro e
    cases e
    · exact .pure _
    · exact .pure _
    · exact .throw _

theorem still_spawn : ∀ n, Moves Still (spawn env n)
  | 0 => .pure _
  | n + 1 => by
    apply Moves.bind still_reading
    intro reading
    split
    · exact .throw _
    · exact .bind (still_spawn n) fun _ => .pure _

end Programs

/-! ## Servers and the instances they refer to -/

/-- The instances of a server are there, and are its own. -/
structure Hosted (s : State) : Prop where
  ids : (s.servers.map (·.id)).Nodup
  resident : ∀ server ∈ s.servers, ∀ pid ∈ server.instances, (s.instances pid).map Instance.server = some server.id
  once : ∀ server ∈ s.servers, server.instances.Pairwise (· < ·)

/-- What the system still starts are processes that the broker does not know of. -/
def Free (env : Environment) (s : State) : Prop :=
  ∀ n, s.readings ≤ n → ∀ pid, env.spawn n = some pid → s.instances pid = none

/-- Processes that are started have different pids. -/
def Distinct (env : Environment) : Prop := ∀ m n pid, env.spawn m = some pid → env.spawn n = some pid → m = n

/-- What every action keeps of the references among servers, instances and services. -/
structure Sound (env : Environment) (s : State) : Prop where
  linked : s.Linked
  hosted : s.Hosted
  free : s.Free env

variable {env : Environment}

theorem Still.hosted {s t : State} (h : Still s t) (hs : s.Hosted) : t.Hosted := by
  have hmem : ∀ server ∈ t.servers, ∃ server' ∈ s.servers, server'.id = server.id ∧ server'.instances = server.instances := by
    intro server hserver
    have hpair : (server.id, server.instances) ∈ t.servers.map fun server => (server.id, server.instances) :=
      List.mem_map_of_mem (f := fun server : Server => (server.id, server.instances)) hserver
    rw [h.servers] at hpair
    obtain ⟨server', hserver', heq⟩ := List.mem_map.1 hpair
    exact ⟨server', hserver', congrArg Prod.fst heq, congrArg Prod.snd heq⟩
  refine ⟨?_, ?_, ?_⟩
  · have hids : t.servers.map (·.id) = s.servers.map (·.id) := by
      have := congrArg (List.map Prod.fst) h.servers
      simpa only [List.map_map, Function.comp_def] using this
    rw [hids]
    exact hs.ids
  · intro server hserver pid hpid
    obtain ⟨server', hserver', hid, hinstances⟩ := hmem server hserver
    rw [h.residents, ← hid]
    exact hs.resident server' hserver' pid (hinstances ▸ hpid)
  · intro server hserver
    obtain ⟨server', hserver', -, hinstances⟩ := hmem server hserver
    exact hinstances ▸ hs.once server' hserver'

theorem Still.free {s t : State} (h : Still s t) (hs : s.Free env) : t.Free env := by
  intro n hn pid hpid
  have hnone := hs n (h.readings.trans hn) pid hpid
  have := h.residents pid
  rw [hnone] at this
  exact Option.map_eq_none_iff.1 this

theorem Still.sound {s t : State} (h : Still s t) (hs : s.Sound env) : t.Sound env :=
  ⟨hs.linked.congr h.hosts h.offers, h.hosted hs.hosted, h.free hs.free⟩

/-- From a sound state a program leaves a sound one. -/
def SoundIfSound (env : Environment) (s t : State) : Prop := s.Sound env → t.Sound env

instance : Std.Refl (SoundIfSound env) := ⟨fun _ h => h⟩

instance : IsTrans State (SoundIfSound env) := ⟨fun _ _ _ h h' hs => h' (h hs)⟩

theorem sound_of_still {α : Type} {x : M α} (h : Moves Still x) : Moves (SoundIfSound env) x :=
  h.mono fun _ _ hst hs => hst.sound hs

theorem sound_catchMissing {x handler : M Unit} (hx : Moves (SoundIfSound env) x) (hhandler : Moves (SoundIfSound env) handler) :
    Moves (SoundIfSound env) (catchMissing x handler) := by
  apply Moves.tryCatch hx
  intro e
  cases e
  · exact hhandler
  · exact .throw _
  · exact .throw _

/-! ### Services that are added and removed -/

/-- Servers are not touched, and instances stay where they are. -/
structure Housed (s t : State) : Prop where
  residents : ∀ pid, (t.instances pid).map Instance.server = (s.instances pid).map Instance.server
  servers : t.servers = s.servers
  readings : t.readings = s.readings

theorem Housed.trans {s t u : State} (h : Housed s t) (h' : Housed t u) : Housed s u :=
  ⟨fun pid => (h'.residents pid).trans (h.residents pid), h'.servers.trans h.servers, h'.readings.trans h.readings⟩

theorem Housed.sound {s t : State} (h : Housed s t) (hs : s.Sound env) (hlinked : t.Linked) : t.Sound env := by
  refine ⟨hlinked, ⟨?_, ?_, ?_⟩, ?_⟩
  · rw [h.servers]
    exact hs.hosted.ids
  · rw [h.servers]
    intro server hserver pid hpid
    rw [h.residents]
    exact hs.hosted.resident server hserver pid hpid
  · rw [h.servers]
    exact hs.hosted.once
  · intro n hn pid hpid
    have hnone := hs.free n (h.readings ▸ hn) pid hpid
    have := h.residents pid
    rw [hnone] at this
    exact Option.map_eq_none_iff.1 this

theorem housed_setInstance (s : State) (pid : Nat) {f : Instance → Instance} (hserver : ∀ i, (f i).server = i.server) :
    Housed s (s.setInstance pid f) := by
  refine ⟨fun pid' => ?_, rfl, rfl⟩
  by_cases heq : pid' = pid
  · subst heq
    rw [instances_setInstance_self, Option.map_map]
    exact congrArg (Option.map · _) (funext hserver)
  · have hother : (s.setInstance pid f).instances pid' = s.instances pid' := Function.update_of_ne heq ..
    rw [hother]

theorem housed_emplace (s : State) (service : Service) : Housed s (s.emplace service) := by
  unfold emplace
  split <;> exact ⟨fun _ => rfl, rfl, rfl⟩

theorem housed_addService (s : State) (pid : Nat) (service : Service) : Housed s (addService pid service s) := by
  have hservice : Housed (s.emplace service) ((s.emplace service).setService service.information.name fun known =>
      { known with instances := insertUnique pid known.instances }) := ⟨fun _ => rfl, rfl, rfl⟩
  exact ((housed_emplace s service).trans hservice).trans (housed_setInstance _ _ fun _ => rfl)

theorem housed_removeService (s : State) (pid : Nat) (service : Service) : Housed s (removeService pid service s) := by
  have hservice : ∀ t : State, Housed t (t.setService service.information.name fun known =>
      { known with instances := known.instances.erase pid }) := fun _ => ⟨fun _ => rfl, rfl, rfl⟩
  exact (housed_setInstance s pid (f := fun i => { i with services := i.services.erase service.information.name })
    fun _ => rfl).trans (hservice _)

theorem housed_foldl {f : State → Service → State} (h : ∀ s service, Housed s (f s service)) : ∀ (l : List Service) (s : State),
    Housed s (l.foldl f s)
  | [], _ => ⟨fun _ => rfl, rfl, rfl⟩
  | service :: l, s => (h s service).trans (housed_foldl h l _)

theorem sound_addServices (pid : Nat) (services : List Information) :
    Moves (SoundIfSound env) (addServices pid (services.map Service.transform)) := by
  refine ⟨fun s hs => ?_⟩
  have hhoused : Housed s (after (addServices pid (services.map Service.transform) s)) := by
    have hrefl : Housed s s := ⟨fun _ => rfl, rfl, rfl⟩
    unfold addServices
    cases hi : getInstance pid s with
    | error e t =>
      have ht : t = s := by
        unfold getInstance at hi
        split at hi <;> cases hi
        rfl
      rw [bind_error hi, ht]
      exact hrefl
    | ok i t =>
      have ht : t = s := by
        unfold getInstance at hi
        split at hi <;> cases hi
        rfl
      subst ht
      rw [bind_ok hi]
      cases hserver : getServer i.server t with
      | error e u =>
        have hu : u = t := by
          unfold getServer at hserver
          split at hserver <;> cases hserver
          rfl
        rw [bind_error hserver, hu]
        exact hrefl
      | ok server u =>
        have hu : u = t := by
          unfold getServer at hserver
          split at hserver <;> cases hserver
          rfl
        subst hu
        rw [bind_ok hserver]
        exact housed_foldl (fun s service => housed_addService s pid service) _ u
  rcases addServices_cases hs.linked pid services with ⟨hcalm, -⟩ | ⟨t, names, ht, hadded, -⟩
  · exact hhoused.sound hs (hcalm.linked hs.linked)
  · refine hhoused.sound hs ?_
    rw [ht]
    exact hadded.linked

theorem sound_removeServices (pid : Nat) (services : List Service) : Moves (SoundIfSound env) (removeServices pid services) := by
  refine .bind (sound_of_still (still_getInstance _)) fun _ => .modify fun s hs => ?_
  exact (housed_foldl (fun s service => housed_removeService s pid service) services s).sound hs
    ((calm_foldl (fun s service => calm_removeService s pid service) services s).linked hs.linked)

/-! ### Instances that are started -/

/-- The loop of `addInstances`: a pid that is known keeps its instance. -/
theorem instances_foldl_started (id : Nat) : ∀ (pids : List Nat) (s : State) (pid : Nat),
    (pids.foldl (fun s pid => if (s.instances pid).isSome then s
      else { s with instances := Function.update s.instances pid (some (started id pid)) }) s).instances pid =
      if pid ∈ pids ∧ s.instances pid = none then some (started id pid) else s.instances pid
  | [], s, pid => by simp
  | p :: pids, s, pid => by
    rw [List.foldl_cons, instances_foldl_started id pids]
    by_cases heq : pid = p
    · subst heq
      cases hi : s.instances pid with
      | some i => simp [hi]
      | none => simp
    · have hother : (if (s.instances p).isSome then s else
          { s with instances := Function.update s.instances p (some (started id p)) }).instances pid = s.instances pid := by
        split_ifs
        · rfl
        · exact Function.update_of_ne heq ..
      rw [hother]
      simp [heq]

theorem foldl_started_same (id : Nat) : ∀ (pids : List Nat) (s : State),
    let t := pids.foldl (fun s pid => if (s.instances pid).isSome then s
      else { s with instances := Function.update s.instances pid (some (started id pid)) }) s
    t.servers = s.servers ∧ t.readings = s.readings
  | [], _ => ⟨rfl, rfl⟩
  | p :: pids, s => by
    obtain ⟨hservers, hreadings⟩ := foldl_started_same id pids (if (s.instances p).isSome then s else
      { s with instances := Function.update s.instances p (some (started id p)) })
    refine ⟨hservers.trans ?_, hreadings.trans ?_⟩ <;> split_ifs <;> rfl

theorem mem_foldl_insertUnique {pid : Nat} : ∀ {pids l : List Nat},
    pid ∈ pids.foldl (fun l pid => insertUnique pid l) l ↔ pid ∈ pids ∨ pid ∈ l
  | [], l => by simp
  | p :: pids, l => by
    rw [List.foldl_cons, mem_foldl_insertUnique, mem_insertUnique, List.mem_cons]
    tauto

theorem sorted_foldl_insertUnique : ∀ {pids l : List Nat}, l.Pairwise (· < ·) →
    (pids.foldl (fun l pid => insertUnique pid l) l).Pairwise (· < ·)
  | [], _, h => h
  | pid :: pids, l, h => by
    have hnext : (insertUnique pid l).Pairwise (· < ·) := sorted_insertUnique h
    exact @sorted_foldl_insertUnique pids _ hnext

theorem sound_addInstances {s : State} (hs : s.Sound env) {id : Nat} {pids : List Nat}
    (hfresh : ∀ pid ∈ pids, s.instances pid = none ∧ ∀ n, s.readings ≤ n → env.spawn n ≠ some pid) :
    (after (addInstances id pids s)).Sound env := by
  have hlinked : (after (addInstances id pids s)).Linked := ((keeps_addInstances id pids).after s hs.linked).linked hs.linked
  revert hlinked
  unfold addInstances
  split_ifs
  · obtain ⟨hservers, hreadings⟩ := foldl_started_same id pids s
    have hinstances := instances_foldl_started id pids s
    generalize (pids.foldl (fun s pid => if (s.instances pid).isSome then s
      else { s with instances := Function.update s.instances pid (some (started id pid)) }) s) = t at *
    intro hlinked
    refine ⟨hlinked, ⟨?_, ?_, ?_⟩, ?_⟩
    · have hids : ((t.setServer id fun server => { server with
          instances := pids.foldl (fun l pid => insertUnique pid l) server.instances }).servers.map (·.id)) = s.servers.map (·.id) := by
        unfold setServer
        rw [List.map_map, hservers]
        refine List.map_congr_left fun server _ => ?_
        rw [Function.comp_apply]
        split_ifs <;> rfl
      rw [after_ok, hids]
      exact hs.hosted.ids
    · rintro _ hmem pid hpid
      obtain ⟨server, hserver, rfl⟩ := List.mem_map.1 hmem
      rw [hservers] at hserver
      show (t.instances pid).map Instance.server = _
      rw [hinstances]
      -- what a server had is still there, and what is new is of the server
      have hold : pid ∈ server.instances → s.instances pid ≠ none := by
        intro hpid hnone
        have := hs.hosted.resident server hserver pid hpid
        rw [hnone] at this
        cases this
      by_cases hid : server.id = id
      · rw [if_pos hid] at hpid ⊢
        by_cases hnew : pid ∈ pids ∧ s.instances pid = none
        · rw [if_pos hnew]
          exact congrArg some hid.symm
        · rw [if_neg hnew]
          rcases mem_foldl_insertUnique.1 hpid with hpid | hpid
          · exact absurd ⟨hpid, (hfresh pid hpid).1⟩ hnew
          · exact hs.hosted.resident server hserver pid hpid
      · rw [if_neg hid] at hpid ⊢
        rw [if_neg fun hnew => hold hpid hnew.2]
        exact hs.hosted.resident server hserver pid hpid
    · rintro _ hmem
      obtain ⟨server, hserver, rfl⟩ := List.mem_map.1 hmem
      rw [hservers] at hserver
      split_ifs
      · exact sorted_foldl_insertUnique (hs.hosted.once server hserver)
      · exact hs.hosted.once server hserver
    · intro n hn pid hpid
      show t.instances pid = none
      have hn' : s.readings ≤ n := hreadings ▸ hn
      rw [hinstances, if_neg fun hnew => (hfresh pid hnew.1).2 n hn' hpid]
      exact hs.free n hn' pid hpid
  · exact fun hlinked => ⟨hlinked, ⟨hs.hosted.ids, hs.hosted.resident, hs.hosted.once⟩, hs.free⟩
  · exact fun hlinked => ⟨hlinked, hs.hosted, hs.free⟩

/-- The pids of a spawn are what the system gave. -/
theorem spawn_ok : ∀ {n : Nat} {s t : State} {pids : List Nat}, spawn env n s = .ok pids t →
    s.readings ≤ t.readings ∧ ∀ pid ∈ pids, ∃ m, s.readings ≤ m ∧ m < t.readings ∧ env.spawn m = some pid
  | 0, s, t, pids, h => by
    cases h
    exact ⟨le_rfl, fun _ hpid => absurd hpid List.not_mem_nil⟩
  | n + 1, s, t, pids, h => by
    obtain ⟨m, u, hreading, hrest⟩ := of_bind_ok h
    cases hreading
    cases hspawn : env.spawn s.readings with
    | none =>
      rw [hspawn] at hrest
      cases hrest
    | some p =>
      rw [hspawn] at hrest
      obtain ⟨pids', v, hpids', hpure⟩ := of_bind_ok hrest
      cases hpure
      obtain ⟨hle, hgiven⟩ := spawn_ok hpids'
      have hlt : s.readings + 1 ≤ t.readings := hle
      refine ⟨by omega, fun pid hpid => ?_⟩
      rcases List.mem_cons.1 hpid with rfl | hpid
      · exact ⟨s.readings, le_rfl, by omega, hspawn⟩
      · obtain ⟨m, hm, hmt, hgiven⟩ := hgiven pid hpid
        have hsm : s.readings + 1 ≤ m := hm
        exact ⟨m, by omega, hmt, hgiven⟩

theorem sound_boot (hdistinct : Distinct env) (executable : Executable) (instances : Nat) :
    Moves (SoundIfSound env) (boot env executable instances) := by
  apply Moves.ite _ (.pure _)
  refine ⟨fun s hs => ?_⟩
  have hstill := (still_spawn env (max executable.configuredInstances instances - executable.instances.length)).after s
  cases hspawn : spawn env (max executable.configuredInstances instances - executable.instances.length) s with
  | error e t =>
    rw [hspawn] at hstill
    rw [bind_error hspawn]
    exact hstill.sound hs
  | ok pids t =>
    rw [hspawn] at hstill
    rw [bind_ok hspawn]
    refine sound_addInstances (hstill.sound hs) fun pid hpid => ?_
    obtain ⟨m, hm, hmt, hgiven⟩ := (spawn_ok hspawn).2 pid hpid
    constructor
    · have hresident := hstill.residents pid
      rw [hs.free m hm pid hgiven] at hresident
      exact Option.map_eq_none_iff.1 hresident
    · intro n hn hagain
      have heq := hdistinct m n pid hgiven hagain
      rw [after_ok] at hn
      omega

theorem sound_updateInstances (hdistinct : Distinct env) (id : Nat) : Moves (SoundIfSound env) (updateInstances env id) := by
  refine .bind (sound_of_still (still_getServer _)) fun server => .ite (sound_boot hdistinct _ _) ?_
  exact .forM (fun pid => sound_of_still (still_shutdownInstance env pid)) _

theorem sound_updateServers (hdistinct : Distinct env) (name : String) (instances : Nat) :
    Moves (SoundIfSound env) (updateServers env name instances) := by
  refine .bind .get fun _ => .forM (fun server => .bind ?_ fun _ => sound_updateInstances hdistinct _) _
  exact sound_of_still (still_modify fun s => still_setServer s _ (fun _ => rfl) fun _ => rfl)

theorem sound_serviceUpdateInstances (hdistinct : Distinct env) (name : String) (instances : Nat) :
    Moves (SoundIfSound env) (serviceUpdateInstances env name instances) :=
  .tryCatch (sound_updateServers hdistinct name instances) fun _ => .pure _

/-! ### Processes that are gone -/

theorem housed_removeFromServices (pid : Nat) : ∀ names, Moves Housed (removeFromServices pid names)
  | [] => ⟨fun _ => ⟨fun _ => rfl, rfl, rfl⟩⟩
  | name :: names => by
    refine ⟨fun s => ?_⟩
    unfold removeFromServices
    cases hget : getService name s with
    | error e t =>
      have ht : t = s := by
        unfold getService at hget
        split at hget <;> cases hget
        rfl
      rw [bind_error hget, ht]
      exact ⟨fun _ => rfl, rfl, rfl⟩
    | ok service t =>
      have ht : t = s := by
        unfold getService at hget
        split at hget <;> cases hget
        rfl
      subst ht
      rw [bind_ok hget]
      have hset : Housed t (t.setService name fun service => { service with instances := service.instances.erase pid }) :=
        ⟨fun _ => rfl, rfl, rfl⟩
      exact hset.trans ((housed_removeFromServices pid names).after _)

/-- A process that is removed, and of whose pid the system may start another. -/
theorem sound_removeProcess {s : State} {pid : Nat} (hlinked : s.Linked) (hhosted : s.Hosted)
    (hfree : ∀ n, s.readings ≤ n → ∀ p, env.spawn n = some p → p = pid ∨ s.instances p = none) {i : Instance} {server : Server}
    (hi : s.instances pid = some i) (hfind : s.servers.find? (fun server => server.id == i.server) = some server) :
    ∃ t, removeProcess pid s = .ok () t ∧ t.Sound env := by
  have hknown : ∀ name ∈ i.services, (s.services name).isSome := by
    intro name hname
    have hoffers : name ∈ s.offers pid := by
      unfold offers
      rw [hi]
      exact hname
    obtain ⟨service, hservice⟩ := exists_of_mem_hosts ((hlinked.iff name pid).2 hoffers)
    rw [hservice]
    rfl
  obtain ⟨t, ht, hinstances, hservers, -, -, -⟩ := @removeFromServices_ok pid _ _ hknown hlinked.hosts
  have hreadings : t.readings = s.readings := by
    have := (housed_removeFromServices pid i.services).after s
    rw [ht] at this
    exact this.readings
  obtain ⟨u, hu, hcalm⟩ := calm_removeProcess hlinked hi hfind
  have hget : getServer i.server t = .ok server t := by
    unfold getServer
    rw [hservers, hfind]
  have hremove : removeInstance pid i s = .ok () { t.setServer server.id fun server =>
      { server with toExecutable := server.toExecutable.remove pid, invoked := server.invoked + i.invoked } with
        instances := Function.update t.instances pid none } := by
    unfold removeInstance
    rw [bind_ok ht, bind_ok hget]
    rfl
  have hremoved : removeProcess pid s = .ok () (removeSingleton pid { t.setServer server.id fun server =>
      { server with toExecutable := server.toExecutable.remove pid, invoked := server.invoked + i.invoked } with
        instances := Function.update t.instances pid none }) := by
    have hstate : (get : M State) s = .ok s s := rfl
    unfold removeProcess
    rw [bind_ok hstate, hi]
    simp only []
    rw [bind_ok hremove]
    rfl
  refine ⟨_, hremoved, ?_, ⟨?_, ?_, ?_⟩, ?_⟩
  · rw [hu] at hremoved
    cases hremoved
    exact hcalm.linked hlinked
  · have hids : ((t.setServer server.id fun server => { server with
        toExecutable := server.toExecutable.remove pid, invoked := server.invoked + i.invoked }).servers.map (·.id)) =
        s.servers.map (·.id) := by
      unfold setServer
      rw [List.map_map, hservers]
      refine List.map_congr_left fun server _ => ?_
      rw [Function.comp_apply]
      split_ifs <;> rfl
    exact hids ▸ hhosted.ids
  · rintro _ hmem p hp
    obtain ⟨server', hserver', rfl⟩ := List.mem_map.1 hmem
    rw [hservers] at hserver'
    have hid : i.server = server.id := by
      have := List.find?_some hfind
      exact (beq_iff_eq.1 this).symm
    show (Function.update t.instances pid none p).map Instance.server = _
    -- no other server refers to the process, and its own no longer does
    have hother : p ≠ pid ∧ p ∈ server'.instances := by
      by_cases heq : server'.id = server.id
      · rw [if_pos heq] at hp
        have hnodup : server'.instances.Nodup := nodup_of_sorted (hhosted.once server' hserver')
        exact hnodup.mem_erase_iff.1 hp
      · rw [if_neg heq] at hp
        refine ⟨?_, hp⟩
        rintro rfl
        have hresident := hhosted.resident server' hserver' p hp
        rw [hi] at hresident
        exact heq ((Option.some.inj hresident).symm.trans hid)
    rw [Function.update_of_ne hother.1, hinstances, hhosted.resident server' hserver' p hother.2]
    split_ifs <;> rfl
  · rintro _ hmem
    obtain ⟨server', hserver', rfl⟩ := List.mem_map.1 hmem
    rw [hservers] at hserver'
    split_ifs
    · exact (hhosted.once server' hserver').sublist List.erase_sublist
    · exact hhosted.once server' hserver'
  · intro n hn p hp
    show Function.update t.instances pid none p = none
    by_cases heq : p = pid
    · rw [heq, Function.update_self]
    · rw [Function.update_of_ne heq, hinstances]
      exact (hfree n (hreadings ▸ hn) p hp).resolve_left heq

theorem removeDead_referenced (hdistinct : Distinct env) {s : State} {pid : Nat} (hlinked : s.Linked) (hhosted : s.Hosted)
    (hfree : ∀ n, s.readings ≤ n → ∀ p, env.spawn n = some p → p = pid ∨ s.instances p = none) :
    (after (removeDead env pid s)).Linked ∧ (after (removeDead env pid s)).Hosted := by
  refine ⟨((keeps_removeDead env pid).after s hlinked).linked hlinked, ?_⟩
  cases hi : s.instances pid with
  | none =>
    have hget : getInstance pid s = .error .missing s := by
      unfold getInstance
      rw [hi]
    unfold removeDead
    rw [bind_error hget]
    exact hhosted
  | some i =>
    have hget : getInstance pid s = .ok i s := by
      unfold getInstance
      rw [hi]
    cases hfind : s.servers.find? (fun server => server.id == i.server) with
    | none =>
      have hget' : getServer i.server s = .error .missing s := by
        unfold getServer
        rw [hfind]
      unfold removeDead
      rw [bind_ok hget, bind_error hget']
      exact hhosted
    | some server =>
      have hget' : getServer i.server s = .ok server s := by
        unfold getServer
        rw [hfind]
      have hstill : Still s (s.setServer server.id fun server => { server with deaths := server.deaths + 1 }) :=
        still_setServer s _ (fun _ => rfl) fun _ => rfl
      obtain ⟨server', hfind'⟩ := find_setServer (fun server => { server with deaths := server.deaths + 1 })
        (fun _ => rfl) hfind server.id
      obtain ⟨t, ht, hsound⟩ := sound_removeProcess (hlinked.congr hstill.hosts hstill.offers) (hstill.hosted hhosted) hfree hi hfind'
      have hmodify : (modify (setServer server.id fun server => { server with deaths := server.deaths + 1 }) : M Unit) s =
        .ok () (s.setServer server.id fun server => { server with deaths := server.deaths + 1 }) := rfl
      have hrest : Moves (SoundIfSound env) (if server.restart then updateInstances env server.id else pure ()) :=
        .ite (sound_updateInstances hdistinct _) (.pure _)
      unfold removeDead
      rw [bind_ok hget, bind_ok hget', bind_ok hmodify, bind_ok ht]
      exact (hrest.after t hsound).hosted

/-! ## Runs -/

theorem sound_connectServer (message : ConnectRequest) : Moves (SoundIfSound env) (connectServer env message) := by
  refine sound_catchMissing ?_ (.pure _)
  refine .bind (sound_of_still (still_getInstance _)) fun _ => .bind ?_ fun _ => .bind ?_ fun accepted => .ite ?_ (.pure _)
  · exact sound_of_still (still_modify fun s => still_setInstance s _ (fun _ => rfl) fun _ => rfl)
  · exact sound_of_still (still_connect env message)
  · refine .bind (sound_addServices _ _) fun _ => ?_
    exact sound_of_still (still_modify fun s => still_alterState s _ _)

theorem sound_advertise (pid : Nat) (services : List Information) : Moves (SoundIfSound env) (advertise pid services) :=
  sound_catchMissing (sound_addServices _ _) (.pure _)

theorem sound_unadvertise (pid : Nat) (services : List Information) : Moves (SoundIfSound env) (unadvertise pid services) :=
  sound_catchMissing (sound_removeServices _ _) (.pure _)

theorem sound_bootExecutable (hdistinct : Distinct env) (executable : Executable) : Moves (SoundIfSound env) (bootExecutable env executable) := by
  refine .tryCatch (sound_boot hdistinct _ _) fun e => ?_
  cases e with
  | spawn => exact .pure _
  | _ => exact .throw _

theorem sound_bootOne (hdistinct : Distinct env) (id : Nat) : Moves (SoundIfSound env) (bootOne env id) := by
  refine .bind .get fun s => ?_
  split
  · exact sound_bootExecutable hdistinct _
  · refine .bind .get fun s => ?_
    split
    · exact sound_bootExecutable hdistinct _
    · exact .pure _

theorem deadEvent_referenced (hdistinct : Distinct env) {s : State} {pid : Nat} {reason : Reason} (hlinked : s.Linked)
    (hhosted : s.Hosted) (hfree : ∀ n p, env.spawn n = some p → p = pid ∨ s.instances p = none) :
    (after (deadEvent env pid reason s)).Linked ∧ (after (deadEvent env pid reason s)).Hosted := by
  unfold deadEvent
  split_ifs
  · have hstill : Still s { s with listeners := s.listeners.takeWhile fun listener => listener.pid != pid } :=
      .of_same rfl rfl rfl le_rfl
    have hnotify := (still_notify env pid reason).after { s with listeners := s.listeners.takeWhile fun listener => listener.pid != pid }
    have hmodify : (modify fun s => { s with listeners := s.listeners.takeWhile fun listener => listener.pid != pid } : M Unit) s =
      .ok () { s with listeners := s.listeners.takeWhile fun listener => listener.pid != pid } := rfl
    have hsame := IsTrans.trans _ _ _ hstill hnotify
    rw [bind_ok hmodify]
    cases hn : notify env pid reason { s with listeners := s.listeners.takeWhile fun listener => listener.pid != pid } with
    | error e t =>
      rw [hn] at hsame
      rw [bind_error hn]
      exact ⟨hlinked.congr hsame.hosts hsame.offers, hsame.hosted hhosted⟩
    | ok a t =>
      rw [hn] at hsame
      rw [bind_ok hn]
      refine removeDead_referenced hdistinct (hlinked.congr hsame.hosts hsame.offers) (hsame.hosted hhosted) fun n _ p hp => ?_
      refine (hfree n p hp).imp_right fun hnone => ?_
      have hresident := hsame.residents p
      rw [hnone] at hresident
      exact Option.map_eq_none_iff.1 hresident
  · exact ⟨hlinked, hhosted⟩

theorem connectBroker_referenced {s : State} {id : Nat} {process : Process} {services : List Information} (hlinked : s.Linked)
    (hhosted : s.Hosted) (hid : ∀ server ∈ s.servers, server.id ≠ id) :
    (after (connectBroker id process services s)).Linked ∧ (after (connectBroker id process services s)).Hosted := by
  -- nothing is started
  have hsound : ∀ t : State, t.Linked → t.Hosted → t.Sound ⟨fun _ _ => false, fun _ _ => false, fun _ => none⟩ :=
    fun t hlinked hhosted => ⟨hlinked, hhosted, fun _ _ _ => nofun⟩
  have hget : (get : M State) s = .ok s s := rfl
  unfold connectBroker
  rw [bind_ok hget]
  cases hi : s.instances process.pid with
  | some i => exact ⟨hlinked, hhosted⟩
  | none =>
    have hmodify : (modify (joined id process) : M Unit) s = .ok () (s.joined id process) := rfl
    have hjoined : (s.joined id process).Sound ⟨fun _ _ => false, fun _ _ => false, fun _ => none⟩ := by
      refine hsound _ (hlinked.congr rfl ?_) ⟨?_, ?_, ?_⟩
      · funext pid
        unfold offers joined
        by_cases heq : pid = process.pid
        · subst heq
          simp only [Function.update_self, hi]
          rfl
        · simp only [Function.update_of_ne heq]
      · unfold joined
        rw [List.map_append, List.nodup_append]
        refine ⟨hhosted.ids, List.nodup_singleton _, ?_⟩
        rintro _ hmem _ hnew rfl
        obtain ⟨server, hserver, heq⟩ := List.mem_map.1 hmem
        exact hid server hserver (heq.trans (List.mem_singleton.1 hnew))
      · intro server hserver pid hpid
        show (Function.update s.instances process.pid _ pid).map Instance.server = _
        rcases List.mem_append.1 hserver with hserver | hserver
        · have hresident := hhosted.resident server hserver pid hpid
          have hne : pid ≠ process.pid := by
            rintro rfl
            rw [hi] at hresident
            cases hresident
          rw [Function.update_of_ne hne]
          exact hresident
        · obtain rfl := List.mem_singleton.1 hserver
          obtain rfl := List.mem_singleton.1 hpid
          rw [Function.update_self]
          rfl
      · intro server hserver
        rcases List.mem_append.1 hserver with hserver | hserver
        · exact hhosted.once server hserver
        · obtain rfl := List.mem_singleton.1 hserver
          exact List.pairwise_singleton _ _
    have hadded := (sound_addServices process.pid services).after _ hjoined
    simp only [Option.isNone_none, if_true]
    rw [bind_ok hmodify]
    exact ⟨hadded.linked, hadded.hosted⟩

/-- What the broker does: it joins its own domain and boots it, and handles messages. -/
inductive Action
  | connectBroker (id : Nat) (process : Process) (services : List Information)
  | boot (id : Nat)
  | message (e : Event)

/-- An action, with what the broker does not decide of it. -/
def act (env : Environment) : Action → M Unit
  | .connectBroker id process services => connectBroker id process services
  | .boot id => bootOne env id
  | .message e => handle env e

/-- An action; an exception that nothing catches ends the pump. -/
def perform (s : State) (x : Environment × Action) : State :=
  match act x.1 x.2 s with
  | .ok _ s => s
  | .error _ s => { s with running := false }

/-- The processes that the system starts: each is another one than those that the broker knows of, other than the
one whose death it handles, and an id of a server is given once. -/
def admitted (s : State) (x : Environment × Action) : Prop :=
  s.running = true ∧ Distinct x.1 ∧
    match x.2 with
    | .connectBroker id _ _ => ∀ server ∈ s.servers, server.id ≠ id
    | .boot _ => ∀ n pid, x.1.spawn n = some pid → s.instances pid = none
    | .message (.dead pid _) => ∀ n p, x.1.spawn n = some p → p = pid ∨ s.instances p = none
    | .message _ => ∀ n pid, x.1.spawn n = some pid → s.instances pid = none

/-- The runs of a broker that has its configuration: servers and executables that are not booted, and services that no
instance has. -/
def domain : Machine State (Environment × Action) where
  init s := (∀ pid, s.instances pid = none) ∧ (∀ name, s.hosts name = []) ∧ (s.servers.map (·.id)).Nodup ∧
    (∀ server ∈ s.servers, server.instances = []) ∧ s.running = true
  admits := admitted
  step := perform

/-- An instance is in the list of a service when the service is in the list of the instance, once; and what a
service or a server refers to has not been removed. -/
structure CrossReferenced (s : State) : Prop where
  iff : ∀ name pid, pid ∈ s.hosts name ↔ name ∈ s.offers pid
  services : ∀ name, ∀ pid ∈ s.hosts name, (s.instances pid).isSome
  servers : ∀ server ∈ s.servers, ∀ pid ∈ server.instances, (s.instances pid).isSome
  once : ∀ name, (s.hosts name).Nodup

theorem crossReferenced_of {s : State} (hlinked : s.Linked) (hhosted : s.Hosted) : s.CrossReferenced := by
  refine ⟨hlinked.iff, fun name pid hpid => ?_, fun server hserver pid hpid => ?_, fun name => nodup_of_sorted (hlinked.hosts name)⟩
  · have hname := (hlinked.iff name pid).1 hpid
    unfold offers at hname
    cases hi : s.instances pid with
    | some i => rfl
    | none =>
      rw [hi] at hname
      cases hname
  · have hresident := hhosted.resident server hserver pid hpid
    cases hi : s.instances pid with
    | some i => rfl
    | none =>
      rw [hi] at hresident
      cases hresident

theorem act_referenced {s : State} (hlinked : s.Linked) (hhosted : s.Hosted) {x : Environment × Action} (hx : s.admitted x) :
    (after (act x.1 x.2 s)).Linked ∧ (after (act x.1 x.2 s)).Hosted := by
  obtain ⟨env, a⟩ := x
  obtain ⟨-, hdistinct, ha⟩ := hx
  have hsound : ∀ {y : M Unit}, Moves (SoundIfSound env) y → (∀ n pid, env.spawn n = some pid → s.instances pid = none) →
      (after (y s)).Linked ∧ (after (y s)).Hosted := by
    intro y hy hfree
    have := hy.after s ⟨hlinked, hhosted, fun n _ => hfree n⟩
    exact ⟨this.linked, this.hosted⟩
  cases a with
  | connectBroker id process services => exact connectBroker_referenced hlinked hhosted ha
  | boot id => exact hsound (sound_bootOne hdistinct id) ha
  | message e =>
    cases e with
    | connect message => exact hsound (sound_connectServer message) ha
    | advertise pid services => exact hsound (sound_advertise pid services) ha
    | unadvertise pid services => exact hsound (sound_unadvertise pid services) ha
    | lookup message => exact hsound (sound_of_still (still_serviceLookup env message)) ha
    | ack pid => exact hsound (sound_of_still (still_ack env pid)) ha
    | dead pid reason => exact deadEvent_referenced hdistinct hlinked hhosted ha
    | update name instances => exact hsound (sound_serviceUpdateInstances hdistinct name instances) ha
    | registration process => exact hsound (sound_of_still (still_modify fun _ => .of_same rfl rfl rfl le_rfl)) ha
    | lookupProcess message => exact hsound (sound_of_still (still_lookupProcess env message)) ha
    | ready pid => exact hsound (sound_of_still (still_ready pid)) ha

theorem perform_referenced {s : State} (hlinked : s.Linked) (hhosted : s.Hosted) {x : Environment × Action} (hx : s.admitted x) :
    (s.perform x).Linked ∧ (s.perform x).Hosted := by
  have hact := act_referenced hlinked hhosted hx
  unfold perform
  cases hr : act x.1 x.2 s with
  | ok a t =>
    rw [hr] at hact
    exact hact
  | error e t =>
    rw [hr] at hact
    exact ⟨hact.1.congr rfl rfl, hact.2.ids, hact.2.resident, hact.2.once⟩

theorem referenced_of_reachable {s : State} (h : domain.Reachable s) : s.Linked ∧ s.Hosted := by
  apply h.invariant (I := fun s => s.Linked ∧ s.Hosted)
  · rintro s ⟨hinstances, hhosts, hids, hempty, -⟩
    have hoffers : ∀ pid, s.offers pid = [] := fun pid => by unfold offers; rw [hinstances]; rfl
    refine ⟨⟨fun name pid => ?_, fun name => ?_, fun pid => ?_⟩, hids, fun server hserver pid hpid => ?_, fun server hserver => ?_⟩
    · rw [hhosts, hoffers]
      exact iff_of_false List.not_mem_nil List.not_mem_nil
    · rw [hhosts]
      exact .nil
    · rw [hoffers]
      exact .nil
    · rw [hempty server hserver] at hpid
      exact absurd hpid List.not_mem_nil
    · rw [hempty server hserver]
      exact .nil
  · rintro s x ⟨hlinked, hhosted⟩ hx
    exact perform_referenced hlinked hhosted hx

/-- In every run services, instances and servers refer to each other as they should. -/
theorem crossReferenced_of_reachable {s : State} (h : domain.Reachable s) : s.CrossReferenced :=
  crossReferenced_of (referenced_of_reachable h).1 (referenced_of_reachable h).2

/-- Nothing is gone or full, and a process may be started. -/
def starting (pid : Option Nat) (n : Nat) : Environment := ⟨fun _ _ => false, fun _ _ => false, fun m => if m = n then pid else none⟩

/-- A server is booted, connects and advertises, and dies. -/
def lived : List (Environment × Action) :=
  [(starting none 0, .connectBroker 7 ⟨50, 50⟩ [⟨".admin", 10, 0, [], 0⟩]), (starting (some 1) 0, .boot 1),
    (starting none 0, .message (connectOf 1)), (starting none 0, .message (.advertise 1 [⟨"other", 0, 0, [], 0⟩])),
    (starting none 0, .message (.unadvertise 1 [⟨"service", 0, 0, [], 0⟩])), (starting none 0, .message (.dead 1 .core))]

theorem starting_distinct (pid : Option Nat) (n : Nat) : Distinct (starting pid n) := by
  have hreading : ∀ m p, (starting pid n).spawn m = some p → m = n := by
    intro m p hm
    by_contra hne
    have hnone : (starting pid n).spawn m = none := if_neg hne
    rw [hnone] at hm
    cases hm
  intro m m' p hm hm'
  rw [hreading m p hm, hreading m' p hm']

theorem starting_free {s : State} {pid : Option Nat} (h : ∀ p, pid = some p → s.instances p = none) (n : Nat) :
    ∀ m p, (starting pid n).spawn m = some p → s.instances p = none := by
  intro m p hm
  by_cases heq : m = n
  · have hsome : (starting pid n).spawn m = pid := if_pos heq
    exact h p (hsome ▸ hm)
  · have hnone : (starting pid n).spawn m = none := if_neg heq
    rw [hnone] at hm
    cases hm

theorem admitted_boot {s : State} {pid n id : Nat} (hrunning : s.running = true) (hfree : s.instances pid = none) :
    s.admitted (starting (some pid) n, .boot id) :=
  ⟨hrunning, starting_distinct _ _, starting_free (fun _ heq => Option.some.inj heq ▸ hfree) n⟩

/-- A message that is handled while nothing is started. -/
theorem admitted_message {s : State} (n : Nat) (e : Event) (hrunning : s.running = true) : s.admitted (starting none n, .message e) := by
  have hnothing : ∀ p, (none : Option Nat) = some p → s.instances p = none := nofun
  have hfree : ∀ m p, (starting none n).spawn m = some p → s.instances p = none := starting_free hnothing n
  refine ⟨hrunning, starting_distinct _ _, ?_⟩
  cases e with
  | dead pid reason => exact fun m p hm => .inr (hfree m p hm)
  | _ => exact hfree

theorem configured_reachable (instances : Nat) : domain.Reachable (configured instances) := by
  have hids : ((configured instances).servers.map (·.id)).Nodup := List.nodup_singleton _
  have hempty : ∀ server ∈ (configured instances).servers, server.instances = [] := by
    intro server hserver
    rw [List.mem_singleton.1 hserver]
  exact .of_init ⟨fun _ => rfl, fun _ => rfl, hids, hempty, rfl⟩

theorem lived_crossReferenced : (lived.foldl perform (configured 1)).CrossReferenced := by
  apply crossReferenced_of_reachable
  apply Machine.Reachable.foldl (configured_reachable 1)
  refine ⟨⟨rfl, starting_distinct _ _, ?_⟩, admitted_boot ?_ ?_, admitted_message _ _ ?_, admitted_message _ _ ?_,
    admitted_message _ _ ?_, admitted_message _ _ ?_, trivial⟩
  · show ∀ server ∈ (configured 1).servers, server.id ≠ 7
    decide
  all_goals decide

end State

end Casual.Broker

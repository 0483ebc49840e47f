/-
`action::resource::Instances` and `insances`, `State::operator()( Exit)` and `admin::update_instances`: how
many proxies a resource has, and what those are handed that are to shut down.
-/
import Casual.Manager.Pending

namespace Casual.Manager.Scaling

open Casual.Common Casual.Communication Casual.Lib

/-! ## What is updated -/

/-- `vo::update::Instances`. -/
structure Directive where
  id : Nat
  instances : Nat
  deriving DecidableEq, Repr

/-- Besides what is left open for messages: whether a process can be spawned, each time it is tried, the pid
it gets, which is none of those the manager has, and the order of directives for one resource after
`std::sort`. -/
structure Environment extends Manager.Environment where
  spawns : Nat → Bool
  pid : Nat → List Nat → Nat
  pid_fresh : ∀ n pids, pid n pids ∉ pids
  directives : List Directive → List Directive
  directives_perm : ∀ l, (directives l).Perm l
  directives_sorted : ∀ l, (directives l).Pairwise fun d d' => d.id ≤ d'.id

/-- The manager with the `concurency` of each resource. The shutdown requests among the persistent replies are
kept apart, with the queues they are for; then the processes that were terminated, how often a process was
spawned, and the requests that were handed to an instance in shutdown. -/
structure Scaled where
  world : World
  concurrency : Nat → Nat
  shutdowns : List Nat
  terminated : List Nat
  spawned : Nat
  misled : List Handed

/-- How an update fails: with an exception, or where the behaviour is undefined. -/
inductive Failure
  | thrown (e : Exception)
  | undefined
  deriving DecidableEq, Repr

/-- What changes the number of instances does. -/
abbrev S (α : Type) := EStateM Failure Scaled α

/-- What the manager does otherwise. -/
def onWorld {α : Type} (x : M α) : S α := fun w =>
  match x w.world with
  | .ok a v => .ok a { w with world := v }
  | .error e v => .error (.thrown e) { w with world := v }

/-- The state of the manager is another. -/
def modifyState (f : State → State) : S Unit := onWorld (Manager.modifyState f)

/-- What is done to the instances of a resource through a reference. -/
def setInstances (rm : Nat) (f : List Instance → List Instance) (s : State) : State :=
  { s with resources := s.resources.map fun p => if p.id = rm then { p with instances := f p.instances } else p }

/-- The pids of the instances that are in shutdown. -/
def shutting (s : State) : List Nat := (s.instances.filter fun i => decide (i.state = .shutdown)).map (·.process.pid)

/-- The instances that are not. -/
def serving (is : List Instance) : List Instance := is.filter fun i => decide (i.state ≠ .shutdown)

section

variable (env : Environment)

/-! ## Scaling out -/

/-- `process::spawn`, which refuses with `invalid::Argument`, and the instance is added. -/
def spawn (rm : Nat) : S Unit := do
  let w ← get
  set { w with spawned := w.spawned + 1 }
  if env.spawns w.spawned then
    let pid := env.pid w.spawned (w.world.state.instances.map (·.process.pid))
    modifyState (setInstances rm (· ++ [⟨rm, ⟨pid, 0⟩, .started⟩]))
  else
    throw (.thrown .invalidArgument)

/-- The loop of `Instances` that starts new ones. -/
def spawnAll (rm : Nat) : Nat → S Unit
  | 0 => pure ()
  | count + 1 => do
    spawn env rm
    spawnAll rm count

/-! ## Scaling in -/

/-- `process::lifetime::terminate`. -/
def terminate (pid : Nat) : S Unit := modify fun w => { w with terminated := w.terminated ++ [pid] }

/-- `Instance::state( State)`, through a reference. -/
def setState (i : Instance) (state : InstanceState) : S Unit :=
  modifyState (·.setInstance i.id i.process.pid (·.setState state))

/-- What `Instances` does with an instance that is not needed. -/
def stop (i : Instance) : S Unit :=
  match i.state with
  | .absent | .started => do
    -- it has not registered yet
    terminate i.process.pid
    setState i .shutdown
  | .shutdown => pure ()
  | .idle | .busy | .startupError => do
    setState i .shutdown
    if !(← onWorld (push env.toEnvironment i.process.queue)) then
      modify fun w => { w with shutdowns := w.shutdowns ++ [i.process.queue] }

/-! ## Updates -/

/-- `static_cast< long>( proxy.concurency - proxy.instances.size())`. -/
def difference (concurrency size : Nat) : Int := Int.bmod ((concurrency : Int) - size) (2 ^ 64)

/-- `Instances::operator ()`. -/
def instances (p : Proxy) : S Unit := do
  let count := difference ((← get).concurrency p.id) p.instances.length
  if 0 < count then
    spawnAll env p.id count.toNat
  else if p.instances.length < (-count).toNat then
    -- the range would begin before the first instance
    throw .undefined
  else
    (p.instances.drop (p.instances.length - (-count).toNat)).forM (stop env)

/-- `get_resource`. -/
def getResource (rm : Nat) : S Proxy := do
  match (← get).world.state.resources.find? fun p => p.id == rm with
  | some p => return p
  | none => throw (.thrown .invalidArgument)

/-- A round of the loop of `insances`. -/
def updateResource (directive : Directive) : S (Option Proxy) :=
  tryCatch (do
    let p ← getResource directive.id
    modify fun w => { w with concurrency := Function.update w.concurrency directive.id directive.instances }
    instances env p
    return some (← getResource directive.id)) fun e =>
      match e with
      | .thrown .invalidArgument => pure none
      | e => throw e

/-- `insances`, of directives that differ in resource. -/
def insances : List Directive → S (List Proxy)
  | [] => pure []
  | directive :: rest => do
    let updated ← updateResource env directive
    return updated.toList ++ (← insances rest)

/-- `range::unique( range::sort( instances))`. -/
def taken (directives : List Directive) : List Directive := (env.directives directives).destutter fun d d' => d.id ≠ d'.id

/-- `update_instances`, which answers with an error what is thrown. -/
def updateInstances (directives : List Directive) (w : Scaled) : Scaled :=
  match insances env (taken env directives) w with
  | .ok _ w => w
  | .error (.thrown _) w => w
  | .error .undefined w => { w with world := { w.world with running := false } }

/-! ## The pump -/

/-- `persistent::Send` of the shutdown requests, and those that are to be tried again. -/
def flushShutdowns : List Nat → S (List Nat)
  | [] => pure []
  | queue :: rest => do
    let done ← tryCatch (onWorld (push env.toEnvironment queue)) fun _ => pure true
    if done then
      flushShutdowns rest
    else
      return queue :: (← flushShutdowns rest)

/-- What is done with them at the end of a round. In which order they and the replies are tried is up to the
environment. -/
def write : S Unit := do
  let w ← get
  if !w.shutdowns.isEmpty then
    modifyState fun s => { s with log := s.log.writeCommit }
    let left ← flushShutdowns env w.shutdowns
    modify fun w => { w with shutdowns := left }

end

/-- `State::operator()( Exit)`: the instance is removed from the first resource that has it. -/
def exited (pid : Nat) (s : State) : State :=
  { s with resources := s.resources.replaceF fun p =>
      if p.instances.any fun i => i.process.pid == pid then
        some { p with instances := p.instances.eraseP fun i => i.process.pid == pid }
      else none }

/-- What happens to the manager: messages and rounds of the pump as before, calls of the admin service, and
the exit of an instance as `State` would take it. `process::Exit` does not hand it on: it is here for the
runs of a manager that did. -/
inductive Happening
  | manager (e : Event)
  | update (directives : List Directive)
  | exited (pid : Nat)

/-- The process whose exit an event tells of. -/
def exits : Event → List Nat
  | .exit pid => [pid]
  | _ => []

namespace Scaled

/-- Processes that exit are none that serve: they are instances in shutdown, or no instances. -/
def admits (w : Scaled) : Happening → Prop
  | .manager e => w.world.admits e ∧ ∀ pid ∈ exits e, pid ∉ (serving w.world.state.instances).map (·.process.pid)
  | .update _ => w.world.running = true
  | .exited pid => w.world.running = true ∧ pid ∈ shutting w.world.state

/-- The manager does what it does, and the requests that it hands to instances in shutdown are noted. -/
def act (env : Environment) (w : Scaled) (e : Event) : Scaled :=
  let v := w.world.step env.toEnvironment e
  { w with
    world := v
    misled := w.misled ++ ((v.handed.drop w.world.handed.length).map (·.1)).filter fun h =>
      (shutting w.world.state).contains h.pid }

/-- What happens to a manager whose resources are scaled. -/
def step (env : Environment) (w : Scaled) : Happening → Scaled
  | .manager .write => (after (write env w)).act env .write
  | .manager e => w.act env e
  | .update directives => updateInstances env directives w
  | .exited pid => { w with world := { w.world with state := exited pid w.world.state } }

end Scaled

/-- The runs of the manager, which starts as many instances of each resource as it is configured with. -/
def machine (env : Environment) : Machine Scaled Happening where
  init w := ∃ resources log concurrency, Started resources log ∧
    (∀ p ∈ resources, p.instances.length = concurrency p.id) ∧
    w = ⟨World.start resources log, concurrency, [], [], 0, []⟩
  admits := Scaled.admits
  step := Scaled.step env

/-! ## What is to hold -/

/-- The instances of each resource that are not in shutdown are as many as it was last updated to, and none that
is was handed a request. -/
structure Converged (w : Scaled) : Prop where
  serving : ∀ p ∈ w.world.state.resources, (serving p.instances).length = w.concurrency p.id
  misled : w.misled = []

/-- An instance that is sent a shutdown request when it is stopped. -/
def told (i : Instance) : Bool := decide (i.state = .idle ∨ i.state = .busy ∨ i.state = .startupError)

/-- Their queues are there. -/
def Reaches (env : Environment) : List Instance → Nat → Prop
  | [], _ => True
  | i :: is, readings =>
    if told i then env.push readings i.process.queue ≠ .gone ∧ Reaches env is (readings + 1) else Reaches env is readings

/-- When a resource gets as many instances as it is updated to: those it would keep are not in shutdown, and the
update is not cut short. -/
structure Fits (env : Environment) (p : Proxy) (count readings spawned : Nat) : Prop where
  kept : ∀ i ∈ p.instances.take count, i.state ≠ .shutdown
  bounds : -(2 ^ 63) ≤ (count : Int) - p.instances.length ∧ (count : Int) - p.instances.length < 2 ^ 63
  spawns : ∀ k < count - p.instances.length, env.spawns (spawned + k) = true
  reaches : Reaches env (p.instances.drop count) readings

/-- When each resource does. -/
def Updates (env : Environment) (s : State) : List Directive → Nat → Nat → Prop
  | [], _, _ => True
  | d :: ds, readings, spawned =>
    match s.resources.find? fun p => p.id == d.id with
    | none => Updates env s ds readings spawned
    | some p => Fits env p d.instances readings spawned ∧
        Updates env s ds (readings + ((p.instances.drop d.instances).filter told).length)
          (spawned + (d.instances - p.instances.length))

/-- An instance in shutdown that is done is not given what waits for its resource. -/
def Spared (env : Manager.Environment) (w : World) (queue : Nat) (i : Instance) : Prop :=
  i.state = .shutdown → (∀ p ∈ w.state.pendingRequests, i.id ∉ p.resources) ∨ env.push w.readings queue ≠ .accepted

/-- The events with which the resources converge. -/
def Sound (env : Environment) (w : Scaled) : Happening → Prop
  | .update directives => Updates env w.world.state (taken env directives) w.world.readings w.spawned
  | .manager (.reply _ message) => ∀ i ∈ w.world.state.getInstance message.resource message.process.pid,
      Spared env.toEnvironment w.world i.process.queue i
  | .manager (.connect message) => message.state = Result.XA_OK.code →
      ∀ i ∈ w.world.state.getInstance message.resource message.process.pid,
        Spared env.toEnvironment w.world message.process.queue i
  | _ => True

/-! ## Which instances there are -/

/-- What makes an instance the one it is, and whether it is in shutdown. -/
def mark (i : Instance) : Nat × Nat × Bool := (i.id, i.process.pid, decide (i.state = .shutdown))

/-- The instances of each resource, as far as that. -/
def crew (s : State) : List (Nat × List (Nat × Nat × Bool)) := s.resources.map fun p => (p.id, p.instances.map mark)

section

variable {s s' : State}

theorem mark_setState (i : Instance) {state : InstanceState} (h : state ≠ .shutdown) : mark (i.setState state) = mark i := by
  unfold mark Instance.setState
  split_ifs with hstate
  · simp [h, hstate]
  · rfl

@[simp] theorem setState_process (i : Instance) (state : InstanceState) : (i.setState state).process = i.process := by
  unfold Instance.setState
  split_ifs <;> rfl

@[simp] theorem setState_id (i : Instance) (state : InstanceState) : (i.setState state).id = i.id := by
  unfold Instance.setState
  split_ifs <;> rfl

theorem crew_setInstance {rm pid : Nat} {f : Instance → Instance}
    (h : ∀ i, i.process.pid = pid → mark (f i) = mark i) : crew (s.setInstance rm pid f) = crew s := by
  unfold crew State.setInstance
  rw [List.map_map]
  refine List.map_congr_left fun p _ => ?_
  simp only [Function.comp_apply]
  split_ifs with hrm
  · dsimp only
    rw [List.map_map]
    congr 1
    refine List.map_congr_left fun i _ => ?_
    simp only [Function.comp_apply]
    split_ifs with hpid
    · exact h i hpid
    · rfl
  · rfl

/-- The marks of all instances. -/
theorem marks_crew (s : State) : s.instances.map mark = (crew s).flatMap (·.2) := by
  unfold State.instances crew
  rw [List.map_flatMap, List.flatMap_map]

theorem marks_congr (h : crew s' = crew s) : s'.instances.map mark = s.instances.map mark := by
  rw [marks_crew, marks_crew, h]

theorem pids_congr (h : crew s' = crew s) : s'.instances.map (·.process.pid) = s.instances.map (·.process.pid) := by
  have hmarks := congrArg (List.map fun m => m.2.1) (marks_congr h)
  rwa [List.map_map, List.map_map] at hmarks

theorem shutting_eq (s : State) : shutting s = ((s.instances.map mark).filter (·.2.2)).map (·.2.1) := by
  unfold shutting
  rw [List.filter_map, List.map_map]
  rfl

theorem shutting_congr (h : crew s' = crew s) : shutting s' = shutting s := by
  rw [shutting_eq, shutting_eq, marks_congr h]

theorem ids_congr (h : crew s' = crew s) : s'.resources.map (·.id) = s.resources.map (·.id) := by
  have hids := congrArg (List.map Prod.fst) h
  unfold crew at hids
  rwa [List.map_map, List.map_map] at hids

theorem serving_length (is : List Instance) : (serving is).length = ((is.map mark).filter fun m => !m.2.2).length := by
  unfold serving
  rw [List.filter_map, List.length_map]
  congr 1
  refine List.filter_congr fun i _ => ?_
  simp [mark]

/-- A resource has one that goes with it. -/
theorem exists_of_crew (h : crew s' = crew s) {p : Proxy} (hp : p ∈ s'.resources) :
    ∃ q ∈ s.resources, q.id = p.id ∧ q.instances.map mark = p.instances.map mark := by
  have hmem : (p.id, p.instances.map mark) ∈ crew s := h ▸ List.mem_map.2 ⟨p, hp, rfl⟩
  obtain ⟨q, hq, heq⟩ := List.mem_map.1 hmem
  exact ⟨q, hq, congrArg Prod.fst heq, congrArg Prod.snd heq⟩

theorem mem_shutting {pid : Nat} : pid ∈ shutting s ↔ ∃ i ∈ s.instances, i.state = .shutdown ∧ i.process.pid = pid := by
  unfold shutting
  simp only [List.mem_map, List.mem_filter, decide_eq_true_eq, and_assoc]

/-- An instance is in shutdown if there is one with its pid. -/
theorem shutdown_of_mem (hpids : (s.instances.map (·.process.pid)).Nodup) {i : Instance} (hi : i ∈ s.instances)
    (h : i.process.pid ∈ shutting s) : i.state = .shutdown := by
  obtain ⟨j, hj, hstate, hpid⟩ := mem_shutting.1 h
  exact eq_of_pid hpids hj hi hpid ▸ hstate

end

/-! ## What the messages leave -/

/-- The same instances are there and the same ones in shutdown, and what was handed out went to others. -/
structure Spares (w w' : World) : Prop where
  crew : crew w'.state = crew w.state
  handed : (w.state.instances.map (·.process.pid)).Nodup →
    ∃ more, w'.handed = w.handed ++ more ∧ ∀ h ∈ more, h.1.pid ∉ shutting w.state

instance : Std.Refl Spares := ⟨fun _ => ⟨rfl, fun _ => ⟨[], (List.append_nil _).symm, nofun⟩⟩⟩

theorem Spares.trans {w w' w'' : World} (h : Spares w w') (h' : Spares w' w'') : Spares w w'' := by
  refine ⟨h'.crew.trans h.crew, fun hpids => ?_⟩
  obtain ⟨more, hmore, hto⟩ := h.handed hpids
  obtain ⟨more', hmore', hto'⟩ := h'.handed (pids_congr h.crew ▸ hpids)
  refine ⟨more ++ more', by rw [hmore', hmore, List.append_assoc], fun g hg => ?_⟩
  rcases List.mem_append.1 hg with hg | hg
  · exact hto g hg
  · exact shutting_congr h.crew ▸ hto' g hg

instance : IsTrans World Spares := ⟨fun _ _ _ => Spares.trans⟩

theorem Spares.of_eq {w w' : World} (hresources : w'.state.resources = w.state.resources) (hhanded : w'.handed = w.handed) :
    Spares w w' := by
  refine ⟨?_, fun _ => ⟨[], by rw [hhanded, List.append_nil], nofun⟩⟩
  unfold Scaling.crew
  rw [hresources]

theorem spares_calm {α : Type} {x : M α} (h : Moves Calm x) : Moves Spares x :=
  h.mono fun _ _ hc => .of_eq hc.resources hc.handed

theorem spares_modifyState {f : State → State} (h : ∀ s, (f s).resources = s.resources) :
    Moves Spares (Manager.modifyState f) :=
  ⟨fun w => .of_eq (h w.state) rfl⟩

theorem spares_setInstance (rm pid : Nat) {f : Instance → Instance} (h : ∀ i, i.process.pid = pid → mark (f i) = mark i) :
    Moves Spares (Manager.modifyState (·.setInstance rm pid f)) :=
  ⟨fun _ => ⟨crew_setInstance h, fun _ => ⟨[], (List.append_nil _).symm, nofun⟩⟩⟩

section

variable (env : Manager.Environment)

/-- A request is handed to an instance that is not in shutdown. -/
theorem spares_hand (message : ResourceRequest) (rm : Nat) {pid : Nat} {w : World}
    (h : (w.state.instances.map (·.process.pid)).Nodup → pid ∉ shutting w.state) :
    Spares w (after (hand message rm pid w)) := by
  refine ⟨rfl, fun hpids => ⟨[(⟨message, rm, pid⟩, w.state.log.durable)], rfl, fun g hg => ?_⟩⟩
  rw [List.mem_singleton.1 hg]
  exact h hpids

/-- What follows when a request was pushed. -/
theorem spares_busy {α : Type} (message : ResourceRequest) {i : Instance} {w : World} {rest : M α}
    (h : (w.state.instances.map (·.process.pid)).Nodup → i.process.pid ∉ shutting w.state) (hrest : Moves Spares rest) :
    Spares w (after ((do
      Manager.modifyState (·.setInstance i.id i.process.pid (·.setState .busy))
      hand message i.id i.process.pid
      rest : M α) w)) := by
  have hset := (spares_setInstance i.id i.process.pid (f := (·.setState .busy))
    fun j _ => mark_setState j nofun).after w
  refine hset.trans (Moves.after_bind (spares_hand message i.id fun hpids => ?_) fun _ => hrest)
  rw [shutting_congr hset.crew]
  exact h (pids_congr hset.crew ▸ hpids)

theorem spares_instanceRequest (message : ResourceRequest) {i : Instance} {w : World}
    (h : (w.state.instances.map (·.process.pid)).Nodup → i.process.pid ∉ shutting w.state) :
    Spares w (after (instanceRequest env message i w)) := by
  unfold instanceRequest
  rcases push_cases env i.process.queue w with hpush | hpush | hpush
  · rw [bind_ok hpush]
    have hread : Spares w { w with readings := w.readings + 1 } := .of_eq rfl rfl
    exact hread.trans (spares_busy message h (.pure _))
  · rw [bind_ok hpush]
    exact .of_eq rfl rfl
  · rw [bind_error hpush]
    exact .of_eq rfl rfl

theorem spares_resourceRequest (message : ResourceRequest) : ∀ ids : List Nat, Moves Spares (resourceRequest env message ids)
  | [] => .pure _
  | id :: rest => by
    have ih := spares_resourceRequest message rest
    have hleft : Moves Spares (do return id :: (← resourceRequest env message rest) : M (List Nat)) :=
      .bind ih fun _ => .pure _
    unfold resourceRequest
    apply Moves.get_bind
    intro w
    cases hidle : w.state.idleInstance id with
    | none => exact Std.Refl.refl w
    | some found =>
      cases found with
      | none => exact hleft.after w
      | some i =>
        obtain ⟨p, hp, hi⟩ := Option.map_eq_some_iff.1 hidle
        have hmem := mem_instances.2 ⟨p, List.mem_of_find?_eq_some hp, List.mem_of_find?_eq_some hi⟩
        have hstate : i.state = .idle := by simpa using List.find?_some hi
        refine Moves.after_bind (spares_instanceRequest env message fun hpids hshutting => ?_) fun b => .ite ih hleft
        cases hstate.symm.trans (shutdown_of_mem hpids hmem hshutting)

theorem spares_sendRequest (phase : Phase) (t : Transaction) (filter : Resource → Bool) (newStage : Stage) (flags : Nat) :
    Moves Spares (sendRequest env phase t filter newStage flags) := by
  unfold sendRequest
  rcases env.partition filter t.resources with ⟨resources, others⟩
  dsimp only
  apply Moves.bind (spares_modifyState (by intro _; rfl))
  intro _
  apply Moves.bind ⟨fun _ => .of_eq rfl rfl⟩
  intro _
  apply Moves.bind (spares_resourceRequest env _ _)
  intro left
  exact .ite (spares_modifyState (by intro _; rfl)) (.pure _)

/-- An instance that is done is given what waits, unless it is in shutdown and spared. -/
theorem spares_done {i : Instance} {w : World}
    (h : (w.state.instances.map (·.process.pid)).Nodup → i.process.pid ∈ shutting w.state →
      (∀ p ∈ w.state.pendingRequests, i.id ∉ p.resources) ∨ env.push w.readings i.process.queue ≠ .accepted) :
    Spares w (after (done env i w)) := by
  have hget : (get : M World) w = .ok w w := rfl
  have hset := (spares_setInstance i.id i.process.pid (f := (·.setState .idle))
    fun j _ => mark_setState j nofun).after w
  have hmodify : Manager.modifyState (·.setInstance i.id i.process.pid (·.setState .idle)) w =
    .ok () { w with state := w.state.setInstance i.id i.process.pid (·.setState .idle) } := rfl
  rw [hmodify, after_ok] at hset
  unfold done
  rw [bind_ok hget]
  dsimp only
  rw [bind_ok hmodify]
  refine hset.trans ?_
  cases hfind : w.state.pendingRequests.find? fun p => p.resources.contains i.id with
  | none => exact Std.Refl.refl _
  | some request =>
    dsimp only
    set v : World := { w with state := w.state.setInstance i.id i.process.pid (·.setState .idle) } with hv
    have hwaits : ¬ ∀ p ∈ w.state.pendingRequests, i.id ∉ p.resources := by
      intro hnone
      have hcontains := List.find?_some hfind
      exact hnone request (List.mem_of_find?_eq_some hfind) (List.contains_iff_mem.1 hcontains)
    cases hout : env.push v.readings i.process.queue with
    | accepted =>
      have hpush : push env i.process.queue v = .ok true { v with readings := v.readings + 1 } := by
        unfold push
        rw [hout]
      have hread : Spares v { v with readings := v.readings + 1 } := .of_eq rfl rfl
      rw [bind_ok hpush]
      refine hread.trans (spares_busy request.message (fun hpids hshutting => ?_) (spares_modifyState (by intro _; rfl)))
      rw [shutting_congr hread.crew, shutting_congr hset.crew] at hshutting
      rw [pids_congr hread.crew, pids_congr hset.crew] at hpids
      exact (h hpids hshutting).resolve_left hwaits hout
    | full =>
      have hpush : push env i.process.queue v = .ok false { v with readings := v.readings + 1 } := by
        unfold push
        rw [hout]
      rw [bind_ok hpush]
      exact .of_eq rfl rfl
    | gone =>
      have hpush : push env i.process.queue v = .error .unavailable { v with readings := v.readings + 1 } := by
        unfold push
        rw [hout]
      rw [bind_error hpush]
      exact .of_eq rfl rfl

theorem spares_involve (trid : Casual.Common.Transaction.ID) (ids : List Nat) : Moves Spares (involve env trid ids) := by
  unfold involve
  apply Moves.bind (spares_modifyState fun s => resources_ensure trid s)
  intro _
  apply Moves.bind .get
  intro w
  apply Moves.bind (spares_modifyState (by intro _; rfl))
  intro _
  exact .pure _

theorem spares_basicPrepare (message : ResourceReply) (t : Transaction) (r : Resource) :
    Moves Spares (basicPrepare env message t r) := by
  unfold basicPrepare
  apply Moves.bind (spares_modifyState (by intro _; rfl))
  intro _
  apply Moves.ite _ (.pure _)
  split
  · apply Moves.bind (spares_modifyState (by intro _; rfl))
    intro _
    exact .bind (spares_calm (calm_sendReply _ _)) fun _ => .pure _
  · apply Moves.bind (spares_calm (calm_logPrepare _))
    intro _
    apply Moves.bind (spares_modifyState (by intro _; rfl))
    intro _
    exact .bind (spares_sendRequest env _ _ _ _ _) fun _ => .pure _
  · exact .bind (spares_sendRequest env _ _ _ _ _) fun _ => .pure _

theorem spares_basicCommitReply (message : ResourceReply) (t : Transaction) (r : Resource) :
    Moves Spares (basicCommitReply env message t r) := by
  unfold basicCommitReply
  apply Moves.bind (spares_modifyState (by intro _; rfl))
  intro _
  apply Moves.ite _ (.pure _)
  split
  · apply Moves.ite
    · exact .bind (spares_calm (calm_sendReply _ _)) fun _ => .bind (spares_calm (calm_logRemove _)) fun _ => .pure _
    · exact .bind (spares_calm (calm_persistentReply _ _)) fun _ => .bind (spares_calm (calm_logRemove _)) fun _ => .pure _
  · exact .bind (spares_calm (calm_persistentReply _ _)) fun _ => .pure _

theorem spares_basicRollbackReply (message : ResourceReply) (t : Transaction) (r : Resource) :
    Moves Spares (basicRollbackReply env message t r) := by
  unfold basicRollbackReply
  apply Moves.bind (spares_modifyState (by intro _; rfl))
  intro _
  apply Moves.ite _ (.pure _)
  apply Moves.ite
  · exact .bind (spares_calm (calm_sendReply _ _)) fun _ => .bind (spares_calm (calm_logRemove _)) fun _ => .pure _
  · exact .bind (spares_calm (calm_persistentReply _ _)) fun _ => .pure _

theorem spares_userReplyWrapper {handler : OwnerRequest → M Unit} {error : OwnerRequest → Int → Reply}
    {message : OwnerRequest} (h : Moves Spares (handler message)) : Moves Spares (userReplyWrapper env handler error message) := by
  unfold userReplyWrapper
  apply Moves.tryCatch h
  intro e
  cases e with
  | user code => exact spares_calm (calm_sendReply _ _)
  | _ => exact spares_calm (calm_sendReply _ _)

theorem spares_commit (message : OwnerRequest) : Moves Spares (commit env message) := by
  apply spares_userReplyWrapper
  unfold basicCommit
  apply Moves.bind (spares_involve env _ _)
  intro t
  generalize t.resources.length = length
  rcases length with _ | _ | length
  · have herase : Moves Spares (do
        Manager.modifyState (·.eraseTransaction message.trid)
        sendReply env (.commit message.trid message.correlation .commit Result.XA_RDONLY.code) message.process) :=
      .bind (spares_calm (calm_eraseTransaction _)) fun _ => spares_calm (calm_sendReply _ _)
    exact .ite (.bind (.throw _) fun _ => herase) herase
  · have hsend := spares_sendRequest env .commit { t with correlation := message.correlation }
      (fun r => decide (r.stage = .involved)) .commitRequested TMONEPHASE
    exact .ite (.bind (.throw _) fun _ => hsend) hsend
  · have hsend := spares_sendRequest env .prepare { t with correlation := message.correlation }
      (fun r => decide (r.stage = .involved)) .prepareRequested TMNOFLAGS
    exact .ite (.bind (.throw _) fun _ => hsend) hsend

theorem spares_rollback (message : OwnerRequest) : Moves Spares (rollback env message) := by
  apply spares_userReplyWrapper
  unfold basicRollback
  apply Moves.bind (spares_involve env _ _)
  intro t
  apply Moves.ite
  · exact .bind (spares_calm (calm_eraseTransaction _)) fun _ => spares_calm (calm_sendReply _ _)
  · exact spares_sendRequest env _ _ _ _ _

theorem spares_flushRequests : ∀ rs : List PendingRequest, Moves Spares (flushRequests env rs)
  | [] => .pure _
  | request :: rest => by
    have ih := spares_flushRequests rest
    unfold flushRequests
    apply Moves.bind (spares_resourceRequest env _ _)
    intro left
    exact .ite (.bind (spares_modifyState (by intro _; rfl)) fun _ => ih) ih

theorem spares_write : Moves Spares (Manager.write env) := by
  unfold Manager.write
  apply Moves.bind .get
  intro _
  apply Moves.bind .get
  intro w
  apply Moves.ite _ (.pure _)
  apply Moves.bind (spares_modifyState (by intro _; rfl))
  intro _
  apply Moves.bind (spares_calm (calm_flushReplies _))
  intro left
  apply Moves.bind (spares_modifyState (by intro _; rfl))
  intro _
  apply Moves.bind (spares_flushRequests env _)
  intro _
  exact spares_modifyState (by intro _; rfl)

/-- An instance that is asked about is there, with the pid. -/
theorem mem_of_getInstance {s : State} {rm pid : Nat} {i : Instance} (h : s.getInstance rm pid = some i) :
    i ∈ s.instances ∧ i.process.pid = pid := by
  obtain ⟨p, hp, hi⟩ := Option.bind_eq_some_iff.1 h
  exact ⟨mem_instances.2 ⟨p, List.mem_of_find?_eq_some hp, List.mem_of_find?_eq_some hi⟩, by simpa using List.find?_some hi⟩

theorem spares_wrapper {handler : ResourceReply → Transaction → Resource → M Bool} {message : ResourceReply} {w : World}
    (hspared : ∀ i, w.state.getInstance message.resource message.process.pid = some i →
      Spared env w i.process.queue i)
    (hhandler : ∀ t r, Moves Spares (handler message t r)) : Spares w (after (wrapper env handler message w)) := by
  have hget : (get : M World) w = .ok w w := rfl
  unfold wrapper
  rw [bind_ok hget]
  cases hinstance : w.state.getInstance message.resource message.process.pid with
  | none => exact Std.Refl.refl w
  | some i =>
    obtain ⟨hi, -⟩ := mem_of_getInstance hinstance
    refine Moves.after_bind (spares_done env fun hpids hshutting => ?_) fun _ => ?_
    · exact hspared i hinstance (shutdown_of_mem hpids hi hshutting)
    apply Moves.bind .get
    intro v
    cases ht : v.state.find message.trid with
    | none => exact .pure _
    | some t =>
      cases hr : t.resources.find? fun r => r.id == message.resource with
      | none =>
        simp only [hr]
        exact .pure _
      | some r =>
        simp only [hr]
        exact .bind (hhandler t r) fun _ => .ite (spares_modifyState (by intro _; rfl)) (.pure _)

theorem spares_connect {message : ConnectReply} {w : World} (hspared : message.state = Result.XA_OK.code →
      ∀ i, w.state.getInstance message.resource message.process.pid = some i → Spared env w message.process.queue i) :
    Spares w (after (connect env message w)) := by
  have hconnected : Moves Spares (do
      let s := (← get).state
      if !s.connected && s.resources.all fun p => p.instances.any Instance.running then
        let _ ← push env env.broker
        Manager.modifyState fun s => { s with connected := true } : M Unit) := by
    apply Moves.bind .get
    intro w
    exact .ite (.bind (spares_calm (calm_push _)) fun _ => spares_modifyState (by intro _; rfl)) (.pure _)
  have hget : (get : M World) w = .ok w w := rfl
  unfold connect
  rw [bind_ok hget]
  cases hinstance : w.state.getInstance message.resource message.process.pid with
  | none => exact hconnected.after w
  | some i =>
    obtain ⟨hi, hpid⟩ := mem_of_getInstance hinstance
    dsimp only
    split_ifs with hstate
    · -- the instance has the queue of the message from now on
      have hset := (spares_setInstance i.id i.process.pid (f := fun i => { i with process := message.process })
        fun j hj => by
          unfold mark
          rw [hj, hpid]).after w
      have hmodify : Manager.modifyState (·.setInstance i.id i.process.pid fun i => { i with process := message.process }) w =
        .ok () { w with state := w.state.setInstance i.id i.process.pid fun i => { i with process := message.process } } := rfl
      rw [hmodify, after_ok] at hset
      rw [bind_ok hmodify]
      refine hset.trans (Moves.after_bind (spares_done env fun hpids hshutting => ?_) fun _ => hconnected)
      rw [pids_congr hset.crew] at hpids
      rw [shutting_congr hset.crew, ← hpid] at hshutting
      exact hspared hstate i hinstance (shutdown_of_mem hpids hi hshutting)
    · refine Moves.after_bind (Moves.after (spares_setInstance _ _ fun j _ => ?_) w) fun _ => hconnected
      exact mark_setState j nofun

/-- What an event leaves of the instances. -/
theorem spares_handle {w : World} {e : Event}
    (hreply : ∀ phase message, e = .reply phase message →
      ∀ i, w.state.getInstance message.resource message.process.pid = some i → Spared env w i.process.queue i)
    (hconnect : ∀ message, e = .connect message → message.state = Result.XA_OK.code →
      ∀ i, w.state.getInstance message.resource message.process.pid = some i → Spared env w message.process.queue i) :
    Spares w (after (handle env e w)) := by
  cases e with
  | involved message => exact Moves.after (.bind (spares_involve env _ _) fun _ => .pure _) w
  | commit message => exact (spares_commit env message).after w
  | rollback message => exact (spares_rollback env message).after w
  | exit pid =>
    unfold handle exit
    exact Moves.after (.bind .get fun v => .forM (fun trid => spares_rollback env _) _) w
  | connect message => exact spares_connect env (hconnect message rfl)
  | reply phase message =>
    refine spares_wrapper env (hreply phase message rfl) fun t r => ?_
    cases phase with
    | prepare => exact spares_basicPrepare env message t r
    | commit => exact spares_basicCommitReply env message t r
    | rollback => exact spares_basicRollbackReply env message t r
  | write => exact (spares_write env).after w

end

end Casual.Manager.Scaling

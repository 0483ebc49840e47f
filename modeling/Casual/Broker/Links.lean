/-
Services and instances refer to each other: what keeps these references, and what neither makes an
instance idle nor a request wait.
-/
import Casual.Broker.Handle

namespace Casual.Broker

open Casual.Common Casual.Communication Casual.Lib

/-! ## Sorted lists without doubles -/

section insertUnique

variable {α : Type} [LT α] [DecidableEq α] [∀ a b : α, Decidable (a < b)]

@[simp] theorem mem_insertUnique {a b : α} : ∀ {l : List α}, b ∈ insertUnique a l ↔ b = a ∨ b ∈ l
  | [] => by simp [insertUnique]
  | c :: l => by
    unfold insertUnique
    split_ifs with heq hlt
    · subst heq
      simp
    · simp
    · rw [List.mem_cons, mem_insertUnique, List.mem_cons]
      exact or_left_comm

theorem sorted_insertUnique [IsStrictTotalOrder α (· < ·)] {a : α} : ∀ {l : List α}, l.Pairwise (· < ·) →
    (insertUnique a l).Pairwise (· < ·)
  | [], _ => List.pairwise_singleton _ _
  | b :: l, h => by
    obtain ⟨hb, hl⟩ := List.pairwise_cons.1 h
    unfold insertUnique
    split_ifs with heq hlt
    · exact h
    · refine List.pairwise_cons.2 ⟨?_, h⟩
      intro c hc
      rcases List.mem_cons.1 hc with rfl | hc
      · exact hlt
      · exact IsTrans.trans _ _ _ hlt (hb c hc)
    · refine List.pairwise_cons.2 ⟨?_, sorted_insertUnique hl⟩
      intro c hc
      rcases mem_insertUnique.1 hc with rfl | hc
      · exact ((trichotomous_of (· < ·) c b).resolve_left hlt).resolve_left heq
      · exact hb c hc

end insertUnique

namespace State

/-! ## References -/

/-- The instances of a service. -/
def hosts (s : State) (name : String) : List Nat := (s.services name).elim [] Service.instances

/-- The services of an instance. -/
def offers (s : State) (pid : Nat) : List String := (s.instances pid).elim [] Instance.services

/-- A service refers to an instance when the instance refers to the service. -/
structure Linked (s : State) : Prop where
  iff : ∀ name pid, pid ∈ s.hosts name ↔ name ∈ s.offers pid
  hosts : ∀ name, (s.hosts name).Pairwise (· < ·)
  offers : ∀ pid, (s.offers pid).Pairwise (· < ·)

theorem Linked.congr {s t : State} (h : s.Linked) (hhosts : t.hosts = s.hosts) (hoffers : t.offers = s.offers) : t.Linked := by
  refine ⟨?_, ?_, ?_⟩
  · rw [hhosts, hoffers]
    exact h.iff
  · rw [hhosts]
    exact h.hosts
  · rw [hoffers]
    exact h.offers

/-- The references are kept, no service has a new instance, no instance has become idle, and no request has
come to wait. -/
structure Calm (s t : State) : Prop where
  linked : s.Linked → t.Linked
  hosts : ∀ name, t.hosts name ⊆ s.hosts name
  idle : ∀ pid, t.idle pid → s.idle pid
  requests : t.requests ⊆ s.requests

theorem Calm.refl (s : State) : Calm s s :=
  ⟨fun h => h, fun _ => List.Subset.refl _, fun _ h => h, List.Subset.refl _⟩

theorem Calm.trans {s t u : State} (h : Calm s t) (h' : Calm t u) : Calm s u :=
  ⟨fun hs => h'.linked (h.linked hs), fun name => List.Subset.trans (h'.hosts name) (h.hosts name),
    fun pid hidle => h.idle pid (h'.idle pid hidle), List.Subset.trans h'.requests h.requests⟩

theorem Calm.of_eq {s t : State} (hhosts : t.hosts = s.hosts) (hoffers : t.offers = s.offers)
    (hidle : ∀ pid, t.idle pid → s.idle pid) (hrequests : t.requests ⊆ s.requests) : Calm s t :=
  ⟨fun h => h.congr hhosts hoffers, fun _ => by rw [hhosts]; exact List.Subset.refl _, hidle, hrequests⟩

/-- Neither instances nor services nor requests are touched. -/
theorem Calm.of_same {s t : State} (hservices : t.services = s.services) (hinstances : t.instances = s.instances)
    (hrequests : t.requests = s.requests) : Calm s t := by
  apply Calm.of_eq
  · unfold State.hosts
    rw [hservices]
  · unfold State.offers
    rw [hinstances]
  · intro pid h
    unfold State.idle at h ⊢
    rwa [hinstances] at h
  · rw [hrequests]
    exact List.Subset.refl _

/-! ### What is done to one of them -/

@[simp] theorem instances_setInstance_self (s : State) (pid : Nat) (f : Instance → Instance) :
    (s.setInstance pid f).instances pid = (s.instances pid).map f := Function.update_self ..
@[simp] theorem hosts_setInstance (s : State) (pid : Nat) (f : Instance → Instance) : (s.setInstance pid f).hosts = s.hosts := rfl
@[simp] theorem requests_setInstance (s : State) (pid : Nat) (f : Instance → Instance) :
    (s.setInstance pid f).requests = s.requests := rfl
@[simp] theorem offers_setService (s : State) (name : String) (f : Service → Service) :
    (s.setService name f).offers = s.offers := rfl
@[simp] theorem idle_setService (s : State) (name : String) (f : Service → Service) :
    (s.setService name f).idle = s.idle := rfl
@[simp] theorem requests_setService (s : State) (name : String) (f : Service → Service) :
    (s.setService name f).requests = s.requests := rfl

theorem offers_setInstance (s : State) (pid : Nat) (f : Instance → Instance) (g : List String → List String)
    (hf : ∀ i, (f i).services = g i.services) (h : (s.instances pid).isSome ∨ g [] = []) :
    (s.setInstance pid f).offers = Function.update s.offers pid (g (s.offers pid)) := by
  funext pid'
  unfold offers setInstance
  by_cases heq : pid' = pid
  · subst heq
    simp only [Function.update_self]
    cases hi : s.instances pid' with
    | some i => exact hf i
    | none =>
      rw [hi] at h
      exact (h.resolve_left nofun).symm
  · simp only [Function.update_of_ne heq]

theorem hosts_setService (s : State) (name : String) (f : Service → Service) (g : List Nat → List Nat)
    (hf : ∀ service, (f service).instances = g service.instances) (h : (s.services name).isSome ∨ g [] = []) :
    (s.setService name f).hosts = Function.update s.hosts name (g (s.hosts name)) := by
  funext name'
  unfold hosts setService
  by_cases heq : name' = name
  · subst heq
    simp only [Function.update_self]
    cases hs : s.services name' with
    | some service => exact hf service
    | none =>
      rw [hs] at h
      exact (h.resolve_left nofun).symm
  · simp only [Function.update_of_ne heq]

theorem idle_setInstance (s : State) (pid : Nat) (f : Instance → Instance) (hf : ∀ i, (f i).state = i.state) :
    (s.setInstance pid f).idle = s.idle := by
  funext pid'
  unfold idle setInstance
  by_cases heq : pid' = pid
  · subst heq
    simp only [Function.update_self]
    cases s.instances pid' with
    | some i => simp [hf]
    | none => rfl
  · simp only [Function.update_of_ne heq]

/-- An instance gets a state. -/
theorem idle_alterState (s : State) (pid : Nat) (state : InstanceState) (pid' : Nat) :
    (s.alterState pid state).idle pid' =
      if pid' = pid then (s.instances pid).isSome && state == .idle else s.idle pid' := by
  unfold idle alterState setInstance
  split_ifs with heq
  · subst heq
    simp only [Function.update_self]
    cases s.instances pid' <;> rfl
  · simp only [Function.update_of_ne heq]

@[simp] theorem offers_alterState (s : State) (pid : Nat) (state : InstanceState) : (s.alterState pid state).offers = s.offers := by
  have := offers_setInstance s pid (fun i => { i with state := state }) id (fun _ => rfl) (.inr rfl)
  exact this.trans (Function.update_eq_self _ _)

@[simp] theorem hosts_alterState (s : State) (pid : Nat) (state : InstanceState) : (s.alterState pid state).hosts = s.hosts := rfl
@[simp] theorem requests_alterState (s : State) (pid : Nat) (state : InstanceState) :
    (s.alterState pid state).requests = s.requests := rfl

theorem calm_alterState (s : State) (pid : Nat) {state : InstanceState} (h : state ≠ .idle) :
    Calm s (s.alterState pid state) := by
  refine Calm.of_eq (hosts_alterState _ _ _) (offers_alterState _ _ _) ?_ (List.Subset.refl _)
  intro pid' hidle
  rw [idle_alterState] at hidle
  split_ifs at hidle with heq
  · have hstate : (state == .idle) = false := by simpa using h
    rw [hstate, Bool.and_false] at hidle
    cases hidle
  · exact hidle

/-! ### Services that are added -/

theorem hosts_emplace {s : State} {service : Service} (h : service.instances = []) : (s.emplace service).hosts = s.hosts := by
  funext name
  unfold emplace
  split
  · rfl
  · next hnone =>
    unfold hosts
    by_cases heq : name = service.information.name
    · subst heq
      simp only [Function.update_self, hnone]
      exact h
    · simp only [Function.update_of_ne heq]

theorem emplace_isSome (s : State) (service : Service) : ((s.emplace service).services service.information.name).isSome := by
  unfold emplace
  split
  · next known hsome => rw [hsome]; rfl
  · simp

theorem instances_emplace (s : State) (service : Service) : (s.emplace service).instances = s.instances := by
  unfold emplace
  split <;> rfl

theorem requests_emplace (s : State) (service : Service) : (s.emplace service).requests = s.requests := by
  unfold emplace
  split <;> rfl

/-- Both ends of a reference are added. -/
theorem addService_spec {s : State} {pid : Nat} {service : Service} (hpid : (s.instances pid).isSome)
    (hservice : service.instances = []) :
    let name := service.information.name
    let t := addService pid service s
    t.hosts = Function.update s.hosts name (insertUnique pid (s.hosts name)) ∧
      t.offers = Function.update s.offers pid (insertUnique name (s.offers pid)) ∧ t.idle = s.idle ∧
      t.requests = s.requests ∧ (t.instances pid).isSome := by
  intro name t
  have hinstances : ((s.emplace service).setService name fun known =>
      { known with instances := insertUnique pid known.instances }).instances = s.instances := instances_emplace s service
  have hoffers : (s.emplace service).offers = s.offers := by
    unfold offers
    rw [instances_emplace]
  refine ⟨?_, ?_, ?_, ?_, ?_⟩
  · have := hosts_setService (s.emplace service) name (fun known => { known with instances := insertUnique pid known.instances })
      (insertUnique pid) (fun _ => rfl) (.inl (emplace_isSome s service))
    rw [hosts_emplace hservice] at this
    exact this
  · have := offers_setInstance ((s.emplace service).setService name fun known =>
      { known with instances := insertUnique pid known.instances }) pid
      (fun i => { i with services := insertUnique name i.services }) (insertUnique name) (fun _ => rfl)
      (.inl (hinstances ▸ hpid))
    rw [offers_setService, hoffers] at this
    exact this
  · refine (idle_setInstance ((s.emplace service).setService name fun known =>
      { known with instances := insertUnique pid known.instances }) pid
      (fun i => { i with services := insertUnique name i.services }) fun _ => rfl).trans ?_
    funext pid'
    unfold idle
    rw [hinstances]
  · exact requests_emplace s service
  · have : t.instances pid = (s.instances pid).map fun i => { i with services := insertUnique name i.services } := by
      rw [← hinstances]
      exact Function.update_self ..
    rw [this, Option.isSome_map]
    exact hpid

theorem Linked.addService {s : State} {pid : Nat} {service : Service} (h : s.Linked) (hpid : (s.instances pid).isSome)
    (hservice : service.instances = []) : (State.addService pid service s).Linked := by
  obtain ⟨hhosts, hoffers, -, -, -⟩ := addService_spec hpid hservice
  refine ⟨?_, ?_, ?_⟩
  · intro name pid'
    rw [hhosts, hoffers]
    by_cases hname : name = service.information.name
    · subst hname
      by_cases hp : pid' = pid
      · subst hp
        simp
      · simp [hp, h.iff]
    · by_cases hp : pid' = pid
      · subst hp
        simp [hname, h.iff]
      · simp [Function.update_of_ne hname, Function.update_of_ne hp, h.iff]
  · intro name
    rw [hhosts]
    by_cases hname : name = service.information.name
    · subst hname
      rw [Function.update_self]
      exact sorted_insertUnique (h.hosts _)
    · rw [Function.update_of_ne hname]
      exact h.hosts _
  · intro pid'
    rw [hoffers]
    by_cases hp : pid' = pid
    · subst hp
      rw [Function.update_self]
      exact sorted_insertUnique (h.offers _)
    · rw [Function.update_of_ne hp]
      exact h.offers _

/-- What `addServices` leaves: who had a service has it, and the instance has those that were added. -/
structure Added (s t : State) (pid : Nat) (names : List String) : Prop where
  linked : t.Linked
  hosts : ∀ name pid', pid' ∈ t.hosts name ↔ pid' ∈ s.hosts name ∨ (pid' = pid ∧ name ∈ names)
  idle : t.idle = s.idle
  requests : t.requests = s.requests

theorem foldl_addService {pid : Nat} : ∀ {services : List Service} {s : State}, s.Linked → (s.instances pid).isSome →
    (∀ service ∈ services, service.instances = []) →
      Added s (services.foldl (fun s service => addService pid service s) s) pid
        (services.map fun service => service.information.name)
  | [], s, h, _, _ => ⟨h, by simp, rfl, rfl⟩
  | service :: services, s, h, hpid, hservices => by
    have hservice := hservices service List.mem_cons_self
    obtain ⟨hhosts, -, hidle, hrequests, hpid'⟩ := addService_spec hpid hservice
    have ih := foldl_addService (h.addService hpid hservice) hpid' fun s hs => hservices s (List.mem_cons_of_mem _ hs)
    refine ⟨ih.linked, ?_, ih.idle.trans hidle, ih.requests.trans hrequests⟩
    intro name pid'
    rw [List.foldl_cons, ih.hosts, hhosts, List.map_cons, List.mem_cons]
    by_cases hname : name = service.information.name
    · subst hname
      rw [Function.update_self, mem_insertUnique]
      tauto
    · rw [Function.update_of_ne hname]
      simp [hname]

/-! ### Services that are removed -/

theorem removeService_spec (s : State) (pid : Nat) (service : Service) :
    let name := service.information.name
    let t := removeService pid service s
    t.hosts = Function.update s.hosts name ((s.hosts name).erase pid) ∧
      t.offers = Function.update s.offers pid ((s.offers pid).erase name) ∧ t.idle = s.idle ∧ t.requests = s.requests := by
  intro name t
  refine ⟨?_, ?_, ?_, rfl⟩
  · exact hosts_setService (s.setInstance pid fun i => { i with services := i.services.erase name }) name
      (fun known => { known with instances := known.instances.erase pid }) (·.erase pid) (fun _ => rfl) (.inr rfl)
  · exact offers_setInstance s pid (fun i => { i with services := i.services.erase name }) (·.erase name)
      (fun _ => rfl) (.inr rfl)
  · exact idle_setInstance s pid (fun i => { i with services := i.services.erase name }) fun _ => rfl

theorem nodup_of_sorted {α : Type} [Preorder α] {l : List α} (h : l.Pairwise (· < ·)) : l.Nodup :=
  h.imp fun hlt => ne_of_lt hlt

theorem Linked.removeService {s : State} (h : s.Linked) (pid : Nat) (service : Service) :
    (State.removeService pid service s).Linked := by
  obtain ⟨hhosts, hoffers, -, -⟩ := removeService_spec s pid service
  have hnodup := fun name => nodup_of_sorted (h.hosts name)
  have hnodup' : ∀ pid, (s.offers pid).Nodup := fun pid => (h.offers pid).imp fun hlt => ne_of_lt hlt
  refine ⟨?_, ?_, ?_⟩
  · intro name pid'
    rw [hhosts, hoffers]
    by_cases hname : name = service.information.name
    · subst hname
      by_cases hp : pid' = pid
      · subst hp
        simp [(hnodup _).mem_erase_iff, (hnodup' _).mem_erase_iff]
      · simp [hp, (hnodup _).mem_erase_iff, h.iff]
    · by_cases hp : pid' = pid
      · subst hp
        simp [hname, (hnodup' _).mem_erase_iff, h.iff]
      · simp [Function.update_of_ne hname, Function.update_of_ne hp, h.iff]
  · intro name
    rw [hhosts]
    by_cases hname : name = service.information.name
    · subst hname
      rw [Function.update_self]
      exact (h.hosts _).sublist List.erase_sublist
    · rw [Function.update_of_ne hname]
      exact h.hosts _
  · intro pid'
    rw [hoffers]
    by_cases hp : pid' = pid
    · subst hp
      rw [Function.update_self]
      exact (h.offers _).sublist List.erase_sublist
    · rw [Function.update_of_ne hp]
      exact h.offers _

theorem calm_removeService (s : State) (pid : Nat) (service : Service) : Calm s (removeService pid service s) := by
  obtain ⟨hhosts, -, hidle, hrequests⟩ := removeService_spec s pid service
  refine ⟨fun h => h.removeService pid service, ?_, ?_, ?_⟩
  · intro name
    rw [hhosts]
    by_cases hname : name = service.information.name
    · subst hname
      rw [Function.update_self]
      exact List.erase_subset
    · rw [Function.update_of_ne hname]
      exact List.Subset.refl _
  · rw [hidle]
    exact fun _ h => h
  · rw [hrequests]
    exact List.Subset.refl _

theorem calm_foldl {α : Type} {f : State → α → State} (h : ∀ s a, Calm s (f s a)) : ∀ (l : List α) (s : State),
    Calm s (l.foldl f s)
  | [], s => .refl s
  | a :: l, s => (h s a).trans (calm_foldl h l _)

end State

/-! ## Programs that keep calm -/

/-- From services and instances that refer to each other. -/
def State.CalmIfLinked (s t : State) : Prop := s.Linked → State.Calm s t

instance : Std.Refl State.CalmIfLinked := ⟨fun s _ => .refl s⟩

instance : IsTrans State State.CalmIfLinked := ⟨fun _ _ _ h h' hs => (h hs).trans (h' ((h hs).linked hs))⟩

/-- What a program leaves, whether it returns or throws, is calm. -/
abbrev Keeps {α : Type} (x : M α) : Prop := Moves State.CalmIfLinked x

theorem keeps_modify {f : State → State} (h : ∀ s, State.Calm s (f s)) : Keeps (modify f) := .modify fun s _ => h s

theorem keeps_catchMissing {x handler : M Unit} (hx : Keeps x) (hhandler : Keeps handler) :
    Keeps (State.catchMissing x handler) := by
  apply Moves.tryCatch hx
  intro e
  cases e
  · exact hhandler
  · exact .throw _
  · exact .throw _

namespace State

variable (env : Environment)

/-! ### What only reads or sends -/

theorem keeps_getInstance (pid : Nat) : Keeps (getInstance pid) := by
  refine ⟨fun s _ => ?_⟩
  unfold getInstance
  split <;> exact .refl s

theorem keeps_getServer (id : Nat) : Keeps (getServer id) := by
  refine ⟨fun s _ => ?_⟩
  unfold getServer
  split <;> exact .refl s

theorem keeps_reading : Keeps reading := ⟨fun _ _ => .of_same rfl rfl rfl⟩

theorem keeps_push (queue : Nat) (reply : Reply) : Keeps (modify (push queue reply)) :=
  keeps_modify fun _ => .of_same rfl rfl rfl

theorem keeps_blockingSend (queue : Nat) (reply : Reply) : Keeps (blockingSend env queue reply) := by
  apply Moves.bind keeps_reading
  intro n
  apply Moves.ite
  · apply Moves.bind (.throw _)
    intro _
    exact keeps_push _ _
  · exact keeps_push _ _

theorem keeps_nonBlockingSend (queue : Nat) (reply : Reply) : Keeps (nonBlockingSend env queue reply) := by
  apply Moves.bind keeps_reading
  intro n
  apply Moves.ite
  · exact .throw _
  · apply Moves.ite
    · exact .pure _
    · refine .bind ?_ fun _ => .pure _
      exact keeps_push _ _

theorem keeps_pendingSend (reply : Reply) : ∀ targets, Keeps (pendingSend env reply targets)
  | [] => .pure _
  | queue :: targets => by
    have ih := keeps_pendingSend reply targets
    apply Moves.bind keeps_reading
    intro n
    apply Moves.ite
    · exact ih
    · apply Moves.ite
      · exact .bind ih fun _ => .pure _
      · refine .bind ?_ fun _ => ih
        exact keeps_push _ _

/-! ### Handlers that keep calm -/

theorem keeps_lookupProcess (message : ProcessLookup) : Keeps (lookupProcess env message) := by
  have hsend : ∀ process : Process, Keeps (do
      let reply := Reply.process message.correlation message.identification process
      if !(← nonBlockingSend env message.process.queue reply) then
        modify fun s => { s with replies := s.replies ++ [([message.process.queue], reply)] }) := by
    intro process
    apply Moves.bind (keeps_nonBlockingSend env _ _)
    intro sent
    apply Moves.ite
    · exact keeps_modify fun _ => .of_same rfl rfl rfl
    · exact .pure _
  apply Moves.bind .get
  intro s
  simp only []
  split
  · exact hsend _
  · apply Moves.ite
    · exact keeps_modify fun _ => .of_same rfl rfl rfl
    · exact hsend _

theorem keeps_connectSingleton (message : ConnectRequest) : Keeps (connectSingleton env message) := by
  apply Moves.bind .get
  intro s
  split
  · apply Moves.ite
    · apply Moves.bind (keeps_blockingSend env _ _)
      intro _
      apply Moves.bind (keeps_getInstance _)
      intro i
      apply Moves.bind (keeps_getServer _)
      intro server
      refine .bind ?_ fun _ => .pure _
      exact keeps_modify fun _ => .of_same rfl rfl rfl
    · exact .pure _
  · refine .bind ?_ fun _ => .bind (.forM (keeps_lookupProcess env) _) fun _ => .pure _
    exact keeps_modify fun _ => .of_same rfl rfl rfl

theorem keeps_connect (message : ConnectRequest) : Keeps (connect env message) := by
  apply Moves.bind .get
  intro s
  apply Moves.ite
  · exact .bind (keeps_blockingSend env _ _) fun _ => .pure _
  · have hsend : ∀ accepted : Bool, Keeps (do
        if accepted then
          blockingSend env message.process.queue (.connect message.correlation .start)
        return accepted) := by
      intro accepted
      apply Moves.ite
      · exact .bind (keeps_blockingSend env _ _) fun _ => .pure _
      · exact .pure _
    apply Moves.ite
    · exact .bind (keeps_connectSingleton env message) hsend
    · exact .bind (.pure _) hsend

theorem keeps_registration (process : Process) : Keeps (registration process) :=
  keeps_modify fun _ => .of_same rfl rfl rfl

theorem keeps_unadvertise (pid : Nat) (services : List Information) : Keeps (unadvertise pid services) := by
  apply keeps_catchMissing _ (.pure _)
  apply Moves.bind (keeps_getInstance _)
  intro i
  exact keeps_modify fun s => calm_foldl (fun s service => calm_removeService s pid service) _ s

/-! ### Instances that are started and stopped -/

theorem keeps_spawn : ∀ n, Keeps (spawn env n)
  | 0 => .pure _
  | n + 1 => by
    apply Moves.bind keeps_reading
    intro reading
    split
    · exact .throw _
    · exact .bind (keeps_spawn n) fun _ => .pure _

/-- An instance that was started offers nothing and is not idle. -/
theorem calm_started (s : State) (id pid : Nat) : Calm s (if (s.instances pid).isSome then s
    else { s with instances := Function.update s.instances pid (some (started id pid)) }) := by
  split_ifs with hsome
  · exact .refl s
  · have hnone : s.instances pid = none := Option.not_isSome_iff_eq_none.1 hsome
    refine .of_eq rfl ?_ ?_ (List.Subset.refl _)
    · funext pid'
      unfold offers
      by_cases heq : pid' = pid
      · subst heq
        simp only [Function.update_self, hnone]
        rfl
      · simp only [Function.update_of_ne heq]
    · intro pid' hidle
      unfold idle at hidle ⊢
      by_cases heq : pid' = pid
      · subst heq
        simp only [Function.update_self] at hidle
        cases hidle
      · simpa only [Function.update_of_ne heq] using hidle

theorem keeps_addInstances (id : Nat) (pids : List Nat) : Keeps (addInstances id pids) := by
  refine ⟨fun s _ => ?_⟩
  unfold addInstances
  split_ifs
  · exact (calm_foldl (fun s pid => calm_started s id pid) pids s).trans (.of_same rfl rfl rfl)
  · exact .of_same rfl rfl rfl
  · exact .refl s

theorem keeps_boot (executable : Executable) (instances : Nat) : Keeps (boot env executable instances) := by
  apply Moves.ite
  · exact .bind (keeps_spawn env _) fun _ => keeps_addInstances _ _
  · exact .pure _

theorem keeps_shutdownInstance (pid : Nat) : Keeps (shutdownInstance env pid) := by
  apply Moves.bind .get
  intro s
  apply Moves.ite
  · apply Moves.tryCatch
    · apply Moves.bind (keeps_getInstance _)
      intro i
      refine .bind ?_ fun _ => .bind (keeps_nonBlockingSend env _ _) fun sent => ?_
      · exact keeps_modify fun s => calm_alterState s pid (by decide)
      · apply Moves.ite
        · exact keeps_modify fun _ => .of_same rfl rfl rfl
        · exact .pure _
    · intro e
      cases e
      · exact .pure _
      · exact .pure _
      · exact .throw _
  · exact .pure _

theorem keeps_updateInstances (id : Nat) : Keeps (updateInstances env id) := by
  apply Moves.bind (keeps_getServer _)
  intro server
  apply Moves.ite
  · exact keeps_boot env _ _
  · exact .forM (keeps_shutdownInstance env) _

theorem keeps_updateServers (name : String) (instances : Nat) : Keeps (updateServers env name instances) := by
  apply Moves.bind .get
  intro s
  apply Moves.forM
  intro server
  refine .bind ?_ fun _ => keeps_updateInstances env _
  exact keeps_modify fun _ => .of_same rfl rfl rfl

theorem keeps_serviceUpdateInstances (name : String) (instances : Nat) :
    Keeps (serviceUpdateInstances env name instances) :=
  .tryCatch (keeps_updateServers env name instances) fun _ => .pure _

/-! ### Processes that have died -/

theorem exists_of_mem_hosts {s : State} {name : String} {pid : Nat} (h : pid ∈ s.hosts name) :
    ∃ service, s.services name = some service := by
  unfold hosts at h
  cases hs : s.services name with
  | some service => exact ⟨service, rfl⟩
  | none =>
    rw [hs] at h
    cases h

theorem removeFromServices_ok {pid : Nat} : ∀ {names : List String} {s : State},
    (∀ name ∈ names, (s.services name).isSome) → (∀ name, (s.hosts name).Pairwise (· < ·)) →
      ∃ t, removeFromServices pid names s = .ok () t ∧ t.instances = s.instances ∧ t.servers = s.servers ∧
        t.requests = s.requests ∧ (∀ name, (t.hosts name).Pairwise (· < ·)) ∧
        ∀ name pid', pid' ∈ t.hosts name ↔ pid' ∈ s.hosts name ∧ ¬ (pid' = pid ∧ name ∈ names)
  | [], s, _, hsorted => ⟨s, rfl, rfl, rfl, rfl, hsorted, by simp⟩
  | name :: names, s, hknown, hsorted => by
    obtain ⟨service, hservice⟩ := Option.isSome_iff_exists.1 (hknown name List.mem_cons_self)
    have hget : getService name s = .ok service s := by
      unfold getService
      rw [hservice]
    have hhosts := hosts_setService s name (fun service => { service with instances := service.instances.erase pid })
      (·.erase pid) (fun _ => rfl) (.inr rfl)
    obtain ⟨t, ht, hinstances, hservers, hrequests, hsorted', hmem⟩ := @removeFromServices_ok pid names
      (s.setService name fun service => { service with instances := service.instances.erase pid })
      (by
        intro name' hname'
        by_cases heq : name' = name
        · subst heq
          simp [setService, hservice]
        · simpa [setService, Function.update_of_ne heq] using hknown name' (List.mem_cons_of_mem _ hname'))
      (by
        intro name'
        rw [hhosts]
        by_cases heq : name' = name
        · subst heq
          rw [Function.update_self]
          exact (hsorted _).sublist List.erase_sublist
        · rw [Function.update_of_ne heq]
          exact hsorted _)
    refine ⟨t, ?_, hinstances, hservers, hrequests, hsorted', ?_⟩
    · unfold removeFromServices
      rw [bind_ok hget]
      exact ht
    · intro name' pid'
      rw [hmem, hhosts]
      by_cases heq : name' = name
      · subst heq
        rw [Function.update_self, (nodup_of_sorted (hsorted _)).mem_erase_iff]
        simp only [List.mem_cons, true_or, and_true]
        tauto
      · simp [heq]

/-- All references to a process are gone with it. -/
theorem calm_removeInstance {s : State} {pid : Nat} {i : Instance} {server : Server} (h : s.Linked)
    (hi : s.instances pid = some i) (hfind : s.servers.find? (fun server => server.id == i.server) = some server) :
    ∃ t, removeInstance pid i s = .ok () t ∧ Calm s t := by
  have hoffers : s.offers pid = i.services := by
    unfold offers
    rw [hi]
    rfl
  have hknown : ∀ name ∈ i.services, (s.services name).isSome := by
    intro name hname
    rw [← hoffers, ← h.iff] at hname
    obtain ⟨service, hservice⟩ := exists_of_mem_hosts hname
    rw [hservice]
    rfl
  obtain ⟨t, ht, hinstances, hservers, hrequests, hsorted, hmem⟩ := @removeFromServices_ok pid _ _ hknown h.hosts
  have hget : getServer i.server t = .ok server t := by
    unfold getServer
    rw [hservers, hfind]
  have hupdate : ∀ (u : State), u.services = t.services → u.instances = Function.update s.instances pid none →
      u.requests = t.requests → Calm s u := by
    intro u hu hu' hu''
    have huhosts : u.hosts = t.hosts := by
      unfold hosts
      rw [hu]
    have huoffers : ∀ pid', u.offers pid' = if pid' = pid then [] else s.offers pid' := by
      intro pid'
      unfold offers
      rw [hu']
      by_cases heq : pid' = pid
      · subst heq
        simp
      · simp only [Function.update_of_ne heq, if_neg heq]
    refine ⟨fun _ => ⟨?_, ?_, ?_⟩, ?_, ?_, ?_⟩
    · intro name pid'
      rw [huhosts, hmem, huoffers, ← hoffers]
      by_cases heq : pid' = pid
      · subst heq
        simp [h.iff]
      · simp [heq, h.iff]
    · rw [huhosts]
      exact hsorted
    · intro pid'
      rw [huoffers]
      split_ifs
      · exact .nil
      · exact h.offers pid'
    · intro name pid' hpid'
      rw [huhosts] at hpid'
      exact ((hmem name pid').1 hpid').1
    · intro pid' hidle
      unfold idle at hidle ⊢
      rw [hu'] at hidle
      by_cases heq : pid' = pid
      · subst heq
        simp at hidle
      · simpa only [Function.update_of_ne heq] using hidle
    · rw [hu'', hrequests]
      exact List.Subset.refl _
  have hleft := hupdate { t.setServer server.id fun server =>
      { server with toExecutable := server.toExecutable.remove pid, invoked := server.invoked + i.invoked } with
    instances := Function.update t.instances pid none } rfl (by rw [hinstances]) rfl
  refine ⟨_, ?_, hleft⟩
  unfold removeInstance
  rw [bind_ok ht, bind_ok hget]
  rfl

/-- What follows after the server of the process has been found. -/
theorem calm_removeProcess {s : State} {pid : Nat} (h : s.Linked) {i : Instance} {server : Server}
    (hi : s.instances pid = some i) (hfind : s.servers.find? (fun server => server.id == i.server) = some server) :
    ∃ t, removeProcess pid s = .ok () t ∧ Calm s t := by
  obtain ⟨t, ht, hcalm⟩ := calm_removeInstance h hi hfind
  refine ⟨removeSingleton pid t, ?_, hcalm.trans (.of_same rfl rfl rfl)⟩
  have hget : (get : M State) s = .ok s s := rfl
  unfold removeProcess
  rw [bind_ok hget, hi]
  simp only []
  rw [bind_ok ht]
  rfl

/-- A change of a server that keeps its id does not hide it. -/
theorem find_setServer {s : State} {id : Nat} {server : Server} (f : Server → Server) (hf : ∀ server, (f server).id = server.id)
    (h : s.servers.find? (fun server => server.id == id) = some server) (id' : Nat) :
    ∃ server', (s.setServer id' f).servers.find? (fun server => server.id == id) = some server' := by
  rw [← Option.isSome_iff_exists, List.find?_isSome]
  obtain ⟨hmem, hid⟩ := List.mem_of_find?_eq_some h, List.find?_some h
  refine ⟨_, List.mem_map_of_mem hmem, ?_⟩
  split_ifs
  · rw [hf]
    exact hid
  · exact hid

theorem keeps_notify (pid : Nat) (reason : Reason) : Keeps (notify env pid reason) := by
  apply Moves.bind .get
  intro s
  apply Moves.ite
  · apply Moves.bind (keeps_pendingSend env _ _)
    intro left
    apply Moves.ite
    · exact keeps_modify fun _ => .of_same rfl rfl rfl
    · exact .pure _
  · exact .pure _

theorem keeps_removeDead (pid : Nat) : Keeps (removeDead env pid) := by
  refine ⟨fun s hs => ?_⟩
  cases hi : s.instances pid with
  | none =>
    have hget : getInstance pid s = .error .missing s := by
      unfold getInstance
      rw [hi]
    unfold removeDead
    rw [bind_error hget]
    exact .refl s
  | some i =>
    have hget : getInstance pid s = .ok i s := by
      unfold getInstance
      rw [hi]
    cases hfind : s.servers.find? (fun server => server.id == i.server) with
    | none =>
      have hget' : getServer i.server s = .error .missing s := by
        unfold getServer
        rw [hfind]
      unfold removeDead
      rw [bind_ok hget, bind_error hget']
      exact .refl s
    | some server =>
      have hget' : getServer i.server s = .ok server s := by
        unfold getServer
        rw [hfind]
      have hset : Calm s (s.setServer server.id fun server => { server with deaths := server.deaths + 1 }) :=
        .of_same rfl rfl rfl
      obtain ⟨server', hfind'⟩ := find_setServer (fun server => { server with deaths := server.deaths + 1 })
        (fun _ => rfl) hfind server.id
      obtain ⟨t, ht, hcalm⟩ := calm_removeProcess (hset.linked hs) hi hfind'
      have hmodify : (modify (setServer server.id fun server => { server with deaths := server.deaths + 1 }) : M Unit) s =
        .ok () (s.setServer server.id fun server => { server with deaths := server.deaths + 1 }) := rfl
      have hrest : Keeps (if server.restart then updateInstances env server.id else pure ()) :=
        .ite (keeps_updateInstances env _) (.pure _)
      unfold removeDead
      rw [bind_ok hget, bind_ok hget', bind_ok hmodify, bind_ok ht]
      exact (hset.trans hcalm).trans (hrest.after t ((hset.trans hcalm).linked hs))

theorem keeps_deadEvent (pid : Nat) (reason : Reason) : Keeps (deadEvent env pid reason) := by
  apply Moves.ite _ (.pure _)
  refine .bind ?_ fun _ => .bind (keeps_notify env pid reason) fun _ => keeps_removeDead env pid
  exact keeps_modify fun _ => .of_same rfl rfl rfl

end State

end Casual.Broker

/-
The identities of processes: who holds one, and the lookups of processes that wait until somebody does. A connect
takes the lookups that wait and answers them or puts them back.
-/
import Casual.Lib.Guard
import Casual.Broker.Deaths

namespace Casual.Broker

open Casual.Common Casual.Communication Casual.Lib

namespace State

/-! ## The pump -/

/-- `pending::sender` for each of the pending replies: those with targets that are left. -/
def sendReplies (env : Environment) : List (List Nat × Reply) → M (List (List Nat × Reply))
  | [] => pure []
  | entry :: rest => do
    let left ← pendingSend env entry.2 entry.1
    let remain ← sendReplies env rest
    return if left.isEmpty then remain else (left, entry.2) :: remain

/-- The pending replies are tried, in the order of a partition. -/
def pumpReplies (env : Environment) (order : List (List Nat × Reply)) : M Unit := do
  modify fun s => { s with replies := [] }
  let remain ← sendReplies env order
  modify fun s => { s with replies := s.replies ++ remain }

/-! ## Lookups and their answers -/

/-- What tells the lookups of a process apart. -/
structure Key where
  queue : Nat
  correlation : Uuid
  identification : Uuid
  deriving DecidableEq

/-- The key of a lookup. -/
def Key.of (l : ProcessLookup) : Key := ⟨l.process.queue, l.correlation, l.identification⟩

/-- A message answers a lookup. -/
def Key.isAnswered (k : Key) (x : Nat × Reply) : Bool :=
  match x.2 with
  | .process correlation identification _ => k == ⟨x.1, correlation, identification⟩
  | _ => false

/-- The messages of the pending replies, one for each queue. -/
def flatten (replies : List (List Nat × Reply)) : List (Nat × Reply) :=
  replies.flatMap fun entry => entry.1.map fun queue => (queue, entry.2)

/-- What has been sent, and what is to be sent by the pump. -/
def outgoing (s : State) : List (Nat × Reply) := s.sent ++ flatten s.replies

/-- Who is told to a lookup, unless it is to wait. -/
def response (singletons : List (Uuid × Process)) (l : ProcessLookup) : Option Process :=
  match singletons.find? fun entry => entry.1 == l.identification with
  | some found => some found.2
  | none => if l.wait then none else some nullProcess

end State

/-! ## A broker and those who look for processes -/

open State

/-- Who connects besides the servers. -/
inductive Connecting
  | monitor | manager | client | forward
  deriving DecidableEq, Repr

/-- What the broker does with its connect. -/
def Connecting.program (env : Environment) (message : ConnectRequest) : Connecting → M Unit
  | monitor => connectMonitor env message
  | manager => connectManager env message
  | client => connectClient env message
  | forward => connectForward env message

/-- What happens to the broker. -/
inductive Doing
  | act (env : Environment) (a : Action)
  | connect (env : Environment) (caller : Connecting) (message : ConnectRequest)
  | replies (env : Environment) (order : List (List Nat × Reply))

/-- What the broker does not decide. -/
def Doing.environment : Doing → Environment
  | act env _ | connect env _ _ | replies env _ => env

/-- The lookup that comes with it. -/
def Doing.asks : Doing → List ProcessLookup
  | act _ (.message (.lookupProcess message)) => [message]
  | _ => []

/-- A broker, the lookups it was asked for, who held which identity, and the queues that were gone. -/
structure Sought where
  state : State
  asked : List ProcessLookup
  granted : List (Uuid × Process)
  lost : Nat → Prop

namespace Sought

/-- An exception that nothing catches ends the pump. -/
def ended : EStateM.Result Exception State Unit → State
  | .ok _ s => s
  | .error _ s => { s with running := false }

/-- What the broker does. -/
def perform (s : State) : Doing → State
  | .act env a => s.perform (env, a)
  | .connect env caller message => ended (caller.program env message s)
  | .replies env order => after (pumpReplies env order s)

/-- A broker whose pump has ended does nothing any more. -/
def step (w : Sought) (x : Doing) : Sought :=
  let t := if w.state.running then perform w.state x else w.state
  { state := t
    asked := w.asked ++ x.asks
    granted := w.granted ++ t.singletons
    lost := fun queue => w.lost queue ∨ ∃ n, x.environment.gone n queue = true }

/-- Connects, lookups of processes and deaths, whatever they do; besides, what else the broker does, if it
does not end the pump. -/
def Admits (w : Sought) (x : Doing) : Prop :=
  w.state.running = true →
    match x with
    | .act env a => w.state.admitted (env, a) ∧
      match a with
      | .message (.connect _) | .message (.lookupProcess _) | .message (.dead _ _) => True
      | a => throws (act env a w.state) = false
    | .connect .. => True
    | .replies _ order => order.Perm w.state.replies

/-- The runs of a broker from when nobody has looked up a process. -/
def machine : Machine Sought Doing where
  init w := domain.init w.state ∧ w.state.singletons = [] ∧ w.state.processLookup = [] ∧ w.state.sent = [] ∧
    w.state.replies = [] ∧ w.asked = [] ∧ w.granted = [] ∧ w.lost = fun _ => False
  admits := Admits
  step := step

/-! ## What is right -/

/-- The connect of a process, whoever it is: only of an instance of a server when it is a transaction client. -/
def Connect (s t : State) (env : Environment) (message : ConnectRequest) : Prop :=
  t = s.step env (.connect message) ∨
    ∃ caller : Connecting, (caller = .client → (s.serverOf message.process.pid).isSome) ∧
      t = perform s (.connect env caller message)

/-- A connect by another process than the one that holds the identity changes neither the holders nor the lookups that
wait, and is not told to start. -/
def Refuses (s : State) : Prop :=
  ∀ (env : Environment) (message : ConnectRequest), message.identification ≠ 0 →
    ∀ holder, (message.identification, holder) ∈ s.singletons → holder ≠ message.process →
      ∀ t, Connect s t env message →
        t.singletons = s.singletons ∧ t.processLookup = s.processLookup ∧ t.replies = s.replies ∧
        ∃ told, t.sent = s.sent ++ told ∧
          ∀ x ∈ told, ∃ directive, directive ≠ .start ∧ x = (message.process.queue, .connect message.correlation directive)

/-- Each lookup of a process whose queue is there is answered once, unless it is to wait and nobody holds the identity;
and one process at most does. -/
structure Attended (w : Sought) : Prop where
  running : w.state.running = true
  single : (w.state.singletons.map Prod.fst).Nodup
  waiting : ∀ l ∈ w.state.processLookup, l.wait = true ∧ l.identification ∉ w.state.singletons.map Prod.fst
  once : ∀ k : Key, ¬ w.lost k.queue →
    w.state.outgoing.countP k.isAnswered + w.state.processLookup.countP (fun l => .of l = k) =
      w.asked.countP fun l => .of l = k
  named : ∀ x ∈ w.state.outgoing, ∀ correlation identification process, x.2 = .process correlation identification process →
    (identification, process) ∈ w.granted ∨
      process = nullProcess ∧ ∃ l ∈ w.asked, l.wait = false ∧ .of l = (⟨x.1, correlation, identification⟩ : Key)
  refuses : Refuses w.state

/-! ## When it is -/

/-- The queues of those that are answered are there when they are, from a reading on. -/
def Reaches (env : Environment) (singletons : List (Uuid × Process)) : List ProcessLookup → Nat → Prop
  | [], _ => True
  | l :: ls, n =>
    if (response singletons l).isSome then env.gone n l.process.queue = false ∧ Reaches env singletons ls (n + 1)
    else Reaches env singletons ls n

/-- The number of those that are answered. -/
def reached (singletons : List (Uuid × Process)) (ls : List ProcessLookup) : Nat :=
  ls.countP fun l => (response singletons l).isSome

/-- A connect gives the identity to the process. -/
def Registers (s : State) (message : ConnectRequest) : Prop :=
  s.shutdownMode = false ∧ message.identification ≠ 0 ∧ message.identification ∉ s.singletons.map Prod.fst

instance (s : State) (message : ConnectRequest) : Decidable (Registers s message) := inferInstanceAs (Decidable (_ ∧ _ ∧ _))

/-- The queue of the process that connects is there, and those of the lookups that are answered by that. -/
def Connects (env : Environment) (s : State) (message : ConnectRequest) : Prop :=
  (s.instances message.process.pid).isSome →
    if Registers s message then
      Reaches env (insertSingleton message.identification message.process s.singletons) s.processLookup s.readings ∧
        env.gone (s.readings + reached (insertSingleton message.identification message.process s.singletons) s.processLookup)
          message.process.queue = false
    else env.gone s.readings message.process.queue = false

/-- A connect with the identity of another process. -/
def Clashes (s : State) (message : ConnectRequest) : Prop :=
  s.shutdownMode = false ∧ message.identification ≠ 0 ∧
    ((s.singletons.find? fun entry => entry.1 == message.identification).any fun found => found.2 != message.process) = true

instance (s : State) (message : ConnectRequest) : Decidable (Clashes s message) := inferInstanceAs (Decidable (_ ∧ _ ∧ _))

/-- The queue of the process that connects is there, and those of the lookups that are answered by that, which a client
that is no instance answers none of; and who connects with the identity of another, but for a client, is an instance of
a server. -/
def Joins (env : Environment) (s : State) (caller : Connecting) (message : ConnectRequest) : Prop :=
  (∀ n, env.gone n message.process.queue = false) ∧
    ((caller = .client → (s.instances message.process.pid).isSome) → Registers s message →
      Reaches env (insertSingleton message.identification message.process s.singletons) s.processLookup s.readings) ∧
    (caller ≠ .client → Clashes s message → (s.serverOf message.process.pid).isSome)

/-- The process is an instance of a server, for which another is started if it is to be restarted. -/
def Dies (env : Environment) (s : State) (pid : Nat) : Prop :=
  ∃ server, s.serverOf pid = some server ∧ (server.restart = true → ∀ n,
    s.readings + (s.listeners.takeWhile fun listener => listener.pid != pid).length ≤ n →
    n < s.readings + (s.listeners.takeWhile fun listener => listener.pid != pid).length +
      (server.configuredInstances - (server.instances.filter (· != pid)).length) → (env.spawn n).isSome)

/-- Nobody who is to be told something right away is gone. -/
def Sound (w : Sought) : Doing → Prop
  | .act env (.message (.connect message)) => Connects env w.state message
  | .act env (.message (.lookupProcess message)) => Reaches env w.state.singletons [message] w.state.readings
  | .act env (.message (.dead pid reason)) => reason.deceased = true → Dies env w.state pid
  | .connect env caller message => Joins env w.state caller message
  | _ => True

end Sought

/-! ## What has to do with no identity -/

namespace State

/-- A message answers some lookup of a process. -/
def isAnswer (x : Nat × Reply) : Bool :=
  match x.2 with
  | .process .. => true
  | _ => false

/-- The holders and the lookups that wait stay, and no lookup is answered. -/
structure Elsewhere (s t : State) : Prop where
  singletons : t.singletons = s.singletons
  processLookup : t.processLookup = s.processLookup
  running : t.running = s.running
  answers : (t.outgoing.filter isAnswer).Perm (s.outgoing.filter isAnswer)

instance : Std.Refl Elsewhere := ⟨fun _ => ⟨rfl, rfl, rfl, .refl _⟩⟩

instance : IsTrans State Elsewhere := ⟨fun _ _ _ h h' => ⟨h'.singletons.trans h.singletons,
  h'.processLookup.trans h.processLookup, h'.running.trans h.running, h'.answers.trans h.answers⟩⟩

/-- What lookups of processes have to do with. -/
def desk (s : State) : List (Uuid × Process) × List ProcessLookup × Bool × List (Nat × Reply) × List (List Nat × Reply) :=
  (s.singletons, s.processLookup, s.running, s.sent, s.replies)

theorem Elsewhere.of_desk {s t : State} (h : t.desk = s.desk) : Elsewhere s t := by
  obtain ⟨hsingletons, hlookup, hrunning, hsent, hreplies⟩ : t.singletons = s.singletons ∧
      t.processLookup = s.processLookup ∧ t.running = s.running ∧ t.sent = s.sent ∧ t.replies = s.replies := by
    simpa [desk] using h
  refine ⟨hsingletons, hlookup, hrunning, ?_⟩
  unfold outgoing
  rw [hsent, hreplies]

theorem elsewhere_modify {f : State → State} (h : ∀ s, (f s).desk = s.desk) : Moves Elsewhere (modify f : M Unit) :=
  .modify fun s => .of_desk (h s)

theorem flatten_append (a b : List (List Nat × Reply)) : flatten (a ++ b) = flatten a ++ flatten b := List.flatMap_append

section

variable {queue : Nat} {reply : Reply}

theorem elsewhere_push (h : isAnswer (queue, reply) = false) : Moves Elsewhere (modify (push queue reply) : M Unit) := by
  refine .modify fun s => ⟨rfl, rfl, rfl, ?_⟩
  unfold outgoing push
  rw [List.filter_append, List.filter_append, List.filter_append, List.filter_cons_of_neg (by simp [h]), List.filter_nil,
    List.append_nil]

/-- Something else is to be sent by the pump. -/
theorem elsewhere_pend {targets : List Nat} (h : ∀ queue, isAnswer (queue, reply) = false) :
    Moves Elsewhere (modify fun s => { s with replies := s.replies ++ [(targets, reply)] } : M Unit) := by
  refine .modify fun s => ⟨rfl, rfl, rfl, ?_⟩
  have hnil : (flatten [(targets, reply)]).filter isAnswer = [] := by
    rw [List.filter_eq_nil_iff]
    intro x hx
    obtain ⟨entry, hentry, hx⟩ := List.mem_flatMap.1 hx
    obtain ⟨queue, -, rfl⟩ := List.mem_map.1 hx
    rw [List.mem_singleton.1 hentry, h queue]
    exact Bool.false_ne_true
  unfold outgoing
  rw [flatten_append, List.filter_append, List.filter_append, List.filter_append, hnil, List.append_nil]

end

section Programs

variable (env : Environment)

theorem elsewhere_reading : Moves Elsewhere reading := ⟨fun _ => .of_desk rfl⟩

theorem elsewhere_getInstance (pid : Nat) : Moves Elsewhere (getInstance pid) := by
  refine ⟨fun s => ?_⟩
  unfold getInstance
  split <;> exact Std.Refl.refl s

theorem elsewhere_getService (name : String) : Moves Elsewhere (getService name) := by
  refine ⟨fun s => ?_⟩
  unfold getService
  split <;> exact Std.Refl.refl s

theorem elsewhere_getServer (id : Nat) : Moves Elsewhere (getServer id) := by
  refine ⟨fun s => ?_⟩
  unfold getServer
  split <;> exact Std.Refl.refl s

theorem elsewhere_blockingSend (queue : Nat) {reply : Reply} (h : isAnswer (queue, reply) = false) :
    Moves Elsewhere (blockingSend env queue reply) := by
  refine .bind elsewhere_reading fun _ => .ite ?_ (elsewhere_push h)
  exact .bind (.throw _) fun _ => elsewhere_push h

theorem elsewhere_nonBlockingSend (queue : Nat) {reply : Reply} (h : isAnswer (queue, reply) = false) :
    Moves Elsewhere (nonBlockingSend env queue reply) := by
  refine .bind elsewhere_reading fun n => .ite (.throw _) (.ite (.pure _) ?_)
  exact .bind (elsewhere_push h) fun _ => .pure _

theorem elsewhere_catchMissing {x handler : M Unit} (hx : Moves Elsewhere x) (hhandler : Moves Elsewhere handler) :
    Moves Elsewhere (catchMissing x handler) := by
  apply Moves.tryCatch hx
  intro e
  cases e
  · exact hhandler
  · exact .throw _
  · exact .throw _

/-! ### Services -/

theorem desk_foldl {α : Type} {f : State → α → State} (h : ∀ s a, (f s a).desk = s.desk) :
    ∀ (l : List α) (s : State), (l.foldl f s).desk = s.desk
  | [], _ => rfl
  | a :: l, s => (desk_foldl h l (f s a)).trans (h s a)

theorem desk_emplace (service : Service) (s : State) : (s.emplace service).desk = s.desk := by
  unfold emplace
  split <;> rfl

theorem elsewhere_addServices (pid : Nat) (services : List Service) : Moves Elsewhere (addServices pid services) := by
  refine .bind (elsewhere_getInstance _) fun i => .bind (elsewhere_getServer _) fun server => elsewhere_modify fun s => ?_
  exact desk_foldl (f := fun s service => addService pid service s) (fun s service => desk_emplace service s) _ s

theorem elsewhere_removeServices (pid : Nat) (services : List Service) : Moves Elsewhere (removeServices pid services) :=
  .bind (elsewhere_getInstance _) fun _ => elsewhere_modify fun s =>
    desk_foldl (f := fun s service => removeService pid service s) (fun _ _ => rfl) services s

theorem elsewhere_serviceLookup (message : LookupRequest) : Moves Elsewhere (serviceLookup env message) := by
  refine elsewhere_catchMissing ?_ (elsewhere_blockingSend env _ rfl)
  refine .bind (elsewhere_getService _) fun service => .bind .get fun s => ?_
  dsimp only
  split
  · refine .bind (elsewhere_getInstance _) fun i => .bind (elsewhere_modify fun _ => rfl) fun _ => ?_
    exact .bind (elsewhere_blockingSend env _ rfl) fun _ => elsewhere_modify fun _ => rfl
  · refine .ite (elsewhere_blockingSend env _ rfl) ?_
    exact .bind (elsewhere_modify fun _ => rfl) fun _ => elsewhere_blockingSend env _ rfl

theorem elsewhere_ack (pid : Nat) : Moves Elsewhere (ack env pid) := by
  refine elsewhere_catchMissing ?_ (.pure _)
  refine .bind (elsewhere_getInstance _) fun i => .bind (elsewhere_modify fun _ => rfl) fun _ => ?_
  apply Moves.bind .get
  intro s
  split
  · exact .bind (elsewhere_serviceLookup env _) fun _ => elsewhere_modify fun _ => rfl
  · exact .pure _

/-! ### Instances -/

theorem elsewhere_spawn : ∀ n, Moves Elsewhere (spawn env n)
  | 0 => .pure _
  | n + 1 => by
    apply Moves.bind elsewhere_reading
    intro reading
    split
    · exact .throw _
    · exact .bind (elsewhere_spawn n) fun _ => .pure _

theorem elsewhere_addInstances (id : Nat) (pids : List Nat) : Moves Elsewhere (addInstances id pids) := by
  refine ⟨fun s => ?_⟩
  unfold addInstances
  split_ifs
  · apply Elsewhere.of_desk
    refine Eq.trans rfl (desk_foldl (fun s pid => ?_) pids s)
    split_ifs <;> rfl
  · exact .of_desk rfl
  · exact Std.Refl.refl s

theorem elsewhere_boot (executable : Executable) (instances : Nat) : Moves Elsewhere (boot env executable instances) :=
  .ite (.bind (elsewhere_spawn env _) fun _ => elsewhere_addInstances _ _) (.pure _)

theorem elsewhere_shutdownInstance (pid : Nat) : Moves Elsewhere (shutdownInstance env pid) := by
  refine .bind .get fun s => .ite ?_ (.pure _)
  apply Moves.tryCatch
  · refine .bind (elsewhere_getInstance _) fun i => .bind (elsewhere_modify fun _ => rfl) fun _ => ?_
    refine .bind (elsewhere_nonBlockingSend env _ rfl) fun sent => .ite ?_ (.pure _)
    exact elsewhere_pend fun _ => rfl
  · intro e
    cases e
    · exact .pure _
    · exact .pure _
    · exact .throw _

theorem elsewhere_updateInstances (id : Nat) : Moves Elsewhere (updateInstances env id) := by
  refine .bind (elsewhere_getServer _) fun server => .ite (elsewhere_boot env _ _) ?_
  exact .forM (elsewhere_shutdownInstance env) _

theorem elsewhere_updateServers (name : String) (instances : Nat) : Moves Elsewhere (updateServers env name instances) := by
  refine .bind .get fun _ => .forM (fun server => ?_) _
  refine .bind (elsewhere_modify fun _ => ?_) fun _ => elsewhere_updateInstances env _
  rfl

theorem elsewhere_serviceUpdateInstances (name : String) (instances : Nat) :
    Moves Elsewhere (serviceUpdateInstances env name instances) :=
  .tryCatch (elsewhere_updateServers env name instances) fun _ => .pure _

theorem elsewhere_bootExecutable (executable : Executable) : Moves Elsewhere (bootExecutable env executable) := by
  refine .tryCatch (elsewhere_boot env _ _) fun e => ?_
  cases e with
  | spawn => exact .pure _
  | _ => exact .throw _

theorem elsewhere_bootOne (id : Nat) : Moves Elsewhere (bootOne env id) := by
  refine .bind .get fun s => ?_
  split
  · exact elsewhere_bootExecutable env _
  · refine .bind .get fun s => ?_
    split
    · exact elsewhere_bootExecutable env _
    · exact .pure _

theorem elsewhere_connectBroker (id : Nat) (process : Process) (services : List Information) :
    Moves Elsewhere (connectBroker id process services) := by
  refine .bind .get fun s => .ite ?_ (.pure _)
  exact .bind (elsewhere_modify fun _ => rfl) fun _ => elsewhere_addServices _ _

end Programs

end State

end Casual.Broker

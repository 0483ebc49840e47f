/-
Requests that wait for a service: there is none for a service that has an idle instance, as long as no
instance becomes idle, or is associated with a service, on a way that does not look for them.
-/
import Casual.Broker.Links
import Casual.Lib.Run

namespace Casual.Broker

open Casual.Common Casual.Communication Casual.Lib

/-- The broker, once it has its configuration: instances and services that refer to each other, and no
request that waits. -/
def machine (env : Environment) : Machine State Event where
  init s := s.Linked ∧ s.requests = [] ∧ s.running = true
  admits s _ := s.running = true
  step := State.step env

instance (env : Environment) : ∀ s e, Decidable ((machine env).admits s e) :=
  fun s _ => inferInstanceAs (Decidable (s.running = true))

namespace State

variable (env : Environment)

/-- No request waits for a service that has an idle instance. -/
def Conserved (s : State) : Prop := ∀ request ∈ s.requests, ∀ pid ∈ s.hosts request.requested, ¬ s.idle pid

theorem Calm.conserved {s t : State} (h : Calm s t) (hs : s.Conserved) : t.Conserved :=
  fun request hrequest pid hpid hidle => hs request (h.requests hrequest) pid (h.hosts _ hpid) (h.idle pid hidle)

/-! ## When a handler conserves -/

/-- A connect that is not refused. -/
def accepts (s : State) (message : ConnectRequest) : Bool :=
  !s.shutdownMode && (message.identification == 0 ||
    (s.singletons.find? fun entry => entry.1 == message.identification).all fun found => found.2 == message.process)

/-- The services that an instance offers when those of a message are added. -/
def offered (s : State) (pid : Nat) (services : List Information) : List String :=
  match s.instances pid with
  | none => []
  | some i =>
    match s.servers.find? fun server => server.id == i.server with
    | none => []
    | some server =>
      i.services ++ (allowed server.restrictions (services.map Service.transform)).map fun service => service.information.name

/-- No request waits for a service that an instance offers, when it becomes idle other than by an ACK, or
when it is idle and offers more. -/
def Quiet (s : State) : Event → Prop
  | .connect message => s.accepts message →
    ∀ request ∈ s.requests, request.requested ∉ s.offered message.process.pid message.services
  | .advertise pid services => s.idle pid → ∀ request ∈ s.requests, request.requested ∉ s.offered pid services
  | .ready pid => ∀ request ∈ s.requests, request.requested ∉ s.offers pid
  | _ => True

instance : ∀ s e, Decidable (Quiet s e)
  | s, .connect message => inferInstanceAs (Decidable (s.accepts message →
      ∀ request ∈ s.requests, request.requested ∉ s.offered message.process.pid message.services))
  | s, .advertise pid services => inferInstanceAs (Decidable (s.idle pid →
      ∀ request ∈ s.requests, request.requested ∉ s.offered pid services))
  | s, .ready pid => inferInstanceAs (Decidable (∀ request ∈ s.requests, request.requested ∉ s.offers pid))
  | _, .unadvertise .. | _, .lookup .. | _, .ack .. | _, .dead .. | _, .update .. | _, .registration ..
  | _, .lookupProcess .. => .isTrue trivial

/-! ## Lookups -/

theorem calm_lookedup (s : State) (name : String) :
    Calm s (s.setService name fun service => { service with lookedup := service.lookedup + 1 }) := by
  refine .of_eq ?_ rfl (fun _ h => h) (List.Subset.refl _)
  have := hosts_setService s name (fun service => { service with lookedup := service.lookedup + 1 }) id (fun _ => rfl) (.inr rfl)
  exact this.trans (Function.update_eq_self _ _)

theorem after_catchMissing {x handler : M Unit} {s t : State} (hx : x s = .ok () t) :
    after (catchMissing x handler s) = t := by
  unfold catchMissing
  rw [tryCatch_ok hx]
  rfl

/-- The rest of a handler, from a state that another part has left. -/
theorem calm_catchMissing {x handler : M Unit} {s u : State} (hu : u.Linked) (hx : Calm u (after (x s)))
    (hhandler : Keeps handler) : Calm u (after (catchMissing x handler s)) := by
  unfold catchMissing
  cases hxs : x s with
  | ok a t =>
    rw [hxs] at hx
    rw [tryCatch_ok hxs]
    exact hx
  | error e t =>
    rw [hxs] at hx
    rw [tryCatch_error hxs]
    cases e
    · exact hx.trans (hhandler.after t (hx.linked hu))
    · exact hx
    · exact hx

/-- An idle instance is flagged as busy, or the request waits when there is none. -/
theorem serviceLookup_cases {s : State} (h : s.Linked) (message : LookupRequest) :
    (∃ pid, (s.hosts message.requested).find? s.idle = some pid ∧
      Calm (s.alterState pid .busy) (after (serviceLookup env message s))) ∨
    ((s.hosts message.requested).find? s.idle = none ∧
      Calm { s with requests := s.requests ++ [message] } (after (serviceLookup env message s))) := by
  have habsent := keeps_blockingSend env message.process.queue
    (.lookup message.correlation ⟨message.requested, 0, 0, [], 0⟩ nullProcess .absent)
  have hwaits : ({ s with requests := s.requests ++ [message] } : State).Linked := h.congr rfl rfl
  have hfrom : ∀ {t}, Calm s t → Calm { s with requests := s.requests ++ [message] } t := fun ht =>
    ⟨fun hs => ht.linked h, ht.hosts, ht.idle, List.Subset.trans ht.requests (List.subset_append_left _ _)⟩
  have hstate : (get : M State) s = .ok s s := rfl
  cases hservice : s.services message.requested with
  | none =>
    have hget : getService message.requested s = .error .missing s := by
      unfold getService
      rw [hservice]
    have hhosts : s.hosts message.requested = [] := by
      unfold hosts
      rw [hservice]
      rfl
    refine .inr ⟨by rw [hhosts]; rfl, hfrom ?_⟩
    apply calm_catchMissing h _ habsent
    rw [bind_error hget]
    exact .refl s
  | some service =>
    have hget : getService message.requested s = .ok service s := by
      unfold getService
      rw [hservice]
    have hhosts : s.hosts message.requested = service.instances := by
      unfold hosts
      rw [hservice]
      rfl
    rw [hhosts]
    cases hfind : service.instances.find? s.idle with
    | some pid =>
      obtain ⟨i, hi⟩ : ∃ i, s.instances pid = some i := by
        have hidle := List.find?_some hfind
        unfold idle at hidle
        cases hi : s.instances pid with
        | some i => exact ⟨i, rfl⟩
        | none =>
          rw [hi] at hidle
          cases hidle
      have hgetInstance : getInstance pid s = .ok i s := by
        unfold getInstance
        rw [hi]
      have halter : (modify (alterState pid .busy) : M Unit) s = .ok () (s.alterState pid .busy) := rfl
      have hbusy : (s.alterState pid .busy).Linked := (calm_alterState s pid (by decide)).linked h
      refine .inl ⟨pid, rfl, calm_catchMissing hbusy ?_ habsent⟩
      rw [bind_ok hget, bind_ok hstate]
      simp only [hfind]
      rw [bind_ok hgetInstance, bind_ok halter]
      refine (Moves.bind (keeps_blockingSend env _ _) fun _ => ?_).after _ hbusy
      exact keeps_modify fun s => calm_lookedup s _
    | none =>
      refine .inr ⟨rfl, calm_catchMissing hwaits ?_ habsent⟩
      rw [bind_ok hget, bind_ok hstate]
      simp only [hfind]
      split_ifs
      · exact hfrom ((keeps_blockingSend env _ _).after s h)
      · exact (keeps_blockingSend env _ _).after _ hwaits

/-- A lookup waits only for a service without an idle instance. -/
theorem Conserved.serviceLookup {s : State} (h : s.Linked) (hc : s.Conserved) (message : LookupRequest) :
    (after (State.serviceLookup env message s)).Linked ∧ (after (State.serviceLookup env message s)).Conserved := by
  rcases serviceLookup_cases env h message with ⟨pid, -, hcalm⟩ | ⟨hnone, hcalm⟩
  · have hbusy := @calm_alterState s pid .busy (by decide)
    exact ⟨hcalm.linked (hbusy.linked h), hcalm.conserved (hbusy.conserved hc)⟩
  · have hwaits : ({ s with requests := s.requests ++ [message] } : State).Linked := h.congr rfl rfl
    refine ⟨hcalm.linked hwaits, hcalm.conserved ?_⟩
    intro request hrequest pid hpid
    rcases List.mem_append.1 hrequest with hrequest | hrequest
    · exact hc request hrequest pid hpid
    · rw [List.mem_singleton.1 hrequest] at hpid
      exact List.find?_eq_none.1 hnone pid hpid

/-! ## ACK -/

theorem idle_acked (s : State) (pid : Nat) (pid' : Nat) :
    (s.acked pid).idle pid' = if pid' = pid then (s.instances pid).isSome else s.idle pid' := by
  unfold idle acked setInstance
  split_ifs with heq
  · subst heq
    simp only [Function.update_self]
    cases s.instances pid' <;> rfl
  · simp only [Function.update_of_ne heq]

theorem offers_acked (s : State) (pid : Nat) : (s.acked pid).offers = s.offers := by
  have := offers_setInstance s pid (fun i => { i with state := .idle, invoked := i.invoked + 1 }) id (fun _ => rfl) (.inr rfl)
  exact this.trans (Function.update_eq_self _ _)

/-- It is not idle any more when it is flagged as busy again. -/
theorem calm_acked_busy (s : State) (pid : Nat) : Calm s ((s.acked pid).alterState pid .busy) := by
  refine .of_eq rfl ((offers_alterState _ _ _).trans (offers_acked s pid)) ?_ (List.Subset.refl _)
  intro pid' hidle
  rw [idle_alterState] at hidle
  split_ifs at hidle with heq
  · rw [show (InstanceState.busy == .idle) = false from rfl, Bool.and_false] at hidle
    cases hidle
  · rw [idle_acked, if_neg heq] at hidle
    exact hidle

theorem servePending_none {s : State} {services : List String} (h : s.requests.find? (waitsFor services) = none) :
    servePending env services s = .ok () s := by
  have hstate : (get : M State) s = .ok s s := rfl
  unfold servePending
  rw [bind_ok hstate, h]
  rfl

/-- A request that was served is one less. -/
theorem servePending_some {s u : State} {services : List String} {request : LookupRequest}
    (h : s.requests.find? (waitsFor services) = some request)
    (hcalm : Calm u (after (State.serviceLookup env request s))) : Calm u (after (servePending env services s)) := by
  have hstate : (get : M State) s = .ok s s := rfl
  unfold servePending
  rw [bind_ok hstate, h]
  simp only []
  cases hlookup : State.serviceLookup env request s with
  | ok a t =>
    rw [hlookup] at hcalm
    rw [bind_ok hlookup]
    exact hcalm.trans (.of_eq rfl rfl (fun _ h => h) List.eraseP_subset)
  | error e t =>
    rw [hlookup] at hcalm
    rw [bind_error hlookup]
    exact hcalm

/-- The first request that waits for one of the services of the instance gets it. -/
theorem Conserved.ack {s : State} (h : s.Linked) (hc : s.Conserved) (pid : Nat) :
    (after (State.ack env pid s)).Linked ∧ (after (State.ack env pid s)).Conserved := by
  cases hi : s.instances pid with
  | none =>
    have hget : getInstance pid s = .error .missing s := by
      unfold getInstance
      rw [hi]
    have hcalm : Calm s (after (State.ack env pid s)) := by
      apply calm_catchMissing h _ (.pure _)
      rw [bind_error hget]
      exact .refl s
    exact ⟨hcalm.linked h, hcalm.conserved hc⟩
  | some i =>
    have hget : getInstance pid s = .ok i s := by
      unfold getInstance
      rw [hi]
    have hoffers : s.offers pid = i.services := by
      unfold offers
      rw [hi]
      rfl
    have hset : (modify (acked pid) : M Unit) s = .ok () (s.acked pid) := rfl
    have hlinked : (s.acked pid).Linked := h.congr rfl (offers_acked s pid)
    have hidle : ∀ pid', (s.acked pid).idle pid' = if pid' = pid then true else s.idle pid' := by
      intro pid'
      rw [idle_acked, hi]
      rfl
    cases hfind : s.requests.find? (waitsFor i.services) with
    | none =>
      have hcalm : Calm (s.acked pid) (after (State.ack env pid s)) := by
        apply calm_catchMissing hlinked _ (.pure _)
        rw [bind_ok hget, bind_ok hset, @servePending_none env (s.acked pid) _ hfind]
        exact .refl _
      refine ⟨hcalm.linked hlinked, hcalm.conserved ?_⟩
      intro request hrequest pid' hpid' hidle'
      rw [hidle] at hidle'
      split_ifs at hidle' with heq
      · -- a request for one of its services would have been found
        subst heq
        have hmem : request.requested ∈ i.services := by
          rw [← hoffers]
          exact (h.iff _ _).1 hpid'
        exact List.find?_eq_none.1 hfind request hrequest (List.contains_iff_mem.2 hmem)
      · exact hc request hrequest pid' hpid' hidle'
    | some request =>
      have hmem := List.mem_of_find?_eq_some hfind
      have hwaits : request.requested ∈ i.services := by
        have := List.find?_some hfind
        exact List.contains_iff_mem.1 this
      have hhost : pid ∈ (s.acked pid).hosts request.requested := (h.iff _ _).2 (hoffers ▸ hwaits)
      rcases serviceLookup_cases env hlinked request with ⟨pid', hfound, hcalm⟩ | ⟨hnone, -⟩
      · -- no other instance of the service is idle
        have hpid' : pid' = pid := by
          by_contra hne
          have hidle' := List.find?_some hfound
          rw [hidle, if_neg hne] at hidle'
          exact hc request hmem pid' (List.mem_of_find?_eq_some hfound) hidle'
        subst hpid'
        have hbusy := calm_acked_busy s pid'
        have hrest : Calm ((s.acked pid').alterState pid' .busy) (after (State.ack env pid' s)) := by
          apply calm_catchMissing (hbusy.linked h) _ (.pure _)
          rw [bind_ok hget, bind_ok hset]
          exact servePending_some env hfind hcalm
        exact ⟨(hbusy.trans hrest).linked h, (hbusy.trans hrest).conserved hc⟩
      · refine absurd ?_ (List.find?_eq_none.1 hnone pid hhost)
        rw [hidle, if_pos rfl]

/-! ## Connect and advertise -/

/-- What the services of a message add. -/
theorem addServices_cases {s : State} (h : s.Linked) (pid : Nat) (services : List Information) :
    Calm s (after (addServices pid (services.map Service.transform) s)) ∧
      (∃ t, addServices pid (services.map Service.transform) s = .error .missing t) ∨
    ∃ t names, addServices pid (services.map Service.transform) s = .ok () t ∧ Added s t pid names ∧
      s.offered pid services = s.offers pid ++ names := by
  cases hi : s.instances pid with
  | none =>
    have hget : getInstance pid s = .error .missing s := by
      unfold getInstance
      rw [hi]
    unfold addServices
    rw [bind_error hget]
    exact .inl ⟨.refl s, s, rfl⟩
  | some i =>
    have hget : getInstance pid s = .ok i s := by
      unfold getInstance
      rw [hi]
    have hoffers : s.offers pid = i.services := by
      unfold offers
      rw [hi]
      rfl
    cases hserver : s.servers.find? (fun server => server.id == i.server) with
    | none =>
      have hget' : getServer i.server s = .error .missing s := by
        unfold getServer
        rw [hserver]
      unfold addServices
      rw [bind_ok hget, bind_error hget']
      exact .inl ⟨.refl s, s, rfl⟩
    | some server =>
      have hget' : getServer i.server s = .ok server s := by
        unfold getServer
        rw [hserver]
      have hempty : ∀ service ∈ allowed server.restrictions (services.map Service.transform), service.instances = [] := by
        intro service hservice
        have hmem : service ∈ services.map Service.transform := by
          unfold allowed at hservice
          split_ifs at hservice
          · exact hservice
          · exact List.mem_of_mem_filter hservice
        obtain ⟨value, -, rfl⟩ := List.mem_map.1 hmem
        rfl
      refine .inr ⟨_, _, ?_, foldl_addService h (by rw [hi]; rfl) hempty, ?_⟩
      · unfold addServices
        rw [bind_ok hget, bind_ok hget']
        rfl
      · unfold offered
        rw [hi, hoffers]
        simp only [hserver]

/-- Services of an instance that is not idle, or that nobody waits for. -/
theorem Added.conserved {s t : State} {pid : Nat} {names : List String} (h : Added s t pid names) (hc : s.Conserved)
    (hquiet : s.idle pid → ∀ request ∈ s.requests, request.requested ∉ names) : t.Conserved := by
  intro request hrequest pid' hpid' hidle
  rw [h.requests] at hrequest
  rw [h.idle] at hidle
  rcases (h.hosts _ _).1 hpid' with hpid' | ⟨rfl, hname⟩
  · exact hc request hrequest pid' hpid' hidle
  · exact hquiet hidle request hrequest hname

theorem Conserved.advertise {s : State} (h : s.Linked) (hc : s.Conserved) {pid : Nat} {services : List Information}
    (hquiet : s.Quiet (.advertise pid services)) :
    (after (State.advertise pid services s)).Linked ∧ (after (State.advertise pid services s)).Conserved := by
  unfold State.advertise catchMissing
  rcases addServices_cases h pid services with ⟨hcalm, t, ht⟩ | ⟨t, names, ht, hadded, hoffered⟩
  · rw [ht] at hcalm
    rw [tryCatch_error ht]
    exact ⟨hcalm.linked h, hcalm.conserved hc⟩
  · rw [tryCatch_ok ht]
    refine ⟨hadded.linked, hadded.conserved hc ?_⟩
    intro hidle request hrequest hname
    apply hquiet hidle request hrequest
    rw [hoffered]
    exact List.mem_append_right _ hname

/-- Neither instances nor servers are touched. -/
def Frame (s t : State) : Prop := t.instances = s.instances ∧ t.servers = s.servers

instance : Std.Refl Frame := ⟨fun _ => ⟨rfl, rfl⟩⟩

instance : IsTrans State Frame := ⟨fun _ _ _ h h' => ⟨h'.1.trans h.1, h'.2.trans h.2⟩⟩

theorem frame_reading : Moves Frame reading := ⟨fun _ => ⟨rfl, rfl⟩⟩

theorem frame_push (queue : Nat) (reply : Reply) : Moves Frame (modify (push queue reply) : M Unit) :=
  .modify fun _ => ⟨rfl, rfl⟩

theorem frame_blockingSend (queue : Nat) (reply : Reply) : Moves Frame (blockingSend env queue reply) := by
  apply Moves.bind frame_reading
  intro n
  apply Moves.ite
  · apply Moves.bind (.throw _)
    intro _
    exact frame_push _ _
  · exact frame_push _ _

theorem frame_lookupProcess (message : ProcessLookup) : Moves Frame (lookupProcess env message) := by
  have hsend : ∀ process : Process, Moves Frame (do
      let reply := Reply.process message.correlation message.identification process
      if !(← nonBlockingSend env message.process.queue reply) then
        modify fun s => { s with replies := s.replies ++ [([message.process.queue], reply)] }) := by
    intro process
    refine .bind (.bind frame_reading fun n => ?_) fun sent => ?_
    · apply Moves.ite
      · exact .throw _
      · apply Moves.ite
        · exact .pure _
        · refine .bind ?_ fun _ => .pure _
          exact frame_push _ _
    · apply Moves.ite
      · exact .modify fun _ => ⟨rfl, rfl⟩
      · exact .pure _
  apply Moves.bind .get
  intro s
  simp only []
  split
  · exact hsend _
  · apply Moves.ite
    · exact .modify fun _ => ⟨rfl, rfl⟩
    · exact hsend _

theorem connectSingleton_true {s t : State} {message : ConnectRequest} (h : connectSingleton env message s = .ok true t) :
    (s.singletons.find? fun entry => entry.1 == message.identification).all (fun found => found.2 == message.process) ∧
      Frame s t := by
  have hstate : (get : M State) s = .ok s s := rfl
  unfold connectSingleton at h
  rw [bind_ok hstate] at h
  cases hfind : s.singletons.find? fun entry => entry.1 == message.identification with
  | some found =>
    simp only [hfind] at h
    split_ifs at h with hne
    · obtain ⟨_, _, -, h⟩ := of_bind_ok h
      obtain ⟨_, _, -, h⟩ := of_bind_ok h
      obtain ⟨_, _, -, h⟩ := of_bind_ok h
      obtain ⟨_, _, -, h⟩ := of_bind_ok h
      cases h
    · cases h
      exact ⟨beq_iff_eq.2 (not_not.1 hne), rfl, rfl⟩
  | none =>
    simp only [hfind] at h
    have hset : (modify fun s => { s with
        singletons := insertSingleton message.identification message.process s.singletons, processLookup := [] } : M Unit) s =
      .ok () { s with
        singletons := insertSingleton message.identification message.process s.singletons, processLookup := [] } := rfl
    rw [bind_ok hset] at h
    obtain ⟨_, u, hu, h⟩ := of_bind_ok h
    obtain rfl : u = t := by
      cases h
      rfl
    have := (Moves.forM (frame_lookupProcess env) s.processLookup).after
      { s with singletons := insertSingleton message.identification message.process s.singletons, processLookup := [] }
    rw [hu] at this
    exact ⟨rfl, this⟩

/-- A connect that goes on was not refused. -/
theorem connect_true {s t : State} {message : ConnectRequest} (h : connect env message s = .ok true t) :
    s.accepts message ∧ Frame s t := by
  have hstate : (get : M State) s = .ok s s := rfl
  have hsend : ∀ {accepted : Bool} {u : State}, (do
      if accepted then
        blockingSend env message.process.queue (.connect message.correlation .start)
      return accepted : M Bool) u = .ok true t → accepted = true ∧ Frame u t := by
    intro accepted u h
    cases accepted with
    | false => cases h
    | true =>
      obtain ⟨_, v, hv, h⟩ := of_bind_ok h
      obtain rfl : v = t := by
        cases h
        rfl
      have := (frame_blockingSend env message.process.queue (.connect message.correlation .start)).after u
      rw [hv] at this
      exact ⟨rfl, this⟩
  unfold connect at h
  rw [bind_ok hstate] at h
  split_ifs at h with hmode hid
  · obtain ⟨_, _, -, h⟩ := of_bind_ok h
    cases h
  · obtain ⟨accepted, u, hu, h⟩ := of_bind_ok h
    obtain ⟨rfl, hframe⟩ := hsend h
    obtain ⟨hsingleton, hframe'⟩ := connectSingleton_true env hu
    refine ⟨?_, IsTrans.trans _ _ _ hframe' hframe⟩
    unfold accepts
    rw [Bool.eq_false_iff.2 hmode, hsingleton, Bool.or_true]
    rfl
  · obtain ⟨accepted, u, hu, h⟩ := of_bind_ok h
    obtain ⟨-, hframe⟩ := hsend h
    obtain rfl : u = s := by
      cases hu
      rfl
    refine ⟨?_, hframe⟩
    unfold accepts
    rw [Bool.eq_false_iff.2 hmode, beq_iff_eq.2 (not_not.1 hid)]
    rfl

theorem calm_located (s : State) (message : ConnectRequest) : Calm s (s.located message) := by
  refine .of_eq rfl ?_ ?_ (List.Subset.refl _)
  · have := offers_setInstance s message.process.pid
      (fun i => { i with process := { i.process with queue := message.process.queue } }) id (fun _ => rfl) (.inr rfl)
    exact this.trans (Function.update_eq_self _ _)
  · have := idle_setInstance s message.process.pid
      (fun i => { i with process := { i.process with queue := message.process.queue } }) fun _ => rfl
    intro pid hidle
    exact (congrFun this pid) ▸ hidle

theorem offered_located (s : State) (message : ConnectRequest) :
    (s.located message).offered message.process.pid message.services = s.offered message.process.pid message.services := by
  have hservers : (s.located message).servers = s.servers := rfl
  unfold offered
  rw [hservers, located, instances_setInstance_self]
  cases s.instances message.process.pid <;> rfl

theorem Frame.offered {s t : State} (h : Frame s t) (pid : Nat) (services : List Information) :
    t.offered pid services = s.offered pid services := by
  unfold State.offered
  rw [h.1, h.2]

/-- An instance that becomes idle while nobody waits for what it offers. -/
theorem Conserved.alterState_idle {s : State} (hc : ∀ request ∈ s.requests, ∀ pid ∈ s.hosts request.requested, s.idle pid → False)
    {pid : Nat} (hquiet : ∀ request ∈ s.requests, pid ∉ s.hosts request.requested) :
    (s.alterState pid .idle).Conserved := by
  intro request hrequest pid' hpid' hidle
  rw [idle_alterState] at hidle
  split_ifs at hidle with heq
  · subst heq
    exact hquiet request hrequest hpid'
  · exact hc request hrequest pid' hpid' hidle

theorem Conserved.connect {s : State} (h : s.Linked) (hc : s.Conserved) {message : ConnectRequest}
    (hquiet : s.Quiet (.connect message)) :
    (after (State.connectServer env message s)).Linked ∧ (after (State.connectServer env message s)).Conserved := by
  have hlocated := calm_located s message
  have hmodify : (modify (located message) : M Unit) s = .ok () (s.located message) := rfl
  cases hi : s.instances message.process.pid with
  | none =>
    have hget : getInstance message.process.pid s = .error .missing s := by
      unfold getInstance
      rw [hi]
    have hcalm : Calm s (after (State.connectServer env message s)) := by
      apply calm_catchMissing h _ (.pure _)
      rw [bind_error hget]
      exact .refl s
    exact ⟨hcalm.linked h, hcalm.conserved hc⟩
  | some i =>
    have hget : getInstance message.process.pid s = .ok i s := by
      unfold getInstance
      rw [hi]
    have hconnect := (keeps_connect env message).after (s.located message) (hlocated.linked h)
    cases hr : State.connect env message (s.located message) with
    | error e u =>
      rw [hr] at hconnect
      have hcalm : Calm s (after (State.connectServer env message s)) := by
        apply calm_catchMissing h _ (.pure _)
        rw [bind_ok hget, bind_ok hmodify, bind_error hr]
        exact hlocated.trans hconnect
      exact ⟨hcalm.linked h, hcalm.conserved hc⟩
    | ok accepted u =>
      rw [hr] at hconnect
      have hu : Calm s u := hlocated.trans hconnect
      cases accepted with
      | false =>
        have hcalm : Calm s (after (State.connectServer env message s)) := by
          apply calm_catchMissing h _ (.pure _)
          rw [bind_ok hget, bind_ok hmodify, bind_ok hr]
          exact hu
        exact ⟨hcalm.linked h, hcalm.conserved hc⟩
      | true =>
        obtain ⟨haccepts, hframe⟩ := connect_true env hr
        have hquiet := hquiet haccepts
        rcases addServices_cases (hu.linked h) message.process.pid message.services with
          ⟨hcalm, t, ht⟩ | ⟨t, names, ht, hadded, hoffered⟩
        · rw [ht] at hcalm
          have hcalm : Calm s (after (State.connectServer env message s)) := by
            apply calm_catchMissing h _ (.pure _)
            rw [bind_ok hget, bind_ok hmodify, bind_ok hr]
            simp only [if_true]
            rw [bind_error ht]
            exact hu.trans hcalm
          exact ⟨hcalm.linked h, hcalm.conserved hc⟩
        · rw [hframe.offered, offered_located] at hoffered
          have hafter : after (State.connectServer env message s) = t.alterState message.process.pid .idle := by
            have halter : (modify (alterState message.process.pid .idle) : M Unit) t =
              .ok () (t.alterState message.process.pid .idle) := rfl
            apply after_catchMissing
            rw [bind_ok hget, bind_ok hmodify, bind_ok hr]
            simp only [if_true]
            rw [bind_ok ht]
            exact halter
          rw [hafter]
          refine ⟨hadded.linked.congr rfl (offers_alterState _ _ _), Conserved.alterState_idle ?_ ?_⟩
          · intro request hrequest pid hpid hidle
            rw [hadded.requests] at hrequest
            rw [hadded.idle] at hidle
            rcases (hadded.hosts _ _).1 hpid with hpid | ⟨rfl, hname⟩
            · exact hu.conserved hc request hrequest pid hpid hidle
            · exact hquiet request (hu.requests hrequest) (hoffered ▸ List.mem_append_right _ hname)
          · intro request hrequest hpid
            rw [hadded.requests] at hrequest
            apply hquiet request (hu.requests hrequest)
            rw [hoffered]
            rcases (hadded.hosts _ _).1 hpid with hpid | ⟨-, hname⟩
            · exact List.mem_append_left _ (((hu.linked h).iff _ _).1 hpid)
            · exact List.mem_append_right _ hname

theorem Conserved.ready {s : State} (h : s.Linked) (hc : s.Conserved) {pid : Nat} (hquiet : s.Quiet (.ready pid)) :
    (after (State.ready pid s)).Linked ∧ (after (State.ready pid s)).Conserved := by
  cases hi : s.instances pid with
  | none =>
    have hget : getInstance pid s = .error .missing s := by
      unfold getInstance
      rw [hi]
    unfold State.ready
    rw [bind_error hget]
    exact ⟨h, hc⟩
  | some i =>
    have hget : getInstance pid s = .ok i s := by
      unfold getInstance
      rw [hi]
    have halter : (modify (alterState pid .idle) : M Unit) s = .ok () (s.alterState pid .idle) := rfl
    unfold State.ready
    rw [bind_ok hget, halter]
    refine ⟨h.congr rfl (offers_alterState _ _ _), Conserved.alterState_idle hc ?_⟩
    intro request hrequest hpid
    exact hquiet request hrequest ((h.iff _ _).1 hpid)

/-! ## Runs -/

/-- What a handler leaves, when the event is one that conserves. -/
theorem Conserved.handle {s : State} (h : s.Linked) (hc : s.Conserved) {e : Event} (hquiet : s.Quiet e) :
    (after (State.handle env e s)).Linked ∧ (after (State.handle env e s)).Conserved := by
  have hkeeps : ∀ {x : M Unit}, Keeps x → (after (x s)).Linked ∧ (after (x s)).Conserved := fun hx =>
    ⟨(hx.after s h).linked h, (hx.after s h).conserved hc⟩
  cases e with
  | connect message => exact hc.connect env h hquiet
  | advertise pid services => exact hc.advertise h hquiet
  | unadvertise pid services => exact hkeeps (keeps_unadvertise pid services)
  | lookup message => exact hc.serviceLookup env h message
  | ack pid => exact hc.ack env h pid
  | dead pid reason => exact hkeeps (keeps_deadEvent env pid reason)
  | update name instances => exact hkeeps (keeps_serviceUpdateInstances env name instances)
  | registration process => exact hkeeps (keeps_registration process)
  | lookupProcess message => exact hkeeps (keeps_lookupProcess env message)
  | ready pid => exact hc.ready h hquiet

theorem Conserved.step {s : State} (h : s.Linked) (hc : s.Conserved) {e : Event} (hquiet : s.Quiet e) :
    (State.step env s e).Linked ∧ (State.step env s e).Conserved := by
  have := hc.handle env h hquiet
  unfold State.step
  cases hr : State.handle env e s with
  | ok a t =>
    rw [hr] at this
    exact this
  | error e t =>
    rw [hr] at this
    exact ⟨this.1.congr rfl rfl, this.2⟩

/-- In every run whose connects, advertises and ready messages meet the condition, no request waits for a
service that has an idle instance. -/
theorem conserved_of_reachable {env : Environment} {s : State}
    (h : ((machine env).restrict Quiet).Reachable s) : s.Conserved := by
  have hinvariant : s.Linked ∧ s.Conserved := by
    apply h.invariant
    · rintro s ⟨hlinked, hrequests, -⟩
      refine ⟨hlinked, ?_⟩
      intro request hrequest
      rw [hrequests] at hrequest
      cases hrequest
    · rintro s e ⟨hlinked, hc⟩ ⟨-, hquiet⟩
      exact hc.step env hlinked hquiet
  exact hinvariant.2

/-! ### Two runs -/

/-- A broker with one server that is configured for some instances, none of them started. -/
def configured (instances : Nat) : State where
  servers := [{ id := 1, name := "server", configuredInstances := instances }]
  instances _ := none
  services _ := none
  executables := []
  singletons := []
  requests := []
  replies := []
  processLookup := []
  timeout := 0
  monitors := []
  forward := nullProcess
  listeners := []
  shutdownMode := false
  self := 0
  sent := []
  readings := 0
  running := true

/-- Nothing is gone or full, and the processes that are started count up. -/
def plain : Environment := ⟨fun _ _ => false, fun _ _ => false, fun n => some (n + 1)⟩

theorem configured_init (instances : Nat) : (machine plain).init (configured instances) :=
  ⟨⟨by simp [configured, hosts, offers], fun _ => .nil, fun _ => .nil⟩, rfl, rfl⟩

/-- A caller of a number looks the service up. -/
def lookupOf (n : Nat) : Event := .lookup ⟨BitVec.ofNat 128 n, "service", ⟨100 + n, 100 + n⟩, .regular⟩

/-- An instance connects and advertises the service. -/
def connectOf (pid : Nat) : Event := .connect ⟨0, ⟨pid, pid⟩, 0, [⟨"service", 0, 0, [], 0⟩]⟩

/-- Lookups of a service while its instances are busy, one of which is then acknowledged. -/
def acknowledged : List Event := [.update "server" 2, connectOf 1, connectOf 2, lookupOf 1, lookupOf 2, lookupOf 3, .ack 1, .ack 2]

/-- All that waited have got an instance, and one is idle. -/
theorem acknowledged_conserved : ∃ s, ((machine plain).restrict Quiet).Reachable s ∧ s.idle 2 = true ∧ s.Conserved := by
  have hreach : ((machine plain).restrict Quiet).Reachable
      (acknowledged.foldl ((machine plain).restrict Quiet).step (configured 2)) := by
    have hinit : ((machine plain).restrict Quiet).init (configured 2) := configured_init 2
    apply Machine.Reachable.foldl (.of_init hinit)
    decide
  exact ⟨_, hreach, by decide, conserved_of_reachable hreach⟩

/-- Two lookups of a service that has one instance, before another instance of it connects. -/
def lateConnect : List Event := [.update "server" 2, connectOf 1, lookupOf 1, lookupOf 2, connectOf 2]

/-- The second lookup still waits when there is an idle instance. -/
theorem lateConnect_not_conserved : ∃ s, (machine plain).Reachable s ∧ s.running = true ∧ ¬ s.Conserved := by
  refine ⟨lateConnect.foldl (machine plain).step (configured 2), ?_, by decide, ?_⟩
  · apply Machine.Reachable.foldl (.of_init (configured_init 2))
    decide
  · intro h
    exact h ⟨2, "service", ⟨102, 102⟩, .regular⟩ (by decide) 2 (by decide) (by decide)

end State

end Casual.Broker

/-
`transaction/resource/proxy.cpp`: the proxies of the resource managers, and the manager together with them. What the
proxies call the resource managers for is what the manager has decided on.
-/
import Casual.Manager.Tellings

namespace Casual.Manager

open Casual.Common Casual.Communication Casual.Lib
open Casual.Common.Transaction (ID XID)

/-! ## Requests that are given out -/

/-- The resource and the pid of each instance. -/
def State.posts (s : State) : List (Nat × Nat) := s.instances.map fun i => (i.id, i.process.pid)

/-- The resource and the process of the instance. -/
def Handed.post (h : Handed) : Nat × Nat := (h.resource, h.pid)

/-- The request and the resource it is for. -/
def Handed.task (h : Handed) : ResourceRequest × Nat := (h.request, h.resource)

/-- Instances of the resources are handed `more`. -/
structure Hires (w w' : World) (more : List Handed) : Prop where
  named : Named w'.state
  posts : w'.state.posts = w.state.posts
  persistent : w'.state.persistentRequests = []
  handed : w'.handed.map Prod.fst = w.handed.map Prod.fst ++ more
  working : w'.working = w.working ++ more
  hired : ∀ h ∈ more, h.post ∈ w.state.posts

theorem Hires.trans {w w' w'' : World} {more more' : List Handed} (h : Hires w w' more) (h' : Hires w' w'' more') :
    Hires w w'' (more ++ more') where
  named := h'.named
  posts := h'.posts.trans h.posts
  persistent := h'.persistent
  handed := by rw [h'.handed, h.handed, List.append_assoc]
  working := by rw [h'.working, h.working, List.append_assoc]
  hired g hg := (List.mem_append.1 hg).elim (h.hired g) fun hg => h.posts ▸ h'.hired g hg

/-- None is handed anything. -/
theorem Hires.same {w w' : World} (hn : Named w.state) (hp : w.state.persistentRequests = [])
    (hresources : w'.state.resources = w.state.resources)
    (hpersistent : w'.state.persistentRequests = w.state.persistentRequests) (hhanded : w'.handed = w.handed)
    (hworking : w'.working = w.working) : Hires w w' [] where
  named := by
    unfold Named
    rw [hresources]
    exact hn
  posts := by
    unfold State.posts State.instances
    rw [hresources]
  persistent := hpersistent.trans hp
  handed := by rw [hhanded, List.append_nil]
  working := by rw [hworking, List.append_nil]
  hired := nofun

/-- What an instance is set to leaves its post. -/
theorem posts_setInstance {s : State} (hn : Named s) (rm : Nat) {pid : Nat} {f : Instance → Instance}
    (hid : ∀ i, (f i).id = i.id) (hpid : ∀ i, i.process.pid = pid → (f i).process.pid = pid) :
    (s.setInstance rm pid f).posts = s.posts := by
  unfold State.posts
  rw [instances_setInstance hn, List.map_map]
  refine List.map_congr_left fun i _ => ?_
  simp only [Function.comp_apply]
  split_ifs with h
  · rw [hid i, hpid i h.2, h.2]
  · rfl

theorem setState_process (i : Instance) (state : InstanceState) : (i.setState state).process = i.process := by
  unfold Instance.setState
  split_ifs <;> rfl

theorem Hires.set {w : World} (hn : Named w.state) (hp : w.state.persistentRequests = []) (rm : Nat) {pid : Nat}
    {f : Instance → Instance} (hid : ∀ i, (f i).id = i.id) (hpid : ∀ i, i.process.pid = pid → (f i).process.pid = pid) :
    Hires w { w with state := w.state.setInstance rm pid f } [] where
  named := hn.setInstance rm pid hid
  posts := posts_setInstance hn rm hid hpid
  persistent := hp
  handed := (List.append_nil _).symm
  working := (List.append_nil _).symm
  hired := nofun

theorem Hires.setState {w : World} (hn : Named w.state) (hp : w.state.persistentRequests = []) (rm pid : Nat)
    (state : InstanceState) : Hires w { w with state := w.state.setInstance rm pid (·.setState state) } [] :=
  .set hn hp rm (fun i => setState_id i state) fun i hi => by rw [setState_process, hi]

/-- An instance is made busy with a request. -/
theorem Hires.employ {w : World} (hn : Named w.state) (hp : w.state.persistentRequests = []) (message : ResourceRequest)
    {i : Instance} (hi : i ∈ w.state.instances) :
    Hires w { w with
      state := w.state.setInstance i.id i.process.pid (·.setState .busy)
      handed := w.handed ++ [(⟨message, i.id, i.process.pid⟩, w.state.log.durable)]
      working := w.working ++ [⟨message, i.id, i.process.pid⟩] } [⟨message, i.id, i.process.pid⟩] where
  named := (Hires.setState hn hp _ _ _).named
  posts := (Hires.setState hn hp _ _ _).posts
  persistent := hp
  handed := by rw [List.map_append]; rfl
  working := rfl
  hired h hh := List.mem_singleton.1 hh ▸ List.mem_map.2 ⟨i, hi, rfl⟩

/-- What is handed out is from what has waited or is `asked` now. -/
structure Gives (w w' : World) (more : List Handed) (asked : List (ResourceRequest × Nat)) : Prop extends Hires w w' more where
  emitted : w'.emitted = w.emitted ++ asked
  owed : (↑(more.map Handed.task) + ↑(waiting w'.state.pendingRequests) : Multiset (ResourceRequest × Nat)) ≤
    ↑(waiting w.state.pendingRequests) + ↑asked

/-- What keeps the manager's instances, and hands out nothing but what is decided on. -/
def Giving (w w' : World) : Prop :=
  Named w.state → w.state.persistentRequests = [] → ∃ more asked, Gives w w' more asked

theorem Gives.trans {w w' w'' : World} {more more' : List Handed} {asked asked' : List (ResourceRequest × Nat)}
    (h : Gives w w' more asked) (h' : Gives w' w'' more' asked') : Gives w w'' (more ++ more') (asked ++ asked') where
  toHires := h.toHires.trans h'.toHires
  emitted := by rw [h'.emitted, h.emitted, List.append_assoc]
  owed := by
    rw [List.map_append, ← Multiset.coe_add, ← Multiset.coe_add]
    calc (↑(more.map Handed.task) + ↑(more'.map Handed.task) + ↑(waiting w''.state.pendingRequests) :
          Multiset (ResourceRequest × Nat))
        = ↑(more.map Handed.task) + (↑(more'.map Handed.task) + ↑(waiting w''.state.pendingRequests)) := add_assoc _ _ _
      _ ≤ ↑(more.map Handed.task) + (↑(waiting w'.state.pendingRequests) + ↑asked') := add_le_add le_rfl h'.owed
      _ = ↑(more.map Handed.task) + ↑(waiting w'.state.pendingRequests) + ↑asked' := (add_assoc _ _ _).symm
      _ ≤ ↑(waiting w.state.pendingRequests) + ↑asked + ↑asked' := add_le_add h.owed le_rfl
      _ = ↑(waiting w.state.pendingRequests) + (↑asked + ↑asked') := add_assoc _ _ _

/-- Requests that are neither decided on nor handed out wait as before. -/
theorem Gives.of_hires {w w' : World} (h : Hires w w' []) (hpending : w'.state.pendingRequests = w.state.pendingRequests)
    (hemitted : w'.emitted = w.emitted) : Gives w w' [] [] where
  toHires := h
  emitted := by rw [hemitted, List.append_nil]
  owed := by
    rw [hpending, List.map_nil]
    exact (add_comm _ _).le

instance : Std.Refl Giving := ⟨fun _ hn hp => ⟨[], [], .of_hires (.same hn hp rfl rfl rfl rfl) rfl rfl⟩⟩

instance : IsTrans World Giving where
  trans _ _ _ h h' hn hp := by
    obtain ⟨more, asked, hgives⟩ := h hn hp
    obtain ⟨more', asked', hgives'⟩ := h' hgives.named hgives.persistent
    exact ⟨_, _, hgives.trans hgives'⟩

theorem giving_calm {α : Type} {x : M α} (h : Moves Calm x) : Moves Giving x :=
  h.mono fun _ _ hc hn hp =>
    ⟨[], [], .of_hires (.same hn hp hc.resources hc.persistent hc.handed hc.working) hc.pending hc.emitted⟩

theorem giving_modifyState {f : State → State} (hresources : ∀ s, (f s).resources = s.resources)
    (hpersistent : ∀ s, (f s).persistentRequests = s.persistentRequests)
    (hpending : ∀ s, (f s).pendingRequests = s.pendingRequests) : Moves Giving (modifyState f) :=
  ⟨fun w hn hp =>
    ⟨[], [], .of_hires (.same hn hp (hresources w.state) (hpersistent w.state) rfl rfl) (hpending w.state) rfl⟩⟩

section

variable (env : Environment)

/-! ## What is given out by the handlers -/

theorem mem_of_idle {s : State} {rm : Nat} {i : Instance} (h : s.idleInstance rm = some (some i)) : i ∈ s.instances := by
  obtain ⟨p, hp, hi⟩ := Option.map_eq_some_iff.1 h
  exact mem_instances.2 ⟨p, List.mem_of_find?_eq_some hp, List.mem_of_find?_eq_some hi⟩

theorem hires_read {w : World} (hn : Named w.state) (hp : w.state.persistentRequests = []) :
    Hires w { w with readings := w.readings + 1 } [] := .same hn hp rfl rfl rfl rfl

/-- A request is handed to idle instances of some of the resources, and is left for others. -/
theorem resourceRequest_hires (message : ResourceRequest) : ∀ (ids : List Nat) (w : World), Named w.state →
    w.state.persistentRequests = [] → ∃ more rest w', Hires w w' more ∧
      w'.state.pendingRequests = w.state.pendingRequests ∧ w'.emitted = w.emitted ∧
      (more.map Handed.task ++ rest.map fun id => (message, id)).Perm (ids.map fun id => (message, id)) ∧
      (resourceRequest env message ids w = .ok rest w' ∨ ∃ e, resourceRequest env message ids w = .error e w')
  | [], w, hn, hp => ⟨[], [], w, .same hn hp rfl rfl rfl rfl, rfl, rfl, .refl _, .inl rfl⟩
  | id :: ids, w, hn, hp => by
    have hget : (get : M World) w = .ok w w := rfl
    have hleft : ∀ w₁ : World, Hires w w₁ [] → w₁.state.pendingRequests = w.state.pendingRequests →
        w₁.emitted = w.emitted → ∃ more rest w', Hires w w' more ∧
          w'.state.pendingRequests = w.state.pendingRequests ∧ w'.emitted = w.emitted ∧
          (more.map Handed.task ++ rest.map fun id => (message, id)).Perm ((id :: ids).map fun id => (message, id)) ∧
          ((do return id :: (← resourceRequest env message ids) : M (List Nat)) w₁ = .ok rest w' ∨
            ∃ e, (do return id :: (← resourceRequest env message ids) : M (List Nat)) w₁ = .error e w') := by
      intro w₁ hh hpending hemitted
      obtain ⟨more, rest, w', hh', hpending', hemitted', hperm, hr⟩ :=
        resourceRequest_hires message ids w₁ hh.named hh.persistent
      refine ⟨more, id :: rest, w', hh.trans hh', hpending'.trans hpending, hemitted'.trans hemitted, ?_, ?_⟩
      · exact List.perm_middle.trans (hperm.cons _)
      · exact hr.imp (fun hr => bind_ok hr) fun ⟨e, hr⟩ => ⟨e, bind_error hr⟩
    unfold resourceRequest
    rw [bind_ok hget]
    cases hidle : w.state.idleInstance id with
    | none => exact ⟨[], id :: ids, w, .same hn hp rfl rfl rfl rfl, rfl, rfl, .refl _, .inr ⟨_, rfl⟩⟩
    | some found =>
      cases found with
      | none => exact hleft w (.same hn hp rfl rfl rfl rfl) rfl rfl
      | some i =>
        have hi := mem_of_idle hidle
        dsimp only
        rcases push_cases env i.process.queue w with hpush | hpush | hpush
        · have hrequest : instanceRequest env message i w = .ok true { w with
              state := w.state.setInstance i.id i.process.pid (·.setState .busy)
              readings := w.readings + 1
              handed := w.handed ++ [(⟨message, i.id, i.process.pid⟩, w.state.log.durable)]
              working := w.working ++ [⟨message, i.id, i.process.pid⟩] } := bind_ok hpush
          have hread := hires_read hn hp
          have hemploy := hread.trans (.employ hread.named hread.persistent message hi)
          obtain ⟨more, rest, w', hh, hpending, hemitted, hperm, hr⟩ :=
            resourceRequest_hires message ids _ hemploy.named hemploy.persistent
          refine ⟨⟨message, i.id, i.process.pid⟩ :: more, rest, w', hemploy.trans hh, hpending, hemitted, ?_, ?_⟩
          · rw [hn.idle hidle]
            exact hperm.cons _
          · rw [bind_ok hrequest]
            exact hr
        · have hrequest : instanceRequest env message i w = .ok false { w with readings := w.readings + 1 } := bind_ok hpush
          rw [bind_ok hrequest]
          exact hleft _ (hires_read hn hp) rfl rfl
        · have hrequest : instanceRequest env message i w = .error .unavailable { w with readings := w.readings + 1 } :=
            bind_error hpush
          rw [bind_error hrequest]
          exact ⟨[], id :: ids, _, hires_read hn hp, rfl, rfl, .refl _, .inr ⟨_, rfl⟩⟩

/-- Of what is decided on, some is handed out, some waits, and some is lost when a queue is gone. -/
theorem giving_sendRequest (phase : Phase) (t : Transaction) (filter : Resource → Bool) (newStage : Stage) (flags : Nat) :
    Moves Giving (sendRequest env phase t filter newStage flags) := by
  constructor
  intro w hn hp
  let message : ResourceRequest := ⟨phase, t.trid, flags⟩
  let resources := (env.partition filter t.resources).1
  let ids := resources.map (·.id)
  let w₁ : World := { w with
    state := w.state.setTransaction { t with
      resources := resources.map (fun r => { r with stage := newStage }) ++ (env.partition filter t.resources).2 }
    emitted := w.emitted ++ ids.map fun id => (message, id) }
  have hrun : sendRequest env phase t filter newStage flags w = (do
      let left ← resourceRequest env message ids
      if !left.isEmpty then
        modifyState fun s => { s with pendingRequests := s.pendingRequests ++ [⟨message, left⟩] } : M Unit) w₁ := rfl
  obtain ⟨more, rest, w', hh, hpending, hemitted, hperm, hr⟩ := resourceRequest_hires env message ids w₁ hn hp
  have hstart : Hires w w' more := (Hires.same hn hp rfl rfl rfl rfl : Hires w w₁ []).trans hh
  have hasked : w'.emitted = w.emitted ++ ids.map fun id => (message, id) := hemitted
  have howed : (↑(more.map Handed.task) + ↑(rest.map fun id => (message, id)) : Multiset (ResourceRequest × Nat)) =
      ↑(ids.map fun id => (message, id)) := by
    rw [Multiset.coe_add, Multiset.coe_eq_coe]
    exact hperm
  have hwaits : w'.state.pendingRequests = w.state.pendingRequests := hpending
  rw [hrun]
  rcases hr with hr | ⟨e, hr⟩
  · rw [bind_ok hr]
    split_ifs with hleft
    · refine ⟨more, _, ⟨⟨hstart.named, hstart.posts, hstart.persistent, hstart.handed, hstart.working, hstart.hired⟩, hasked, ?_⟩⟩
      show (↑(more.map Handed.task) + ↑(waiting (w'.state.pendingRequests ++ [⟨message, rest⟩])) :
        Multiset (ResourceRequest × Nat)) ≤ _
      rw [waiting_append, ← Multiset.coe_add, add_left_comm, hwaits]
      refine add_le_add le_rfl (le_of_eq ?_)
      rw [← howed]
      congr 2
      exact List.append_nil _
    · refine ⟨more, _, ⟨hstart, hasked, ?_⟩⟩
      show (↑(more.map Handed.task) + ↑(waiting w'.state.pendingRequests) : Multiset (ResourceRequest × Nat)) ≤ _
      rw [add_comm, hwaits]
      exact add_le_add le_rfl (howed ▸ Multiset.le_add_right _ _)
  · rw [bind_error hr]
    refine ⟨more, _, ⟨hstart, hasked, ?_⟩⟩
    show (↑(more.map Handed.task) + ↑(waiting w'.state.pendingRequests) : Multiset (ResourceRequest × Nat)) ≤ _
    rw [add_comm, hwaits]
    exact add_le_add le_rfl (howed ▸ Multiset.le_add_right _ _)

/-- An instance that is done may be handed what has waited. -/
theorem giving_done {i : Instance} {w : World} (hi : i ∈ w.state.instances) : Giving w (after (done env i w)) := by
  intro hn hp
  have hget : (get : M World) w = .ok w w := rfl
  let v : World := { w with state := w.state.setInstance i.id i.process.pid (·.setState .idle) }
  have hmodify : modifyState (·.setInstance i.id i.process.pid (·.setState .idle)) w = .ok () v := rfl
  have hset : Hires w v [] := .setState hn hp _ _ _
  unfold done
  rw [bind_ok hget]
  dsimp only
  rw [bind_ok hmodify]
  cases hfind : w.state.pendingRequests.find? fun p => p.resources.contains i.id with
  | none => exact ⟨_, _, .of_hires hset rfl rfl⟩
  | some request =>
    dsimp only
    have hread := hires_read hset.named hset.persistent
    rcases push_cases env i.process.queue v with hpush | hpush | hpush
    · have hmem : ∃ j ∈ v.state.instances, j.id = i.id ∧ j.process.pid = i.process.pid := by
        have hpost : (i.id, i.process.pid) ∈ v.state.posts := hset.posts ▸ List.mem_map.2 ⟨i, hi, rfl⟩
        obtain ⟨j, hj, heq⟩ := List.mem_map.1 hpost
        exact ⟨j, hj, Prod.mk.inj heq⟩
      obtain ⟨j, hj, hid, hpid⟩ := hmem
      have hemploy := (hset.trans hread).trans (.employ hread.named hread.persistent request.message hj)
      rw [hid, hpid] at hemploy
      rw [bind_ok hpush]
      refine ⟨[⟨request.message, i.id, i.process.pid⟩], [], ⟨⟨hemploy.named, hemploy.posts, hemploy.persistent, hemploy.handed,
        hemploy.working, hemploy.hired⟩, (List.append_nil _).symm, ?_⟩⟩
      show (↑([(request.message, i.id)] : List (ResourceRequest × Nat)) +
        ↑(waiting (taken i.id (request.resources.erase i.id) w.state.pendingRequests)) : Multiset (ResourceRequest × Nat)) ≤ _
      rw [Multiset.coe_add, Multiset.coe_nil, add_zero]
      exact (Multiset.coe_eq_coe.2 (waiting_taken hfind)).le
    · rw [bind_ok hpush]
      exact ⟨_, _, .of_hires (hset.trans hread) rfl rfl⟩
    · rw [bind_error hpush]
      exact ⟨_, _, .of_hires (hset.trans hread) rfl rfl⟩

theorem giving_involve (trid : ID) (ids : List Nat) : Moves Giving (involve env trid ids) := by
  unfold involve
  apply Moves.bind (giving_calm (calm_ensure trid))
  intro _
  apply Moves.bind .get
  intro w
  apply Moves.bind (giving_modifyState (by intro _; rfl) (by intro _; rfl) (by intro _; rfl))
  intro _
  exact .pure _

theorem giving_basicPrepare (message : ResourceReply) (t : Transaction) (r : Resource) :
    Moves Giving (basicPrepare env message t r) := by
  unfold basicPrepare
  apply Moves.bind (giving_modifyState (by intro _; rfl) (by intro _; rfl) (by intro _; rfl))
  intro _
  apply Moves.ite _ (.pure _)
  split
  · apply Moves.bind (giving_calm (calm_logRemove _))
    intro _
    exact .bind (giving_calm (calm_sendReply _ _)) fun _ => .pure _
  · apply Moves.bind (giving_calm (calm_logPrepare _))
    intro _
    apply Moves.bind (giving_calm (calm_persistentReply _ _))
    intro _
    exact .bind (giving_sendRequest env _ _ _ _ _) fun _ => .pure _
  · exact .bind (giving_sendRequest env _ _ _ _ _) fun _ => .pure _

theorem giving_basicCommitReply (message : ResourceReply) (t : Transaction) (r : Resource) :
    Moves Giving (basicCommitReply env message t r) := by
  unfold basicCommitReply
  apply Moves.bind (giving_modifyState (by intro _; rfl) (by intro _; rfl) (by intro _; rfl))
  intro _
  apply Moves.ite _ (.pure _)
  split
  · apply Moves.ite
    · exact .bind (giving_calm (calm_sendReply _ _)) fun _ => .bind (giving_calm (calm_logRemove _)) fun _ => .pure _
    · exact .bind (giving_calm (calm_persistentReply _ _)) fun _ => .bind (giving_calm (calm_logRemove _)) fun _ => .pure _
  · exact .bind (giving_calm (calm_persistentReply _ _)) fun _ => .pure _

theorem giving_basicRollbackReply (message : ResourceReply) (t : Transaction) (r : Resource) :
    Moves Giving (basicRollbackReply env message t r) := by
  unfold basicRollbackReply
  apply Moves.bind (giving_modifyState (by intro _; rfl) (by intro _; rfl) (by intro _; rfl))
  intro _
  apply Moves.ite _ (.pure _)
  apply Moves.ite
  · exact .bind (giving_calm (calm_sendReply _ _)) fun _ => .bind (giving_calm (calm_logRemove _)) fun _ => .pure _
  · exact .bind (giving_calm (calm_persistentReply _ _)) fun _ => .pure _

theorem giving_userReplyWrapper {handler : OwnerRequest → M Unit} {error : OwnerRequest → Int → Reply}
    {message : OwnerRequest} (h : Moves Giving (handler message)) : Moves Giving (userReplyWrapper env handler error message) := by
  unfold userReplyWrapper
  apply Moves.tryCatch h
  intro e
  cases e with
  | user code => exact giving_calm (calm_sendReply _ _)
  | _ => exact giving_calm (calm_sendReply _ _)

theorem giving_commit (message : OwnerRequest) : Moves Giving (commit env message) := by
  apply giving_userReplyWrapper
  unfold basicCommit
  apply Moves.bind (giving_involve env _ _)
  intro t
  have herase : Moves Giving (do
      modifyState (·.eraseTransaction message.trid)
      sendReply env (.commit message.trid message.correlation .commit Result.XA_RDONLY.code) message.process) :=
    .bind (giving_calm (calm_eraseTransaction _)) fun _ => giving_calm (calm_sendReply _ _)
  generalize t.resources.length = length
  rcases length with _ | _ | length
  · exact .ite (.bind (.throw _) fun _ => herase) herase
  · exact .ite (.bind (.throw _) fun _ => giving_sendRequest env _ _ _ _ _) (giving_sendRequest env _ _ _ _ _)
  · exact .ite (.bind (.throw _) fun _ => giving_sendRequest env _ _ _ _ _) (giving_sendRequest env _ _ _ _ _)

theorem giving_rollback (message : OwnerRequest) : Moves Giving (rollback env message) := by
  apply giving_userReplyWrapper
  unfold basicRollback
  apply Moves.bind (giving_involve env _ _)
  intro t
  apply Moves.ite
  · apply Moves.bind (giving_calm (calm_eraseTransaction _))
    intro _
    exact giving_calm (calm_sendReply _ _)
  · exact giving_sendRequest env _ _ _ _ _

theorem instance_of_get {s : State} {rm pid : Nat} {i : Instance} (h : s.getInstance rm pid = some i) :
    i ∈ s.instances ∧ i.process.pid = pid := by
  obtain ⟨p, hp, hi⟩ := Option.bind_eq_some_iff.1 h
  exact ⟨mem_instances.2 ⟨p, List.mem_of_find?_eq_some hp, List.mem_of_find?_eq_some hi⟩, by simpa using List.find?_some hi⟩

theorem giving_wrapper {handler : ResourceReply → Transaction → Resource → M Bool} (message : ResourceReply)
    (hhandler : ∀ t r, Moves Giving (handler message t r)) : Moves Giving (wrapper env handler message) := by
  unfold wrapper
  apply Moves.get_bind
  intro w
  cases hinstance : w.state.getInstance message.resource message.process.pid with
  | none => exact Std.Refl.refl w
  | some i =>
    refine Moves.after_bind (giving_done env (instance_of_get hinstance).1) fun _ => ?_
    apply Moves.bind .get
    intro v
    cases ht : v.state.find message.trid with
    | none => exact .pure _
    | some t =>
      cases hr : t.resources.find? fun r => r.id == message.resource with
      | none =>
        simp only [hr]
        exact .pure _
      | some r =>
        simp only [hr]
        exact .bind (hhandler t r) fun _ => .ite (giving_calm (calm_eraseTransaction _)) (.pure _)

theorem giving_connect (message : ConnectReply) : Moves Giving (connect env message) := by
  have hconnected : Moves Giving (do
      let s := (← get).state
      if !s.connected && s.resources.all fun p => p.instances.any Instance.running then
        let _ ← push env env.broker
        modifyState fun s => { s with connected := true } : M Unit) := by
    apply Moves.bind .get
    intro w
    refine .ite (.bind (giving_calm (calm_push _)) fun _ => ?_) (.pure _)
    exact giving_modifyState (by intro _; rfl) (by intro _; rfl) (by intro _; rfl)
  unfold connect
  apply Moves.get_bind
  intro w
  cases hinstance : w.state.getInstance message.resource message.process.pid with
  | none => exact hconnected.after w
  | some i =>
    obtain ⟨hi, hpid⟩ := instance_of_get hinstance
    dsimp only
    split_ifs with hstate
    · -- the instance has the queue of the message from now on
      intro hn hp
      let f : Instance → Instance := fun i => { i with process := message.process }
      have hset : Hires w { w with state := w.state.setInstance i.id i.process.pid f } [] :=
        .set hn hp _ (fun _ => rfl) fun _ _ => hpid.symm
      have hmem : f i ∈ (w.state.setInstance i.id i.process.pid f).instances := by
        rw [instances_setInstance hn]
        exact List.mem_map.2 ⟨i, hi, if_pos ⟨rfl, rfl⟩⟩
      have hafter : Giving w { w with state := w.state.setInstance i.id i.process.pid f } :=
        fun _ _ => ⟨[], [], .of_hires hset rfl rfl⟩
      refine IsTrans.trans _ _ _ hafter (Moves.after_bind (giving_done env hmem) fun _ => hconnected) hn hp
    · refine Moves.after_bind (fun hn hp => ⟨[], [], .of_hires (.setState hn hp _ _ _) rfl rfl⟩) fun _ => hconnected

/-- At the end of a round no request waits that is persistent. -/
theorem giving_write : Moves Giving (write env) := by
  constructor
  intro w hn hp
  have hget : (get : M World) w = .ok w w := rfl
  unfold write
  rw [bind_ok hget, bind_ok hget, hp]
  refine (?_ : Moves Giving _).after w hn hp
  refine Moves.ite ?_ (.pure _)
  apply Moves.bind (giving_modifyState (by intro _; rfl) (by intro _; rfl) (by intro _; rfl))
  intro _
  apply Moves.bind (giving_calm (calm_flushReplies _))
  intro left
  apply Moves.bind (giving_modifyState (by intro _; rfl) (by intro _; rfl) (by intro _; rfl))
  intro _
  apply Moves.bind (.pure _)
  intro _
  exact ⟨fun v hn hp => ⟨[], [], .of_hires (.same hn hp rfl hp.symm rfl rfl) rfl rfl⟩⟩

theorem giving_handle (e : Event) : Moves Giving (handle env e) := by
  cases e with
  | involved message => exact .bind (giving_involve env _ _) fun _ => .pure _
  | commit message => exact giving_commit env message
  | rollback message => exact giving_rollback env message
  | exit pid => exact .bind .get fun v => .forM (fun trid => giving_rollback env _) _
  | connect message => exact giving_connect env message
  | reply phase message =>
    refine giving_wrapper env message fun t r => ?_
    cases phase with
    | prepare => exact giving_basicPrepare env message t r
    | commit => exact giving_basicCommitReply env message t r
    | rollback => exact giving_basicRollbackReply env message t r
  | write => exact giving_write env

/-- A step of the manager gives out nothing but what has been decided on. -/
theorem giving_step (w : World) (e : Event) : Giving (w.answer e) (w.step env e) := by
  have hhandle := (giving_handle env e).after (w.answer e)
  unfold World.step
  cases h : handle env e (w.answer e) with
  | ok _ w' =>
    rw [h] at hhandle
    exact hhandle
  | error _ w' =>
    rw [h] at hhandle
    refine IsTrans.trans _ _ _ hhandle fun hn hp => ⟨[], [], .of_hires (.same hn hp rfl rfl rfl rfl) rfl rfl⟩

end

/-! ## `resource::Proxy` -/

/-- `resource::State`, as far as the handlers use it, and the process. -/
structure ResourceProxy where
  process : Process
  rmId : Nat
  deriving DecidableEq

/-- What an entry of the xa switch was called with, and what it has returned. -/
structure EntryCall where
  phase : Phase
  trid : ID
  rmId : Nat
  flags : Nat
  result : Int
  deriving DecidableEq

/-- What a proxy sends to the manager. -/
inductive Message
  | connect (message : ConnectReply)
  | reply (phase : Phase) (message : ResourceReply)
  deriving DecidableEq

namespace ResourceProxy

/-- `basic_open`: when it fails an exception ends the proxy. -/
def connected (proxy : ResourceProxy) (result : Int) : Message := .connect ⟨proxy.process, proxy.rmId, result⟩

/-- What the `policy` of a handler calls: `xa_prepare_entry`, `xa_commit_entry` or `xa_rollback_entry`. -/
def call (proxy : ResourceProxy) (message : ResourceRequest) (result : Int) : EntryCall :=
  ⟨message.phase, message.trid, proxy.rmId, message.flags, result⟩

/-- `basic_handler`: the reply has the state that the policy returns. -/
def reply (proxy : ResourceProxy) (message : ResourceRequest) (result : Int) : Message :=
  .reply message.phase ⟨proxy.process, message.trid, proxy.rmId, result⟩

end ResourceProxy

/-- What a message is to the manager. -/
def Message.event : Message → Event
  | connect message => .connect message
  | reply phase message => .reply phase message

/-! ## The manager and its proxies -/

/-- The manager with its proxies: which of them have opened their resource and which serve, the requests in their
queues, the messages that are on their way to the manager, and the calls of all resource managers. -/
structure Site where
  world : World
  proxies : List ResourceProxy
  opened : List Nat
  serving : List Nat
  inbox : List Handed
  mail : List Message
  calls : List EntryCall

/-- What happens: others ask the manager, a proxy opens its resource or serves a request, with the result of the
resource manager, or a message arrives. -/
inductive Happening
  | asked (e : Event)
  | opens (pid : Nat) (result : Int)
  | serves (pid : Nat) (result : Int)
  | arrives (message : Message)

/-- What does not come from a proxy. -/
def Event.foreign : Event → Prop
  | .connect _ => False
  | .reply _ _ => False
  | _ => True

/-- What the manager hears of it. -/
def Happening.heard : Happening → Option Event
  | asked e => some e
  | arrives message => some message.event
  | _ => none

namespace Site

/-- The proxy that runs as a process. -/
def proxy (s : Site) (pid : Nat) : Option ResourceProxy := s.proxies.find? fun p => p.process.pid == pid

/-- The manager handles a message, and what it hands out gets to the queues of the proxies. -/
def hear (env : Environment) (e : Event) (s : Site) : Site :=
  { s with
    world := s.world.step env e
    inbox := s.inbox ++ ((s.world.step env e).handed.map Prod.fst).drop s.world.handed.length }

/-- A proxy opens its resource; it serves if it could. -/
def opens (proxy : ResourceProxy) (result : Int) (s : Site) : Site :=
  { s with
    opened := proxy.process.pid :: s.opened
    serving := if result = Result.XA_OK.code then proxy.process.pid :: s.serving else s.serving
    mail := s.mail ++ [proxy.connected result] }

/-- A proxy handles a request. -/
def serves (proxy : ResourceProxy) (h : Handed) (result : Int) (s : Site) : Site :=
  { s with
    inbox := s.inbox.eraseP fun h => h.pid == proxy.process.pid
    mail := s.mail ++ [proxy.reply h.request result]
    calls := s.calls ++ [proxy.call h.request result] }

/-- What happens at the site. -/
def step (env : Environment) (s : Site) : Happening → Site
  | .asked e => s.hear env e
  | .opens pid result => (s.proxy pid).elim s fun proxy => s.opens proxy result
  | .serves pid result =>
    (s.proxy pid).elim s fun proxy => (s.inbox.find? fun h => h.pid == pid).elim s fun h => s.serves proxy h result
  | .arrives message => { s with mail := s.mail.erase message }.hear env message.event

/-- A proxy opens once and serves what it has been sent, and a message arrives that is on its way. -/
def admits (s : Site) : Happening → Prop
  | .asked e => s.world.running = true ∧ e.foreign
  | .opens pid _ => pid ∉ s.opened ∧ (s.proxy pid).isSome
  | .serves pid _ => pid ∈ s.serving ∧ (s.inbox.find? fun h => h.pid == pid).isSome
  | .arrives message => s.world.running = true ∧ message ∈ s.mail

/-- The proxies of the instances that the manager has spawned, each with the queue that it gets. -/
def start (resources : List Proxy) (log : List Row) (queue : Nat → Nat) : Site where
  world := .start resources log
  proxies := resources.flatMap fun p => p.instances.map fun i => ⟨⟨i.process.pid, queue i.process.pid⟩, p.id⟩
  opened := []
  serving := []
  inbox := []
  mail := []
  calls := []

end Site

/-- The runs of a manager with the proxies of its resources. -/
def site (env : Environment) : Machine Site Happening where
  init s := ∃ resources log queue, Started resources log ∧ s = Site.start resources log queue
  admits := Site.admits
  step := Site.step env

/-! ## Requests, calls and answers -/

/-- What a request is for, and who serves it. -/
def Handed.errand (h : Handed) : Phase × ID × Nat × Nat := (h.request.phase, h.request.trid, h.resource, h.pid)

/-- The one that a message answers. -/
def Message.errand : Message → Option (Phase × ID × Nat × Nat)
  | connect _ => none
  | reply phase message => some (phase, message.trid, message.resource, message.process.pid)

/-- The request that an entry point is called for, and its resource. -/
def EntryCall.task (c : EntryCall) : ResourceRequest × Nat := (⟨c.phase, c.trid, c.flags⟩, c.rmId)

/-- What holds of the manager and its proxies: what instances are working on is in a queue of a proxy, or answered
by a message on its way, and what they have been handed is in a queue, or the resource manager has been called. -/
structure Site.Sound (s : Site) : Prop where
  named : Named s.world.state
  persistent : s.world.state.persistentRequests = []
  posts : s.world.state.posts = s.proxies.map fun p => (p.rmId, p.process.pid)
  pids : (s.proxies.map (·.process.pid)).Nodup
  hired : ∀ h ∈ s.inbox, h.post ∈ s.world.state.posts
  working : (↑(s.world.working.map Handed.errand) : Multiset (Phase × ID × Nat × Nat)) =
    ↑(s.inbox.map Handed.errand) + ↑(s.mail.filterMap Message.errand)
  handed : (↑((s.world.handed.map Prod.fst).map Handed.task) : Multiset (ResourceRequest × Nat)) =
    ↑(s.inbox.map Handed.task) + ↑(s.calls.map EntryCall.task)
  owed : (↑((s.world.handed.map Prod.fst).map Handed.task) + ↑(waiting s.world.state.pendingRequests) :
    Multiset (ResourceRequest × Nat)) ≤ ↑s.world.emitted

@[simp] theorem state_answer (w : World) (e : Event) : (w.answer e).state = w.state := by cases e <;> rfl
@[simp] theorem handed_answer (w : World) (e : Event) : (w.answer e).handed = w.handed := by cases e <;> rfl
@[simp] theorem emitted_answer (w : World) (e : Event) : (w.answer e).emitted = w.emitted := by cases e <;> rfl

namespace Site

variable {env : Environment} {s : Site}

/-- What the manager hands out gets to the queues, when what is answered is no longer worked on. -/
theorem Sound.hear {e : Event} {mail : List Message} (h : s.Sound)
    (hworking : (↑((s.world.answer e).working.map Handed.errand) : Multiset (Phase × ID × Nat × Nat)) =
      ↑(s.inbox.map Handed.errand) + ↑(mail.filterMap Message.errand)) :
    ({ s with mail := mail }.hear env e).Sound := by
  obtain ⟨more, asked, hgives⟩ := giving_step env s.world e (by rw [state_answer]; exact h.named)
    (by rw [state_answer]; exact h.persistent)
  have hposts : (s.world.step env e).state.posts = s.world.state.posts := by rw [hgives.posts, state_answer]
  have hmore : (s.world.step env e).handed.map Prod.fst = s.world.handed.map Prod.fst ++ more := by
    rw [hgives.handed, handed_answer]
  have hdrop : ((s.world.step env e).handed.map Prod.fst).drop s.world.handed.length = more := by
    rw [hmore]
    exact List.drop_left' (List.length_map _)
  have howed := hgives.owed
  rw [state_answer] at howed
  have hemitted := hgives.emitted
  rw [emitted_answer] at hemitted
  unfold Site.hear
  rw [hdrop]
  refine ⟨hgives.named, hgives.persistent, hposts.trans h.posts, h.pids, fun g hg => ?_, ?_, ?_, ?_⟩
  · rw [hposts]
    rcases List.mem_append.1 hg with hg | hg
    · exact h.hired g hg
    · have := hgives.hired g hg
      rwa [state_answer] at this
  · show (↑((s.world.step env e).working.map Handed.errand) : Multiset (Phase × ID × Nat × Nat)) = _
    rw [hgives.working, List.map_append, ← Multiset.coe_add, hworking, List.map_append, ← Multiset.coe_add]
    exact add_right_comm _ _ _
  · show (↑(((s.world.step env e).handed.map Prod.fst).map Handed.task) : Multiset (ResourceRequest × Nat)) = _
    rw [hmore, List.map_append, ← Multiset.coe_add, h.handed, List.map_append, ← Multiset.coe_add]
    exact add_right_comm _ _ _
  · show (↑(((s.world.step env e).handed.map Prod.fst).map Handed.task) +
      ↑(waiting (s.world.step env e).state.pendingRequests) : Multiset (ResourceRequest × Nat)) ≤ _
    rw [hmore, List.map_append, ← Multiset.coe_add]
    calc (↑((s.world.handed.map Prod.fst).map Handed.task) + ↑(more.map Handed.task) +
          ↑(waiting (s.world.step env e).state.pendingRequests) : Multiset (ResourceRequest × Nat))
        = ↑((s.world.handed.map Prod.fst).map Handed.task) +
            (↑(more.map Handed.task) + ↑(waiting (s.world.step env e).state.pendingRequests)) := add_assoc _ _ _
      _ ≤ ↑((s.world.handed.map Prod.fst).map Handed.task) + (↑(waiting s.world.state.pendingRequests) + ↑asked) :=
          add_le_add le_rfl howed
      _ = ↑((s.world.handed.map Prod.fst).map Handed.task) + ↑(waiting s.world.state.pendingRequests) + ↑asked :=
          (add_assoc _ _ _).symm
      _ ≤ ↑s.world.emitted + ↑asked := add_le_add h.owed le_rfl
      _ = ↑(s.world.step env e).emitted := by rw [hemitted, Multiset.coe_add]

/-- What comes from others answers nothing. -/
theorem answer_foreign {e : Event} (h : e.foreign) (w : World) : w.answer e = w := by
  cases e with
  | reply phase message => exact h.elim
  | connect message => exact h.elim
  | _ => rfl

/-- A proxy is the one of its resource. -/
theorem Sound.rmId (h : s.Sound) {pid : Nat} {proxy : ResourceProxy} (hproxy : s.proxy pid = some proxy) {g : Handed}
    (hg : g ∈ s.inbox) (hpid : g.pid = pid) : proxy.rmId = g.resource ∧ proxy.process.pid = g.pid := by
  have hmem := List.mem_of_find?_eq_some hproxy
  have hfound : proxy.process.pid = pid := by simpa using List.find?_some hproxy
  have hpost := h.hired g hg
  rw [h.posts] at hpost
  obtain ⟨p, hp, heq⟩ := List.mem_map.1 hpost
  obtain ⟨hrm, hp'⟩ := Prod.mk.inj heq
  have hsame : p = proxy := List.inj_on_of_nodup_map h.pids hp hmem (hp'.trans (hpid.trans hfound.symm))
  exact ⟨hsame ▸ hrm, hfound.trans hpid.symm⟩

/-- A request that is handled is answered, and the resource manager has been called for it. -/
theorem Sound.serves (h : s.Sound) {pid : Nat} {proxy : ResourceProxy} (hproxy : s.proxy pid = some proxy) {g : Handed}
    (hg : s.inbox.find? (fun h => h.pid == pid) = some g) (result : Int) : (s.serves proxy g result).Sound := by
  have hmem := List.mem_of_find?_eq_some hg
  have hgpid : g.pid = pid := by simpa using List.find?_some hg
  obtain ⟨hrm, hpid⟩ := h.rmId hproxy hmem hgpid
  have hperm : (g :: s.inbox.eraseP fun h => h.pid == proxy.process.pid).Perm s.inbox := by
    rw [hpid, hgpid]
    obtain ⟨-, before, after, hsplit, hnone⟩ := List.find?_eq_some_iff_append.1 hg
    rw [hsplit, List.eraseP_append_right _ fun a ha => by simpa using hnone a ha]
    rw [List.eraseP_cons_of_pos (by simpa using hgpid)]
    exact List.perm_middle.symm
  refine ⟨h.named, h.persistent, h.posts, h.pids, fun g' hg' => h.hired g' (List.mem_of_mem_eraseP hg'), ?_, ?_, h.owed⟩
  · show (↑(s.world.working.map Handed.errand) : Multiset (Phase × ID × Nat × Nat)) = _
    rw [h.working, ← Multiset.coe_eq_coe.2 (hperm.map Handed.errand)]
    unfold Site.serves
    rw [List.filterMap_append, ← Multiset.coe_add, List.map_cons, ← Multiset.cons_coe]
    have herrand : [proxy.reply g.request result].filterMap Message.errand = [g.errand] := by
      unfold ResourceProxy.reply Handed.errand
      rw [← hrm, ← hpid]
      rfl
    rw [herrand, Multiset.coe_singleton, Multiset.cons_add, ← add_assoc]
    exact (Multiset.singleton_add _ _).symm.trans (add_comm _ _)
  · show (↑((s.world.handed.map Prod.fst).map Handed.task) : Multiset (ResourceRequest × Nat)) = _
    rw [h.handed, ← Multiset.coe_eq_coe.2 (hperm.map Handed.task)]
    unfold Site.serves
    have htask : (proxy.call g.request result).task = g.task := by
      unfold ResourceProxy.call EntryCall.task Handed.task
      rw [hrm]
    rw [List.map_append, ← Multiset.coe_add, List.map_cons, ← Multiset.cons_coe, List.map_singleton, htask,
      Multiset.coe_singleton, Multiset.cons_add, ← add_assoc]
    exact (Multiset.singleton_add _ _).symm.trans (add_comm _ _)

theorem answeredBy_iff {phase : Phase} {m : ResourceReply} {h : Handed} :
    h.answeredBy phase m = true ↔ some h.errand = (Message.reply phase m).errand := by
  unfold Handed.answeredBy Handed.errand Message.errand
  rw [decide_eq_true_iff, Option.some.injEq, Prod.mk.injEq, Prod.mk.injEq, Prod.mk.injEq]

/-- A message that arrives is one of those on their way. -/
theorem mail_erase {message : Message} (h : message ∈ s.mail) :
    (message :: s.mail.erase message).Perm s.mail := (List.perm_cons_erase h).symm

/-- A reply answers what an instance is working on. -/
theorem Sound.answered (h : s.Sound) {phase : Phase} {m : ResourceReply} (hmem : .reply phase m ∈ s.mail) :
    (∃ g ∈ s.world.working, g.answeredBy phase m = true) ∧
      (↑((s.world.answer (.reply phase m)).working.map Handed.errand) : Multiset (Phase × ID × Nat × Nat)) =
        ↑(s.inbox.map Handed.errand) + ↑((s.mail.erase (.reply phase m)).filterMap Message.errand) := by
  have hmail : (↑(s.mail.filterMap Message.errand) : Multiset (Phase × ID × Nat × Nat)) =
      (phase, m.trid, m.resource, m.process.pid) ::ₘ ↑((s.mail.erase (.reply phase m)).filterMap Message.errand) := by
    rw [Multiset.cons_coe, Multiset.coe_eq_coe]
    exact ((mail_erase hmem).filterMap Message.errand).symm
  have hworking := h.working
  rw [hmail] at hworking
  have hin : (phase, m.trid, m.resource, m.process.pid) ∈ s.world.working.map Handed.errand := by
    rw [← Multiset.mem_coe, hworking]
    exact Multiset.mem_add.2 (.inr (Multiset.mem_cons_self _ _))
  obtain ⟨g, hg, hgerrand⟩ := List.mem_map.1 hin
  have hanswers : g.answeredBy phase m = true := answeredBy_iff.2 (congrArg some hgerrand)
  refine ⟨⟨g, hg, hanswers⟩, ?_⟩
  obtain ⟨g', before, later, -, hg', hsplit, herase⟩ := List.exists_of_eraseP hg hanswers
  have herrand : g'.errand = (phase, m.trid, m.resource, m.process.pid) := Option.some.inj (answeredBy_iff.1 hg')
  show (↑((s.world.working.eraseP (Handed.answeredBy phase m)).map Handed.errand) : Multiset (Phase × ID × Nat × Nat)) = _
  rw [herase]
  refine (Multiset.cons_inj_right g'.errand).1 ?_
  rw [Multiset.cons_coe, ← List.map_cons, Multiset.coe_eq_coe.2 (List.perm_middle.symm.map Handed.errand), ← hsplit,
    hworking, herrand, Multiset.add_cons]

/-- What is there besides is kept by every step. -/
theorem Sound.step (h : s.Sound) {e : Happening} (he : s.admits e) : (s.step env e).Sound := by
  cases e with
  | asked e =>
    have hworking : (↑((s.world.answer e).working.map Handed.errand) : Multiset (Phase × ID × Nat × Nat)) =
        ↑(s.inbox.map Handed.errand) + ↑(s.mail.filterMap Message.errand) := by
      rw [answer_foreign he.2]
      exact h.working
    exact h.hear hworking
  | opens pid result =>
    obtain ⟨proxy, hproxy⟩ := Option.isSome_iff_exists.1 he.2
    show ((s.proxy pid).elim s fun proxy => s.opens proxy result).Sound
    rw [hproxy]
    refine ⟨h.named, h.persistent, h.posts, h.pids, h.hired, ?_, h.handed, h.owed⟩
    show (↑(s.world.working.map Handed.errand) : Multiset (Phase × ID × Nat × Nat)) =
      ↑(s.inbox.map Handed.errand) + ↑((s.mail ++ [proxy.connected result]).filterMap Message.errand)
    rw [List.filterMap_append, show [proxy.connected result].filterMap Message.errand = [] from rfl, List.append_nil]
    exact h.working
  | serves pid result =>
    obtain ⟨g, hg⟩ := Option.isSome_iff_exists.1 he.2
    show ((s.proxy pid).elim s fun proxy => (s.inbox.find? fun h => h.pid == pid).elim s fun h =>
      s.serves proxy h result).Sound
    cases hproxy : s.proxy pid with
    | none => exact h
    | some proxy =>
      rw [hg]
      exact h.serves hproxy hg result
  | arrives message =>
    cases message with
    | connect m =>
      refine h.hear ?_
      show (↑(s.world.working.map Handed.errand) : Multiset (Phase × ID × Nat × Nat)) = _
      rw [h.working, Multiset.coe_eq_coe.2 ((mail_erase he.2).filterMap Message.errand).symm]
      rfl
    | reply phase m => exact h.hear (h.answered he.2).2

/-- Together with its proxies the manager does what it does alone, with replies that answer what it has asked. -/
theorem site_follows (env : Environment) : (site env).Follows (manager env) Sound Site.world Happening.heard where
  keeps h he := h.step he
  seen := by
    rintro s e d h he hd
    cases e with
    | asked e =>
      obtain rfl := Option.some.inj hd
      refine ⟨⟨he.1, ?_⟩, rfl⟩
      cases e with
      | reply phase m => exact he.2.elim
      | _ => trivial
    | opens pid result => cases hd
    | serves pid result => cases hd
    | arrives message =>
      obtain rfl := Option.some.inj hd
      cases message with
      | connect m => exact ⟨⟨he.1, trivial⟩, rfl⟩
      | reply phase m => exact ⟨⟨he.1, (h.answered he.2).1⟩, rfl⟩
  unseen := by
    rintro s e h he hnone
    cases e with
    | asked e => cases hnone
    | arrives message => cases hnone
    | opens pid result =>
      show ((s.proxy pid).elim s fun proxy => s.opens proxy result).world = s.world
      cases s.proxy pid <;> rfl
    | serves pid result =>
      show ((s.proxy pid).elim s fun proxy => (s.inbox.find? fun h => h.pid == pid).elim s fun h =>
        s.serves proxy h result).world = s.world
      cases s.proxy pid with
      | none => rfl
      | some proxy => cases s.inbox.find? fun h => h.pid == pid <;> rfl

theorem sound_start {resources : List Proxy} {log : List Row} (h : Started resources log) (queue : Nat → Nat) :
    (Site.start resources log queue).Sound := by
  have hposts : (Site.start resources log queue).world.state.posts =
      (Site.start resources log queue).proxies.map fun p => (p.rmId, p.process.pid) := by
    show (resources.flatMap (·.instances)).map (fun i => (i.id, i.process.pid)) = (resources.flatMap fun p =>
      p.instances.map fun i => (⟨⟨i.process.pid, queue i.process.pid⟩, p.id⟩ : ResourceProxy)).map _
    rw [List.map_flatMap, List.map_flatMap]
    refine List.flatMap_congr fun p hp => ?_
    rw [List.map_map]
    exact List.map_congr_left fun i hi => by rw [(h.instances p hp i hi).1]; rfl
  refine ⟨fun p hp i hi => (h.instances p hp i hi).1, rfl, hposts, ?_, nofun, rfl, rfl, le_rfl⟩
  have hpids : ((Site.start resources log queue).proxies.map (·.process.pid)) =
      (resources.flatMap (·.instances)).map (·.process.pid) := by
    show (resources.flatMap fun p => p.instances.map fun i =>
      (⟨⟨i.process.pid, queue i.process.pid⟩, p.id⟩ : ResourceProxy)).map (·.process.pid) = _
    rw [List.map_flatMap, List.map_flatMap]
    refine List.flatMap_congr fun p _ => ?_
    rw [List.map_map]
    rfl
  rw [hpids]
  exact h.pids

end Site

/-- In every order in which the proxies open their resources, serve and answer, whatever else the manager is asked
meanwhile, a run of the manager with its proxies is a run of the manager. -/
theorem site_is_manager {env : Environment} {resources : List Proxy} {log : List Row} {queue : Nat → Nat}
    (h : Started resources log) {es : List Happening} {s : Site} (hrun : (site env).Run (Site.start resources log queue) es s) :
    s.Sound ∧ (manager env).Run (World.start resources log) (es.filterMap Happening.heard) s.world :=
  (Site.site_follows env).run hrun (Site.sound_start h queue)

/-! ## Commits and votes of the resource managers -/

/-- The resource manager is called to commit what it has prepared. -/
def EntryCall.commits (x : XID) (id : Nat) (c : EntryCall) : Prop :=
  c.phase = .commit ∧ c.flags = TMNOFLAGS ∧ c.trid.xid = x ∧ c.rmId = id

/-- The resource manager prepares, and says so. -/
def EntryCall.prepares (x : XID) (id : Nat) (c : EntryCall) : Prop :=
  c.phase = .prepare ∧ c.trid.xid = x ∧ c.rmId = id ∧ c.result = Result.XA_OK.code

/-- A message that tells the manager so. -/
def Message.votes (x : XID) (id : Nat) : Message → Prop
  | reply .prepare m => m.trid.xid = x ∧ m.resource = id ∧ m.state = Result.XA_OK.code
  | _ => False

instance (x : XID) (id : Nat) : DecidablePred (EntryCall.commits x id) := fun _ => inferInstanceAs (Decidable (_ ∧ _))
instance (x : XID) (id : Nat) : DecidablePred (EntryCall.prepares x id) := fun _ => inferInstanceAs (Decidable (_ ∧ _))
instance (x : XID) (id : Nat) : DecidablePred (Message.votes x id)
  | .reply .prepare _ => inferInstanceAs (Decidable (_ ∧ _))
  | .reply .commit _ | .reply .rollback _ | .connect _ => inferInstanceAs (Decidable False)

theorem convert_eq_ok {state : Int} : Result.convert state = .XA_OK ↔ state = Result.XA_OK.code := by
  constructor
  · intro h
    unfold Result.convert at h
    split at h <;> first | rfl | cases h
  · rintro rfl
    exact Result.convert_code _

section

variable {env : Environment} {s : Site} {x : XID} {id : Nat}

theorem vote_of_message (message : Message) :
    (Event.vote x message.event).count (id, .XA_OK) = if message.votes x id then 1 else 0 := by
  cases message with
  | connect m => rfl
  | reply phase m =>
    cases phase with
    | prepare =>
      show (if m.trid.xid = x then {(m.resource, Result.convert m.state)} else (0 : Multiset (Nat × Result))).count _ =
        if m.trid.xid = x ∧ m.resource = id ∧ m.state = Result.XA_OK.code then 1 else 0
      split_ifs with hx hvotes hvotes
      · rw [Multiset.count_singleton, if_pos]
        rw [hvotes.2.1, convert_eq_ok.2 hvotes.2.2]
      · rw [Multiset.count_singleton, if_neg]
        intro heq
        obtain ⟨hid, hresult⟩ := Prod.mk.inj heq
        exact hvotes ⟨hx, hid.symm, convert_eq_ok.1 hresult.symm⟩
      · exact absurd hvotes.1 hx
      · rfl
    | commit => rfl
    | rollback => rfl

theorem vote_foreign {e : Event} (h : e.foreign) : Event.vote x e = 0 := by
  cases e with
  | reply phase m => exact h.elim
  | _ => rfl

/-- Each vote of a resource manager is on its way or has been heard. -/
theorem voted_step {es : List Happening} {e : Happening} (he : s.admits e)
    (h : (votesOf x (es.filterMap Happening.heard)).count (id, .XA_OK) + s.mail.countP (Message.votes x id) =
      s.calls.countP (EntryCall.prepares x id)) :
    (votesOf x ((es ++ [e]).filterMap Happening.heard)).count (id, .XA_OK) +
      (s.step env e).mail.countP (Message.votes x id) = (s.step env e).calls.countP (EntryCall.prepares x id) := by
  have happend : ∀ es' : List Event, (votesOf x (es.filterMap Happening.heard ++ es')).count (id, .XA_OK) =
      (votesOf x (es.filterMap Happening.heard)).count (id, .XA_OK) + (votesOf x es').count (id, .XA_OK) := by
    intro es'
    unfold votesOf
    rw [List.map_append, List.sum_append, Multiset.count_add]
  have hone : ∀ e' : Event, votesOf x [e'] = e'.vote x := fun e' => by
    unfold votesOf
    rw [List.map_singleton, List.sum_singleton]
  rw [List.filterMap_append, happend]
  cases e with
  | asked e =>
    show _ + (votesOf x [e]).count (id, .XA_OK) + s.mail.countP (Message.votes x id) = s.calls.countP (EntryCall.prepares x id)
    rw [hone, vote_foreign he.2, Multiset.count_zero, add_zero]
    exact h
  | opens pid result =>
    show _ + 0 + ((s.proxy pid).elim s fun proxy => s.opens proxy result).mail.countP (Message.votes x id) =
      ((s.proxy pid).elim s fun proxy => s.opens proxy result).calls.countP (EntryCall.prepares x id)
    rw [add_zero]
    cases s.proxy pid with
    | none => exact h
    | some proxy =>
      show _ + (s.mail ++ [proxy.connected result]).countP (Message.votes x id) = s.calls.countP (EntryCall.prepares x id)
      rw [List.countP_append, ← h]
      rfl
  | serves pid result =>
    show _ + 0 + ((s.proxy pid).elim s fun proxy => (s.inbox.find? fun h => h.pid == pid).elim s fun h =>
        s.serves proxy h result).mail.countP (Message.votes x id) =
      ((s.proxy pid).elim s fun proxy => (s.inbox.find? fun h => h.pid == pid).elim s fun h =>
        s.serves proxy h result).calls.countP (EntryCall.prepares x id)
    rw [add_zero]
    cases s.proxy pid with
    | none => exact h
    | some proxy =>
      cases s.inbox.find? fun h => h.pid == pid with
      | none => exact h
      | some g =>
        show _ + (s.mail ++ [proxy.reply g.request result]).countP (Message.votes x id) =
          (s.calls ++ [proxy.call g.request result]).countP (EntryCall.prepares x id)
        have hsame : (proxy.reply g.request result).votes x id ↔ (proxy.call g.request result).prepares x id := by
          unfold ResourceProxy.reply ResourceProxy.call EntryCall.prepares
          cases g.request.phase with
          | prepare => exact (and_iff_right rfl).symm
          | commit => exact iff_of_false (fun h => h) fun h => by cases h.1
          | rollback => exact iff_of_false (fun h => h) fun h => by cases h.1
        rw [List.countP_append, List.countP_append, ← h, add_assoc, List.countP_singleton, List.countP_singleton]
        simp only [hsame]
  | arrives message =>
    show _ + (votesOf x [message.event]).count (id, .XA_OK) + (s.mail.erase message).countP (Message.votes x id) =
      s.calls.countP (EntryCall.prepares x id)
    rw [hone, vote_of_message, ← h, ← (Site.mail_erase he.2).countP_eq, List.countP_cons]
    simp only [decide_eq_true_eq]
    omega

theorem voted_run {resources : List Proxy} {log : List Row} {queue : Nat → Nat} {es : List Happening}
    (hrun : (site env).Run (Site.start resources log queue) es s) :
    (votesOf x (es.filterMap Happening.heard)).count (id, .XA_OK) + s.mail.countP (Message.votes x id) =
      s.calls.countP (EntryCall.prepares x id) := by
  induction hrun with
  | nil => rfl
  | snoc _ he ih => exact voted_step he ih

/-- What the resource managers are called to commit the manager has decided on. -/
theorem commits_le_tellings (h : s.Sound) :
    s.calls.countP (EntryCall.commits x id) ≤ (s.world.lives x).tellings id := by
  let p : ResourceRequest × Nat → Bool := fun t =>
    decide (t.1.phase = .commit ∧ t.1.flags = TMNOFLAGS ∧ t.1.trid.xid = x ∧ t.2 = id)
  have hle : (↑(s.calls.map EntryCall.task) : Multiset (ResourceRequest × Nat)) ≤ ↑s.world.emitted :=
    calc (↑(s.calls.map EntryCall.task) : Multiset (ResourceRequest × Nat))
        ≤ ↑(s.inbox.map Handed.task) + ↑(s.calls.map EntryCall.task) := Multiset.le_add_left _ _
      _ = ↑((s.world.handed.map Prod.fst).map Handed.task) := h.handed.symm
      _ ≤ ↑((s.world.handed.map Prod.fst).map Handed.task) + ↑(waiting s.world.state.pendingRequests) := Multiset.le_add_right _ _
      _ ≤ ↑s.world.emitted := h.owed
  have hcalls : s.calls.countP (EntryCall.commits x id) = (s.calls.map EntryCall.task).countP p := by
    rw [List.countP_map]
    rfl
  have htellings : (s.world.lives x).tellings id = s.world.emitted.countP p := by
    unfold Life.tellings World.lives
    dsimp only
    rw [Multiset.coe_count, List.count, List.countP_map, List.countP_filter]
    refine List.countP_congr fun e _ => ?_
    simp [p, and_comm, and_assoc, and_left_comm]
  rw [hcalls, htellings]
  exact List.Subperm.countP_le p (Multiset.coe_le.1 hle)

end

/-- In every run of the manager with its proxies, whatever is asked meanwhile, whichever queues are full or gone and
whatever the resource managers return, `xa_commit_entry` of a resource manager is not called for a transaction with
two phases more often than its `xa_prepare_entry` has returned `XA_OK` for it. -/
theorem committed_as_prepared {env : Environment} {resources : List Proxy} {log : List Row} {queue : Nat → Nat}
    (h : Started resources log) {es : List Happening} {s : Site} (hrun : (site env).Run (Site.start resources log queue) es s)
    (x : XID) (id : Nat) : s.calls.countP (EntryCall.commits x id) ≤ s.calls.countP (EntryCall.prepares x id) := by
  obtain ⟨hsound, hmanager⟩ := (Site.site_follows env).run hrun (Site.sound_start h queue)
  have hvoted := @voted_run env s x id _ _ _ _ hrun
  have htold := (told_run h hmanager x id).1
  have hcommits := @commits_le_tellings s x id hsound
  omega

/-! ### A site that runs -/

instance : DecidablePred Event.foreign
  | .connect _ | .reply _ _ => inferInstanceAs (Decidable False)
  | .involved _ | .commit _ | .rollback _ | .exit _ | .write => inferInstanceAs (Decidable True)

instance (env : Environment) : ∀ s e, Decidable ((site env).admits s e)
  | _, .asked _ | _, .opens _ _ | _, .serves _ _ | _, .arrives _ => inferInstanceAs (Decidable (_ ∧ _))

/-- Two proxies, each with the queue ten above its pid. -/
def twoServers : Site := Site.start twoProxies [] (· + 10)

/-- The proxies open their resources, and a transaction of both is prepared and committed. -/
def prepares : List Happening :=
  [.opens 11 0, .opens 12 0, .arrives (.connect ⟨⟨12, 22⟩, 2, 0⟩), .arrives (.connect ⟨⟨11, 21⟩, 1, 0⟩),
    .asked (.commit ⟨7, someOwner, someID, [1, 2]⟩), .serves 12 0, .serves 11 0,
    .arrives (.reply .prepare ⟨⟨11, 21⟩, someID, 1, 0⟩), .arrives (.reply .prepare ⟨⟨12, 22⟩, someID, 2, 0⟩),
    .asked .write, .serves 11 0, .serves 12 0]

/-- What has become of them. -/
def afterPrepares : Site := prepares.foldl (site neverFull).step twoServers

theorem prepares_run : (site neverFull).Run twoServers prepares afterPrepares := by
  have hadmits : (site neverFull).AdmitsAll twoServers prepares := by decide +kernel
  have h := Machine.Run.foldl (.nil _) hadmits
  rw [List.nil_append] at h
  exact h

example : afterPrepares.calls.map (fun c => (c.phase, c.rmId)) =
    [(.prepare, 2), (.prepare, 1), (.commit, 1), (.commit, 2)] := by decide +kernel

theorem twoServers_is_manager : afterPrepares.Sound ∧ (manager neverFull).Run (World.start twoProxies [])
    (prepares.filterMap Happening.heard) afterPrepares.world :=
  site_is_manager twoProxies_started prepares_run

theorem twoServers_committed : afterPrepares.calls.countP (EntryCall.commits someID.xid 1) ≤
    afterPrepares.calls.countP (EntryCall.prepares someID.xid 1) :=
  committed_as_prepared twoProxies_started prepares_run someID.xid 1

end Casual.Manager

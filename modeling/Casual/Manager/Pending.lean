/-
The requests for resources: each is handed to one instance or waits, an instance is busy while it has one
to answer, and no instance is idle while one waits for its resource.
-/
import Casual.Manager.ReplyOrder

namespace Casual.Manager

open Casual.Common Casual.Communication Casual.Lib
open Casual.Common.Transaction (ID XID)

/-! ## Instances -/

/-- Every instance of every resource. -/
def State.instances (s : State) : List Instance := s.resources.flatMap (·.instances)

/-- What waits, for each resource it waits for. -/
def waiting (ps : List PendingRequest) : List (ResourceRequest × Nat) :=
  ps.flatMap fun p => p.resources.map fun id => (p.message, id)

/-- What holds of the requests for resources. -/
structure Attended (w : World) : Prop where
  /-- A request that was decided on for a resource has been handed out once, or waits. -/
  accounted : w.emitted.Perm (w.handed.map (fun h => (h.1.request, h.1.resource)) ++ waiting w.state.pendingRequests)
  /-- It is handed to an instance of its resource. -/
  handed : ∀ h ∈ w.handed, ∃ i ∈ w.state.instances, i.id = h.1.resource ∧ i.process.pid = h.1.pid
  /-- An instance is busy as long as there is a request it has not answered. -/
  busy : ∀ i ∈ w.state.instances, i.state = .busy ↔ ∃ h ∈ w.working, h.resource = i.id ∧ h.pid = i.process.pid
  /-- And there is one such request at most. -/
  one : (w.working.map (·.pid)).Nodup
  /-- No instance is idle while a request waits for its resource. -/
  idle : ∀ i ∈ w.state.instances, i.state = .idle → ∀ p ∈ w.state.pendingRequests, i.id ∉ p.resources

/-- The queues of instances have room when something is pushed to them, and an instance that works on a request
does not connect. -/
structure Accepts (env : Environment) (w : World) (e : Event) : Prop where
  push : ∀ i ∈ w.state.instances, i.running = true → ∀ n ≥ w.readings, env.push n i.process.queue = .accepted
  connect : ∀ m, e = .connect m →
    (∀ n ≥ w.readings, env.push n m.process.queue = .accepted) ∧ ∀ h ∈ w.working, h.pid ≠ m.process.pid

/-- What every step keeps of the resources with the given ids and their instances, while one instance is `out`, of
which it is left open what it does. -/
structure Crewed (env : Environment) (ids : List Nat) (out : Option Nat) (w : World) : Prop where
  named : Named w.state
  resources : w.state.resources.map (·.id) = ids
  distinct : ids.Nodup
  pids : (w.state.instances.map (·.process.pid)).Nodup
  up : ∀ i ∈ w.state.instances, i.state ≠ .shutdown
  accepts : ∀ i ∈ w.state.instances, i.running = true → ∀ n ≥ w.readings, env.push n i.process.queue = .accepted
  busy : ∀ i ∈ w.state.instances, some i.process.pid ≠ out → (i.state = .busy ↔ ∃ h ∈ w.working, h.pid = i.process.pid)
  working : ∀ h ∈ w.working, some h.pid ≠ out ∧ ∃ i ∈ w.state.instances, i.id = h.resource ∧ i.process.pid = h.pid
  one : (w.working.map (·.pid)).Nodup
  handed : ∀ h ∈ w.handed, ∃ i ∈ w.state.instances, i.id = h.1.resource ∧ i.process.pid = h.1.pid
  persistent : w.state.persistentRequests = []
  known : ∀ t ∈ w.state.transactions, ∀ r ∈ t.resources, r.id ∈ ids

theorem mem_instances {s : State} {i : Instance} : i ∈ s.instances ↔ ∃ p ∈ s.resources, i ∈ p.instances :=
  List.mem_flatMap

/-- What is done to an instance is done to the one with the id and the pid. -/
theorem instances_setInstance {s : State} (hn : Named s) (rm pid : Nat) (f : Instance → Instance) :
    (s.setInstance rm pid f).instances = s.instances.map fun i => if i.id = rm ∧ i.process.pid = pid then f i else i := by
  unfold State.instances State.setInstance
  rw [List.flatMap_map, List.map_flatMap]
  refine List.flatMap_congr fun p hp => ?_
  by_cases hrm : p.id = rm
  · rw [if_pos hrm]
    refine List.map_congr_left fun i hi => ?_
    simp only [hn p hp i hi, hrm, true_and]
  · rw [if_neg hrm]
    refine (List.map_id _).symm.trans (List.map_congr_left fun i hi => ?_)
    rw [if_neg fun h => hrm ((hn p hp i hi).symm.trans h.1)]
    rfl

theorem resources_setInstance (s : State) (rm pid : Nat) (f : Instance → Instance) :
    (s.setInstance rm pid f).resources.map (·.id) = s.resources.map (·.id) := by
  unfold State.setInstance
  rw [List.map_map]
  refine List.map_congr_left fun p _ => ?_
  simp only [Function.comp_apply]
  split_ifs <;> rfl

/-- The instances of a resource. -/
theorem instances_of_find {s : State} (hn : Named s) (hids : (s.resources.map (·.id)).Nodup) {rm : Nat} {p : Proxy}
    (hp : s.resources.find? (fun p => p.id == rm) = some p) {i : Instance} :
    i ∈ p.instances ↔ i ∈ s.instances ∧ i.id = rm := by
  have hmem := List.mem_of_find?_eq_some hp
  have hrm : p.id = rm := by simpa using List.find?_some hp
  constructor
  · intro hi
    exact ⟨mem_instances.2 ⟨p, hmem, hi⟩, (hn p hmem i hi).trans hrm⟩
  · rintro ⟨hi, hid⟩
    obtain ⟨q, hq, hiq⟩ := mem_instances.1 hi
    have hqp : q.id = p.id := (hn q hq i hiq).symm.trans (hid.trans hrm.symm)
    exact List.inj_on_of_nodup_map hids hq hmem hqp ▸ hiq

theorem eq_of_pid {s : State} (hpids : (s.instances.map (·.process.pid)).Nodup) {i j : Instance} (hi : i ∈ s.instances)
    (hj : j ∈ s.instances) (h : i.process.pid = j.process.pid) : i = j :=
  List.inj_on_of_nodup_map hpids hi hj h

/-- The instances, when one has changed. -/
theorem mem_setInstance {s : State} (hn : Named s) (hpids : (s.instances.map (·.process.pid)).Nodup) {i j : Instance}
    (hi : i ∈ s.instances) {f : Instance → Instance} :
    j ∈ (s.setInstance i.id i.process.pid f).instances ↔ j = f i ∨ j ∈ s.instances ∧ j ≠ i := by
  have hother : ∀ k ∈ s.instances, k ≠ i → ¬ (k.id = i.id ∧ k.process.pid = i.process.pid) :=
    fun k hk hne hki => hne (eq_of_pid hpids hk hi hki.2)
  rw [instances_setInstance hn, List.mem_map]
  constructor
  · rintro ⟨k, hk, rfl⟩
    by_cases hki : k = i
    · subst hki
      rw [if_pos ⟨rfl, rfl⟩]
      exact .inl rfl
    · rw [if_neg (hother k hk hki)]
      exact .inr ⟨hk, hki⟩
  · rintro (rfl | ⟨hj, hne⟩)
    · exact ⟨i, hi, if_pos ⟨rfl, rfl⟩⟩
    · exact ⟨j, hj, if_neg (hother j hj hne)⟩

namespace Crewed

variable {env : Environment} {ids : List Nat} {out : Option Nat} {w w' : World} {i : Instance}

/-- An instance that is asked about is one that is there. -/
theorem of_getInstance (h : Crewed env ids out w) {rm pid : Nat} (hi : w.state.getInstance rm pid = some i) :
    i ∈ w.state.instances ∧ i.id = rm ∧ i.process.pid = pid := by
  unfold State.getInstance at hi
  obtain ⟨p, hp, hpi⟩ := Option.bind_eq_some_iff.1 hi
  obtain ⟨hmem, hid⟩ := (instances_of_find h.named (h.resources.symm ▸ h.distinct) hp).1 (List.mem_of_find?_eq_some hpi)
  exact ⟨hmem, hid, by simpa using List.find?_some hpi⟩

/-- An instance that works is not out. -/
theorem unemployed (h : Crewed env ids out w) {pid : Nat} (hout : out = some pid) : ∀ g ∈ w.working, g.pid ≠ pid := by
  rintro g hg rfl
  exact (h.working g hg).1 hout.symm

/-- An instance that does not work may go out. -/
theorem take (h : Crewed env ids none w) {pid : Nat} (hpid : ∀ g ∈ w.working, g.pid ≠ pid) : Crewed env ids (some pid) w where
  named := h.named
  resources := h.resources
  distinct := h.distinct
  pids := h.pids
  up := h.up
  accepts := h.accepts
  busy i hi _ := h.busy i hi nofun
  working g hg := ⟨fun he => hpid g hg (Option.some.inj he), (h.working g hg).2⟩
  one := h.one
  handed := h.handed
  persistent := h.persistent
  known := h.known

/-- It comes back when it is not busy. -/
theorem put {pid : Nat} (h : Crewed env ids (some pid) w) (hi : i ∈ w.state.instances) (hpid : i.process.pid = pid)
    (hidle : i.state ≠ .busy) : Crewed env ids none w where
  named := h.named
  resources := h.resources
  distinct := h.distinct
  pids := h.pids
  up := h.up
  accepts := h.accepts
  busy j hj _ := by
    by_cases hij : j.process.pid = pid
    · obtain rfl := eq_of_pid h.pids hj hi (hij.trans hpid.symm)
      exact iff_of_false hidle fun ⟨g, hg, hgpid⟩ => h.unemployed rfl g hg (hgpid.trans hpid)
    · exact h.busy j hj fun he => hij (Option.some.inj he)
  working g hg := ⟨nofun, (h.working g hg).2⟩
  one := h.one
  handed := h.handed
  persistent := h.persistent
  known := h.known

/-- What an instance that is out does. -/
theorem set (h : Crewed env ids (some i.process.pid) w) (hi : i ∈ w.state.instances) {f : Instance → Instance}
    (hid : (f i).id = i.id) (hpid : (f i).process.pid = i.process.pid) (hup : (f i).state ≠ .shutdown)
    (haccepts : (f i).running = true → ∀ n ≥ w.readings, env.push n (f i).process.queue = .accepted) :
    Crewed env ids (some i.process.pid) { w with state := w.state.setInstance i.id i.process.pid f } := by
  have hmem := fun {j : Instance} => mem_setInstance h.named h.pids hi (j := j) (f := f)
  have hstays : ∀ {rm pid : Nat}, (∃ j ∈ w.state.instances, j.id = rm ∧ j.process.pid = pid) →
      ∃ j ∈ (w.state.setInstance i.id i.process.pid f).instances, j.id = rm ∧ j.process.pid = pid := by
    rintro rm pid ⟨j, hj, hjid, hjpid⟩
    by_cases hji : j = i
    · subst hji
      exact ⟨f j, hmem.2 (.inl rfl), hid.trans hjid, hpid.trans hjpid⟩
    · exact ⟨j, hmem.2 (.inr ⟨hj, hji⟩), hjid, hjpid⟩
  constructor
  · intro p' hp' j' hj'
    obtain ⟨p, hp, rfl⟩ := List.mem_map.1 hp'
    by_cases hrm : p.id = i.id
    · rw [if_pos hrm] at hj' ⊢
      obtain ⟨j, hj, rfl⟩ := List.mem_map.1 hj'
      by_cases hji : j.process.pid = i.process.pid
      · rw [if_pos hji]
        obtain rfl := eq_of_pid h.pids (mem_instances.2 ⟨p, hp, hj⟩) hi hji
        exact hid.trans (h.named p hp j hj)
      · rw [if_neg hji]
        exact h.named p hp j hj
    · rw [if_neg hrm] at hj' ⊢
      exact h.named p hp j' hj'
  · exact (resources_setInstance _ _ _ _).trans h.resources
  · exact h.distinct
  · have : (w.state.setInstance i.id i.process.pid f).instances.map (·.process.pid) =
        w.state.instances.map (·.process.pid) := by
      rw [instances_setInstance h.named, List.map_map]
      refine List.map_congr_left fun j hj => ?_
      simp only [Function.comp_apply]
      split_ifs with hji
      · obtain rfl := eq_of_pid h.pids hj hi hji.2
        exact hpid
      · rfl
    show ((w.state.setInstance i.id i.process.pid f).instances.map (·.process.pid)).Nodup
    rw [this]
    exact h.pids
  · intro j hj
    rcases hmem.1 hj with rfl | ⟨hj, -⟩
    · exact hup
    · exact h.up j hj
  · intro j hj
    rcases hmem.1 hj with rfl | ⟨hj, -⟩
    · exact haccepts
    · exact h.accepts j hj
  · intro j hj hne
    rcases hmem.1 hj with rfl | ⟨hj, -⟩
    · exact absurd (congrArg some hpid) hne
    · exact h.busy j hj hne
  · intro g hg
    exact ⟨(h.working g hg).1, hstays (h.working g hg).2⟩
  · exact h.one
  · intro g hg
    exact hstays (h.handed g hg)
  · exact h.persistent
  · exact h.known

/-- It is handed a request, and comes back busy. -/
theorem employ {pid : Nat} (h : Crewed env ids (some pid) w) (hi : i ∈ w.state.instances) (hpid : i.process.pid = pid)
    (hbusy : i.state = .busy) (message : ResourceRequest) {rm : Nat} (hid : i.id = rm) (log : List Row) :
    Crewed env ids none { w with
      handed := w.handed ++ [(⟨message, rm, pid⟩, log)], working := w.working ++ [⟨message, rm, pid⟩] } where
  named := h.named
  resources := h.resources
  distinct := h.distinct
  pids := h.pids
  up := h.up
  accepts := h.accepts
  busy j hj _ := by
    by_cases hij : j.process.pid = pid
    · obtain rfl := eq_of_pid h.pids hj hi (hij.trans hpid.symm)
      exact iff_of_true hbusy ⟨_, List.mem_append_right _ (List.mem_singleton_self _), hij.symm⟩
    · rw [h.busy j hj fun he => hij (Option.some.inj he)]
      constructor
      · rintro ⟨g, hg, hgpid⟩
        exact ⟨g, List.mem_append_left _ hg, hgpid⟩
      · rintro ⟨g, hg, hgpid⟩
        rcases List.mem_append.1 hg with hg | hg
        · exact ⟨g, hg, hgpid⟩
        · rw [List.mem_singleton.1 hg] at hgpid
          exact absurd hgpid.symm hij
  working g hg := by
    rcases List.mem_append.1 hg with hg | hg
    · exact ⟨nofun, (h.working g hg).2⟩
    · rw [List.mem_singleton.1 hg]
      exact ⟨nofun, i, hi, hid, hpid⟩
  one := by
    show ((w.working ++ [(⟨message, rm, pid⟩ : Handed)]).map (·.pid)).Nodup
    rw [List.map_append, List.nodup_append]
    refine ⟨h.one, List.nodup_singleton _, ?_⟩
    rintro a ha b hb rfl
    obtain ⟨g, hg, rfl⟩ := List.mem_map.1 ha
    exact h.unemployed rfl g hg (List.mem_singleton.1 hb)
  handed g hg := by
    rcases List.mem_append.1 hg with hg | hg
    · exact h.handed g hg
    · rw [List.mem_singleton.1 hg]
      exact ⟨i, hi, hid, hpid⟩
  persistent := h.persistent
  known := h.known

/-- What has nothing to do with the instances. -/
theorem congr (h : Crewed env ids out w) (hresources : w'.state.resources = w.state.resources)
    (hpersistent : w'.state.persistentRequests = w.state.persistentRequests) (hworking : w'.working = w.working)
    (hhanded : w'.handed = w.handed) (hreadings : w.readings ≤ w'.readings)
    (hknown : ∀ t ∈ w'.state.transactions, ∀ r ∈ t.resources, r.id ∈ ids) : Crewed env ids out w' := by
  have hinstances : w'.state.instances = w.state.instances := congrArg (List.flatMap Proxy.instances) hresources
  constructor
  · unfold Named
    rw [hresources]
    exact h.named
  · rw [hresources]
    exact h.resources
  · exact h.distinct
  · rw [hinstances]
    exact h.pids
  · rw [hinstances]
    exact h.up
  · rw [hinstances]
    exact fun i hi hrunning n hn => h.accepts i hi hrunning n (hreadings.trans hn)
  · rw [hinstances, hworking]
    exact h.busy
  · rw [hinstances, hworking]
    exact h.working
  · rw [hworking]
    exact h.one
  · rw [hinstances, hhanded]
    exact h.handed
  · rw [hpersistent]
    exact h.persistent
  · exact hknown

/-- An idle instance takes a request. -/
theorem instanceRequest (h : Crewed env ids none w) (hi : i ∈ w.state.instances) (hidle : i.state = .idle)
    (message : ResourceRequest) : ∃ w', Manager.instanceRequest env message i w = .ok true w' ∧
      Hands message [i.id] w w' ∧ Crewed env ids none w' ∧
      (∀ j ∈ w'.state.instances, j.state = .idle → j ∈ w.state.instances) := by
  have hunemployed : ∀ g ∈ w.working, g.pid ≠ i.process.pid := by
    rintro g hg hpid
    have := (h.busy i hi nofun).2 ⟨g, hg, hpid⟩
    rw [hidle] at this
    cases this
  have hpush : push env i.process.queue w = .ok true { w with readings := w.readings + 1 } := by
    unfold push
    rw [h.accepts i hi (by simp [Instance.running, hidle]) w.readings (Nat.le_refl _)]
  have hbusy : i.setState .busy = { i with state := .busy } := if_pos (by rw [hidle]; nofun)
  have hcrew : Crewed env ids (some i.process.pid) { w with readings := w.readings + 1 } :=
    (h.take hunemployed).congr rfl rfl rfl rfl (Nat.le_succ _) h.known
  have hset := hcrew.set (f := (·.setState .busy)) hi (by rw [hbusy]) (by rw [hbusy]) (by rw [hbusy]; nofun) (by
    rw [hbusy]
    exact fun _ n hn => h.accepts i hi (by simp [Instance.running, hidle]) n ((Nat.le_succ _).trans hn))
  have hmem := fun {j : Instance} => mem_setInstance h.named h.pids hi (j := j) (f := (·.setState .busy))
  refine ⟨_, (bind_ok hpush).trans rfl, ⟨⟨_, rfl⟩, fun hn => hn.setInstance _ _ fun i => setState_id i _,
    ⟨[⟨message, i.id, i.process.pid⟩], rfl, rfl, rfl, by simp⟩, rfl, rfl, rfl, rfl⟩, ?_, ?_⟩
  · exact hset.employ (hmem.2 (.inl rfl)) (by rw [hbusy]) (by rw [hbusy]) message (by rw [hbusy]) _
  · intro j hj hjidle
    rcases hmem.1 hj with rfl | ⟨hj, -⟩
    · rw [hbusy] at hjidle
      cases hjidle
    · exact hj

/-- The resources that are asked and have an idle instance are handed the request. -/
theorem resourceRequest (message : ResourceRequest) : ∀ (asked : List Nat) {w : World}, Crewed env ids none w →
    (∀ id ∈ asked, id ∈ ids) → ∃ given rest w', Manager.resourceRequest env message asked w = .ok rest w' ∧
      Hands message given w w' ∧ (given ++ rest).Perm asked ∧ Crewed env ids none w' ∧
      ∀ i ∈ w'.state.instances, i.state = .idle → i ∈ w.state.instances ∧ i.id ∉ rest
  | [], w, h, _ => ⟨[], [], w, rfl, Hands.refl _ _, List.Perm.refl _, h, fun i hi _ => ⟨hi, List.not_mem_nil⟩⟩
  | id :: asked, w, h, hasked => by
    have hget : (get : M World) w = .ok w w := rfl
    unfold Manager.resourceRequest
    rw [bind_ok hget]
    obtain ⟨p, hp⟩ : ∃ p, w.state.resources.find? (fun p => p.id == id) = some p := by
      have hid : id ∈ w.state.resources.map (·.id) := h.resources.symm ▸ hasked id List.mem_cons_self
      obtain ⟨p, hp, hpid⟩ := List.mem_map.1 hid
      exact Option.isSome_iff_exists.1 (List.find?_isSome.2 ⟨p, hp, by simp [hpid]⟩)
    have hof := fun i => instances_of_find h.named (h.resources.symm ▸ h.distinct) hp (i := i)
    have hidle : w.state.idleInstance id = some (p.instances.find? fun i => decide (i.state = .idle)) := by
      unfold State.idleInstance
      rw [hp]
      rfl
    rw [hidle]
    cases hfind : p.instances.find? fun i => decide (i.state = .idle) with
    | none =>
      obtain ⟨given, rest, w', hr, hh, hperm, hcrew, hidles⟩ :=
        resourceRequest message asked h fun id hid => hasked id (List.mem_cons_of_mem _ hid)
      refine ⟨given, id :: rest, w', bind_ok hr, hh, List.perm_middle.trans (hperm.cons id), hcrew, ?_⟩
      intro i hi hstate
      obtain ⟨hmem, hrest⟩ := hidles i hi hstate
      refine ⟨hmem, fun hid => ?_⟩
      rcases List.mem_cons.1 hid with hid | hid
      · exact List.find?_eq_none.1 hfind i ((hof i).2 ⟨hmem, hid⟩) (by simp [hstate])
      · exact hrest hid
    | some i =>
      obtain ⟨hi, hid⟩ := (hof i).1 (List.mem_of_find?_eq_some hfind)
      obtain ⟨w₁, h₁, hh₁, hcrew₁, hidles₁⟩ :=
        h.instanceRequest hi (by simpa using List.find?_some hfind) message
      obtain ⟨given, rest, w', hr, hh, hperm, hcrew, hidles⟩ :=
        resourceRequest message asked hcrew₁ fun id hid => hasked id (List.mem_cons_of_mem _ hid)
      refine ⟨[i.id] ++ given, rest, w', (bind_ok h₁).trans hr, hh₁.trans hh, ?_, hcrew, ?_⟩
      · rw [hid]
        exact hperm.cons id
      · intro j hj hstate
        obtain ⟨hmem, hrest⟩ := hidles j hj hstate
        exact ⟨hidles₁ j hmem hstate, hrest⟩

end Crewed

/-! ## What waits -/

theorem waiting_append (ps ps' : List PendingRequest) : waiting (ps ++ ps') = waiting ps ++ waiting ps' :=
  List.flatMap_append

/-- What is taken for a resource no longer waits for it. -/
theorem waiting_taken {rm : Nat} : ∀ {ps : List PendingRequest} {request : PendingRequest},
    ps.find? (fun p => p.resources.contains rm) = some request →
    ((request.message, rm) :: waiting (taken rm (request.resources.erase rm) ps)).Perm (waiting ps)
  | [], _, h => nomatch h
  | p :: ps, request, h => by
    by_cases hp : p.resources.contains rm = true
    · simp only [List.find?_cons, hp, Option.some.injEq] at h
      subst h
      have htaken : waiting (taken rm (p.resources.erase rm) (p :: ps)) =
          (p.resources.erase rm).map (fun id => (p.message, id)) ++ waiting ps := by
        unfold taken
        split_ifs with hempty
        · simp only [List.eraseP_cons, hp, cond_true, List.isEmpty_iff.1 hempty, List.map_nil, List.nil_append]
        · simp only [List.replaceF_cons, hp, if_true]
          rfl
      rw [htaken]
      have hperm := (List.perm_cons_erase (List.contains_iff_mem.1 hp)).symm.map fun id => (p.message, id)
      exact hperm.append_right (waiting ps)
    · simp only [List.find?_cons, hp] at h
      rw [taken_cons_of_not ps hp]
      have ih := @waiting_taken rm ps request h
      exact List.perm_middle.symm.trans (ih.append_left _)

/-- What waits when something has been taken waited before. -/
theorem mem_taken {rm : Nat} {resources : List Nat} : ∀ {ps : List PendingRequest} {p' : PendingRequest},
    p' ∈ taken rm resources ps → p' ∈ ps ∨ p'.resources = resources
  | [], p', h => by
    unfold taken at h
    split_ifs at h
    · cases h
    · cases h
  | p :: ps, p', h => by
    by_cases hp : p.resources.contains rm = true
    · unfold taken at h
      split_ifs at h
      · simp only [List.eraseP_cons, hp, cond_true] at h
        exact .inl (List.mem_cons_of_mem _ h)
      · simp only [List.replaceF_cons, hp, if_true] at h
        rcases List.mem_cons.1 h with rfl | h
        · exact .inr rfl
        · exact .inl (List.mem_cons_of_mem _ h)
    · rw [taken_cons_of_not ps hp] at h
      rcases List.mem_cons.1 h with rfl | h
      · exact .inl List.mem_cons_self
      · exact (mem_taken h).imp (List.mem_cons_of_mem _) id

/-! ## Serving -/

/-- What every event keeps. -/
structure Serving (env : Environment) (ids : List Nat) (w : World) : Prop extends Crewed env ids none w where
  idle : ∀ i ∈ w.state.instances, i.state = .idle → ∀ p ∈ w.state.pendingRequests, i.id ∉ p.resources
  accounted : w.emitted.Perm (w.handed.map (fun h => (h.1.request, h.1.resource)) ++ waiting w.state.pendingRequests)

theorem Serving.attended {env : Environment} {ids : List Nat} {w : World} (h : Serving env ids w) : Attended w := by
  refine ⟨h.accounted, h.handed, fun i hi => ?_, h.one, h.idle⟩
  rw [h.busy i hi nofun]
  constructor
  · rintro ⟨g, hg, hpid⟩
    obtain ⟨-, j, hj, hid, hjpid⟩ := h.working g hg
    obtain rfl := eq_of_pid h.pids hj hi (hjpid.trans hpid)
    exact ⟨g, hg, hid.symm, hpid⟩
  · rintro ⟨g, hg, -, hpid⟩
    exact ⟨g, hg, hpid⟩

section Ops

variable {env : Environment} {ids : List Nat} {w : World}

theorem Serving.congr {w' : World} (h : Serving env ids w) (hresources : w'.state.resources = w.state.resources)
    (hpersistent : w'.state.persistentRequests = w.state.persistentRequests)
    (hpending : w'.state.pendingRequests = w.state.pendingRequests) (hworking : w'.working = w.working)
    (hhanded : w'.handed = w.handed) (hemitted : w'.emitted = w.emitted) (hreadings : w.readings ≤ w'.readings)
    (hknown : ∀ t ∈ w'.state.transactions, ∀ r ∈ t.resources, r.id ∈ ids) : Serving env ids w' := by
  have hinstances : w'.state.instances = w.state.instances := congrArg (List.flatMap Proxy.instances) hresources
  refine ⟨h.toCrewed.congr hresources hpersistent hworking hhanded hreadings hknown, ?_, ?_⟩
  · rw [hinstances, hpending]
    exact h.idle
  · rw [hemitted, hhanded, hpending]
    exact h.accounted

/-- An instance that has answered, or has connected, takes what waits for its resource. -/
theorem serving_done {i i₀ : Instance} (h : Crewed env ids (some i.process.pid) w) (hi₀ : i₀ ∈ w.state.instances)
    (hid : i₀.id = i.id) (hprocess : i₀.process = i.process)
    (haccepts : ∀ n ≥ w.readings, env.push n i.process.queue = .accepted)
    (hidle : ∀ j ∈ w.state.instances, j ≠ i₀ → j.state = .idle → ∀ p ∈ w.state.pendingRequests, j.id ∉ p.resources)
    (haccounted : w.emitted.Perm
      (w.handed.map (fun h => (h.1.request, h.1.resource)) ++ waiting w.state.pendingRequests)) :
    ∃ w', done env i w = .ok () w' ∧ Serving env ids w' ∧ w'.state.transactions = w.state.transactions := by
  obtain ⟨id, process, state⟩ := i
  obtain rfl : i₀.id = id := hid
  obtain rfl : i₀.process = process := hprocess
  change Crewed env ids (some i₀.process.pid) w at h
  change ∀ n ≥ w.readings, env.push n i₀.process.queue = .accepted at haccepts
  have hidled : i₀.setState .idle = { i₀ with state := .idle } := if_pos (h.up i₀ hi₀)
  have hget : (get : M World) w = .ok w w := rfl
  -- the instance is idle
  have hcrew := h.set (f := (·.setState .idle)) hi₀ (by rw [hidled]) (by rw [hidled]) (by rw [hidled]; nofun)
    (by rw [hidled]; exact fun _ => haccepts)
  have hmem := fun {j : Instance} => mem_setInstance h.named h.pids hi₀ (j := j) (f := (·.setState .idle))
  have hmodify : modifyState (·.setInstance i₀.id i₀.process.pid (·.setState .idle)) w =
    .ok () { w with state := w.state.setInstance i₀.id i₀.process.pid (·.setState .idle) } := rfl
  unfold done
  rw [bind_ok hget]
  dsimp only
  rw [bind_ok hmodify]
  cases hfind : w.state.pendingRequests.find? fun p => p.resources.contains i₀.id with
  | none =>
    refine ⟨_, rfl, ⟨hcrew.put (hmem.2 (.inl rfl)) (by rw [hidled]) (by rw [hidled]; nofun), ?_, haccounted⟩, rfl⟩
    intro j hj hjidle p hp
    rcases hmem.1 hj with rfl | ⟨hj, hne⟩
    · rw [hidled]
      simpa using List.find?_eq_none.1 hfind p hp
    · exact hidle j hj hne hjidle p hp
  | some request =>
    -- it is handed what has waited for it
    have hbusy : ({ i₀ with state := .idle } : Instance).setState .busy = { i₀ with state := .busy } := if_pos nofun
    rw [hidled] at hmem
    have hi₁ := hmem.2 (.inl rfl)
    have hpush : push env i₀.process.queue
        { w with state := w.state.setInstance i₀.id i₀.process.pid (·.setState .idle) } = .ok true
          { w with
            state := w.state.setInstance i₀.id i₀.process.pid (·.setState .idle)
            readings := w.readings + 1 } := by
      unfold push
      rw [haccepts w.readings (Nat.le_refl _)]
    have hreadied : Crewed env ids (some i₀.process.pid)
        { w with
          state := w.state.setInstance i₀.id i₀.process.pid (·.setState .idle)
          readings := w.readings + 1 } := by
      refine hcrew.congr ?_ ?_ ?_ ?_ ?_ ?_
      · rfl
      · rfl
      · rfl
      · rfl
      · exact Nat.le_succ w.readings
      · exact h.known
    have hcrew₁ := hreadied.set
        (i := { i₀ with state := .idle }) (f := (·.setState .busy)) hi₁ (by rw [hbusy]) (by rw [hbusy])
        (by rw [hbusy]; nofun) (by rw [hbusy]; exact fun _ n hn => haccepts n ((Nat.le_succ _).trans hn))
    have hmem₁ := fun {j : Instance} => mem_setInstance hcrew.named hcrew.pids hi₁ (j := j) (f := (·.setState .busy))
    rw [hbusy] at hmem₁
    have hcrew₂ := hcrew₁.employ (hmem₁.2 (.inl rfl)) rfl rfl request.message rfl w.state.log.durable
    refine ⟨_, (bind_ok hpush).trans rfl, ⟨hcrew₂.congr rfl rfl rfl rfl (Nat.le_refl _) h.known, ?_, ?_⟩, rfl⟩
    · intro j hj hjidle p hp
      rcases hmem₁.1 hj with rfl | ⟨hj, hne⟩
      · cases hjidle
      · rcases hmem.1 hj with rfl | ⟨hj, hne⟩
        · exact absurd rfl hne
        · change p ∈ taken i₀.id (request.resources.erase i₀.id) w.state.pendingRequests at hp
          intro hjp
          rcases mem_taken hp with hp | hp
          · exact hidle j hj hne hjidle p hp hjp
          · rw [hp] at hjp
            exact hidle j hj hne hjidle request (List.mem_of_find?_eq_some hfind) (List.mem_of_mem_erase hjp)
    · show w.emitted.Perm ((w.handed ++ [((⟨request.message, i₀.id, i₀.process.pid⟩ : Handed), w.state.log.durable)]).map
        (fun h : Handed × List Row => (h.1.request, h.1.resource)) ++
          waiting (taken i₀.id (request.resources.erase i₀.id) w.state.pendingRequests))
      rw [List.map_append, List.append_assoc]
      exact haccounted.trans ((waiting_taken hfind).symm.append_left _)

/-- The programs that keep what every event keeps. -/
def Serves (env : Environment) (ids : List Nat) {α : Type} (x : M α) : Prop :=
  Triple (Serving env ids) x (fun _ => Serving env ids) fun _ => Serving env ids

/-- What a step leaves alone that has nothing to do with the requests for resources. -/
structure Calm (w w' : World) : Prop where
  resources : w'.state.resources = w.state.resources
  persistent : w'.state.persistentRequests = w.state.persistentRequests
  pending : w'.state.pendingRequests = w.state.pendingRequests
  transactions : ∀ t ∈ w'.state.transactions, t ∈ w.state.transactions ∨ t.resources = []
  working : w'.working = w.working
  handed : w'.handed = w.handed
  emitted : w'.emitted = w.emitted
  readings : w.readings ≤ w'.readings

instance : Std.Refl Calm := ⟨fun _ => ⟨rfl, rfl, rfl, fun _ ht => .inl ht, rfl, rfl, rfl, Nat.le_refl _⟩⟩

theorem Calm.trans {w w' w'' : World} (h : Calm w w') (h' : Calm w' w'') : Calm w w'' where
  resources := h'.resources.trans h.resources
  persistent := h'.persistent.trans h.persistent
  pending := h'.pending.trans h.pending
  transactions t ht := (h'.transactions t ht).elim (h.transactions t) .inr
  working := h'.working.trans h.working
  handed := h'.handed.trans h.handed
  emitted := h'.emitted.trans h.emitted
  readings := h.readings.trans h'.readings

instance : IsTrans World Calm := ⟨fun _ _ _ => Calm.trans⟩

theorem Serving.calm {w' : World} (h : Serving env ids w) (hc : Calm w w') : Serving env ids w' := by
  refine h.congr hc.resources hc.persistent hc.pending hc.working hc.handed hc.emitted hc.readings ?_
  intro t ht r hr
  rcases hc.transactions t ht with ht | hnone
  · exact h.known t ht r hr
  · rw [hnone] at hr
    cases hr

theorem serves_of_calm {α : Type} {x : M α} (h : Moves Calm x) : Serves env ids x := by
  intro w hw
  have hc := h.after w
  cases hx : x w with
  | ok a w' =>
    rw [hx] at hc
    exact hw.calm hc
  | error e w' =>
    rw [hx] at hc
    exact hw.calm hc

theorem calm_push (queue : Nat) : Moves Calm (push env queue) := by
  constructor
  intro w
  unfold push
  cases env.push w.readings queue with
  | accepted => exact ⟨rfl, rfl, rfl, fun _ ht => .inl ht, rfl, rfl, rfl, Nat.le_succ _⟩
  | full => exact ⟨rfl, rfl, rfl, fun _ ht => .inl ht, rfl, rfl, rfl, Nat.le_succ _⟩
  | gone => exact ⟨rfl, rfl, rfl, fun _ ht => .inl ht, rfl, rfl, rfl, Nat.le_succ _⟩

theorem calm_modifyState {f : State → State} (hresources : ∀ s, (f s).resources = s.resources)
    (hpersistent : ∀ s, (f s).persistentRequests = s.persistentRequests)
    (hpending : ∀ s, (f s).pendingRequests = s.pendingRequests)
    (htransactions : ∀ s, ∀ t ∈ (f s).transactions, t ∈ s.transactions ∨ t.resources = []) :
    Moves Calm (modifyState f) :=
  ⟨fun w => ⟨hresources w.state, hpersistent w.state, hpending w.state, htransactions w.state, rfl, rfl, rfl, Nat.le_refl _⟩⟩

theorem calm_persistentReply (reply : Reply) (target : Process) : Moves Calm (persistentReply reply target) :=
  calm_modifyState (fun _ => rfl) (fun _ => rfl) (fun _ => rfl) fun _ _ ht => .inl ht

theorem calm_persistentSend (message : Nat × Reply) : Moves Calm (persistentSend env message) := by
  constructor
  intro w
  unfold persistentSend
  cases env.push w.readings message.1 with
  | accepted => exact ⟨rfl, rfl, rfl, fun _ ht => .inl ht, rfl, rfl, rfl, Nat.le_succ _⟩
  | full => exact ⟨rfl, rfl, rfl, fun _ ht => .inl ht, rfl, rfl, rfl, Nat.le_succ _⟩
  | gone => exact ⟨rfl, rfl, rfl, fun _ ht => .inl ht, rfl, rfl, rfl, Nat.le_succ _⟩

theorem calm_sendReply (reply : Reply) (target : Process) : Moves Calm (sendReply env reply target) := by
  unfold sendReply
  apply Moves.bind (calm_persistentSend _)
  intro b
  exact .ite (calm_persistentReply _ _) (.pure _)

theorem calm_logRemove (trid : ID) : Moves Calm (logRemove trid) :=
  calm_modifyState (fun _ => rfl) (fun _ => rfl) (fun _ => rfl) fun _ _ ht => .inl ht

theorem calm_logPrepare (trid : ID) : Moves Calm (logPrepare trid) := by
  constructor
  intro w
  unfold logPrepare
  cases w.state.log.prepare trid with
  | some log => exact ⟨rfl, rfl, rfl, fun _ ht => .inl ht, rfl, rfl, rfl, Nat.le_refl _⟩
  | none => exact Std.Refl.refl w

theorem calm_eraseTransaction (trid : ID) : Moves Calm (modifyState (·.eraseTransaction trid)) :=
  calm_modifyState (fun _ => rfl) (fun _ => rfl) (fun _ => rfl) fun _ _ ht => .inl (List.mem_of_mem_eraseP ht)

theorem calm_ensure (trid : ID) : Moves Calm (modifyState (·.ensure trid)) := by
  have h : ∀ s : State, (s.ensure trid).resources = s.resources ∧
      (s.ensure trid).persistentRequests = s.persistentRequests ∧ (s.ensure trid).pendingRequests = s.pendingRequests ∧
      ∀ t ∈ (s.ensure trid).transactions, t ∈ s.transactions ∨ t.resources = [] := by
    intro s
    unfold State.ensure
    split_ifs
    · exact ⟨rfl, rfl, rfl, fun _ ht => .inl ht⟩
    · refine ⟨rfl, rfl, rfl, fun t ht => ?_⟩
      rcases List.mem_append.1 ht with ht | ht
      · exact .inl ht
      · rw [List.mem_singleton.1 ht]
        exact .inr rfl
  exact calm_modifyState (fun s => (h s).1) (fun s => (h s).2.1) (fun s => (h s).2.2.1) fun s => (h s).2.2.2

/-- A transaction whose resources are known is changed. -/
theorem serves_setTransaction {t : Transaction} (ht : ∀ r ∈ t.resources, r.id ∈ ids) :
    Serves env ids (modifyState (·.setTransaction t)) := by
  intro w hw
  refine hw.congr rfl rfl rfl rfl rfl rfl (Nat.le_refl _) ?_
  intro t' ht' r hr
  obtain ⟨u, hu, rfl⟩ := List.mem_map.1 ht'
  split_ifs at hr
  · exact ht r hr
  · exact hw.known u hu r hr

/-- A request for resources is handed out, or waits where no instance is idle. -/
theorem serves_sendRequest (phase : Phase) {t : Transaction} (filter : Resource → Bool) (newStage : Stage) (flags : Nat)
    (ht : ∀ r ∈ t.resources, r.id ∈ ids) : Serves env ids (sendRequest env phase t filter newStage flags) := by
  have hfst := env.partition_fst filter t.resources
  have hsnd := env.partition_snd filter t.resources
  unfold sendRequest
  rcases hparts : env.partition filter t.resources with ⟨asked, others⟩
  rw [hparts] at hfst hsnd
  dsimp only at hfst hsnd ⊢
  have hasked : ∀ r ∈ asked, r.id ∈ ids := fun r hr => ht r (List.mem_filter.1 (hfst.mem_iff.1 hr)).1
  have hothers : ∀ r ∈ others, r.id ∈ ids := fun r hr => ht r (List.mem_filter.1 (hsnd.mem_iff.1 hr)).1
  refine Triple.bind (Q := fun _ => Serving env ids) (serves_setTransaction ?_) fun _ => ?_
  · intro r hr
    rcases List.mem_append.1 hr with hr | hr
    · obtain ⟨u, hu, rfl⟩ := List.mem_map.1 hr
      exact hasked u hu
    · exact hothers r hr
  -- the request is noted, and handed out or left
  refine Triple.bind (Q := fun _ w => Crewed env ids none w ∧
    (∀ i ∈ w.state.instances, i.state = .idle → ∀ p ∈ w.state.pendingRequests, i.id ∉ p.resources) ∧
    w.emitted.Perm ((w.handed.map fun h => (h.1.request, h.1.resource)) ++ waiting w.state.pendingRequests ++
      (asked.map (·.id)).map fun id => ((⟨phase, t.trid, flags⟩ : ResourceRequest), id))) ?_ fun _ => ?_
  · intro w hw
    exact ⟨hw.toCrewed.congr rfl rfl rfl rfl (Nat.le_refl _) hw.known, hw.idle, hw.accounted.append_right _⟩
  · rintro w ⟨hcrew, hidle, haccounted⟩
    obtain ⟨given, rest, w', hr, hh, hperm, hcrew', hidle'⟩ :=
      hcrew.resourceRequest ⟨phase, t.trid, flags⟩ (asked.map (·.id)) (by
        intro id hid
        obtain ⟨r, hr, rfl⟩ := List.mem_map.1 hid
        exact hasked r hr)
    rw [bind_ok hr]
    obtain ⟨resources, hstate⟩ := hh.state
    obtain ⟨hs, -, hhanded, hgiven, hrequests⟩ := hh.working
    have hpending : w'.state.pendingRequests = w.state.pendingRequests := by rw [hstate]
    have hpairs : w'.handed.map (fun h => (h.1.request, h.1.resource)) =
        w.handed.map (fun h => (h.1.request, h.1.resource)) ++
          given.map fun id => ((⟨phase, t.trid, flags⟩ : ResourceRequest), id) := by
      rw [hhanded, List.map_append, List.map_map, ← hgiven, List.map_map]
      congr 1
      refine List.map_congr_left fun h hmem => ?_
      simp only [Function.comp_apply, hrequests h hmem]
    have haccounted' : w'.emitted.Perm (w'.handed.map (fun h => (h.1.request, h.1.resource)) ++
        (waiting w'.state.pendingRequests ++ rest.map fun id => ((⟨phase, t.trid, flags⟩ : ResourceRequest), id))) := by
      rw [hh.emitted, hpairs, hpending]
      refine (haccounted.trans ((hperm.symm.map _).append_left _)).trans ?_
      rw [List.map_append, List.append_assoc, List.append_assoc]
      exact (List.perm_append_comm_assoc _ _ _).append_left _
    have hknown := hcrew'.known
    split_ifs with hleft
    · -- what is left waits
      refine ⟨hcrew'.congr rfl rfl rfl rfl (Nat.le_refl _) hknown, ?_, ?_⟩
      · intro i hi hstate' p hp
        obtain ⟨hmem, hrest⟩ := hidle' i hi hstate'
        change p ∈ w'.state.pendingRequests ++ [⟨⟨phase, t.trid, flags⟩, rest⟩] at hp
        rcases List.mem_append.1 hp with hp | hp
        · exact hidle i hmem hstate' p (hpending ▸ hp)
        · rw [List.mem_singleton.1 hp]
          exact hrest
      · show w'.emitted.Perm (w'.handed.map (fun h => (h.1.request, h.1.resource)) ++
          waiting (w'.state.pendingRequests ++ [⟨⟨phase, t.trid, flags⟩, rest⟩]))
        rw [waiting_append]
        simpa [waiting] using haccounted'
    · have hnone : rest = [] := by simpa using hleft
      refine ⟨hcrew', ?_, ?_⟩
      · intro i hi hstate' p hp
        exact hidle i (hidle' i hi hstate').1 hstate' p (hpending ▸ hp)
      · rw [hnone, List.map_nil, List.append_nil] at haccounted'
        exact haccounted'

/-! ## Handlers -/

theorem known_setResource {t : Transaction} (ht : ∀ r ∈ t.resources, r.id ∈ ids) {r : Resource} (hr : r.id ∈ ids) :
    ∀ u ∈ (t.setResource r).resources, u.id ∈ ids := by
  intro u hu
  obtain ⟨v, hv, rfl⟩ := List.mem_map.1 hu
  split_ifs
  · exact hr
  · exact ht v hv

/-- The resources of a transaction are known, as those are that join it. -/
theorem serves_involve (trid : ID) (joining : List Nat) :
    Triple (Serving env ids) (involve env trid joining)
      (fun t w => Serving env ids w ∧ ∀ r ∈ t.resources, r.id ∈ ids) fun _ => Serving env ids := by
  unfold involve
  refine Triple.bind (Q := fun _ => Serving env ids) (serves_of_calm (calm_ensure trid)) fun _ => ?_
  refine Triple.bind (Q := fun s w => s = w ∧ Serving env ids w) (fun w hw => ⟨rfl, hw⟩) fun w => ?_
  apply Triple.of_forall
  rintro _ ⟨rfl, hw⟩
  have hknown : ∀ r ∈ (involved env w.state ((w.state.find trid).getD (.new trid)) joining).resources, r.id ∈ ids := by
    intro r hr
    have hr := (List.destutter_sublist _ _).subset hr
    rw [(env.sort_perm _).mem_iff, List.mem_append] at hr
    rcases hr with hr | hr
    · cases hfind : w.state.find trid with
      | none =>
        rw [hfind] at hr
        cases hr
      | some t =>
        rw [hfind] at hr
        exact hw.known t (List.mem_of_find?_eq_some hfind) r hr
    · obtain ⟨id, hid, rfl⟩ := List.mem_map.1 hr
      obtain ⟨p, hp, hpid⟩ := List.any_eq_true.1 (List.mem_filter.1 hid).2
      rw [← hw.resources]
      exact List.mem_map.2 ⟨p, hp, beq_iff_eq.1 hpid⟩
  refine Triple.bind (Q := fun _ => Serving env ids)
    ((serves_setTransaction hknown).conseq (fun v hv => hv ▸ hw) (fun _ _ h => h) fun _ _ h => h) fun _ => ?_
  exact Triple.pure fun v hv => ⟨hv, hknown⟩

theorem serves_basicPrepare (message : ResourceReply) {t : Transaction} {r : Resource} (ht : ∀ r ∈ t.resources, r.id ∈ ids)
    (hr : r ∈ t.resources) : Serves env ids (basicPrepare env message t r) := by
  have hvoted : ∀ u ∈ (voted message t r).resources, u.id ∈ ids := known_setResource ht (ht r hr)
  unfold basicPrepare
  refine Triple.bind (Q := fun _ => Serving env ids) (serves_setTransaction hvoted) fun _ => ?_
  refine Triple.ite (fun _ => ?_) fun _ => Triple.pure fun _ h => h
  split
  · refine Triple.bind (Q := fun _ => Serving env ids) (serves_of_calm (calm_logRemove _)) fun _ => ?_
    refine Triple.bind (Q := fun _ => Serving env ids) (serves_of_calm (calm_sendReply _ _)) fun _ => ?_
    exact Triple.pure fun _ h => h
  · refine Triple.bind (Q := fun _ => Serving env ids) (serves_of_calm (calm_logPrepare _)) fun _ => ?_
    refine Triple.bind (Q := fun _ => Serving env ids) (serves_of_calm (calm_persistentReply _ _)) fun _ => ?_
    refine Triple.bind (Q := fun _ => Serving env ids) (serves_sendRequest _ _ _ _ hvoted) fun _ => ?_
    exact Triple.pure fun _ h => h
  · refine Triple.bind (Q := fun _ => Serving env ids) (serves_sendRequest _ _ _ _ hvoted) fun _ => ?_
    exact Triple.pure fun _ h => h

theorem serves_basicCommitReply (message : ResourceReply) {t : Transaction} {r : Resource}
    (ht : ∀ r ∈ t.resources, r.id ∈ ids) (hr : r ∈ t.resources) : Serves env ids (basicCommitReply env message t r) := by
  unfold basicCommitReply
  refine Triple.bind (Q := fun _ => Serving env ids) (serves_setTransaction (known_setResource ht (ht r hr))) fun _ => ?_
  refine Triple.ite (fun _ => ?_) fun _ => Triple.pure fun _ h => h
  cases (t.setResource { r with stage := .commitReplied }).results with
  | XA_OK =>
    refine serves_of_calm ?_
    apply Moves.ite
    · exact .bind (calm_sendReply _ _) fun _ => .bind (calm_logRemove _) fun _ => .pure _
    · exact .bind (calm_persistentReply _ _) fun _ => .bind (calm_logRemove _) fun _ => .pure _
  | _ => exact serves_of_calm (.bind (calm_persistentReply _ _) fun _ => .pure _)

theorem serves_basicRollbackReply (message : ResourceReply) {t : Transaction} {r : Resource}
    (ht : ∀ r ∈ t.resources, r.id ∈ ids) (hr : r ∈ t.resources) : Serves env ids (basicRollbackReply env message t r) := by
  unfold basicRollbackReply
  refine Triple.bind (Q := fun _ => Serving env ids) (serves_setTransaction (known_setResource ht (ht r hr))) fun _ => ?_
  refine Triple.ite (fun _ => ?_) fun _ => Triple.pure fun _ h => h
  refine serves_of_calm ?_
  apply Moves.ite
  · exact .bind (calm_sendReply _ _) fun _ => .bind (calm_logRemove _) fun _ => .pure _
  · exact .bind (calm_persistentReply _ _) fun _ => .pure _

theorem serves_userReplyWrapper {handler : OwnerRequest → M Unit} {error : OwnerRequest → Int → Reply}
    {message : OwnerRequest} (h : Serves env ids (handler message)) :
    Serves env ids (userReplyWrapper env handler error message) := by
  unfold userReplyWrapper
  refine Triple.tryCatch h fun e => ?_
  cases e with
  | user code => exact serves_of_calm (calm_sendReply _ _)
  | _ => exact serves_of_calm (calm_sendReply _ _)

theorem serves_commit (message : OwnerRequest) : Serves env ids (commit env message) := by
  refine serves_userReplyWrapper ?_
  unfold basicCommit
  refine Triple.bind (serves_involve _ _) fun t => ?_
  apply Triple.of_forall
  rintro w ⟨hw, ht⟩
  refine Triple.conseq (P := Serving env ids) (Q := fun _ => Serving env ids) (E := fun _ => Serving env ids) ?_
    (fun v hv => hv ▸ hw) (fun _ _ h => h) fun _ _ h => h
  refine Triple.ite (fun _ => Triple.bind (Q := fun _ => Serving env ids) (Triple.throw fun _ h => h) fun _ => ?_) fun _ => ?_
  -- what is done is the same on both sides of the check of the stage
  all_goals
    split
    · exact serves_of_calm (.bind (calm_eraseTransaction _) fun _ => calm_sendReply _ _)
    · exact serves_sendRequest _ _ _ _ ht
    · exact serves_sendRequest _ _ _ _ ht

theorem serves_rollback (message : OwnerRequest) : Serves env ids (rollback env message) := by
  refine serves_userReplyWrapper ?_
  unfold basicRollback
  refine Triple.bind (serves_involve _ _) fun t => ?_
  apply Triple.of_forall
  rintro w ⟨hw, ht⟩
  refine Triple.conseq (P := Serving env ids) (Q := fun _ => Serving env ids) (E := fun _ => Serving env ids) ?_
    (fun v hv => hv ▸ hw) (fun _ _ h => h) fun _ _ h => h
  refine Triple.ite (fun _ => ?_) fun _ => serves_sendRequest _ _ _ _ ht
  exact serves_of_calm (.bind (calm_eraseTransaction _) fun _ => calm_sendReply _ _)

theorem serves_exit (pid : Nat) : Serves env ids (exit env pid) := by
  unfold exit
  refine Triple.bind (Q := fun _ => Serving env ids) (fun w hw => hw) fun w => ?_
  exact Triple.forM fun trid _ => serves_rollback _

theorem calm_flushReplies : ∀ l : List (Nat × Reply), Moves Calm (flushReplies env l)
  | [] => .pure _
  | message :: rest => by
    have ih := calm_flushReplies rest
    unfold flushReplies
    apply Moves.bind (calm_persistentSend _)
    intro b
    exact .ite ih (.bind ih fun _ => .pure _)

theorem serves_write : Serves env ids (write env) := by
  intro w hw
  have hget : (get : M World) w = .ok w w := rfl
  unfold write
  rw [bind_ok hget, bind_ok hget]
  have hnone := hw.persistent
  refine (?_ : Serves env ids _) w hw
  refine Triple.ite (fun _ => ?_) fun _ => Triple.pure fun _ h => h
  rw [hnone]
  refine Triple.bind (Q := fun _ => Serving env ids)
    (serves_of_calm (calm_modifyState (fun _ => rfl) (fun _ => rfl) (fun _ => rfl) fun _ _ ht => .inl ht)) fun _ => ?_
  refine Triple.bind (Q := fun _ => Serving env ids) (serves_of_calm (calm_flushReplies _)) fun left => ?_
  refine Triple.bind (Q := fun _ => Serving env ids)
    (serves_of_calm (calm_modifyState (fun _ => rfl) (fun _ => rfl) (fun _ => rfl) fun _ _ ht => .inl ht)) fun _ => ?_
  refine Triple.bind (Q := fun _ => Serving env ids) (Triple.pure fun _ h => h) fun _ => ?_
  exact fun v hv => hv.congr rfl hv.persistent.symm rfl rfl rfl rfl (Nat.le_refl _) hv.known

/-- An instance is found by its resource and its pid. -/
theorem getInstance_of_mem {out : Option Nat} (h : Crewed env ids out w) {i : Instance} (hi : i ∈ w.state.instances) :
    w.state.getInstance i.id i.process.pid = some i := by
  obtain ⟨p, hp, hpi⟩ := mem_instances.1 hi
  have hpid : p.id = i.id := (h.named p hp i hpi).symm
  obtain ⟨q, hq⟩ := Option.isSome_iff_exists.1
    (List.find?_isSome.2 ⟨p, hp, by simp [hpid]⟩ : (w.state.resources.find? fun p => p.id == i.id).isSome)
  have hiq := (instances_of_find h.named (h.resources.symm ▸ h.distinct) hq).2 ⟨hi, rfl⟩
  obtain ⟨j, hj⟩ := Option.isSome_iff_exists.1
    (List.find?_isSome.2 ⟨i, hiq, by simp⟩ : (q.instances.find? fun j => j.process.pid == i.process.pid).isSome)
  have hjq := mem_instances.2 ⟨q, List.mem_of_find?_eq_some hq, List.mem_of_find?_eq_some hj⟩
  obtain rfl := eq_of_pid h.pids hjq hi (by simpa using List.find?_some hj)
  unfold State.getInstance
  rw [hq]
  exact hj

/-- A reply of an instance is handled. -/
theorem serving_wrapper {handler : ResourceReply → Transaction → Resource → M Bool} {message : ResourceReply} {i : Instance}
    (h : Crewed env ids (some i.process.pid) w) (hi : i ∈ w.state.instances) (hresource : i.id = message.resource)
    (hpid : i.process.pid = message.process.pid) (hrunning : i.running = true)
    (hidle : ∀ j ∈ w.state.instances, j ≠ i → j.state = .idle → ∀ p ∈ w.state.pendingRequests, j.id ∉ p.resources)
    (haccounted : w.emitted.Perm
      (w.handed.map (fun h => (h.1.request, h.1.resource)) ++ waiting w.state.pendingRequests))
    (hhandler : ∀ (t : Transaction) (r : Resource), (∀ r ∈ t.resources, r.id ∈ ids) → r ∈ t.resources →
      Serves env ids (handler message t r)) : Serving env ids (after (wrapper env handler message w)) := by
  have hget : (get : M World) w = .ok w w := rfl
  have hinstance := getInstance_of_mem h hi
  rw [hresource, hpid] at hinstance
  obtain ⟨w', hdone, hserving, -⟩ := serving_done h hi rfl rfl (h.accepts i hi hrunning) hidle haccounted
  have hget' : (get : M World) w' = .ok w' w' := rfl
  unfold wrapper
  rw [bind_ok hget, hinstance]
  dsimp only
  rw [bind_ok hdone, bind_ok hget']
  cases ht : w'.state.find message.trid with
  | none => exact hserving
  | some t =>
    have hknown := hserving.known t (List.mem_of_find?_eq_some ht)
    cases hr : t.resources.find? fun r => r.id == message.resource with
    | none =>
      simp only [hr]
      exact hserving
    | some r =>
      simp only [hr]
      refine Triple.after (P := Serving env ids) (Triple.bind (hhandler t r hknown (List.mem_of_find?_eq_some hr))
        fun b => Triple.ite (fun _ => ?_) fun _ => Triple.pure fun _ h => h) hserving
      exact serves_of_calm (calm_eraseTransaction _)

theorem serving_connected (message : ConnectReply) (hw : Serving env ids w)
    (haccepts : ∀ n ≥ w.readings, env.push n message.process.queue = .accepted)
    (hfree : ∀ g ∈ w.working, g.pid ≠ message.process.pid) : Serving env ids (after (connect env message w)) := by
  have hconnected : Serves env ids (do
      let s := (← get).state
      if !s.connected && s.resources.all fun p => p.instances.any Instance.running then
        let _ ← push env env.broker
        modifyState fun s => { s with connected := true } : M Unit) := by
    refine Triple.bind (Q := fun _ => Serving env ids) (fun w hw => hw) fun w => ?_
    refine Triple.ite (fun _ => ?_) fun _ => Triple.pure fun _ h => h
    refine serves_of_calm (.bind (calm_push _) fun _ => ?_)
    exact calm_modifyState (fun _ => rfl) (fun _ => rfl) (fun _ => rfl) fun _ _ ht => .inl ht
  have hget : (get : M World) w = .ok w w := rfl
  unfold connect
  rw [bind_ok hget]
  cases hinstance : w.state.getInstance message.resource message.process.pid with
  | none => exact Triple.after hconnected hw
  | some i =>
    obtain ⟨hi, -, hpid⟩ := hw.of_getInstance hinstance
    have hcrew := hw.take (hpid.symm ▸ hfree)
    dsimp only
    split_ifs with hstate
    · -- the instance has connected, with its queue
      have hset := hcrew.set (f := fun i => { i with process := message.process }) hi rfl hpid.symm (hw.up i hi)
        fun _ => haccepts
      have hmem := fun {j : Instance} =>
        mem_setInstance hw.named hw.pids hi (j := j) (f := fun i => { i with process := message.process })
      have hmodify : modifyState (·.setInstance i.id i.process.pid fun i => { i with process := message.process }) w =
        .ok () { w with state := w.state.setInstance i.id i.process.pid fun i => { i with process := message.process } } := rfl
      rw [hpid] at hset hmem hmodify ⊢
      obtain ⟨w', hdone, hserving, -⟩ := serving_done (i := { i with process := message.process }) hset
        (hmem.2 (.inl rfl)) rfl rfl haccepts (by
          intro j hj hne hjidle p hp
          rcases hmem.1 hj with rfl | ⟨hj, -⟩
          · exact absurd rfl hne
          · exact hw.idle j hj hjidle p hp) hw.accounted
      rw [bind_ok hmodify, bind_ok hdone]
      exact Triple.after hconnected hserving
    · -- it has not
      have hfailed : i.setState .startupError = { i with state := .startupError } := if_pos (hw.up i hi)
      have hset := hcrew.set (f := (·.setState .startupError)) hi (by rw [hfailed]) (by rw [hfailed])
        (by rw [hfailed]; nofun) (by rw [hfailed]; nofun)
      have hmem := fun {j : Instance} =>
        mem_setInstance hw.named hw.pids hi (j := j) (f := (·.setState .startupError))
      have hmodify : modifyState (·.setInstance i.id i.process.pid (·.setState .startupError)) w =
        .ok () { w with state := w.state.setInstance i.id i.process.pid (·.setState .startupError) } := rfl
      rw [bind_ok hmodify]
      refine Triple.after hconnected ⟨hset.put (hmem.2 (.inl rfl)) (by rw [hfailed]) (by rw [hfailed]; nofun), ?_, hw.accounted⟩
      intro j hj hjidle p hp
      rcases hmem.1 hj with rfl | ⟨hj, -⟩
      · rw [hfailed] at hjidle
        cases hjidle
      · exact hw.idle j hj hjidle p hp

/-! ## Runs -/

/-- An instance that answers no longer works. -/
theorem Serving.answers {phase : Phase} {message : ResourceReply} (hw : Serving env ids w)
    (hworks : ∃ h ∈ w.working, h.answeredBy phase message = true) : ∃ i ∈ w.state.instances,
      i.id = message.resource ∧ i.process.pid = message.process.pid ∧ i.running = true ∧
        Crewed env ids (some i.process.pid) (w.answer (.reply phase message)) := by
  obtain ⟨h, hh, hanswered⟩ := hworks
  obtain ⟨g, before, later, hnone, hg, hsplit, herase⟩ := List.exists_of_eraseP hh hanswered
  obtain ⟨-, i, hi, hid, hpid⟩ := hw.working g (hsplit ▸ List.mem_append_right _ List.mem_cons_self)
  have hgmessage : g.resource = message.resource ∧ g.pid = message.process.pid := by
    have := of_decide_eq_true hg
    exact ⟨this.2.2.1, this.2.2.2⟩
  have hbusy := (hw.busy i hi nofun).2 ⟨g, hsplit ▸ List.mem_append_right _ List.mem_cons_self, hpid.symm⟩
  have hrest : ∀ k, k ∈ before ++ later ↔ k ∈ w.working ∧ k.pid ≠ i.process.pid := by
    have hone := hw.one
    rw [hsplit, List.map_append, List.map_cons, List.nodup_middle, List.nodup_cons, ← List.map_append] at hone
    intro k
    constructor
    · intro hk
      refine ⟨?_, fun hkpid => hone.1 (List.mem_map.2 ⟨k, hk, hkpid.trans hpid⟩)⟩
      rw [hsplit]
      exact (List.mem_append.1 hk).elim (List.mem_append_left _) fun hk => List.mem_append_right _ (List.mem_cons_of_mem _ hk)
    · rintro ⟨hk, hne⟩
      rw [hsplit, List.mem_append, List.mem_cons] at hk
      rcases hk with hk | rfl | hk
      · exact List.mem_append_left _ hk
      · exact absurd hpid.symm hne
      · exact List.mem_append_right _ hk
  refine ⟨i, hi, hid.trans hgmessage.1, hpid.trans hgmessage.2, by simp [Instance.running, hbusy], ?_⟩
  have hworking : (w.answer (.reply phase message)).working = before ++ later := herase
  constructor
  · exact hw.named
  · exact hw.resources
  · exact hw.distinct
  · exact hw.pids
  · exact hw.up
  · exact hw.accepts
  · intro j hj hne
    rw [hworking, show (w.answer (.reply phase message)).state = w.state from rfl] at *
    rw [hw.busy j hj nofun]
    constructor
    · rintro ⟨k, hk, hkpid⟩
      exact ⟨k, (hrest k).2 ⟨hk, fun he => hne (congrArg some (hkpid.symm.trans he))⟩, hkpid⟩
    · rintro ⟨k, hk, hkpid⟩
      exact ⟨k, ((hrest k).1 hk).1, hkpid⟩
  · intro k hk
    rw [hworking] at hk
    obtain ⟨hk, hne⟩ := (hrest k).1 hk
    exact ⟨fun he => hne (Option.some.inj he), (hw.working k hk).2⟩
  · rw [hworking]
    have hsub : (before ++ later).Sublist w.working := by
      rw [hsplit]
      exact (List.Sublist.refl before).append (List.sublist_cons_self _ _)
    exact hw.one.sublist (hsub.map _)
  · exact hw.handed
  · exact hw.persistent
  · exact hw.known

/-- An event keeps what every event keeps, when the queues of instances have room. -/
theorem Serving.step (hw : Serving env ids w) {e : Event} (hadmits : w.admits e) (haccepts : Accepts env w e) :
    Serving env ids (w.step env e) := by
  have hafter : Serving env ids (after (handle env e (w.answer e))) := by
    cases e with
    | involved message =>
      exact Triple.after (Triple.bind (serves_involve _ _) fun _ => Triple.pure fun _ h => h.1) hw
    | commit message => exact Triple.after (serves_commit message) hw
    | rollback message => exact Triple.after (serves_rollback message) hw
    | exit pid => exact Triple.after (serves_exit pid) hw
    | connect message =>
      obtain ⟨hroom, hfree⟩ := haccepts.connect message rfl
      exact serving_connected message hw hroom hfree
    | reply phase message =>
      obtain ⟨i, hi, hid, hpid, hrunning, hcrew⟩ := hw.answers hadmits.2
      refine serving_wrapper hcrew hi hid hpid hrunning (fun j hj _ => hw.idle j hj) hw.accounted fun t r ht hr => ?_
      cases phase with
      | prepare => exact serves_basicPrepare message ht hr
      | commit => exact serves_basicCommitReply message ht hr
      | rollback => exact serves_basicRollbackReply message ht hr
    | write => exact Triple.after serves_write hw
  unfold World.step
  cases h : handle env e (w.answer e) with
  | ok _ w' =>
    rw [h] at hafter
    exact hafter
  | error _ w' =>
    rw [h] at hafter
    exact hafter.congr rfl rfl rfl rfl rfl rfl (Nat.le_refl _) hafter.known

end Ops

theorem serving_start {env : Environment} {resources : List Proxy} {log : List Row} (h : Started resources log) :
    Serving env (resources.map (·.id)) (World.start resources log) := by
  have hstarted : ∀ i ∈ (World.start resources log).state.instances, i.state = .started := by
    intro i hi
    obtain ⟨p, hp, hpi⟩ := mem_instances.1 hi
    exact (h.instances p hp i hpi).2
  refine ⟨⟨fun p hp i hi => (h.instances p hp i hi).1, rfl, h.ids, h.pids, ?_, ?_, ?_, nofun, List.nodup_nil, nofun, rfl, nofun⟩,
    fun _ _ _ => nofun, .nil⟩
  · intro i hi hdown
    rw [hstarted i hi] at hdown
    cases hdown
  · intro i hi hrunning
    simp [Instance.running, hstarted i hi] at hrunning
  · intro i hi _
    rw [hstarted i hi]
    exact iff_of_false nofun nofun

/-- In every run in which the queues of instances have room, and no instance connects that works, the requests for
resources are attended to. -/
theorem attended_of_reachable {env : Environment} {w : World}
    (h : ((manager env).restrict (Accepts env)).Reachable w) : Attended w := by
  obtain ⟨ids, hserving⟩ : ∃ ids, Serving env ids w := by
    apply h.invariant (I := fun w => ∃ ids, Serving env ids w)
    · rintro _ ⟨resources, log, hstarted, rfl⟩
      exact ⟨_, serving_start hstarted⟩
    · rintro w e ⟨ids, hw⟩ ⟨hadmits, haccepts⟩
      exact ⟨ids, hw.step hadmits haccepts⟩
  exact hserving.attended

/-! ### An instance whose queue is full -/

instance (env : Environment) : ∀ w e, Decidable ((manager env).admits w e) :=
  fun w e => inferInstanceAs (Decidable (World.admits w e))

theorem twoProxies_init (env : Environment) : (manager env).init (World.start twoProxies []) :=
  ⟨twoProxies, [], twoProxies_started, rfl⟩

/-- The queue of an instance is full when it is asked to prepare. -/
def fullInstance : Environment := someEnvironment fun n _ => if n = 1 then .full else .accepted

/-- The first instance is idle, and the request waits for its resource. -/
theorem fullInstance_unattended : ∃ w, (manager fullInstance).Reachable w ∧ ¬ Attended w := by
  refine ⟨(prepared.take 3).foldl (manager fullInstance).step (World.start twoProxies []),
    .foldl (.of_init (twoProxies_init fullInstance)) (by decide +kernel), fun h => ?_⟩
  exact h.idle ⟨1, ⟨11, 21⟩, .idle⟩ (by decide +kernel) rfl ⟨⟨.prepare, someID, TMNOFLAGS⟩, [1]⟩ (by decide +kernel)
    (by decide)

theorem accepts_neverFull {w : World} {e : Event} (h : w.working = [] ∨ ∀ m, e ≠ .connect m) : Accepts neverFull w e := by
  refine ⟨fun _ _ _ _ _ => rfl, fun m he => ⟨fun _ _ => rfl, fun g hg => ?_⟩⟩
  rcases h with hnone | hne
  · rw [hnone] at hg
    cases hg
  · exact absurd he (hne m)

/-- The requests of a transaction are handed out, and all of them answered. -/
theorem committed_attended : Attended ((prepared ++ committed).foldl (manager neverFull).step (World.start twoProxies [])) := by
  apply @attended_of_reachable neverFull
  refine .foldl (M := (manager neverFull).restrict (Accepts neverFull)) (.of_init (twoProxies_init neverFull)) ?_
  refine ⟨⟨by decide +kernel, accepts_neverFull (.inl rfl)⟩, ⟨by decide +kernel, accepts_neverFull (.inl ?_)⟩,
    ⟨by decide +kernel, accepts_neverFull (.inr nofun)⟩, ⟨by decide +kernel, accepts_neverFull (.inr nofun)⟩,
    ⟨by decide +kernel, accepts_neverFull (.inr nofun)⟩, ⟨by decide +kernel, accepts_neverFull (.inr nofun)⟩,
    ⟨by decide +kernel, accepts_neverFull (.inr nofun)⟩, trivial⟩
  decide +kernel

end Casual.Manager

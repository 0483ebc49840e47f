/-
Updates of resources: an update makes of a resource's instances as many as it says, and every run in which
no update is confused by instances in shutdown converges.
-/
import Casual.Manager.Scaling

namespace Casual.Manager.Scaling

open Casual.Common Casual.Communication Casual.Lib

/-! ## A resource is updated -/

section

variable {s : State} {rm : Nat}

theorem find_setInstances (f : List Instance → List Instance) (id : Nat) :
    (setInstances rm f s).resources.find? (fun p => p.id == id) = (s.resources.find? fun p => p.id == id).map
      fun p => if p.id = rm then { p with instances := f p.instances } else p := by
  unfold setInstances
  rw [List.find?_map]
  have hsame : ((fun p : Proxy => p.id == id) ∘ fun p => if p.id = rm then { p with instances := f p.instances } else p) =
      fun p => p.id == id := by
    funext p
    simp only [Function.comp_apply]
    split_ifs <;> rfl
  rw [hsame]

theorem find_setInstances_of_ne {f : List Instance → List Instance} {id : Nat} (h : id ≠ rm) :
    (setInstances rm f s).resources.find? (fun p => p.id == id) = s.resources.find? fun p => p.id == id := by
  rw [find_setInstances]
  cases hp : s.resources.find? fun p => p.id == id with
  | none => rfl
  | some p =>
    have hid : p.id = id := by simpa using List.find?_some hp
    rw [Option.map_some, if_neg (hid.trans_ne h)]

theorem ids_setInstances (f : List Instance → List Instance) :
    (setInstances rm f s).resources.map (·.id) = s.resources.map (·.id) := by
  unfold setInstances
  rw [List.map_map]
  refine List.map_congr_left fun p _ => ?_
  simp only [Function.comp_apply]
  split_ifs <;> rfl

/-- The resource that is found has its id to itself. -/
theorem eq_of_find (hids : (s.resources.map (·.id)).Nodup) {p : Proxy}
    (hp : s.resources.find? (fun p => p.id == rm) = some p) {q : Proxy} (hq : q ∈ s.resources) (hqid : q.id = rm) : q = p := by
  have hid : p.id = rm := by simpa using List.find?_some hp
  exact List.inj_on_of_nodup_map hids hq (List.mem_of_find?_eq_some hp) (hqid.trans hid.symm)

theorem mem_setInstances {f : List Instance → List Instance} {q : Proxy} : q ∈ (setInstances rm f s).resources ↔
    (∃ p ∈ s.resources, p.id = rm ∧ { p with instances := f p.instances } = q) ∨ q ∈ s.resources ∧ q.id ≠ rm := by
  unfold setInstances
  rw [List.mem_map]
  constructor
  · rintro ⟨p, hp, rfl⟩
    split_ifs with hid
    · exact .inl ⟨p, hp, hid, rfl⟩
    · exact .inr ⟨hp, hid⟩
  · rintro (⟨p, hp, hid, rfl⟩ | ⟨hq, hid⟩)
    · exact ⟨p, hp, if_pos hid⟩
    · exact ⟨q, hq, if_neg hid⟩

theorem setInstances_self (hids : (s.resources.map (·.id)).Nodup) {p : Proxy}
    (hp : s.resources.find? (fun p => p.id == rm) = some p) : setInstances rm (fun _ => p.instances) s = s := by
  have hsame : (s.resources.map fun q => if q.id = rm then { q with instances := p.instances } else q) = s.resources := by
    refine (List.map_congr_left fun q hq => ?_).trans (List.map_id _)
    split_ifs with hid
    · rw [eq_of_find hids hp hq hid]
      rfl
    · rfl
  unfold setInstances
  rw [hsame]

/-- Around the instances of a resource there are those of the others. -/
theorem exists_around (hids : (s.resources.map (·.id)).Nodup) {p : Proxy}
    (hp : s.resources.find? (fun p => p.id == rm) = some p) :
    ∃ before later, ∀ is, (setInstances rm (fun _ => is) s).instances = before ++ (is ++ later) := by
  have hid : p.id = rm := by simpa using List.find?_some hp
  obtain ⟨as, bs, hsplit⟩ := List.append_of_mem (List.mem_of_find?_eq_some hp)
  have hother : ∀ q ∈ as ++ bs, q.id ≠ rm := by
    rw [hsplit, List.map_append, List.map_cons, List.nodup_middle, List.nodup_cons, ← List.map_append] at hids
    exact fun q hq hqid => hids.1 (List.mem_map.2 ⟨q, hq, hqid.trans hid.symm⟩)
  refine ⟨as.flatMap (·.instances), bs.flatMap (·.instances), fun is => ?_⟩
  have hkeep (l : List Proxy) (hl : ∀ q ∈ l, q.id ≠ rm) :
      (l.map fun q => if q.id = rm then { q with instances := is } else q) = l :=
    (List.map_congr_left fun q hq => if_neg (hl q hq)).trans (List.map_id _)
  unfold State.instances setInstances
  dsimp only
  rw [hsplit, List.map_append, List.map_cons, hkeep as fun q hq => hother q (List.mem_append_left _ hq),
    hkeep bs fun q hq => hother q (List.mem_append_right _ hq), if_pos hid, List.flatMap_append, List.flatMap_cons]

/-- What is done to one of the instances of a resource. -/
theorem setInstance_setInstances {before rest : List Instance} {i : Instance} (f : Instance → Instance)
    (hpids : ((before ++ i :: rest).map (·.process.pid)).Nodup) :
    (setInstances rm (fun _ => before ++ i :: rest) s).setInstance rm i.process.pid f =
      setInstances rm (fun _ => before ++ f i :: rest) s := by
  rw [List.map_append, List.map_cons, List.nodup_middle, List.nodup_cons, ← List.map_append] at hpids
  have hother (l : List Instance) (hl : ∀ j ∈ l, j ∈ before ++ rest) :
      (l.map fun j => if j.process.pid = i.process.pid then f j else j) = l :=
    (List.map_congr_left fun j hj => if_neg fun hpid => hpids.1 (List.mem_map.2 ⟨j, hl j hj, hpid⟩)).trans (List.map_id _)
  unfold State.setInstance setInstances
  dsimp only
  rw [List.map_map]
  congr 1
  refine List.map_congr_left fun p _ => ?_
  simp only [Function.comp_apply]
  by_cases hid : p.id = rm
  · rw [if_pos hid, if_pos hid, if_pos hid]
    dsimp only
    rw [List.map_append, List.map_cons, if_pos rfl, hother before fun j => List.mem_append_left _,
      hother rest fun j => List.mem_append_right _]
  · rw [if_neg hid, if_neg hid, if_neg hid]

end

section

variable (env : Environment) {s : State} {rm : Nat}

theorem spawn_run {w : Scaled} {is : List Instance} (hstate : w.world.state = setInstances rm (fun _ => is) s)
    (hspawns : env.spawns w.spawned = true) : ∃ i : Instance, i.id = rm ∧ i.state = .started ∧
      i.process.pid ∉ w.world.state.instances.map (·.process.pid) ∧
      spawn env rm w = .ok () ⟨{ w.world with state := setInstances rm (fun _ => is ++ [i]) s }, w.concurrency,
        w.shutdowns, w.terminated, w.spawned + 1, w.misled⟩ := by
  refine ⟨⟨rm, ⟨env.pid w.spawned (w.world.state.instances.map (·.process.pid)), 0⟩, .started⟩, rfl, rfl,
    env.pid_fresh _ _, ?_⟩
  have hadd (i : Instance) : setInstances rm (· ++ [i]) (setInstances rm (fun _ => is) s) =
      setInstances rm (fun _ => is ++ [i]) s := by
    unfold setInstances
    rw [List.map_map]
    congr 1
    refine List.map_congr_left fun p _ => ?_
    simp only [Function.comp_apply]
    split_ifs <;> rfl
  have hget : (get : S Scaled) w = .ok w w := rfl
  have hset : (set { w with spawned := w.spawned + 1 } : S Unit) w = .ok () { w with spawned := w.spawned + 1 } := rfl
  unfold spawn
  rw [bind_ok hget, bind_ok hset, if_pos hspawns]
  unfold modifyState onWorld Manager.modifyState
  rw [hstate]
  dsimp only
  rw [hadd]

/-- As many instances are started as are asked for, and no two have one pid. -/
theorem spawnAll_run {before later : List Instance}
    (haround : ∀ is, (setInstances rm (fun _ => is) s).instances = before ++ (is ++ later)) : ∀ (count : Nat)
    {w : Scaled} {is : List Instance}, w.world.state = setInstances rm (fun _ => is) s →
    (w.world.state.instances.map (·.process.pid)).Nodup → (∀ k < count, env.spawns (w.spawned + k) = true) →
    ∃ added : List Instance, added.length = count ∧ (∀ i ∈ added, i.id = rm ∧ i.state = .started) ∧
      ((setInstances rm (fun _ => is ++ added) s).instances.map (·.process.pid)).Nodup ∧
      spawnAll env rm count w = .ok () ⟨{ w.world with state := setInstances rm (fun _ => is ++ added) s }, w.concurrency,
        w.shutdowns, w.terminated, w.spawned + count, w.misled⟩
  | 0, w, is, hstate, hpids, _ => by
    refine ⟨[], rfl, nofun, ?_, ?_⟩
    · rwa [List.append_nil, ← hstate]
    · rw [List.append_nil, ← hstate]
      rfl
  | count + 1, w, is, hstate, hpids, hspawns => by
    obtain ⟨i, hid, hstarted, hfresh, hspawn⟩ := spawn_run env hstate (hspawns 0 (Nat.succ_pos _))
    have hperm : ((setInstances rm (fun _ => is ++ [i]) s).instances).Perm (i :: w.world.state.instances) := by
      rw [haround, hstate, haround, List.append_assoc, List.singleton_append, ← List.append_assoc, ← List.append_assoc]
      exact List.perm_middle
    have hpids' : ((setInstances rm (fun _ => is ++ [i]) s).instances.map (·.process.pid)).Nodup := by
      rw [(hperm.map _).nodup_iff, List.map_cons, List.nodup_cons]
      exact ⟨hfresh, hpids⟩
    obtain ⟨added, hlength, hadded, hnodup, hrest⟩ := spawnAll_run haround count
      (w := ⟨{ w.world with state := setInstances rm (fun _ => is ++ [i]) s }, w.concurrency, w.shutdowns, w.terminated,
        w.spawned + 1, w.misled⟩) rfl hpids' fun k hk => by
          have hk := hspawns (k + 1) (Nat.succ_lt_succ hk)
          rwa [Nat.add_comm k 1, ← Nat.add_assoc] at hk
    refine ⟨i :: added, by rw [List.length_cons, hlength], ?_, ?_, ?_⟩
    · intro j hj
      rcases List.mem_cons.1 hj with rfl | hj
      · exact ⟨hid, hstarted⟩
      · exact hadded j hj
    · rwa [List.append_assoc, List.singleton_append] at hnodup
    · unfold spawnAll
      rw [bind_ok hspawn, hrest, List.append_assoc, List.singleton_append, Nat.add_assoc, Nat.add_comm 1 count]

/-- What is pushed is accepted, or there is no room for it. -/
theorem onWorld_push (queue : Nat) {v : Scaled} (h : env.push v.world.readings queue ≠ .gone) :
    onWorld (push env.toEnvironment queue) v = .ok (decide (env.push v.world.readings queue = .accepted))
      { v with world := { v.world with readings := v.world.readings + 1 } } := by
  unfold onWorld push
  cases hout : env.push v.world.readings queue with
  | accepted => rfl
  | full => rfl
  | gone => exact absurd hout h

/-- An instance that is stopped is in shutdown, and has been sent a request or terminated. -/
theorem stop_run {before rest : List Instance} {i : Instance} {w : Scaled} (hid : i.id = rm)
    (hstate : w.world.state = setInstances rm (fun _ => before ++ i :: rest) s)
    (hpids : ((before ++ i :: rest).map (·.process.pid)).Nodup)
    (hthere : told i = true → env.push w.world.readings i.process.queue ≠ .gone) : ∃ shutdowns terminated,
      stop env i w = .ok () ⟨{ w.world with
          state := setInstances rm (fun _ => before ++ i.setState .shutdown :: rest) s
          readings := w.world.readings + if told i then 1 else 0 }, w.concurrency, shutdowns, terminated, w.spawned, w.misled⟩ := by
  have hset : w.world.state.setInstance i.id i.process.pid (·.setState .shutdown) =
      setInstances rm (fun _ => before ++ i.setState .shutdown :: rest) s := by
    rw [hstate, hid]
    exact setInstance_setInstances _ hpids
  have hsetState (v : Scaled) (hv : v.world.state = w.world.state) : setState i .shutdown v = .ok ()
      { v with world := { v.world with state := setInstances rm (fun _ => before ++ i.setState .shutdown :: rest) s } } := by
    rw [← hset, ← hv]
    rfl
  have hterminated : told i = false → ∃ shutdowns terminated, (do
      terminate i.process.pid
      setState i .shutdown : S Unit) w = .ok () ⟨{ w.world with
          state := setInstances rm (fun _ => before ++ i.setState .shutdown :: rest) s
          readings := w.world.readings + if told i then 1 else 0 }, w.concurrency, shutdowns, terminated, w.spawned, w.misled⟩ := by
    intro htold
    have hterminate : terminate i.process.pid w = .ok () { w with terminated := w.terminated ++ [i.process.pid] } := rfl
    rw [bind_ok hterminate, hsetState { w with terminated := w.terminated ++ [i.process.pid] } rfl, htold]
    exact ⟨_, _, rfl⟩
  have hrequested : told i = true → ∃ shutdowns terminated, (do
      setState i .shutdown
      if !(← onWorld (push env.toEnvironment i.process.queue)) then
        modify fun w => { w with shutdowns := w.shutdowns ++ [i.process.queue] } : S Unit) w = .ok () ⟨{ w.world with
          state := setInstances rm (fun _ => before ++ i.setState .shutdown :: rest) s
          readings := w.world.readings + if told i then 1 else 0 }, w.concurrency, shutdowns, terminated, w.spawned, w.misled⟩ := by
    intro htold
    have hpush := onWorld_push env i.process.queue
      (v := { w with world := { w.world with
        state := setInstances rm (fun _ => before ++ i.setState .shutdown :: rest) s } }) (hthere htold)
    rw [bind_ok (hsetState w rfl), bind_ok hpush, if_pos htold]
    split_ifs
    · exact ⟨w.shutdowns ++ [i.process.queue], w.terminated, rfl⟩
    · exact ⟨w.shutdowns, w.terminated, rfl⟩
  unfold stop
  cases hi : i.state with
  | absent => exact hterminated (by simp [told, hi])
  | started => exact hterminated (by simp [told, hi])
  | shutdown =>
    have hsame : i.setState .shutdown = i := if_neg (not_not.2 hi)
    have htold : told i = false := by simp [told, hi]
    rw [hsame, htold, ← hstate]
    exact ⟨_, _, rfl⟩
  | idle => exact hrequested (by simp [told, hi])
  | busy => exact hrequested (by simp [told, hi])
  | startupError => exact hrequested (by simp [told, hi])

theorem forM_stop_run : ∀ (is before : List Instance) {w : Scaled}, (∀ i ∈ is, i.id = rm) →
    w.world.state = setInstances rm (fun _ => before ++ is) s → ((before ++ is).map (·.process.pid)).Nodup →
    Reaches env is w.world.readings → ∃ shutdowns terminated, is.forM (stop env) w = .ok ⟨⟩ ⟨{ w.world with
        state := setInstances rm (fun _ => before ++ is.map (·.setState .shutdown)) s
        readings := w.world.readings + (is.filter told).length }, w.concurrency, shutdowns, terminated, w.spawned, w.misled⟩
  | [], before, w, _, hstate, _, _ => by
    refine ⟨w.shutdowns, w.terminated, ?_⟩
    rw [List.map_nil, ← hstate]
    rfl
  | i :: is, before, w, hids, hstate, hpids, hreaches => by
    have hthere : told i = true → env.push w.world.readings i.process.queue ≠ .gone := by
      intro htold
      rw [Reaches, if_pos htold] at hreaches
      exact hreaches.1
    have hrest : Reaches env is (w.world.readings + if told i then 1 else 0) := by
      unfold Reaches at hreaches
      split_ifs at hreaches ⊢
      · exact hreaches.2
      · exact hreaches
    obtain ⟨shutdowns, terminated, hstop⟩ := stop_run env (hids i List.mem_cons_self) hstate hpids hthere
    obtain ⟨shutdowns', terminated', hloop⟩ := forM_stop_run is (before ++ [i.setState .shutdown])
      (w := ⟨{ w.world with
        state := setInstances rm (fun _ => before ++ i.setState .shutdown :: is) s
        readings := w.world.readings + if told i then 1 else 0 }, w.concurrency, shutdowns, terminated, w.spawned, w.misled⟩)
      (fun j hj => hids j (List.mem_cons_of_mem _ hj)) (by rw [List.append_assoc, List.singleton_append]) (by
        rw [List.append_assoc, List.singleton_append]
        simpa only [List.map_append, List.map_cons, setState_process] using hpids) hrest
    refine ⟨shutdowns', terminated', ?_⟩
    change (stop env i >>= fun _ => is.forM (stop env)) w = _
    rw [bind_ok hstop, hloop, List.append_assoc, List.singleton_append, List.map_cons, List.filter_cons]
    split_ifs
    · rw [List.length_cons, Nat.add_assoc, Nat.add_comm 1]
    · rfl

/-- `Instances`: as many are started as there are too few, or those behind are stopped. -/
theorem instances_run {w : Scaled} {p : Proxy} (hids : (w.world.state.resources.map (·.id)).Nodup)
    (hpids : (w.world.state.instances.map (·.process.pid)).Nodup) (hnamed : Named w.world.state)
    (hp : w.world.state.resources.find? (fun q => q.id == p.id) = some p)
    (hfits : Fits env p (w.concurrency p.id) w.world.readings w.spawned) : ∃ is shutdowns terminated,
      instances env p w = .ok () ⟨{ w.world with
          state := setInstances p.id (fun _ => is) w.world.state
          readings := w.world.readings + ((p.instances.drop (w.concurrency p.id)).filter told).length }, w.concurrency,
        shutdowns, terminated, w.spawned + (w.concurrency p.id - p.instances.length), w.misled⟩ ∧
      (serving is).length = w.concurrency p.id ∧ (∀ i ∈ is, i.id = p.id) ∧
      ((setInstances p.id (fun _ => is) w.world.state).instances.map (·.process.pid)).Nodup := by
  have hmem := List.mem_of_find?_eq_some hp
  have hstate : w.world.state = setInstances p.id (fun _ => p.instances) w.world.state := (setInstances_self hids hp).symm
  obtain ⟨before, later, haround⟩ := exists_around hids hp
  have hget : (get : S Scaled) w = .ok w w := rfl
  set count := w.concurrency p.id with hcount
  have hdifference : difference count p.instances.length = (count : Int) - p.instances.length := by
    have hbounds := hfits.bounds
    unfold difference
    exact Int.bmod_eq_of_le (by omega) (by omega)
  unfold instances
  rw [bind_ok hget]
  dsimp only
  rw [← hcount, hdifference]
  by_cases hmore : p.instances.length < count
  · have hcounted : ((count : Int) - p.instances.length).toNat = count - p.instances.length := by omega
    obtain ⟨added, hlength, hadded, hnodup, hrun⟩ :=
      spawnAll_run env haround (count - p.instances.length) hstate hpids hfits.spawns
    have hnone : p.instances.drop count = [] := List.drop_eq_nil_of_le hmore.le
    have hall : p.instances.take count = p.instances := List.take_of_length_le hmore.le
    refine ⟨p.instances ++ added, w.shutdowns, w.terminated, ?_, ?_, ?_, hnodup⟩
    · rw [if_pos (by omega), hcounted, hrun, hnone]
      rfl
    · have hserving : serving (p.instances ++ added) = p.instances ++ added := by
        refine List.filter_eq_self.2 fun i hi => decide_eq_true ?_
        rcases List.mem_append.1 hi with hi | hi
        · exact hfits.kept i (hall.symm ▸ hi)
        · rw [(hadded i hi).2]
          nofun
      rw [hserving, List.length_append, hlength]
      omega
    · intro i hi
      rcases List.mem_append.1 hi with hi | hi
      · exact hnamed p hmem i hi
      · exact (hadded i hi).1
  · have hcounted : (-((count : Int) - p.instances.length)).toNat = p.instances.length - count := by omega
    have hdrop : p.instances.length - (p.instances.length - count) = count := by omega
    have htake : p.instances.take count ++ p.instances.drop count = p.instances := List.take_append_drop _ _
    have hpids' : (p.instances.map (·.process.pid)).Nodup := by
      rw [hstate, haround, List.map_append, List.map_append] at hpids
      exact (List.nodup_append.1 (List.nodup_append.1 hpids).2.1).1
    obtain ⟨shutdowns, terminated, hrun⟩ := forM_stop_run env (p.instances.drop count)
      (p.instances.take count) (fun i hi => hnamed p hmem i (List.mem_of_mem_drop hi))
      (by rw [htake]; exact hstate) (by rw [htake]; exact hpids') hfits.reaches
    refine ⟨p.instances.take count ++ (p.instances.drop count).map (·.setState .shutdown), shutdowns, terminated, ?_, ?_, ?_, ?_⟩
    · rw [if_neg (by omega), hcounted, if_neg (by omega), hdrop, hrun]
      have hnone : count - p.instances.length = 0 := by omega
      rw [hnone]
      rfl
    · have hkept : serving (p.instances.take count) = p.instances.take count :=
        List.filter_eq_self.2 fun i hi => decide_eq_true (hfits.kept i hi)
      have hstopped : serving ((p.instances.drop count).map (·.setState .shutdown)) = [] := by
        refine List.filter_eq_nil_iff.2 fun i hi => ?_
        obtain ⟨j, -, rfl⟩ := List.mem_map.1 hi
        unfold Instance.setState
        split_ifs with hj
        · simp
        · simpa using hj
      unfold serving at hkept hstopped ⊢
      rw [List.filter_append, hkept, hstopped, List.append_nil, List.length_take]
      omega
    · intro i hi
      rcases List.mem_append.1 hi with hi | hi
      · exact hnamed p hmem i (List.mem_of_mem_take hi)
      · obtain ⟨j, hj, rfl⟩ := List.mem_map.1 hi
        rw [setState_id]
        exact hnamed p hmem j (List.mem_of_mem_drop hj)
    · rw [hstate, haround, ← htake] at hpids
      rw [haround]
      simpa only [List.map_append, List.map_map, Function.comp_def, setState_process] using hpids

end

/-! ## Updates -/

/-- What every event keeps. -/
structure Manned (w : Scaled) : Prop extends Converged w where
  ids : (w.world.state.resources.map (·.id)).Nodup
  pids : (w.world.state.instances.map (·.process.pid)).Nodup
  named : Named w.world.state

section

variable {env : Environment} {w : Scaled}

theorem updateResource_none {d : Directive} (hp : w.world.state.resources.find? (fun q => q.id == d.id) = none) :
    updateResource env d w = .ok none w := by
  have hget : (get : S Scaled) w = .ok w w := rfl
  have hresource : getResource d.id w = .error (.thrown .invalidArgument) w := by
    unfold getResource
    rw [bind_ok hget, hp]
    rfl
  unfold updateResource
  rw [tryCatch_error (bind_error hresource)]
  rfl

/-- A resource is updated, and the others are as they were. -/
theorem updateResource_run (hw : Manned w) {d : Directive} {p : Proxy}
    (hp : w.world.state.resources.find? (fun q => q.id == d.id) = some p)
    (hfits : Fits env p d.instances w.world.readings w.spawned) : ∃ q v, updateResource env d w = .ok (some q) v ∧
      Manned v ∧ v.world.readings = w.world.readings + ((p.instances.drop d.instances).filter told).length ∧
      v.spawned = w.spawned + (d.instances - p.instances.length) ∧
      v.concurrency = Function.update w.concurrency d.id d.instances ∧
      v.world.state.resources.map (·.id) = w.world.state.resources.map (·.id) ∧
      ∀ id ≠ d.id, v.world.state.resources.find? (fun q => q.id == id) = w.world.state.resources.find? fun q => q.id == id := by
  have hid : p.id = d.id := by simpa using List.find?_some hp
  have hget (v : Scaled) : (get : S Scaled) v = .ok v v := rfl
  set u : Scaled := { w with concurrency := Function.update w.concurrency d.id d.instances } with hu
  have hcount : u.concurrency p.id = d.instances := by rw [hid, hu]; exact Function.update_self _ _ _
  have hpid : u.world.state.resources.find? (fun q => q.id == p.id) = some p := by rw [hid]; exact hp
  obtain ⟨is, shutdowns, terminated, hrun, hserving, hnamed, hpids⟩ :=
    instances_run env (w := u) hw.ids hw.pids hw.named hpid (hcount.symm ▸ hfits)
  rw [hcount] at hrun hserving
  set v : Scaled := ⟨{ u.world with
    state := setInstances p.id (fun _ => is) u.world.state
    readings := u.world.readings + ((p.instances.drop d.instances).filter told).length }, u.concurrency,
    shutdowns, terminated, u.spawned + (d.instances - p.instances.length), u.misled⟩ with hv
  have hq : v.world.state.resources.find? (fun q => q.id == d.id) = some { p with instances := is } := by
    rw [hv]
    dsimp only
    rw [find_setInstances, hp, Option.map_some, if_pos rfl]
  refine ⟨{ p with instances := is }, v, ?_, ⟨⟨?_, hw.misled⟩, ?_, hpids, ?_⟩, rfl, rfl, rfl, ids_setInstances _, ?_⟩
  · have hresource : getResource d.id w = .ok p w := by
      unfold getResource
      rw [bind_ok (hget w), hp]
      rfl
    have hresource' : getResource d.id v = .ok { p with instances := is } v := by
      unfold getResource
      rw [bind_ok (hget v), hq]
      rfl
    have hmodify : (modify fun w => { w with concurrency := Function.update w.concurrency d.id d.instances } : S Unit) w =
      .ok () u := rfl
    unfold updateResource
    refine tryCatch_ok ?_
    rw [bind_ok hresource, bind_ok hmodify, bind_ok hrun, bind_ok hresource']
    rfl
  · intro q hqmem
    rcases mem_setInstances.1 hqmem with ⟨p', hp', hpid', rfl⟩ | ⟨hq', hne⟩
    · show (serving is).length = Function.update w.concurrency d.id d.instances p'.id
      rw [hserving, hpid', hid, Function.update_self]
    · show (serving q.instances).length = Function.update w.concurrency d.id d.instances q.id
      rw [Function.update_of_ne (hid ▸ hne)]
      exact hw.serving q hq'
  · exact (ids_setInstances _).symm ▸ hw.ids
  · intro q hqmem i hi
    rcases mem_setInstances.1 hqmem with ⟨p', hp', hpid', rfl⟩ | ⟨hq', -⟩
    · exact (hnamed i hi).trans hpid'.symm
    · exact hw.named q hq' i hi
  · intro id hne
    exact find_setInstances_of_ne (hid.symm ▸ hne)

/-- The directives need only find the same resources. -/
theorem updates_congr {s s' : State} : ∀ {ds : List Directive} {readings spawned : Nat},
    (∀ d ∈ ds, (s'.resources.find? fun p => p.id == d.id) = s.resources.find? fun p => p.id == d.id) →
    Updates env s ds readings spawned → Updates env s' ds readings spawned
  | [], _, _, _, _ => trivial
  | d :: ds, readings, spawned, hsame, h => by
    have ih {readings spawned : Nat} : Updates env s ds readings spawned → Updates env s' ds readings spawned :=
      updates_congr fun d' hd' => hsame d' (List.mem_cons_of_mem _ hd')
    unfold Updates at h ⊢
    rw [hsame d List.mem_cons_self]
    cases hp : s.resources.find? fun p => p.id == d.id with
    | none =>
      rw [hp] at h
      exact ih h
    | some p =>
      rw [hp] at h
      exact ⟨h.1, ih h.2⟩

/-- Each directive is followed, and resources there are none of are left out. -/
theorem insances_run : ∀ {ds : List Directive} {w : Scaled}, Manned w → (ds.map (·.id)).Nodup →
    Updates env w.world.state ds w.world.readings w.spawned → ∃ ps v, insances env ds w = .ok ps v ∧ Manned v ∧
      v.world.state.resources.map (·.id) = w.world.state.resources.map (·.id) ∧
      (∀ id ∉ ds.map (·.id), v.concurrency id = w.concurrency id) ∧
      ∀ d ∈ ds, d.id ∈ w.world.state.resources.map (·.id) → v.concurrency d.id = d.instances
  | [], w, hw, _, _ => ⟨[], w, rfl, hw, rfl, fun _ _ => rfl, nofun⟩
  | d :: ds, w, hw, hnodup, h => by
    rw [List.map_cons, List.nodup_cons] at hnodup
    unfold Updates at h
    cases hp : w.world.state.resources.find? fun p => p.id == d.id with
    | none =>
      rw [hp] at h
      obtain ⟨ps, v, hrun, hv, hids, hothers, hasked⟩ := insances_run hw hnodup.2 h
      refine ⟨ps, v, ?_, hv, hids, ?_, ?_⟩
      · unfold insances
        rw [bind_ok (updateResource_none hp), bind_ok hrun]
        rfl
      · exact fun id hid => hothers id fun hmem => hid (List.mem_cons_of_mem _ hmem)
      · intro d' hd' hmem
        rcases List.mem_cons.1 hd' with rfl | hd'
        · obtain ⟨q, hq, hqid⟩ := List.mem_map.1 hmem
          exact absurd (beq_iff_eq.2 hqid) (List.find?_eq_none.1 hp q hq)
        · exact hasked d' hd' hmem
    | some p =>
      rw [hp] at h
      obtain ⟨q, u, hupdate, hu, hreadings, hspawned, hconcurrency, hids, hfind⟩ := updateResource_run hw hp h.1
      have hne : ∀ d' ∈ ds, d'.id ≠ d.id := fun d' hd' heq => hnodup.1 (List.mem_map.2 ⟨d', hd', heq⟩)
      have hrest : Updates env u.world.state ds u.world.readings u.spawned := by
        rw [hreadings, hspawned]
        exact updates_congr (fun d' hd' => hfind d'.id (hne d' hd')) h.2
      obtain ⟨ps, v, hrun, hv, hids', hothers, hasked⟩ := insances_run hu hnodup.2 hrest
      refine ⟨q :: ps, v, ?_, hv, hids'.trans hids, ?_, ?_⟩
      · unfold insances
        rw [bind_ok hupdate, bind_ok hrun]
        rfl
      · intro id hid
        rw [List.map_cons, List.mem_cons, not_or] at hid
        rw [hothers id hid.2, hconcurrency, Function.update_of_ne hid.1]
      · intro d' hd' hmem
        rcases List.mem_cons.1 hd' with rfl | hd'
        · rw [hothers d'.id hnodup.1, hconcurrency, Function.update_self]
        · exact hasked d' hd' (hids.symm ▸ hmem)

/-- Of directives that are sorted, each resource is left with one. -/
theorem taken_nodup (directives : List Directive) : ((taken env directives).map (·.id)).Nodup := by
  have hsorted := (env.directives_sorted directives).sublist (List.destutter_sublist (fun d d' => d.id ≠ d'.id) _)
  exact nodup_of_chain (List.pairwise_map.2 hsorted) ((List.isChain_map _).2 (List.isChain_destutter _ _))

end

/-! ## Runs -/

/-- What is looked at. -/
def outline (w : Scaled) : List Proxy × (Nat → Nat) × List Handed := (w.world.state.resources, w.concurrency, w.misled)

theorem Manned.congr {w w' : Scaled} (hw : Manned w) (h : Keeps outline w w') : Manned w' := by
  have hresources : w'.world.state.resources = w.world.state.resources := congrArg Prod.fst h
  have hconcurrency : w'.concurrency = w.concurrency := congrArg (fun o => o.2.1) h
  have hmisled : w'.misled = w.misled := congrArg (fun o => o.2.2) h
  refine ⟨⟨?_, hmisled.trans hw.misled⟩, ?_, ?_, ?_⟩
  · rw [hresources, hconcurrency]
    exact hw.serving
  · rw [hresources]
    exact hw.ids
  · unfold State.instances
    rw [hresources]
    exact hw.pids
  · unfold Named
    rw [hresources]
    exact hw.named

section

variable (env : Environment)

theorem keeps_onWorld_push (queue : Nat) : Moves (Keeps outline) (onWorld (push env.toEnvironment queue)) := by
  constructor
  intro w
  unfold onWorld push
  cases env.push w.world.readings queue <;> rfl

theorem keeps_flushShutdowns : ∀ queues : List Nat, Moves (Keeps outline) (flushShutdowns env queues)
  | [] => .pure _
  | queue :: rest => by
    have ih := keeps_flushShutdowns rest
    unfold flushShutdowns
    apply Moves.bind (.tryCatch (keeps_onWorld_push env queue) fun _ => .pure _)
    intro done
    exact .ite ih (.bind ih fun _ => .pure _)

theorem keeps_write : Moves (Keeps outline) (write env) := by
  unfold write
  apply Moves.bind .get
  intro w
  apply Moves.ite _ (.pure _)
  apply Moves.bind (by constructor; intro _; rfl)
  intro _
  apply Moves.bind (keeps_flushShutdowns env _)
  intro left
  exact .modify fun _ => rfl

end

section

variable {env : Environment} {w : Scaled}

theorem spares_step {w : World} {e : Event}
    (hreply : ∀ phase message, e = .reply phase message →
      ∀ i, w.state.getInstance message.resource message.process.pid = some i →
        Spared env.toEnvironment w i.process.queue i)
    (hconnect : ∀ message, e = .connect message → message.state = Result.XA_OK.code →
      ∀ i, w.state.getInstance message.resource message.process.pid = some i →
        Spared env.toEnvironment w message.process.queue i) : Spares w (w.step env.toEnvironment e) := by
  have hstate : (w.answer e).state = w.state := by cases e <;> rfl
  have hreadings : (w.answer e).readings = w.readings := by cases e <;> rfl
  have hhanded : (w.answer e).handed = w.handed := by cases e <;> rfl
  have hanswer : Spares w (w.answer e) := .of_eq (congrArg State.resources hstate) hhanded
  have hhandle : Spares (w.answer e) (after (handle env.toEnvironment e (w.answer e))) := by
    refine spares_handle env.toEnvironment ?_ ?_
    · intro phase message he i hi
      unfold Spared
      rw [hstate, hreadings]
      exact hreply phase message he i (hstate ▸ hi)
    · intro message he hok i hi
      unfold Spared
      rw [hstate, hreadings]
      exact hconnect message he hok i (hstate ▸ hi)
  refine hanswer.trans ?_
  unfold World.step
  cases h : handle env.toEnvironment e (w.answer e) with
  | ok _ v =>
    rw [h] at hhandle
    exact hhandle
  | error _ v =>
    rw [h] at hhandle
    exact hhandle.trans (.of_eq rfl rfl)

theorem Manned.act (hw : Manned w) {e : Event} (h : Spares w.world (w.world.step env.toEnvironment e)) :
    Manned (w.act env e) := by
  obtain ⟨more, hmore, hto⟩ := h.handed hw.pids
  refine ⟨⟨?_, ?_⟩, ?_, ?_, ?_⟩
  · intro p hp
    obtain ⟨q, hq, hid, hmarks⟩ := exists_of_crew h.crew hp
    rw [serving_length, ← hmarks, ← serving_length, hw.serving q hq, hid]
    rfl
  · unfold Scaled.act
    dsimp only
    rw [hw.misled, hmore, List.drop_left, List.nil_append]
    refine List.filter_eq_nil_iff.2 fun g hg => ?_
    obtain ⟨g', hg', rfl⟩ := List.mem_map.1 hg
    simpa using hto g' hg'
  · exact ids_congr h.crew ▸ hw.ids
  · exact pids_congr h.crew ▸ hw.pids
  · intro p hp i hi
    obtain ⟨q, hq, hid, hmarks⟩ := exists_of_crew h.crew hp
    have hmark : mark i ∈ q.instances.map mark := hmarks ▸ List.mem_map.2 ⟨i, hi, rfl⟩
    obtain ⟨j, hj, hji⟩ := List.mem_map.1 hmark
    have hij : j.id = i.id := congrArg Prod.fst hji
    exact hij.symm.trans ((hw.named q hq j hj).trans hid)

/-- An instance in shutdown is removed. -/
theorem Manned.exited (hw : Manned w) {pid : Nat} (hpid : pid ∈ shutting w.world.state) :
    Manned { w with world := { w.world with state := exited pid w.world.state } } := by
  rcases List.exists_or_eq_self_of_replaceF (fun p : Proxy =>
      if p.instances.any fun i => i.process.pid == pid then
        some { p with instances := p.instances.eraseP fun i => i.process.pid == pid }
      else none) w.world.state.resources with hsame | ⟨p, p', as, bs, -, hp', hsplit, hreplace⟩
  · have hsame' : (Scaling.exited pid w.world.state).resources = w.world.state.resources := hsame
    exact hw.congr (congrArg (·, w.concurrency, w.misled) hsame')
  · have hresources : (Scaling.exited pid w.world.state).resources = as ++ p' :: bs := hreplace
    split_ifs at hp' with hany
    obtain rfl := Option.some.inj hp'
    obtain ⟨i₀, hi₀, hpid₀⟩ := List.any_eq_true.1 hany
    obtain ⟨i, front, back, -, hi, hinstances, herase⟩ :=
      List.exists_of_eraseP (p := fun i : Instance => i.process.pid == pid) hi₀ hpid₀
    have hp : p ∈ w.world.state.resources := hsplit ▸ List.mem_append_right _ List.mem_cons_self
    have hmem : i ∈ w.world.state.instances :=
      mem_instances.2 ⟨p, hp, hinstances ▸ List.mem_append_right _ List.mem_cons_self⟩
    have hdown : i.state = .shutdown := shutdown_of_mem hw.pids hmem (beq_iff_eq.1 hi ▸ hpid)
    have hsub : (p.instances.eraseP fun i => i.process.pid == pid).Sublist p.instances := List.eraseP_sublist
    have hserving : serving (p.instances.eraseP fun i => i.process.pid == pid) = serving p.instances := by
      rw [herase, hinstances]
      unfold serving
      rw [List.filter_append, List.filter_append, List.filter_cons_of_neg (by simpa using hdown)]
    have hcases : ∀ q ∈ (Scaling.exited pid w.world.state).resources, q ∈ w.world.state.resources ∨
        q = { p with instances := p.instances.eraseP fun i => i.process.pid == pid } := by
      intro q hq
      rw [hresources, List.mem_append, List.mem_cons] at hq
      rw [hsplit, List.mem_append, List.mem_cons]
      tauto
    refine ⟨⟨?_, hw.misled⟩, ?_, ?_, ?_⟩
    · intro q hq
      rcases hcases q hq with hq | rfl
      · exact hw.serving q hq
      · dsimp only
        rw [hserving]
        exact hw.serving p hp
    · have hids := hw.ids
      rw [hsplit, List.map_append, List.map_cons] at hids
      dsimp only
      rwa [hresources, List.map_append, List.map_cons]
    · refine hw.pids.sublist (List.Sublist.map _ ?_)
      unfold State.instances
      dsimp only
      rw [hresources, hsplit, List.flatMap_append, List.flatMap_append, List.flatMap_cons, List.flatMap_cons]
      exact (List.Sublist.refl _).append (hsub.append (List.Sublist.refl _))
    · intro q hq j hj
      rcases hcases q hq with hq | rfl
      · exact hw.named q hq j hj
      · exact hw.named p hp j (hsub.subset hj)

theorem Manned.update (hw : Manned w) {directives : List Directive} (hsound : Sound env w (.update directives)) :
    Manned (updateInstances env directives w) ∧ ∀ d ∈ taken env directives,
      ∀ p ∈ (updateInstances env directives w).world.state.resources, p.id = d.id →
        (serving p.instances).length = d.instances := by
  obtain ⟨ps, v, hrun, hv, hids, -, hasked⟩ := insances_run hw (taken_nodup directives) hsound
  have hafter : updateInstances env directives w = v := by
    unfold updateInstances
    rw [hrun]
  rw [hafter]
  refine ⟨hv, fun d hd p hp hid => ?_⟩
  have hmem : d.id ∈ w.world.state.resources.map (·.id) := hids ▸ List.mem_map.2 ⟨p, hp, hid⟩
  rw [hv.serving p hp, hid, hasked d hd hmem]

theorem manned_step (hw : Manned w) {x : Happening} (hadmits : w.admits x) (hsound : Sound env w x) :
    Manned (w.step env x) := by
  cases x with
  | manager e =>
    cases e with
    | reply phase message =>
      refine hw.act (spares_step ?_ nofun)
      rintro _ _ ⟨⟩
      exact hsound
    | connect message =>
      refine hw.act (spares_step nofun ?_)
      rintro _ ⟨⟩
      exact hsound
    | write =>
      have hwrite : Manned (after (write env w)) := hw.congr ((keeps_write env).after w)
      exact hwrite.act (spares_step nofun nofun)
    | involved message => exact hw.act (spares_step nofun nofun)
    | commit message => exact hw.act (spares_step nofun nofun)
    | rollback message => exact hw.act (spares_step nofun nofun)
    | exit pid => exact hw.act (spares_step nofun nofun)
  | update directives => exact (hw.update hsound).1
  | exited pid => exact hw.exited hadmits.2

variable (env) in
theorem manned_init (h : (machine env).init w) : Manned w := by
  obtain ⟨resources, log, concurrency, hstarted, hconcurrency, rfl⟩ := h
  refine ⟨⟨fun p hp => ?_, rfl⟩, hstarted.ids, hstarted.pids, fun p hp i hi => (hstarted.instances p hp i hi).1⟩
  have hall : serving p.instances = p.instances := by
    refine List.filter_eq_self.2 fun i hi => decide_eq_true ?_
    rw [(hstarted.instances p hp i hi).2]
    nofun
  rw [hall]
  exact hconcurrency p hp

/-- Unless an update keeps an instance that is in shutdown or is cut short, or one in shutdown is given what waits for
its resource, each resource has the instances it is updated to, and no other one is handed a request. -/
theorem converged_of_reachable (h : ((machine env).restrict (Sound env)).Reachable w) :
    Converged w ∧ ∀ directives, Sound env w (.update directives) → ∀ d ∈ taken env directives,
      ∀ p ∈ ((machine env).step w (.update directives)).world.state.resources, p.id = d.id →
        (serving p.instances).length = d.instances := by
  have hw : Manned w := by
    apply h.invariant
    · intro v hv
      exact manned_init env hv
    · rintro v x hv ⟨hadmits, hsound⟩
      exact manned_step hv hadmits hsound
  exact ⟨hw.toConverged, fun directives hsound => (hw.update hsound).2⟩

end

/-! ### Up and down -/

instance (w : Scaled) (x : Happening) : Decidable (w.admits x) :=
  match x with
  | .manager e => inferInstanceAs (Decidable (w.world.admits e ∧
      ∀ pid ∈ exits e, pid ∉ (serving w.world.state.instances).map (·.process.pid)))
  | .update _ => inferInstanceAs (Decidable (w.world.running = true))
  | .exited pid => inferInstanceAs (Decidable (w.world.running = true ∧ pid ∈ shutting w.world.state))

instance (env : Environment) (w : Scaled) (x : Happening) : Decidable ((machine env).admits w x) :=
  inferInstanceAs (Decidable (w.admits x))

instance decidableReaches (env : Environment) : ∀ (is : List Instance) (n : Nat), Decidable (Reaches env is n)
  | [], _ => .isTrue trivial
  | i :: is, n =>
    have := decidableReaches env is (n + 1)
    have := decidableReaches env is n
    inferInstanceAs (Decidable (if told i then env.push n i.process.queue ≠ .gone ∧ Reaches env is (n + 1) else Reaches env is n))

instance (env : Environment) (p : Proxy) (count readings spawned : Nat) : Decidable (Fits env p count readings spawned) :=
  decidable_of_iff ((∀ i ∈ p.instances.take count, i.state ≠ .shutdown) ∧
      (-(2 ^ 63) ≤ (count : Int) - p.instances.length ∧ (count : Int) - p.instances.length < 2 ^ 63) ∧
      (∀ k < count - p.instances.length, env.spawns (spawned + k) = true) ∧ Reaches env (p.instances.drop count) readings)
    ⟨fun h => ⟨h.1, h.2.1, h.2.2.1, h.2.2.2⟩, fun h => ⟨h.kept, h.bounds, h.spawns, h.reaches⟩⟩

instance decidableUpdates (env : Environment) (s : State) : ∀ (ds : List Directive) (readings spawned : Nat),
    Decidable (Updates env s ds readings spawned)
  | [], _, _ => .isTrue trivial
  | d :: ds, readings, spawned =>
    match h : s.resources.find? fun p => p.id == d.id with
    | none =>
      have := decidableUpdates env s ds readings spawned
      decidable_of_iff (Updates env s ds readings spawned) (by rw [Updates, h])
    | some p =>
      have := decidableUpdates env s ds (readings + ((p.instances.drop d.instances).filter told).length)
        (spawned + (d.instances - p.instances.length))
      decidable_of_iff (Fits env p d.instances readings spawned ∧
        Updates env s ds (readings + ((p.instances.drop d.instances).filter told).length)
          (spawned + (d.instances - p.instances.length))) (by rw [Updates, h])

/-- The greatest pid there is, and one more. -/
def nextPid (pids : List Nat) : Nat := pids.foldr max 0 + 1

theorem nextPid_fresh (pids : List Nat) : nextPid pids ∉ pids := by
  have hle : ∀ {pids : List Nat}, ∀ pid ∈ pids, pid ≤ pids.foldr max 0 := by
    intro pids
    induction pids with
    | nil => nofun
    | cons first rest ih =>
      intro pid hpid
      rw [List.foldr_cons]
      rcases List.mem_cons.1 hpid with rfl | hpid
      · exact le_max_left _ _
      · exact (ih pid hpid).trans (le_max_right _ _)
  intro hmem
  exact absurd (hle _ hmem) (Nat.not_succ_le_self _)

/-- There is room in all queues, and what is spawned is. -/
def roomy : Environment :=
  { someEnvironment fun _ _ => .accepted with
    spawns := fun _ => true
    pid := fun _ => nextPid
    pid_fresh := fun _ => nextPid_fresh
    directives := List.insertionSort fun d d' => d.id ≤ d'.id
    directives_perm := fun l => List.perm_insertionSort _ l
    directives_sorted := fun l =>
      have : Std.Total fun d d' : Directive => d.id ≤ d'.id := ⟨fun d d' => Nat.le_total d.id d'.id⟩
      have : IsTrans Directive fun d d' => d.id ≤ d'.id := ⟨fun _ _ _ => Nat.le_trans⟩
      List.pairwise_insertionSort _ l }

/-- A resource with three instances. -/
def threeInstances : List Proxy :=
  [⟨1, [⟨1, ⟨11, 0⟩, .started⟩, ⟨1, ⟨12, 0⟩, .started⟩, ⟨1, ⟨13, 0⟩, .started⟩]⟩]

theorem threeInstances_started : Started threeInstances [] := by
  constructor
  · decide
  · decide
  · decide
  · nofun

/-- A manager whose resource has three instances. -/
def started : Scaled := ⟨World.start threeInstances [], fun _ => 3, [], [], 0, []⟩

theorem started_init (env : Environment) : (machine env).init started :=
  ⟨threeInstances, [], fun _ => 3, threeInstances_started, by decide, rfl⟩

instance (env : Manager.Environment) (w : World) (queue : Nat) (i : Instance) : Decidable (Spared env w queue i) :=
  inferInstanceAs (Decidable (i.state = .shutdown →
    (∀ p ∈ w.state.pendingRequests, i.id ∉ p.resources) ∨ env.push w.readings queue ≠ .accepted))

/-- One of three instances is stopped and exits, the directive for a resource there is none of is left out, and two
more are started. -/
def scaledInAndOut : List Happening :=
  [.manager (.connect ⟨⟨11, 21⟩, 1, 0⟩), .update [⟨2, 5⟩, ⟨1, 2⟩], .manager (.exit 13), .exited 13, .update [⟨1, 4⟩]]

theorem scaledInAndOut_converged : Converged (scaledInAndOut.foldl (machine roomy).step started) := by
  refine (@converged_of_reachable roomy _ ?_).1
  refine .foldl (M := (machine roomy).restrict (Sound roomy)) (.of_init (started_init roomy)) ?_
  refine ⟨⟨by decide +kernel, ?_⟩, ⟨by decide +kernel, ?_⟩, ⟨by decide +kernel, trivial⟩, ⟨by decide +kernel, trivial⟩,
    ⟨by decide +kernel, ?_⟩, trivial⟩
  · show _ → ∀ i ∈ _, Spared _ _ _ i
    decide +kernel
  · show Updates _ _ _ _ _
    decide +kernel
  · show Updates _ _ _ _ _
    decide +kernel

/-- Down to one instance and up to two. -/
def downAndUp : List Happening := [.update [⟨1, 1⟩], .update [⟨1, 2⟩]]

/-- A transaction asks for the resource, whose instances are stopped when one of them has just connected. -/
def stoppedWhileConnecting : List Happening :=
  [.manager (.commit ⟨7, someOwner, someID, [1]⟩), .update [⟨1, 0⟩], .manager (.connect ⟨⟨11, 21⟩, 1, 0⟩)]

/-- There is one instance where there were to be two, and one in shutdown is handed the request. -/
theorem downAndUp_short :
    (∃ w, (machine roomy).Reachable w ∧ w.misled = [] ∧ ¬ ∀ p ∈ w.world.state.resources,
      (serving p.instances).length = w.concurrency p.id) ∧
    ∃ w, (machine roomy).Reachable w ∧ w.misled ≠ [] ∧ ∀ p ∈ w.world.state.resources,
      (serving p.instances).length = w.concurrency p.id := by
  have hshort : (machine roomy).Reachable (downAndUp.foldl (machine roomy).step started) :=
    .foldl (.of_init (started_init roomy)) (by decide +kernel)
  have hmisled : (machine roomy).Reachable (stoppedWhileConnecting.foldl (machine roomy).step started) :=
    .foldl (.of_init (started_init roomy)) (by decide +kernel)
  exact ⟨⟨_, hshort, by decide +kernel⟩, ⟨_, hmisled, by decide +kernel⟩⟩

end Casual.Manager.Scaling

/-
What the manager's ways of sending make of the lives: a request is handed out or waits, a reply is
delivered or waits, and nothing else changes.
-/
import Casual.Manager.View

namespace Casual.Manager

open Casual.Common Casual.Communication Casual.Lib
open Casual.Common.Transaction (ID XID)

/-! ## One life changes -/

/-- Of a life that a step is not about: at most its log row goes. -/
def Unlogs (l l' : Life) : Prop := l' = l ∨ l' = l.unlog

/-- The life of `x` has become `l`, and the others are related by `R` to what they were. -/
structure Makes (R : Life → Life → Prop) (x : XID) (w : World) (l : Life) (w' : World) : Prop where
  life : w'.lives x = l
  others : ∀ y, y ≠ x → R (w.lives y) (w'.lives y)
  sound : w'.Sound
  running : w'.running = w.running

/-! ## Handing out requests -/

theorem push_cases (env : Environment) (queue : Nat) (w : World) :
    push env queue w = .ok true { w with readings := w.readings + 1 } ∨
      push env queue w = .ok false { w with readings := w.readings + 1 } ∨
      push env queue w = .error .unavailable { w with readings := w.readings + 1 } := by
  unfold push
  cases env.push w.readings queue with
  | accepted => exact .inl rfl
  | full => exact .inr (.inl rfl)
  | gone => exact .inr (.inr rfl)

/-- What handing out requests has nothing to do with. -/
structure Aside {γ : Type} (f : World → γ) : Prop where
  eq : ∀ (w : World) (resources : List Proxy) (readings : Nat) (handed : List (Handed × List Row)) (working : List Handed),
    f { w with
      state := { w.state with resources := resources }, readings := readings, handed := handed, working := working } = f w

namespace Aside

variable {γ : Type} {f : World → γ} (h : Aside f) (env : Environment)

include h

theorem push (queue : Nat) : Moves (Keeps f) (push env queue) := by
  constructor
  intro w
  have hread : Keeps f w { w with readings := w.readings + 1 } := h.eq w w.state.resources (w.readings + 1) w.handed w.working
  rcases push_cases env queue w with hw | hw | hw
  · rw [hw]; exact hread
  · rw [hw]; exact hread
  · rw [hw]; exact hread

theorem setInstance (rm pid : Nat) (g : Instance → Instance) : Moves (Keeps f) (modifyState (·.setInstance rm pid g)) :=
  ⟨fun w => h.eq w _ w.readings w.handed w.working⟩

theorem hand (message : ResourceRequest) (rm pid : Nat) : Moves (Keeps f) (hand message rm pid) :=
  ⟨fun w => h.eq w w.state.resources w.readings _ _⟩

theorem instanceRequest (message : ResourceRequest) (i : Instance) : Moves (Keeps f) (instanceRequest env message i) := by
  unfold Manager.instanceRequest
  apply Moves.bind (h.push env _)
  intro b
  apply Moves.ite
  · apply Moves.bind (h.setInstance _ _ _)
    intro _
    apply Moves.bind (h.hand _ _ _)
    intro _
    exact .pure _
  · exact .pure _

theorem resourceRequest (message : ResourceRequest) : ∀ ids : List Nat, Moves (Keeps f) (resourceRequest env message ids)
  | [] => .pure _
  | id :: rest => by
    have ih := resourceRequest message rest
    have hleft : Moves (Keeps f) (do return id :: (← Manager.resourceRequest env message rest) : M (List Nat)) :=
      .bind ih fun _ => .pure _
    unfold Manager.resourceRequest
    apply Moves.bind .get
    intro w
    cases w.state.idleInstance id with
    | none => exact .throw _
    | some found =>
      cases found with
      | none => exact hleft
      | some i =>
        apply Moves.bind (h.instanceRequest env message i)
        intro b
        exact .ite ih hleft

/-- What has nothing to do with the pending requests either is as it was when an instance is done. -/
theorem done (hpending : ∀ (w : World) (ps : List PendingRequest),
      f { w with state := { w.state with pendingRequests := ps } } = f w) (i : Instance) :
    Moves (Keeps f) (done env i) := by
  unfold Manager.done
  apply Moves.bind .get
  intro w
  apply Moves.bind (h.setInstance _ _ _)
  intro _
  cases w.state.pendingRequests.find? fun p => p.resources.contains i.id with
  | none => exact .pure _
  | some request =>
    apply Moves.bind (h.push env _)
    intro b
    apply Moves.ite
    · apply Moves.bind (h.setInstance _ _ _)
      intro _
      apply Moves.bind (h.hand _ _ _)
      intro _
      exact ⟨fun w => hpending w _⟩
    · exact .pure _

end Aside

theorem Named.setInstance {s : State} (h : Named s) (rm pid : Nat) {f : Instance → Instance} (hf : ∀ i, (f i).id = i.id) :
    Named (s.setInstance rm pid f) := by
  intro p' hp' i' hi'
  obtain ⟨p, hp, rfl⟩ := List.mem_map.1 hp'
  by_cases hrm : p.id = rm
  · rw [if_pos hrm] at hi' ⊢
    obtain ⟨i, hi, rfl⟩ := List.mem_map.1 hi'
    split_ifs
    · rw [hf]; exact h p hp i hi
    · exact h p hp i hi
  · rw [if_neg hrm] at hi' ⊢
    exact h p hp i' hi'

theorem setState_id (i : Instance) (state : InstanceState) : (i.setState state).id = i.id := by
  unfold Instance.setState; split_ifs <;> rfl

theorem Named.idle {s : State} (h : Named s) {rm : Nat} {i : Instance} (hi : s.idleInstance rm = some (some i)) :
    i.id = rm := by
  unfold State.idleInstance at hi
  obtain ⟨p, hp, hpi⟩ := Option.map_eq_some_iff.1 hi
  have hrm : p.id = rm := by simpa using List.find?_some hp
  exact (h p (List.mem_of_find?_eq_some hp) i (List.mem_of_find?_eq_some hpi)).trans hrm

/-- A request has been handed to instances of some resources, and nothing else has changed but what
the manager knows of its instances. -/
structure Hands (message : ResourceRequest) (given : List Nat) (w w' : World) : Prop where
  state : ∃ resources, w'.state = { w.state with resources := resources }
  named : Named w.state → Named w'.state
  working : ∃ hs : List Handed, w'.working = w.working ++ hs ∧
    w'.handed = w.handed ++ hs.map (fun h => (h, w.state.log.durable)) ∧ hs.map (·.resource) = given ∧
    ∀ h ∈ hs, h.request = message
  emitted : w'.emitted = w.emitted
  delivered : w'.delivered = w.delivered
  dropped : w'.dropped = w.dropped
  running : w'.running = w.running

theorem Hands.refl (message : ResourceRequest) (w : World) : Hands message [] w w :=
  ⟨⟨_, rfl⟩, id, ⟨[], by simp, by simp, rfl, by simp⟩, rfl, rfl, rfl, rfl⟩

theorem Hands.trans {message : ResourceRequest} {given given' : List Nat} {w w' w'' : World} (h : Hands message given w w')
    (h' : Hands message given' w' w'') : Hands message (given ++ given') w w'' := by
  obtain ⟨r, hr⟩ := h.state
  obtain ⟨r', hr'⟩ := h'.state
  obtain ⟨hs, hw, hh, hg, hm⟩ := h.working
  obtain ⟨hs', hw', hh', hg', hm'⟩ := h'.working
  refine ⟨⟨r', by rw [hr', hr]⟩, h'.named ∘ h.named, ⟨hs ++ hs', ?_, ?_, ?_, ?_⟩, h'.emitted.trans h.emitted,
    h'.delivered.trans h.delivered, h'.dropped.trans h.dropped, h'.running.trans h.running⟩
  · rw [hw', hw, List.append_assoc]
  · rw [hh', hh, hr, List.map_append, List.append_assoc]
  · rw [List.map_append, hg, hg']
  · intro h hmem
    exact (List.mem_append.1 hmem).elim (hm h) (hm' h)

/-- An instance is handed a request, or not. -/
theorem instanceRequest_spec (env : Environment) (message : ResourceRequest) (i : Instance) (w : World) :
    (∃ w', instanceRequest env message i w = .ok true w' ∧ Hands message [i.id] w w') ∨
      ∃ w', (instanceRequest env message i w = .ok false w' ∨ instanceRequest env message i w = .error .unavailable w') ∧
        Hands message [] w w' := by
  have hread : Hands message [] w { w with readings := w.readings + 1 } :=
    ⟨⟨_, rfl⟩, id, ⟨[], by simp, by simp, rfl, by simp⟩, rfl, rfl, rfl, rfl⟩
  unfold instanceRequest
  rcases push_cases env i.process.queue w with h | h | h
  · refine .inl ⟨_, bind_ok h, ⟨⟨_, rfl⟩, fun hn => hn.setInstance _ _ fun i => setState_id i _,
      ⟨[⟨message, i.id, i.process.pid⟩], rfl, rfl, rfl, by simp⟩, rfl, rfl, rfl, rfl⟩⟩
  · exact .inr ⟨_, .inl (bind_ok h), hread⟩
  · exact .inr ⟨_, .inr (bind_error h), hread⟩

/-- A request is handed to idle instances of some of the resources. The others are left; when a queue is
gone they are lost. -/
theorem resourceRequest_spec (env : Environment) (message : ResourceRequest) : ∀ (ids : List Nat) (w : World),
    Named w.state → ∃ given rest w', Hands message given w w' ∧ (given ++ rest).Perm ids ∧
      (resourceRequest env message ids w = .ok rest w' ∨ ∃ e, resourceRequest env message ids w = .error e w')
  | [], w, _ => ⟨[], [], w, Hands.refl _ _, List.Perm.refl _, .inl rfl⟩
  | id :: ids, w, hn => by
    have hget : (get : M World) w = .ok w w := rfl
    unfold resourceRequest
    rw [bind_ok hget]
    cases hidle : w.state.idleInstance id with
    | none => exact ⟨[], id :: ids, w, Hands.refl _ _, List.Perm.refl _, .inr ⟨_, rfl⟩⟩
    | some found =>
      cases found with
      | none =>
        obtain ⟨given, rest, w', hh, hperm, hr⟩ := resourceRequest_spec env message ids w hn
        refine ⟨given, id :: rest, w', hh, List.perm_middle.trans (hperm.cons id), ?_⟩
        exact hr.imp (fun hr => bind_ok hr) fun ⟨e, hr⟩ => ⟨e, bind_error hr⟩
      | some i =>
        rcases instanceRequest_spec env message i w with ⟨w₁, h₁, hh₁⟩ | ⟨w₁, h₁ | h₁, hh₁⟩
        · obtain ⟨given, rest, w', hh, hperm, hr⟩ := resourceRequest_spec env message ids w₁ (hh₁.named hn)
          refine ⟨[i.id] ++ given, rest, w', hh₁.trans hh, ?_, ?_⟩
          · rw [hn.idle hidle]
            exact hperm.cons id
          · exact hr.imp (fun hr => (bind_ok h₁).trans hr) fun ⟨e, hr⟩ => ⟨e, (bind_ok h₁).trans hr⟩
        · obtain ⟨given, rest, w', hh, hperm, hr⟩ := resourceRequest_spec env message ids w₁ (hh₁.named hn)
          refine ⟨given, id :: rest, w', hh₁.trans hh, List.perm_middle.trans (hperm.cons id), ?_⟩
          exact hr.imp (fun hr => (bind_ok h₁).trans (bind_ok hr)) fun ⟨e, hr⟩ => ⟨e, (bind_ok h₁).trans (bind_error hr)⟩
        · exact ⟨[], id :: ids, w₁, hh₁, List.Perm.refl _, .inr ⟨_, bind_error h₁⟩⟩

/-! ## Instances that are done -/

theorem World.Sound.congr {w w' : World} (hw : w.Sound) (hn : Named w.state → Named w'.state)
    (ht : w'.state.transactions = w.state.transactions) (hl : w'.state.log = w.state.log) : w'.Sound :=
  ⟨hn hw.instances, ht ▸ hw.transactions, ht ▸ hw.resources, hl ▸ hw.rows⟩

/-- The pending requests without one of the resources of the first that is for it. -/
def taken (rm : Nat) (resources : List Nat) (ps : List PendingRequest) : List PendingRequest :=
  if resources.isEmpty then ps.eraseP fun p => p.resources.contains rm
  else ps.replaceF fun p => if p.resources.contains rm then some { p with resources := resources } else none

theorem taken_cons_of_not {rm : Nat} {resources : List Nat} {p : PendingRequest} (ps : List PendingRequest)
    (h : ¬ p.resources.contains rm = true) : taken rm resources (p :: ps) = p :: taken rm resources ps := by
  unfold taken
  split_ifs
  · simp only [List.eraseP_cons, h, cond_false]
  · simp only [List.replaceF_cons, h, Bool.false_eq_true, if_false]

/-- What waits for a resource, when it is taken, is no longer waiting. -/
theorem waits_taken (x : XID) (rm pid : Nat) : ∀ {ps : List PendingRequest} {request : PendingRequest},
    ps.find? (fun p => p.resources.contains rm) = some request →
    (World.works x [⟨request.message, rm, pid⟩] ++ World.waits x (taken rm (request.resources.erase rm) ps)).Perm
      (World.waits x ps)
  | [], _, h => nomatch h
  | p :: ps, request, h => by
    by_cases hp : p.resources.contains rm = true
    · simp only [List.find?_cons, hp, Option.some.injEq] at h
      subst h
      have hwaits : World.waits x (taken rm (p.resources.erase rm) (p :: ps)) =
          World.waits x [{ p with resources := p.resources.erase rm }] ++ World.waits x ps := by
        unfold taken
        split_ifs with hempty
        · simp only [List.eraseP_cons, hp, cond_true]
          simp [World.waits, List.isEmpty_iff.1 hempty, List.filter_cons]
        · simp only [List.replaceF_cons, hp, if_true]
          exact World.waits_cons x _ ps
      have hperm : (rm :: p.resources.erase rm).Perm p.resources :=
        (List.perm_cons_erase (List.contains_iff_mem.1 hp)).symm
      rw [hwaits, World.waits_cons x p ps, ← List.append_assoc]
      refine List.Perm.append_right _ ?_
      unfold World.works World.waits
      by_cases hx : p.message.trid.xid == x
      · simpa [List.filter_cons, hx] using hperm.map fun id => (p.message.phase, id)
      · simp [hx]
    · simp only [List.find?_cons, hp] at h
      rw [taken_cons_of_not ps hp, World.waits_cons x p ps, World.waits_cons x p (taken _ _ ps), ← List.append_assoc]
      refine (List.Perm.append_right _ List.perm_append_comm).trans ?_
      rw [List.append_assoc]
      exact (waits_taken x rm pid h).append_left _

end Casual.Manager

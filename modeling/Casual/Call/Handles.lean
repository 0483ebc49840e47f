/-
`sf/xatmi_call.h` and `serviceframework/source/xatmi_call.cpp`: the handles of asynchronous calls, which can be
asked for their result, moved and destroyed, over a process whose replies arrive at any time.
-/
import Casual.Call.Descriptors

namespace Casual.Call

open Lib Common Communication

variable {Sender : Type} [DecidableEq Sender]

/-! ## Handles -/

/-- `async::basic_receive`; `own` is the correlation of the call it has been given, which the code does not know. -/
structure Handle where
  descriptor : Nat
  flags : Flags
  moved : Bool
  own : Option Uuid
  deriving DecidableEq

/-- What `reply` leaves in the descriptor that was handed to it. -/
def fetched (env : Surroundings) (descriptor : Nat) (flags : Flags) (s : Context Sender) : Nat :=
  let asked := if flag TPGETANY flags then 0 else descriptor
  match (deadline asked >>= fun _ => receive env asked flags : M Sender (Option Complete)) s with
  | .ok (some m) _ => (env.unmarshal m).descriptor
  | _ => asked

/-- A process that calls through the service framework: its handles, in the order they were made, `none` when
destroyed; and, for each cancel that had effect, the call of the handle and the call that was cancelled. -/
structure Program (Sender : Type) where
  system : System Sender
  handles : List (Option Handle)
  cancels : List (Option Uuid × Uuid)

namespace Program

/-- A call; the result of a handle, blocking or not; a handle that is constructed or assigned from another one, or
destroyed; or what other parts of the process and those that send to it do. -/
inductive Event (Sender : Type)
  | system (e : Call.Event Sender)
  | call (lookupCorrelation correlation : Uuid) (service : String) (input : Payload) (flags : Flags)
  | get (i : Nat) (output : Option Payload)
  | receive (i : Nat) (output : Option Payload)
  | move (i : Nat)
  | assign (i j : Nat)
  | destroy (i : Nat)

/-- What is not done by the process through the service framework. -/
def outside : Call.Event Sender → Prop
  | .async .. => False
  | .reply .. => False
  | .cancel .. => False
  | _ => True

variable (env : Surroundings) (size : TransportSize)

/-- The handle there is, unless it has been destroyed. -/
def handle (p : Program Sender) (i : Nat) : Option Handle := (p.handles[i]?).join

/-- `service::receive`, from a handle: what was asked for is written to its descriptor, also when the call is left by an
exception. -/
def received (p : Program Sender) (i : Nat) (h : Handle) (output : Option Payload) (flags : Flags) (descriptor : Nat) :
    Program Sender :=
  { p with
    system := p.system.step env size (.reply h.descriptor output flags)
    handles := p.handles.set i (some { h with descriptor }) }

/-- `operator ()` of `basic_receive`. -/
def get (p : Program Sender) (i : Nat) (h : Handle) (output : Option Payload) : Program Sender :=
  let flags := h.flags &&& ~~~ TPNOBLOCK
  p.received env size i h output flags
    (match reply env h.descriptor output flags p.system.context with
      | .ok _ _ => 0
      | .error _ _ => fetched env h.descriptor flags p.system.context)

/-- `receive`. -/
def receive (p : Program Sender) (i : Nat) (h : Handle) (output : Option Payload) : Program Sender :=
  let flags := h.flags ||| TPNOBLOCK
  p.received env size i h output flags (fetched env h.descriptor flags p.system.context)

/-- `basic_receive( basic_receive&&)`. The call goes along. -/
def move (p : Program Sender) (i : Nat) (h : Handle) : Program Sender :=
  { p with handles := p.handles.set i (some { h with moved := true, own := none }) ++ [some { h with moved := false }] }

/-- `operator = ( basic_receive&&)`: `m_moved` of the handle that is assigned to stays as it is. -/
def assign (p : Program Sender) (i j : Nat) (h other : Handle) : Program Sender :=
  { p with
    handles := (p.handles.set i (some { other with moved := h.moved })).set j
      (some { other with moved := true, own := none }) }

/-- `~basic_receive`. -/
def destroy (p : Program Sender) (i : Nat) (h : Handle) : Program Sender :=
  let destroyed := { p with handles := p.handles.set i none }
  if h.moved = false ∧ h.descriptor ≠ 0 then
    { destroyed with
      system := p.system.step env size (.cancel h.descriptor)
      cancels := match cancel h.descriptor p.system.context with
        | .ok _ _ => p.cancels ++ (p.system.denotes h.descriptor).toList.map fun call => (h.own, call.correlation)
        | .error _ _ => p.cancels }
  else destroyed

/-- What a program does with its descriptors, or what happens around it. -/
def step (p : Program Sender) : Event Sender → Program Sender
  | .system e => { p with system := p.system.step env size e }
  | .call lookupCorrelation correlation service input flags =>
    let system := p.system.step env size (.async lookupCorrelation correlation service input flags)
    match async env lookupCorrelation correlation service input flags p.system.context with
    | .ok descriptor _ =>
      let own := if flag TPNOREPLY flags then none else some correlation
      { p with system, handles := p.handles ++ [some ⟨descriptor, flags, false, own⟩] }
    | .error _ _ => { p with system }
  | .get i output => (p.handle i).elim p fun h => p.get env size i h output
  | .receive i output => (p.handle i).elim p fun h => p.receive env size i h output
  | .move i => (p.handle i).elim p fun h => p.move i h
  | .assign i j => (p.handle i).elim p fun h => (p.handle j).elim p fun other => p.assign i j h other
  | .destroy i => (p.handle i).elim p fun h => p.destroy env size i h

/-- Calls are made by the program only. -/
def Admits (p : Program Sender) : Event Sender → Prop
  | .system e => outside e ∧ p.system.Admits env e
  | .call lookupCorrelation correlation service input flags =>
    p.system.Admits env (.async lookupCorrelation correlation service input flags)
  | _ => True

/-- A program that has made no call. -/
def initial : Program Sender := ⟨.initial, [], []⟩

/-- The runs of a program from its start. -/
def machine : Machine (Program Sender) (Event Sender) where
  init p := p = initial
  admits := Admits env
  step := step env size

/-- The calls that were cancelled: each by the handle whose call it is, once, and their replies were not returned. -/
structure NoForeign (p : Program Sender) : Prop where
  own : ∀ c ∈ p.cancels, c.1 = some c.2
  once : (p.cancels.map (·.2)).Nodup
  unanswered : ∀ c ∈ p.cancels, c.2 ∉ p.system.returned

/-- A handle holds a descriptor: it will cancel it. -/
def Holds (p : Program Sender) (descriptor : Nat) : Prop :=
  ∃ h, some h ∈ p.handles ∧ h.moved = false ∧ h.descriptor = descriptor

/-- A call does not use a descriptor again that a handle still holds, and what has been moved from is not moved again. -/
def Unheld (p : Program Sender) : Event Sender → Prop
  | .call _ correlation _ _ flags =>
    flag TPNOREPLY flags = false → ¬ p.Holds (p.system.context.pending.reserve correlation).2
  | .move i => ∀ h, p.handle i = some h → h.moved = false
  | .assign _ j => ∀ h, p.handle j = some h → h.moved = false
  | _ => True

end Program

/-! ## What is active after an event -/

section Actives

variable {env : Surroundings} {size : TransportSize} {s : System Sender}

theorem pending_outside {e : Event Sender} (he : Program.outside e) :
    (s.step env size e).context.pending = s.context.pending := by
  cases e with
  | async => exact he.elim
  | reply => exact he.elim
  | cancel => exact he.elim
  | _ => rfl

/-- The active descriptors after a reply were so before it. -/
theorem actives_reply {descriptor : Nat} {output : Option Payload} {flags : Flags} {d : Descriptor}
    (hd : d ∈ (s.step env size (.reply descriptor output flags)).context.pending.actives) :
    d ∈ s.context.pending.actives := by
  have hspec := reply_spec env descriptor output flags s.context s.context rfl
  unfold System.step at hd
  simp only at hd
  have hconsumed : ∀ {asked : Nat} {m : Complete} {t : Context Sender}, Consumed env s.context asked m t →
      d ∈ t.pending.actives → d ∈ s.context.pending.actives := by
    rintro asked m t ⟨u, ⟨_, _, _, _, _, hpending⟩, -, hreleased⟩ hd
    exact hpending ▸ ((hreleased d).1 hd).1
  cases hr : Call.reply env descriptor output flags s.context with
  | ok reply t =>
    rw [hr] at hspec hd
    obtain ⟨m, -, hm⟩ := hspec
    exact hconsumed hm hd
  | error e t =>
    rw [hr] at hspec hd
    rcases hspec with hspec | ⟨m, hm⟩
    · exact hspec.pending ▸ hd
    · exact hconsumed hm hd

/-- A cancel that fails changes nothing; one that does not releases the descriptor. -/
theorem actives_cancel {descriptor : Nat} {d : Descriptor}
    (hd : d ∈ (s.step env size (.cancel descriptor)).context.pending.actives) : d ∈ s.context.pending.actives := by
  have hspec := cancel_spec descriptor s.context s.context rfl
  unfold System.step at hd
  simp only at hd
  cases hr : Call.cancel descriptor s.context with
  | ok _ t =>
    rw [hr] at hspec hd
    obtain ⟨-, -, -, -, hreleased⟩ := hspec
    exact ((hreleased d).1 hd).1
  | error e t =>
    rw [hr] at hspec hd
    rwa [show t = s.context from hspec] at hd

/-- What is active after a call was so before it, or is the descriptor that was reserved for it. -/
theorem actives_async {lookupCorrelation correlation : Uuid} {service : String} {input : Payload} {flags : Flags}
    {d : Descriptor}
    (hd : d ∈ (s.step env size (.async lookupCorrelation correlation service input flags)).context.pending.actives) :
    d ∈ s.context.pending.actives ∨ flag TPNOREPLY flags = false ∧
      d = ⟨(s.context.pending.reserve correlation).2, true, correlation⟩ ∧
      ∃ t, Call.async env lookupCorrelation correlation service input flags s.context =
        .ok (s.context.pending.reserve correlation).2 t := by
  have hspec := async_spec env lookupCorrelation correlation service input flags s.context s.context (Std.Refl.refl _)
  unfold System.step at hd
  simp only at hd
  cases hr : Call.async env lookupCorrelation correlation service input flags s.context with
  | error e t =>
    rw [hr] at hspec hd
    exact .inl ((hspec.2 d).1 hd)
  | ok descriptor t =>
    rw [hr] at hspec hd
    have hreserved := hspec.2
    cases hreply : flag TPNOREPLY flags with
    | true =>
      rw [hreply, if_pos rfl] at hreserved
      exact .inl (hreserved.2 ▸ hd)
    | false =>
      rw [hreply, if_neg Bool.false_ne_true] at hreserved
      obtain ⟨-, hactives⟩ := s.context.pending.reserve_spec correlation
      have hdescriptor : descriptor = (s.context.pending.reserve correlation).2 := congrArg Prod.snd hreserved
      have hpending : t.pending = (s.context.pending.reserve correlation).1 := congrArg Prod.fst hreserved
      have hd : d ∈ t.pending.actives := hd
      rw [hpending] at hd
      refine ((hactives d).1 hd).imp_right fun h => ⟨rfl, h, t, ?_⟩
      rw [hdescriptor]

end Actives

/-! ## What is cancelled -/

/-- Each cancel is of a call that was made, and no longer active; and no call is cancelled twice. -/
structure Once (s : System Sender) : Prop where
  made : ∀ c ∈ s.cancelled, c ∈ s.calls.map (·.correlation)
  gone : ∀ d ∈ s.context.pending.actives, d.correlation ∉ s.cancelled
  once : s.cancelled.Nodup

namespace Once

variable {env : Surroundings} {size : TransportSize} {s : System Sender}

theorem async (h : Once s) {lookupCorrelation correlation : Uuid} {service : String} {input : Payload} {flags : Flags}
    (he : s.Admits env (.async lookupCorrelation correlation service input flags)) :
    Once (s.step env size (.async lookupCorrelation correlation service input flags)) := by
  have hactives := @actives_async Sender _ env size s lookupCorrelation correlation service input flags
  have hcancelled : (s.step env size (.async lookupCorrelation correlation service input flags)).cancelled =
      s.cancelled := by
    unfold System.step
    dsimp only
    cases Call.async env lookupCorrelation correlation service input flags s.context <;> rfl
  have hcalls : ∀ c ∈ s.calls, c ∈ (s.step env size (.async lookupCorrelation correlation service input flags)).calls := by
    intro c hc
    unfold System.step
    dsimp only
    cases Call.async env lookupCorrelation correlation service input flags s.context with
    | error e t => exact hc
    | ok descriptor t =>
      dsimp only
      split_ifs
      · exact hc
      · exact List.mem_append_left _ hc
  refine ⟨?_, ?_, hcancelled ▸ h.once⟩
  · intro c hc
    obtain ⟨call, hcall, hcc⟩ := List.mem_map.1 (h.made c (hcancelled ▸ hc))
    exact List.mem_map.2 ⟨call, hcalls call hcall, hcc⟩
  · intro d hd
    rw [hcancelled]
    rcases hactives hd with hd | ⟨-, rfl, -⟩
    · exact h.gone d hd
    · exact fun hc => he.2 (h.made _ hc)

omit [DecidableEq Sender] in
/-- Where less is active and nothing is cancelled. -/
theorem of_subset (h : Once s) {t : System Sender} (hcalls : t.calls = s.calls) (hcancelled : t.cancelled = s.cancelled)
    (hactives : ∀ d ∈ t.context.pending.actives, d ∈ s.context.pending.actives) : Once t := by
  refine ⟨?_, ?_, hcancelled ▸ h.once⟩
  · rw [hcancelled, hcalls]
    exact h.made
  · intro d hd
    rw [hcancelled]
    exact h.gone d (hactives d hd)

theorem cancel (h : Once s) (hsound : s.Sound env size) (descriptor : Nat) :
    Once (s.step env size (.cancel descriptor)) := by
  have hspec := cancel_spec descriptor s.context s.context rfl
  unfold System.step
  dsimp only
  cases hr : Call.cancel descriptor s.context with
  | error e t =>
    rw [hr] at hspec
    rw [show t = s.context from hspec]
    exact h
  | ok _ t =>
    rw [hr] at hspec
    obtain ⟨d, hd, rfl, -, hreleased⟩ := hspec
    obtain ⟨call, hdenotes, hcorrelation, -⟩ := hsound.active d hd
    have hcall := (System.denotes_some hdenotes).1
    rw [hdenotes]
    refine ⟨?_, ?_, ?_⟩
    · intro c hc
      rcases List.mem_append.1 hc with hc | hc
      · exact h.made c hc
      · rw [List.mem_singleton.1 hc]
        exact List.mem_map_of_mem hcall
    · intro d' hd' hc
      obtain ⟨hd', hne⟩ := (hreleased d').1 hd'
      rcases List.mem_append.1 hc with hc | hc
      · exact h.gone d' hd' hc
      · -- two active descriptors do not denote one call
        obtain ⟨call', hdenotes', hcorrelation', -⟩ := hsound.active d' hd'
        obtain rfl := hsound.eq_of_correlation (System.denotes_some hdenotes').1 hcall
          (hcorrelation'.trans (List.mem_singleton.1 hc))
        exact hne ((System.denotes_some hdenotes').2.symm.trans (System.denotes_some hdenotes).2)
    · apply List.Nodup.append h.once (List.nodup_singleton _)
      intro c hc hc'
      have hc' : c = call.correlation := List.mem_singleton.1 hc'
      rw [hc', hcorrelation] at hc
      exact h.gone d hd hc

/-- What one event keeps. -/
theorem step (h : Once s) (hsound : s.Sound env size) {e : Event Sender} (he : s.Admits env e) :
    Once (s.step env size e) := by
  cases e with
  | async => exact h.async he
  | cancel descriptor => exact h.cancel hsound descriptor
  | reply descriptor output flags =>
    refine h.of_subset ?_ ?_ fun d hd => actives_reply hd
    · unfold System.step
      dsimp only
      cases Call.reply env descriptor output flags s.context <;> rfl
    · unfold System.step
      dsimp only
      cases Call.reply env descriptor output flags s.context <;> rfl
  | _ => exact h.of_subset rfl rfl fun _ hd => hd

end Once

/-! ## What a handle is left with -/

/-- What follows once a message has been taken for a descriptor. -/
def replied (env : Surroundings) (output : Option Payload) (flags : Flags) : Option Complete → M Sender Reply
  | none => throw .noMessage
  | some m => do
    let reply := env.unmarshal m
    modify fun s => { s with userCode := reply.code }
    onExit (do
      updateTransaction reply
      checkOutput env reply output flags
      attempt env .other
      return reply)
      (unreserve reply.descriptor)

theorem reply_eq (env : Surroundings) (descriptor : Nat) (output : Option Payload) (flags : Flags) :
    reply env descriptor output flags =
      ((deadline (if flag TPGETANY flags then 0 else descriptor) >>= fun _ =>
        receive env (if flag TPGETANY flags then 0 else descriptor) flags : M Sender (Option Complete)) >>=
          replied env output flags) := by
  rw [bind_assoc]
  unfold reply
  apply bind_congr
  intro _
  apply bind_congr
  rintro (_ | m) <;> rfl

/-- A handle is left with what was asked for, or with a descriptor that is not active. -/
theorem fetched_spec (env : Surroundings) (descriptor : Nat) (output : Option Payload) (flags : Flags)
    (s : Context Sender) :
    fetched env descriptor flags s = 0 ∨ fetched env descriptor flags s = descriptor ∨
      ∀ d ∈ (after (reply env descriptor output flags s)).pending.actives,
        d.descriptor ≠ fetched env descriptor flags s := by
  have hasked : (if flag TPGETANY flags then 0 else descriptor) = 0 ∨
      (if flag TPGETANY flags then 0 else descriptor) = descriptor := by
    split_ifs
    · exact .inl rfl
    · exact .inr rfl
  rw [reply_eq]
  unfold fetched
  dsimp only
  cases hr : (deadline (if flag TPGETANY flags then 0 else descriptor) >>= fun _ =>
      receive env (if flag TPGETANY flags then 0 else descriptor) flags : M Sender (Option Complete)) s with
  | error e t => exact hasked.imp_right .inl
  | ok r t =>
    cases r with
    | none => exact hasked.imp_right .inl
    | some m =>
      right; right
      rw [bind_ok hr]
      intro d hd
      have hmodify : (modify fun s => { s with userCode := (env.unmarshal m).code } : M Sender PUnit) t =
          .ok ⟨⟩ { t with userCode := (env.unmarshal m).code } := rfl
      unfold replied at hd
      dsimp only at hd
      rw [bind_ok hmodify] at hd
      obtain ⟨u, hu⟩ := exists_after_onExit (do
        updateTransaction (env.unmarshal m)
        checkOutput env (env.unmarshal m) output flags
        attempt env .other
        return env.unmarshal m) (unreserve (env.unmarshal m).descriptor) { t with userCode := (env.unmarshal m).code }
      rw [hu] at hd
      exact (((after_unreserve (env.unmarshal m).descriptor u).2 d).1 hd).2

namespace Program

variable {env : Surroundings} {size : TransportSize} {p : Program Sender}

/-- Where a descriptor that a handle holds is active, it denotes the handle's own call. -/
def Own (p : Program Sender) : Prop :=
  ∀ h, some h ∈ p.handles → h.moved = false → ∀ d ∈ p.system.context.pending.actives,
    d.descriptor = h.descriptor → h.own = some d.correlation

/-- What holds of every program that is careful. -/
structure Sound (env : Surroundings) (size : TransportSize) (p : Program Sender) : Prop where
  system : p.system.Sound env size
  once : Once p.system
  held : p.Own
  own : ∀ c ∈ p.cancels, c.1 = some c.2
  log : p.cancels.map (·.2) = p.system.cancelled

omit [DecidableEq Sender] in
theorem Sound.noForeign (h : p.Sound env size) : p.NoForeign := by
  refine ⟨h.own, h.log ▸ h.once.once, ?_⟩
  intro c hc hreturned
  exact (h.system.returned _ hreturned).2 (h.log ▸ List.mem_map_of_mem hc)

omit [DecidableEq Sender] in
theorem sound_initial : (initial : Program Sender).Sound env size := by
  have hnone : (System.initial : System Sender).context.pending.actives = [] := rfl
  have honce : Once (System.initial : System Sender) := by
    refine ⟨nofun, ?_, .nil⟩
    rw [hnone]
    exact fun _ => nofun
  exact ⟨System.sound_initial, honce, (fun _ h => nomatch h), nofun, rfl⟩

omit [DecidableEq Sender] in
theorem mem_of_handle {i : Nat} {h : Handle} (hi : p.handle i = some h) : some h ∈ p.handles := by
  unfold handle at hi
  cases hget : p.handles[i]? with
  | none => rw [hget] at hi; cases hi
  | some o =>
    rw [hget] at hi
    obtain rfl : o = some h := hi
    exact List.mem_of_getElem? hget

omit [DecidableEq Sender] in
/-- Where less is active, and each handle was there or holds nothing else. -/
theorem Own.of_subset {q : Program Sender} (h : p.Own)
    (hactives : ∀ d ∈ q.system.context.pending.actives, d ∈ p.system.context.pending.actives)
    (hhandles : ∀ g, some g ∈ q.handles → g.moved = false →
      (∃ g', some g' ∈ p.handles ∧ g'.moved = false ∧ g'.descriptor = g.descriptor ∧ g'.own = g.own) ∨
      ∀ d ∈ q.system.context.pending.actives, d.descriptor ≠ g.descriptor) : q.Own := by
  intro g hg hmoved d hd heq
  rcases hhandles g hg hmoved with ⟨g', hg', hmoved', hdescriptor, hown⟩ | hnone
  · rw [← hown]
    exact h g' hg' hmoved' d (hactives d hd) (heq.trans hdescriptor.symm)
  · exact absurd heq (hnone d hd)

/-- A result that is asked for leaves the handle with its descriptor, or one that is not active. -/
theorem Sound.received (h : p.Sound env size) {i : Nat} {g : Handle} {output : Option Payload} {flags : Flags}
    {descriptor : Nat} (hi : p.handle i = some g)
    (hleft : descriptor = 0 ∨ descriptor = g.descriptor ∨
      ∀ d ∈ (after (reply env g.descriptor output flags p.system.context)).pending.actives, d.descriptor ≠ descriptor) :
    (p.received env size i g output flags descriptor).Sound env size := by
  have hadmits : p.system.Admits env (.reply g.descriptor output flags) := trivial
  have hcontext : (p.system.step env size (.reply g.descriptor output flags)).context =
      after (reply env g.descriptor output flags p.system.context) := by
    unfold System.step
    dsimp only
    cases Call.reply env g.descriptor output flags p.system.context <;> rfl
  have hcancelled : (p.system.step env size (.reply g.descriptor output flags)).cancelled = p.system.cancelled := by
    unfold System.step
    dsimp only
    cases Call.reply env g.descriptor output flags p.system.context <;> rfl
  refine ⟨h.system.step hadmits, h.once.step h.system hadmits, ?_, h.own, h.log.trans hcancelled.symm⟩
  have hsubset : ∀ d ∈ (p.system.step env size (.reply g.descriptor output flags)).context.pending.actives,
      d ∈ p.system.context.pending.actives := fun d hd => actives_reply hd
  apply h.held.of_subset hsubset
  intro g' hg' hmoved
  rcases List.mem_or_eq_of_mem_set hg' with hg' | hg'
  · exact .inl ⟨g', hg', hmoved, rfl, rfl⟩
  · obtain rfl := Option.some.inj hg'
    rcases hleft with rfl | rfl | hleft
    · right
      exact fun d hd => (Pending.positive _ d (Pending.mem_actives.1 hd).1).ne'
    · exact .inl ⟨g, mem_of_handle hi, hmoved, rfl, rfl⟩
    · right
      intro d hd
      have hd : d ∈ (p.system.step env size (.reply g.descriptor output flags)).context.pending.actives := hd
      exact hleft d (hcontext ▸ hd)

omit [DecidableEq Sender] in
/-- What is done to the handles alone. -/
theorem Sound.rearranged (h : p.Sound env size) {handles : List (Option Handle)}
    (hhandles : ∀ g, some g ∈ handles → g.moved = false →
      ∃ g', some g' ∈ p.handles ∧ g'.moved = false ∧ g'.descriptor = g.descriptor ∧ g'.own = g.own) :
    Sound env size { p with handles } :=
  ⟨h.system, h.once, h.held.of_subset (fun _ hd => hd) fun g hg hmoved => .inl (hhandles g hg hmoved), h.own, h.log⟩

omit [DecidableEq Sender] in
theorem Sound.move (h : p.Sound env size) {i : Nat} {g : Handle} (hi : p.handle i = some g) (hg : g.moved = false) :
    (p.move i g).Sound env size := by
  apply h.rearranged
  intro g' hg' hmoved
  rcases List.mem_append.1 hg' with hg' | hg'
  · rcases List.mem_or_eq_of_mem_set hg' with hg' | hg'
    · exact ⟨g', hg', hmoved, rfl, rfl⟩
    · obtain rfl := Option.some.inj hg'
      cases hmoved
  · obtain rfl := Option.some.inj (List.mem_singleton.1 hg')
    exact ⟨g, mem_of_handle hi, hg, rfl, rfl⟩

omit [DecidableEq Sender] in
theorem Sound.assign (h : p.Sound env size) {i j : Nat} {g other : Handle} (hj : p.handle j = some other)
    (hother : other.moved = false) : (p.assign i j g other).Sound env size := by
  apply h.rearranged
  intro g' hg' hmoved
  rcases List.mem_or_eq_of_mem_set hg' with hg' | hg'
  · rcases List.mem_or_eq_of_mem_set hg' with hg' | hg'
    · exact ⟨g', hg', hmoved, rfl, rfl⟩
    · obtain rfl := Option.some.inj hg'
      exact ⟨other, mem_of_handle hj, hother, rfl, rfl⟩
  · obtain rfl := Option.some.inj hg'
    cases hmoved

/-- A handle that is destroyed cancels nothing but its own call. -/
theorem Sound.destroy (h : p.Sound env size) {i : Nat} {g : Handle} (hi : p.handle i = some g) :
    (p.destroy env size i g).Sound env size := by
  have hset : ∀ g', some g' ∈ p.handles.set i none → some g' ∈ p.handles := by
    intro g' hg'
    rcases List.mem_or_eq_of_mem_set hg' with hg' | hg'
    · exact hg'
    · cases hg'
  have hadmits : p.system.Admits env (.cancel g.descriptor) := trivial
  have hsubset : ∀ d ∈ (p.system.step env size (.cancel g.descriptor)).context.pending.actives,
      d ∈ p.system.context.pending.actives := fun d hd => actives_cancel hd
  unfold Program.destroy
  dsimp only
  split_ifs with hcancels
  · refine ⟨h.system.step hadmits, h.once.step h.system hadmits, ?_, ?_, ?_⟩
    · exact h.held.of_subset hsubset fun g' hg' hmoved => .inl ⟨g', hset g' hg', hmoved, rfl, rfl⟩
    · have hspec := cancel_spec g.descriptor p.system.context p.system.context rfl
      cases hr : Call.cancel g.descriptor p.system.context with
      | error e t => exact h.own
      | ok _ t =>
        rw [hr] at hspec
        obtain ⟨d, hd, hdescriptor, -, -⟩ := hspec
        obtain ⟨call, hdenotes, hcorrelation, -⟩ := h.system.active d hd
        rw [hdescriptor] at hdenotes
        have hown := h.held g (mem_of_handle hi) hcancels.1 d hd hdescriptor
        intro c hc
        rcases List.mem_append.1 hc with hc | hc
        · exact h.own c hc
        · rw [hdenotes] at hc
          rw [List.mem_singleton.1 hc]
          exact hown.trans (congrArg some hcorrelation.symm)
    · unfold System.step
      dsimp only
      cases Call.cancel g.descriptor p.system.context with
      | error e t => exact h.log
      | ok _ t =>
        dsimp only
        rw [List.map_append, h.log, List.map_map]
        rfl
  · exact h.rearranged fun g' hg' hmoved => ⟨g', hset g' hg', hmoved, rfl, rfl⟩

/-- A call gives its handle a descriptor that no other one holds. -/
theorem Sound.call (h : p.Sound env size) {lookupCorrelation correlation : Uuid} {service : String} {input : Payload}
    {flags : Flags} (hadmits : p.system.Admits env (.async lookupCorrelation correlation service input flags))
    (hheld : flag TPNOREPLY flags = false → ¬ p.Holds (p.system.context.pending.reserve correlation).2) :
    (p.step env size (.call lookupCorrelation correlation service input flags)).Sound env size := by
  have hsystem : (p.system.step env size (.async lookupCorrelation correlation service input flags)).Sound env size :=
    h.system.step hadmits
  have honce : Once (p.system.step env size (.async lookupCorrelation correlation service input flags)) :=
    h.once.step h.system hadmits
  have hcancelled : (p.system.step env size (.async lookupCorrelation correlation service input flags)).cancelled =
      p.system.cancelled := by
    unfold System.step
    dsimp only
    cases Call.async env lookupCorrelation correlation service input flags p.system.context <;> rfl
  have hactives : ∀ d ∈ (p.system.step env size
      (.async lookupCorrelation correlation service input flags)).context.pending.actives, _ :=
    fun d hd => actives_async hd
  -- a handle that was there holds no descriptor that is reserved
  have hold : ∀ g, some g ∈ p.handles → g.moved = false → ∀ d ∈ (p.system.step env size
      (.async lookupCorrelation correlation service input flags)).context.pending.actives,
      d.descriptor = g.descriptor → g.own = some d.correlation := by
    intro g hg hmoved d hd heq
    rcases hactives d hd with hd | ⟨hreply, rfl, -⟩
    · exact h.held g hg hmoved d hd heq
    · exact absurd ⟨g, hg, hmoved, heq.symm⟩ (hheld hreply)
  unfold Program.step
  dsimp only
  cases hr : Call.async env lookupCorrelation correlation service input flags p.system.context with
  | error e t => exact ⟨hsystem, honce, hold, h.own, h.log.trans hcancelled.symm⟩
  | ok descriptor t =>
    refine ⟨hsystem, honce, ?_, h.own, h.log.trans hcancelled.symm⟩
    intro g hg hmoved d hd heq
    rcases List.mem_append.1 hg with hg | hg
    · exact hold g hg hmoved d hd heq
    · obtain rfl := Option.some.inj (List.mem_singleton.1 hg)
      have hspec := async_spec env lookupCorrelation correlation service input flags p.system.context
        p.system.context (Std.Refl.refl _)
      rw [hr] at hspec
      have hreserved := hspec.2
      have heq : d.descriptor = descriptor := heq
      cases hreply : flag TPNOREPLY flags with
      | true =>
        rw [hreply, if_pos rfl] at hreserved
        rw [hreserved.1] at heq
        exact absurd heq (Pending.positive _ d (Pending.mem_actives.1 hd).1).ne'
      | false =>
        rw [hreply, if_neg Bool.false_ne_true] at hreserved
        have hdescriptor : descriptor = (p.system.context.pending.reserve correlation).2 := congrArg Prod.snd hreserved
        rcases hactives d hd with hd | ⟨-, rfl, -⟩
        · exact absurd (heq.trans hdescriptor) ((p.system.context.pending.reserve_spec correlation).1 d hd)
        · rfl

theorem Sound.outside (h : p.Sound env size) {e : Call.Event Sender} (he : Program.outside e)
    (hadmits : p.system.Admits env e) : Sound env size { p with system := p.system.step env size e } := by
  have hpending : (p.system.step env size e).context.pending = p.system.context.pending := pending_outside he
  have hcancelled : (p.system.step env size e).cancelled = p.system.cancelled := by
    cases e with
    | async => exact he.elim
    | reply => exact he.elim
    | cancel => exact he.elim
    | _ => rfl
  refine ⟨h.system.step hadmits, h.once.step h.system hadmits, ?_, h.own, h.log.trans hcancelled.symm⟩
  exact h.held.of_subset (fun d hd => hpending ▸ hd) fun g hg hmoved => .inl ⟨g, hg, hmoved, rfl, rfl⟩

/-- What one event keeps. -/
theorem Sound.step (h : p.Sound env size) {e : Event Sender} (he : p.Admits env e) (hheld : p.Unheld e) :
    (p.step env size e).Sound env size := by
  have helim : ∀ (i : Nat) (f : Handle → Program Sender),
      (∀ g, p.handle i = some g → (f g).Sound env size) → ((p.handle i).elim p f).Sound env size := by
    intro i f hf
    cases hi : p.handle i with
    | none => exact h
    | some g => exact hf g hi
  cases e with
  | system e => exact h.outside he.1 he.2
  | call lookupCorrelation correlation service input flags => exact h.call he hheld
  | get i output =>
    apply helim
    intro g hi
    apply h.received hi
    have hfetched := fetched_spec env g.descriptor output (g.flags &&& ~~~ TPNOBLOCK) p.system.context
    cases hr : reply env g.descriptor output (g.flags &&& ~~~ TPNOBLOCK) p.system.context with
    | ok _ _ => exact .inl rfl
    | error _ _ =>
      rw [hr] at hfetched
      exact hfetched
  | receive i output =>
    apply helim
    intro g hi
    exact h.received hi (fetched_spec env g.descriptor output (g.flags ||| TPNOBLOCK) p.system.context)
  | move i =>
    apply helim
    intro g hi
    exact h.move hi (hheld g hi)
  | assign i j =>
    apply helim
    intro g _
    apply helim
    intro other hj
    exact h.assign hj (hheld other hj)
  | destroy i =>
    apply helim
    intro g hi
    exact h.destroy hi

/-- As long as no descriptor is used again that a handle still holds, no handle cancels another call than its own. -/
theorem noForeign_of_reachable (h : ((machine env size).restrict Unheld).Reachable p) : p.NoForeign := by
  have hsound : p.Sound env size := by
    apply h.invariant
    · rintro _ rfl
      exact sound_initial
    · intro q e hq he
      exact hq.step he.1 he.2
  exact hsound.noForeign

/-! ### A result that is received without blocking -/

instance : ∀ e : Call.Event Unit, Decidable (outside e)
  | .async .. => .isFalse id
  | .reply .. => .isFalse id
  | .cancel .. => .isFalse id
  | .put .. => .isTrue trivial
  | .answer .. => .isTrue trivial
  | .other .. => .isTrue trivial
  | .take .. => .isTrue trivial
  | .discard .. => .isTrue trivial
  | .transactions .. => .isTrue trivial

instance (env : Surroundings) (size : TransportSize) :
    ∀ (p : Program Unit) (e : Event Unit), Decidable ((machine env size).admits p e)
  | p, .system e => inferInstanceAs (Decidable (outside e ∧ p.system.Admits env e))
  | p, .call l c s i f => inferInstanceAs (Decidable (p.system.Admits env (.async l c s i f)))
  | _, .get _ _ => .isTrue trivial
  | _, .receive _ _ => .isTrue trivial
  | _, .move _ => .isTrue trivial
  | _, .assign _ _ => .isTrue trivial
  | _, .destroy _ => .isTrue trivial

/-- A lookup that is answered, and a call. -/
def called (lookupCorrelation correlation : Uuid) : List (Event Unit) :=
  [.system (.other () (.make 2004 lookupCorrelation [0])), .system (.put ()),
    .call lookupCorrelation correlation "service" ⟨"", []⟩ 0]

/-- The first call is answered and its result received, then the descriptor is used for the second one, and the first
handle is destroyed. -/
def receivedFirst : List (Event Unit) :=
  called 101 1 ++ [.system (.answer () (.make replyType 1 [0])), .system (.put ()), .receive 0 none] ++ called 102 2 ++
    [.destroy 0]

/-- The second call is cancelled, by the handle of the first. -/
theorem receivedFirst_foreign : ∃ p : Program Unit, (machine System.plain ipcSize).Reachable p ∧
    p.system.returned = [1] ∧ p.cancels = [(some 1, 2)] ∧ ¬ p.NoForeign := by
  have hinit : (machine System.plain ipcSize).init (initial : Program Unit) := rfl
  have hreach : (machine System.plain ipcSize).Reachable
      (receivedFirst.foldl (machine System.plain ipcSize).step initial) := by
    apply Machine.Reachable.foldl (.of_init hinit)
    decide +kernel
  have hcancels : (receivedFirst.foldl (machine System.plain ipcSize).step initial).cancels = [(some 1, 2)] := by
    decide +kernel
  refine ⟨_, hreach, by decide +kernel, hcancels, fun h => ?_⟩
  have := h.own (some 1, 2) (by rw [hcancels]; exact List.mem_singleton_self _)
  revert this
  decide

instance (p : Program Unit) (descriptor : Nat) : Decidable (p.Holds descriptor) :=
  decidable_of_iff (∃ o ∈ p.handles, ∃ h, o = some h ∧ h.moved = false ∧ h.descriptor = descriptor) ⟨by
    rintro ⟨_, hmem, h, rfl, hh⟩
    exact ⟨h, hmem, hh⟩, fun ⟨h, hmem, hh⟩ => ⟨_, hmem, h, rfl, hh⟩⟩

instance : ∀ o : Option Handle, Decidable (∀ h, o = some h → h.moved = false)
  | none => .isTrue nofun
  | some h => decidable_of_iff (h.moved = false) ⟨fun hh _ heq => Option.some.inj heq ▸ hh, fun hh => hh h rfl⟩

instance : ∀ (p : Program Unit) (e : Event Unit), Decidable (p.Unheld e)
  | _, .system _ => .isTrue trivial
  | p, .call _ c _ _ f =>
    inferInstanceAs (Decidable (flag TPNOREPLY f = false → ¬ p.Holds (p.system.context.pending.reserve c).2))
  | _, .get _ _ => .isTrue trivial
  | _, .receive _ _ => .isTrue trivial
  | p, .move i => inferInstanceAs (Decidable (∀ h, p.handle i = some h → h.moved = false))
  | p, .assign _ j => inferInstanceAs (Decidable (∀ h, p.handle j = some h → h.moved = false))
  | _, .destroy _ => .isTrue trivial

/-- The handle of the first call is moved and asked for its result; the second one is destroyed without. -/
def asked : List (Event Unit) :=
  called 101 1 ++ [.move 0] ++ called 102 2 ++
    [.system (.answer () (.make replyType 1 [0])), .system (.put ()), .get 1 none, .destroy 0, .destroy 1, .destroy 2]

theorem asked_noForeign : ∃ p : Program Unit, p.system.returned = [1] ∧ p.cancels = [(some 2, 2)] ∧ p.NoForeign := by
  have hinit : ((machine System.plain ipcSize).restrict Unheld).init (initial : Program Unit) := rfl
  refine ⟨_, ?_, ?_, noForeign_of_reachable (@Machine.Reachable.foldl _ _ _ asked _ (.of_init hinit) (by decide +kernel))⟩
  · decide +kernel
  · decide +kernel

end Program

end Casual.Call

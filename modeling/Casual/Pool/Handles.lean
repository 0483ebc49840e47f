/-
Handles of buffers: each leads to its buffer until it is given back, as long as the memory of every buffer is
allocated and no size of a user is larger than the buffer that is released.
-/
import Casual.Pool.Holder
import Casual.Lib.Run

namespace Casual.Pool

open Casual.Lib

/-! ## The first of a kind -/

theorem replaceFirst_perm {α : Type} {p : α → Bool} {a : α} : ∀ {l : List α}, l.find? p = some a →
    ∃ rest, l.Perm (a :: rest) ∧ ∀ f, (replaceFirst p f l).Perm (f a ++ rest)
  | b :: l, h => by
    rw [List.find?_cons] at h
    unfold replaceFirst
    cases hb : p b with
    | true =>
      rw [hb] at h
      obtain rfl := Option.some.inj h
      exact ⟨l, .refl _, fun f => .refl _⟩
    | false =>
      rw [hb] at h
      obtain ⟨rest, hperm, hreplace⟩ := replaceFirst_perm h
      refine ⟨b :: rest, (hperm.cons b).trans (.swap a b rest), fun f => ?_⟩
      rw [if_neg Bool.false_ne_true]
      exact ((hreplace f).cons b).trans List.perm_middle.symm

namespace Holder

/-- The buffers of all pools. -/
def buffers (s : Holder) : List Buffer := s.pools.flatMap BasicPool.buffers

theorem buffers_change {p : BasicPool → Bool} {pool : BasicPool} {s : Holder} (h : s.pools.find? p = some pool) :
    ∃ rest, s.buffers.Perm (pool.buffers ++ rest) ∧ ∀ f, (s.change p f).buffers.Perm ((f pool).buffers ++ rest) := by
  obtain ⟨rest, hperm, hreplace⟩ := replaceFirst_perm h
  refine ⟨rest.flatMap BasicPool.buffers, ?_, fun f => ?_⟩
  · exact hperm.flatMap_right _
  · exact (hreplace fun pool => [f pool]).flatMap_right _

theorem buffers_addBuffer {type : BufferType} {pool : BasicPool} {s : Holder} (h : s.pools.find? (BasicPool.manageType type) = some pool)
    (b : Buffer) : (s.addBuffer type b).buffers.Perm (b :: s.buffers) := by
  obtain ⟨rest, hperm, hchange⟩ := buffers_change h
  have hadded : (s.addBuffer type b).buffers.Perm ((pool.buffers ++ [b]) ++ rest) := hchange (BasicPool.add b)
  rw [List.append_assoc] at hadded
  exact (hadded.trans List.perm_middle).trans (hperm.symm.cons b)

/-- A pool that manages a handle has the buffer, which is replaced without the others. -/
theorem buffers_replaceBuffer {handle : Handle} {pool : BasicPool} {s : Holder} (h : s.pools.find? (BasicPool.manage handle) = some pool) :
    ∃ b rest, pool.find handle = some b ∧ b.handle = handle ∧ s.buffers.Perm (b :: rest) ∧
      ∀ f, (s.replaceBuffer handle f).buffers.Perm (f b ++ rest) := by
  have hmanage : pool.manage handle = true := List.find?_some h
  obtain ⟨b, hb⟩ := Option.isSome_iff_exists.1 hmanage
  obtain ⟨rest, hperm, hchange⟩ := buffers_change h
  obtain ⟨rest', hperm', hreplace⟩ := replaceFirst_perm hb
  have hfound : pool.buffers.find? (fun b => b.handle == handle) = some b := hb
  have hhandle := List.find?_some hfound
  refine ⟨b, rest' ++ rest, hb, beq_iff_eq.1 hhandle, ?_, fun f => ?_⟩
  · exact hperm.trans (hperm'.append_right rest)
  · refine (hchange (BasicPool.replace handle f)).trans ?_
    rw [← List.append_assoc]
    exact (hreplace f).append_right rest

theorem handle_ne_of_unmanaged {handle : Handle} {s : Holder} (h : s.pools.find? (BasicPool.manage handle) = none) :
    ∀ b ∈ s.buffers, b.handle ≠ handle := by
  intro b hb heq
  obtain ⟨pool, hpool, hmem⟩ := List.mem_flatMap.1 hb
  refine List.find?_eq_none.1 h pool hpool ?_
  show (pool.buffers.find? fun b => b.handle == handle).isSome = true
  exact List.find?_isSome.2 ⟨b, hmem, beq_iff_eq.2 heq⟩

/-- Where handles are distinct, each leads to its buffer. -/
theorem lookup_of_mem {s : Holder} {b : Buffer} (hdistinct : (s.buffers.map Buffer.handle).Nodup) (hb : b ∈ s.buffers) :
    s.lookup b.handle = some b := by
  unfold lookup
  cases hfind : s.pools.find? (BasicPool.manage b.handle) with
  | none => exact absurd rfl (handle_ne_of_unmanaged hfind b hb)
  | some pool =>
    obtain ⟨c, rest, hc, hhandle, hperm, -⟩ := buffers_replaceBuffer hfind
    have hmem : c ∈ s.buffers := hperm.mem_iff.2 List.mem_cons_self
    rw [Option.bind_some, hc, List.inj_on_of_nodup_map hdistinct hmem hb hhandle]

end Holder

/-! ## Buffers that are live -/

/-- What a user may do. -/
inductive Event
  | allocate (type : BufferType) (size : Nat)
  | reallocate (handle : Handle) (size : Nat)
  | deallocate (handle : Handle)
  | insert (type : BufferType) (length : Nat)
  | adopt (type : BufferType) (length : Nat)
  | release (handle : Handle) (userSize : Option Nat)
  | clear
  | use (handle : Handle) (size : Nat)

/-- The memory of a buffer may be moved to where it is. -/
def Event.moves : Event → Handle → Bool
  | reallocate handle _, handle' => handle == handle'
  | _, _ => false

/-- A holder, and what its users know: which buffers are live and under which handles, and which of them a
service was called with. -/
structure Watched where
  holder : Holder
  live : List (Nat × Handle)
  service : Option Nat
  next : Nat

namespace Watched

/-- The state that an operation leaves, and what it returned. -/
def result {α : Type} (r : EStateM.Result Exception Holder α) : Option α × Holder :=
  match r with
  | .ok a s => (some a, s)
  | .error _ s => (none, s)

/-- A buffer is live when there is a handle of it, if only a null one. -/
def added (w : Watched) (r : Option Handle × Holder) : Watched :=
  match r.1 with
  | some handle => { w with holder := r.2, live := w.live ++ [(w.next, handle)], next := w.next + 1 }
  | none => { w with holder := r.2 }

/-- An event, and which handles are live after it. -/
def watch (w : Watched) (x : Environment × Event) : Watched :=
  match x.2 with
  | .allocate type size => w.added (result (Holder.allocate x.1 w.next type size w.holder))
  | .reallocate handle size =>
    let r := result (Holder.reallocate x.1 handle size w.holder)
    match r.1 with
    | some handle' => { w with holder := r.2, live := w.live.map fun e => if e.2 = handle then (e.1, handle') else e }
    | none => { w with holder := r.2 }
  | .deallocate handle =>
    -- a user's `tpfree` of the inbound buffer is not to free it
    let r := result (Holder.deallocate handle w.holder)
    match r.1 with
    | some _ => { w with holder := r.2, live := w.live.filter fun e => e.2 ≠ handle ∨ some e.1 = w.service }
    | none => { w with holder := r.2 }
  | .insert type length =>
    let payload := Payload.received x.1 type length
    let r := result (Holder.insert w.next payload w.holder)
    if payload.null then { w with holder := r.2 } else w.added r
  | .adopt type length =>
    let payload := Payload.received x.1 type length
    let r := result (Holder.adopt w.next payload w.holder)
    if payload.null then { w with holder := r.2, service := none }
    else if r.1.isSome then { w.added r with service := some w.next }
    else w.added r
  | .release handle userSize =>
    let r := result (Holder.release handle userSize w.holder)
    match r.1 with
    | some _ => { w with
        holder := r.2
        live := w.live.filter fun e => e.2 ≠ handle
        service := w.service.filter fun id => (id, handle) ∉ w.live }
    | none => { w with holder := r.2 }
  | .clear =>
    { w with
      holder := (result (Holder.clear w.holder)).2
      live := w.live.filter fun e => some e.1 ≠ w.service
      service := none }
  | .use handle size => { w with holder := (result (Holder.use handle size w.holder)).2 }

/-- Memory that is allocated is in use by no other buffer than the one that is moved to it. -/
def Admitted (w : Watched) (x : Environment × Event) : Prop :=
  ∀ b ∈ w.holder.buffers, b.handle = some x.1.first.address ∨ b.handle = some x.1.second.address → x.2.moves b.handle

/-- The runs from an empty holder. -/
def machine : Machine Watched (Environment × Event) where
  init w := w.holder.buffers = [] ∧ w.holder.inbound = none ∧ w.live = [] ∧ w.service = none
  admits := Admitted
  step := watch

/-- Memory is asked for where the pool does not see to it, what is received has some, and no size is larger than
the buffer that is released. -/
def Provident (w : Watched) (x : Environment × Event) : Prop :=
  match x.2 with
  | .allocate type size => ∀ pool ∈ w.holder.pools.find? (BasicPool.manageType type), pool.allocator = .basic → size ≠ 0
  | .insert type length | .adopt type length =>
    type.name ≠ "NULL" → (w.holder.pools.find? (BasicPool.manageType type)).isSome → length ≠ 0
  | .release handle userSize => ∀ size ∈ userSize, ∀ pool ∈ w.holder.pools.find? (BasicPool.manage handle),
    ∀ b ∈ pool.find handle, size ≤ pool.allocator.limit b.payload.memory
  | _ => True

/-- Every live buffer has a handle of its own, which leads to it; and the one that a service was called with is live. -/
structure Tracked (w : Watched) : Prop where
  handles : ∀ e ∈ w.live, e.2 ≠ none
  distinct : (w.live.map Prod.snd).Nodup
  found : ∀ e ∈ w.live, ∃ b, w.holder.lookup e.2 = some b ∧ b.id = e.1
  service : ∀ id, w.service = some id → ∃ handle, (id, handle) ∈ w.live

end Watched

/-! ## What operations do -/

namespace Memory

theorem data_of_capacity {m : Memory} (h : m.capacity ≠ 0) : m.data = some m.address := if_neg h

end Memory

namespace Allocator

theorem data_reserve (env : Environment) {size : Nat} (h : size ≠ 0) (m : Memory) :
    ((m.reserve env size).data = m.data ∧ m.capacity ≠ 0) ∨ (m.reserve env size).data = some env.second.address := by
  unfold Memory.reserve
  split_ifs with hsize
  · exact .inl ⟨rfl, by omega⟩
  · exact .inr (Memory.data_of_capacity (by show size + env.second.extra ≠ 0; omega))

/-- Allocated memory is new, unless a pool that does not see to it is asked for none. -/
theorem data_allocate (env : Environment) (size : Nat) (allocator : Allocator) (h : allocator = basic → size ≠ 0) :
    (allocator.allocate env size).data = some env.first.address ∨ (allocator.allocate env size).data = some env.second.address := by
  cases allocator with
  | basic => exact .inl (Memory.data_of_capacity (h rfl))
  | reserving =>
    right
    have hsize : ¬ (if size = 0 then 1 else size) ≤ Memory.empty.capacity := by
      show ¬ (if size = 0 then 1 else size) ≤ 0
      split_ifs <;> omega
    show (Memory.empty.reserve env (if size = 0 then 1 else size)).data = _
    unfold Memory.reserve
    rw [if_neg hsize]
    exact Memory.data_of_capacity (by show (if size = 0 then 1 else size) + env.second.extra ≠ 0; split_ifs <;> omega)
  | string => exact .inl (Memory.data_of_capacity (by show (if size > 0 then size else 1) ≠ 0; split_ifs <;> omega))

theorem data_resize (env : Environment) (size : Nat) (m : Memory) :
    (m.resize env size).data = m.data ∨ (m.resize env size).data = some env.first.address := by
  unfold Memory.resize
  split_ifs with hsize
  · exact .inl rfl
  · exact .inr (Memory.data_of_capacity (by show size + env.first.extra ≠ 0; omega))

/-- What is moved is where it was, or is new. -/
theorem data_reallocate (env : Environment) (size : Nat) {m : Memory} (hm : m.capacity ≠ 0) (allocator : Allocator) :
    (allocator.reallocate env size m).data = m.data ∨ (allocator.reallocate env size m).data = some env.first.address ∨
      (allocator.reallocate env size m).data = some env.second.address := by
  cases allocator with
  | basic => exact (data_resize env size m).imp_right .inl
  | string => exact (data_resize env _ m).imp_right .inl
  | reserving =>
    have hsize : (if size = 0 then 1 else size) ≠ 0 := by split_ifs <;> omega
    show ((if size < m.capacity then m.shrinkToFit env else m).reserve env (if size = 0 then 1 else size)).data = m.data ∨
      ((if size < m.capacity then m.shrinkToFit env else m).reserve env (if size = 0 then 1 else size)).data = _ ∨
      ((if size < m.capacity then m.shrinkToFit env else m).reserve env (if size = 0 then 1 else size)).data = _
    by_cases hshrink : size < m.capacity
    · rw [if_pos hshrink]
      rcases data_reserve env hsize (m.shrinkToFit env) with ⟨hdata, hcapacity⟩ | hdata
      · have hm' : (m.shrinkToFit env).data = some (if m.capacity = m.size then m.address else env.first.address) :=
          Memory.data_of_capacity hcapacity
        rw [hdata, hm', Memory.data_of_capacity hm]
        split_ifs
        · exact .inl rfl
        · exact .inr (.inl rfl)
      · exact .inr (.inr hdata)
    · rw [if_neg hshrink]
      rcases data_reserve env hsize m with ⟨hdata, -⟩ | hdata
      · exact .inl hdata
      · exact .inr (.inr hdata)

end Allocator

/-! ## The buffers and what users know of them -/

/-- The live buffers are those of the pools, each with a handle of its own. -/
structure Matched (buffers : List Buffer) (live : List (Nat × Handle)) (next : Nat) : Prop where
  live : (buffers.map fun b => (b.id, b.handle)).Perm live
  handles : ∀ b ∈ buffers, b.handle ≠ none
  distinct : (buffers.map Buffer.handle).Nodup
  ids : (buffers.map Buffer.id).Nodup
  known : ∀ b ∈ buffers, b.id < next

namespace Matched

variable {buffers rest : List Buffer} {live : List (Nat × Handle)} {next : Nat} {b : Buffer}

theorem perm (h : Matched buffers live next) (hperm : buffers.Perm rest) : Matched rest live next :=
  ⟨(hperm.map _).symm.trans h.live, fun b hb => h.handles b (hperm.mem_iff.2 hb), (hperm.map _).nodup_iff.1 h.distinct,
    (hperm.map _).nodup_iff.1 h.ids, fun b hb => h.known b (hperm.mem_iff.2 hb)⟩

theorem add (h : Matched buffers live next) (hid : b.id = next) (hnull : b.handle ≠ none) (hnew : ∀ c ∈ buffers, c.handle ≠ b.handle) :
    Matched (b :: buffers) (live ++ [(next, b.handle)]) (next + 1) := by
  refine ⟨?_, ?_, List.nodup_cons.2 ⟨?_, h.distinct⟩, List.nodup_cons.2 ⟨?_, h.ids⟩, ?_⟩
  · rw [List.map_cons, hid]
    exact (h.live.cons _).trans (List.perm_append_singleton _ _).symm
  · exact List.forall_mem_cons.2 ⟨hnull, h.handles⟩
  · intro hmem
    obtain ⟨c, hc, heq⟩ := List.mem_map.1 hmem
    exact hnew c hc heq
  · intro hmem
    obtain ⟨c, hc, heq⟩ := List.mem_map.1 hmem
    have := h.known c hc
    omega
  · exact List.forall_mem_cons.2 ⟨by omega, fun c hc => (h.known c hc).trans (Nat.lt_succ_self _)⟩

/-- A buffer that is given back, and no other. -/
theorem remove (h : Matched (b :: rest) live next) {p : Nat × Handle → Bool} (hb : p (b.id, b.handle) = false)
    (hrest : ∀ c ∈ rest, p (c.id, c.handle) = true) : Matched rest (live.filter p) next := by
  refine ⟨?_, (List.forall_mem_cons.1 h.handles).2, (List.nodup_cons.1 h.distinct).2, (List.nodup_cons.1 h.ids).2,
    (List.forall_mem_cons.1 h.known).2⟩
  have hfilter := h.live.filter p
  rw [List.map_cons, List.filter_cons_of_neg (by rw [hb]; exact Bool.false_ne_true), List.filter_eq_self.2] at hfilter
  · exact hfilter
  · intro e he
    obtain ⟨c, hc, rfl⟩ := List.mem_map.1 he
    exact hrest c hc

theorem handle_ne (h : Matched (b :: rest) live next) : ∀ c ∈ rest, c.handle ≠ b.handle := by
  intro c hc heq
  exact (List.nodup_cons.1 h.distinct).1 (List.mem_map.2 ⟨c, hc, heq⟩)

theorem id_ne (h : Matched (b :: rest) live next) : ∀ c ∈ rest, c.id ≠ b.id := by
  intro c hc heq
  exact (List.nodup_cons.1 h.ids).1 (List.mem_map.2 ⟨c, hc, heq⟩)

/-- A buffer whose memory is moved. -/
theorem move (h : Matched (b :: rest) live next) {c : Buffer} (hid : c.id = b.id) (hnull : c.handle ≠ none)
    (hnew : ∀ d ∈ rest, d.handle ≠ c.handle) :
    Matched (c :: rest) (live.map fun e => if e.2 = b.handle then (e.1, c.handle) else e) next := by
  have hdistinct := (List.nodup_cons.1 h.distinct).2
  have hids := List.nodup_cons.1 h.ids
  refine ⟨?_, List.forall_mem_cons.2 ⟨hnull, (List.forall_mem_cons.1 h.handles).2⟩, List.nodup_cons.2 ⟨?_, hdistinct⟩,
    List.nodup_cons.2 ⟨hid ▸ hids.1, hids.2⟩, List.forall_mem_cons.2 ⟨hid ▸ (List.forall_mem_cons.1 h.known).1,
    (List.forall_mem_cons.1 h.known).2⟩⟩
  · have hmap := h.live.map fun e => if e.2 = b.handle then (e.1, c.handle) else e
    rw [List.map_cons, List.map_cons, if_pos rfl, List.map_map] at hmap
    rw [List.map_cons, hid]
    have hsame : rest.map ((fun e : Nat × Handle => if e.2 = b.handle then (e.1, c.handle) else e) ∘ fun d => (d.id, d.handle)) =
        rest.map fun d => (d.id, d.handle) := List.map_congr_left fun d hd => if_neg (h.handle_ne d hd)
    rw [hsame] at hmap
    exact hmap
  · intro hmem
    obtain ⟨d, hd, heq⟩ := List.mem_map.1 hmem
    exact hnew d hd heq

theorem mem_live (h : Matched buffers live next) {e : Nat × Handle} : e ∈ live ↔ ∃ b ∈ buffers, (b.id, b.handle) = e := by
  rw [← h.live.mem_iff, List.mem_map]

theorem handle_ne_none (h : Matched buffers live next) {e : Nat × Handle} (he : e ∈ live) : e.2 ≠ none := by
  obtain ⟨b, hb, rfl⟩ := h.mem_live.1 he
  exact h.handles b hb

/-- A handle is that of one buffer. -/
theorem eq_of_handle (h : Matched buffers live next) {e e' : Nat × Handle} (he : e ∈ live) (he' : e' ∈ live) (heq : e.2 = e'.2) :
    e = e' := by
  obtain ⟨b, hb, rfl⟩ := h.mem_live.1 he
  obtain ⟨c, hc, rfl⟩ := h.mem_live.1 he'
  rw [List.inj_on_of_nodup_map h.distinct hb hc heq]

theorem eq_of_id (h : Matched buffers live next) {e e' : Nat × Handle} (he : e ∈ live) (he' : e' ∈ live) (heq : e.1 = e'.1) :
    e = e' := by
  obtain ⟨b, hb, rfl⟩ := h.mem_live.1 he
  obtain ⟨c, hc, rfl⟩ := h.mem_live.1 he'
  rw [List.inj_on_of_nodup_map h.ids hb hc heq]

end Matched

namespace Holder

open Watched

theorem buffers_moveInbound (handle handle' : Handle) (s : Holder) : (s.moveInbound handle handle').buffers = s.buffers := by
  unfold moveInbound
  split_ifs <;> rfl

theorem inbound_moveInbound (handle handle' : Handle) (s : Holder) :
    (s.moveInbound handle handle').inbound = if handle = s.inbound then handle' else s.inbound := by
  unfold moveInbound
  split_ifs <;> rfl

/-! ### What an operation returns and leaves -/

theorem find_cases (p : BasicPool → Bool) (e : Exception) (s : Holder) :
    (s.pools.find? p = none ∧ find p e s = .error e s) ∨ ∃ pool, s.pools.find? p = some pool ∧ find p e s = .ok pool s := by
  unfold find
  cases h : s.pools.find? p with
  | none => exact .inl ⟨rfl, rfl⟩
  | some pool => exact .inr ⟨pool, rfl, rfl⟩

theorem allocate_cases (env : Environment) (id : Nat) (type : BufferType) (size : Nat) (s : Holder) :
    result (allocate env id type size s) = (none, s) ∨
    ∃ pool b, s.pools.find? (BasicPool.manageType type) = some pool ∧ b.id = id ∧
      b.handle = (pool.allocator.allocate env size).data ∧
      result (allocate env id type size s) = (some b.handle, s.addBuffer type b) := by
  unfold allocate findType
  rcases find_cases (BasicPool.manageType type) .type s with ⟨-, h⟩ | ⟨pool, hpool, h⟩
  · rw [bind_error h]
    exact .inl rfl
  · rw [bind_ok h]
    exact .inr ⟨pool, ⟨id, type, pool.allocator.allocate env size⟩, hpool, rfl, rfl, rfl⟩

theorem insert_cases (id : Nat) {payload : Payload} (hnull : payload.null = false) (s : Holder) :
    insert id payload s = .error .type s ∨
    ∃ pool b, s.pools.find? (BasicPool.manageType payload.type) = some pool ∧ b.id = id ∧ b.handle = payload.memory.data ∧
      insert id payload s = .ok b.handle (s.addBuffer payload.type b) := by
  unfold insert findType
  rw [hnull]
  rcases find_cases (BasicPool.manageType payload.type) .type s with ⟨-, h⟩ | ⟨pool, hpool, h⟩
  · exact .inl (bind_error h)
  · exact .inr ⟨pool, ⟨id, payload⟩, hpool, rfl, rfl, bind_ok h⟩

theorem reallocate_cases (env : Environment) (handle : Handle) (size : Nat) (s : Holder) :
    result (reallocate env handle size s) = (none, s) ∨
    ∃ (pool : BasicPool) (b c : Buffer) (rest : List Buffer), s.buffers.Perm (b :: rest) ∧ b.handle = handle ∧ c.id = b.id ∧
      c.payload.memory = pool.allocator.reallocate env size b.payload.memory ∧
      (result (reallocate env handle size s)).1 = some c.handle ∧
      (result (reallocate env handle size s)).2.buffers.Perm (c :: rest) ∧
      (result (reallocate env handle size s)).2.inbound = if handle = s.inbound then c.handle else s.inbound := by
  unfold reallocate findHandle
  rcases find_cases (BasicPool.manage handle) .argument s with ⟨-, h⟩ | ⟨pool, hpool, h⟩
  · rw [bind_error h]
    exact .inl rfl
  · obtain ⟨b, rest, hb, hhandle, hperm, hreplace⟩ := buffers_replaceBuffer hpool
    rw [bind_ok h, hb]
    refine .inr ⟨pool, b, { b with payload := { b.payload with memory := pool.allocator.reallocate env size b.payload.memory } }, rest,
      hperm, hhandle, rfl, rfl, rfl, ?_, ?_⟩
    · exact (List.Perm.of_eq (buffers_moveInbound ..)).trans (hreplace _)
    · exact inbound_moveInbound ..

theorem deallocate_cases (handle : Handle) (s : Holder) :
    (handle = s.inbound ∨ handle = none) ∧ result (deallocate handle s) = (some (), s) ∨
    handle ≠ s.inbound ∧ (result (deallocate handle s) = (none, s) ∨
      ∃ b rest t, s.buffers.Perm (b :: rest) ∧ b.handle = handle ∧ result (deallocate handle s) = (some (), t) ∧
        t.buffers.Perm rest ∧ t.inbound = s.inbound) := by
  have hget : (get : M Holder) s = .ok s s := rfl
  unfold deallocate findHandle
  rw [bind_ok hget]
  split_ifs with hfree
  · refine .inr ⟨hfree.1, ?_⟩
    rcases find_cases (BasicPool.manage handle) .argument s with ⟨-, h⟩ | ⟨pool, hpool, h⟩
    · rw [bind_error h]
      exact .inl rfl
    · obtain ⟨b, rest, -, hhandle, hperm, hreplace⟩ := buffers_replaceBuffer hpool
      rw [bind_ok h]
      exact .inr ⟨b, rest, _, hperm, hhandle, rfl, hreplace _, rfl⟩
  · refine .inl ⟨?_, rfl⟩
    rwa [not_and_or, not_not, not_not] at hfree

theorem release_cases {handle : Handle} {userSize : Option Nat} {s : Holder}
    (hsize : ∀ size ∈ userSize, ∀ pool ∈ s.pools.find? (BasicPool.manage handle), ∀ b ∈ pool.find handle,
      size ≤ pool.allocator.limit b.payload.memory) :
    handle = none ∧ result (release handle userSize s) = (some none, s) ∨
    handle ≠ none ∧ (result (release handle userSize s) = (none, s) ∨
      ∃ b rest t, s.buffers.Perm (b :: rest) ∧ b.handle = handle ∧ result (release handle userSize s) = (some (some b), t) ∧
        t.buffers.Perm rest ∧ t.inbound = if handle = s.inbound then none else s.inbound) := by
  unfold release findHandle
  by_cases hnull : handle = none
  · rw [if_pos hnull]
    exact .inl ⟨hnull, rfl⟩
  · rw [if_neg hnull]
    refine .inr ⟨hnull, ?_⟩
    rcases find_cases (BasicPool.manage handle) .argument s with ⟨-, h⟩ | ⟨pool, hpool, h⟩
    · left
      show result ((find (BasicPool.manage handle) .argument >>= _ : M (Option Buffer)) s) = _
      rw [bind_error h]
      rfl
    · obtain ⟨b, rest, hb, hhandle, hperm, hreplace⟩ := buffers_replaceBuffer hpool
      have hfits : (userSize.any fun size => (some b).any fun b => decide (size > pool.allocator.limit b.payload.memory)) = false := by
        cases hu : userSize with
        | none => rfl
        | some size => exact decide_eq_false (not_lt.2 (hsize size hu pool hpool b hb))
      have hset : (modify (replaceBuffer handle fun _ => []) : M Unit) s = .ok () (s.replaceBuffer handle fun _ => []) := rfl
      right
      refine ⟨b, rest, moveInbound handle none (s.replaceBuffer handle fun _ => []), hperm, hhandle, ?_, ?_, ?_⟩
      · show result ((find (BasicPool.manage handle) .argument >>= _ : M (Option Buffer)) s) = _
        rw [bind_ok h, hb, bind_ok hset, hfits]
        rfl
      · exact (List.Perm.of_eq (buffers_moveInbound ..)).trans (hreplace _)
      · exact inbound_moveInbound ..

theorem clear_cases (s : Holder) :
    (s.inbound = none ∨ s.pools.find? (BasicPool.manage s.inbound) = none) ∧ (result (clear s)).2 = s ∨
    s.inbound ≠ none ∧ ∃ b rest, s.buffers.Perm (b :: rest) ∧ b.handle = s.inbound ∧ (result (clear s)).2.buffers.Perm rest ∧
      (result (clear s)).2.inbound = none := by
  have hget : (get : M Holder) s = .ok s s := rfl
  unfold clear findHandle
  rw [bind_ok hget]
  by_cases hnull : s.inbound = none
  · rw [if_neg (not_not.2 hnull)]
    exact .inl ⟨.inl hnull, rfl⟩
  · rw [if_pos hnull]
    rcases find_cases (BasicPool.manage s.inbound) .argument s with ⟨hnone, h⟩ | ⟨pool, hpool, h⟩
    · rw [tryCatch_error (bind_error h)]
      exact .inl ⟨.inr hnone, rfl⟩
    · obtain ⟨b, rest, -, hhandle, hperm, hreplace⟩ := buffers_replaceBuffer hpool
      have hbody : (do
          let _ ← find (BasicPool.manage s.inbound) .argument
          modify (replaceBuffer s.inbound fun _ => [])
          modify fun s => { s with inbound := none } : M Unit) s =
          .ok () { s.replaceBuffer s.inbound fun _ => [] with inbound := none } := bind_ok h
      rw [tryCatch_ok hbody]
      exact .inr ⟨hnull, b, rest, hperm, hhandle, hreplace _, rfl⟩

theorem use_cases (handle : Handle) (size : Nat) (s : Holder) :
    (result (use handle size s)).2 = s ∨
    ∃ b c rest, s.buffers.Perm (b :: rest) ∧ c.id = b.id ∧ c.handle = b.handle ∧
      (result (use handle size s)).2.buffers.Perm (c :: rest) ∧ (result (use handle size s)).2.inbound = s.inbound := by
  unfold use findHandle
  rcases find_cases (BasicPool.manage handle) .argument s with ⟨-, h⟩ | ⟨pool, hpool, h⟩
  · rw [bind_error h]
    exact .inl rfl
  · obtain ⟨b, rest, hb, hhandle, hperm, hreplace⟩ := buffers_replaceBuffer hpool
    rw [bind_ok h, hb]
    simp only []
    split_ifs
    · exact .inr ⟨b, { b with payload := { b.payload with memory := { b.payload.memory with size := size } } }, rest, hperm, rfl, rfl,
        hreplace _, rfl⟩
    · exact .inl rfl

end Holder

namespace Watched

/-- The live buffers are known by their handles, and the inbound buffer is the one a service was called with. -/
structure Kept (w : Watched) : Prop where
  matched : Matched w.holder.buffers w.live w.next
  service : ∀ id, w.service = some id → (id, w.holder.inbound) ∈ w.live
  nobody : w.service = none → w.holder.inbound = none

namespace Kept

variable {w : Watched} {x : Environment × Event}

theorem tracked (h : w.Kept) : w.Tracked := by
  refine ⟨fun e he => h.matched.handle_ne_none he, ?_, fun e he => ?_, fun id hid => ⟨_, h.service id hid⟩⟩
  · have hperm := h.matched.live.map Prod.snd
    rw [List.map_map] at hperm
    exact hperm.nodup_iff.1 h.matched.distinct
  · obtain ⟨b, hb, rfl⟩ := h.matched.mem_live.1 he
    exact ⟨b, Holder.lookup_of_mem h.matched.distinct hb, rfl⟩

/-- Memory that is new is that of no buffer. -/
theorem new (hx : w.Admitted x) {handle : Handle} (hmoves : x.2.moves handle = false)
    (hdata : handle = some x.1.first.address ∨ handle = some x.1.second.address) :
    handle ≠ none ∧ ∀ b ∈ w.holder.buffers, b.handle ≠ handle := by
  refine ⟨by rcases hdata with rfl | rfl <;> exact Option.some_ne_none _, fun b hb heq => ?_⟩
  have hmoved := hx b hb (by rw [heq]; exact hdata)
  rw [heq, hmoves] at hmoved
  cases hmoved

theorem same (h : w.Kept) {s : Holder} (hs : s = w.holder) : Kept { w with holder := s } := by
  subst hs
  exact h

theorem added (h : w.Kept) {b : Buffer} {s : Holder} (hperm : s.buffers.Perm (b :: w.holder.buffers)) (hinbound : s.inbound = w.holder.inbound)
    (hid : b.id = w.next) (hnew : b.handle ≠ none ∧ ∀ c ∈ w.holder.buffers, c.handle ≠ b.handle) :
    Kept (w.added (some b.handle, s)) := by
  refine ⟨(h.matched.add hid hnew.1 hnew.2).perm hperm.symm, fun id hservice => ?_, fun hnobody => ?_⟩
  · show (id, s.inbound) ∈ w.live ++ [(w.next, b.handle)]
    rw [hinbound]
    exact List.mem_append_left _ (h.service id hservice)
  · exact hinbound.trans (h.nobody hnobody)

theorem allocate (h : w.Kept) (env : Environment) (type : BufferType) (size : Nat) (hx : w.Admitted (env, .allocate type size))
    (hsize : w.Provident (env, .allocate type size)) : (w.watch (env, .allocate type size)).Kept := by
  show Kept (w.added (result (Holder.allocate env w.next type size w.holder)))
  rcases Holder.allocate_cases env w.next type size w.holder with hr | ⟨pool, b, hpool, hid, hdata, hr⟩
  · rw [hr]
    exact h.same rfl
  · rw [hr]
    refine h.added (Holder.buffers_addBuffer hpool b) rfl hid (new hx rfl ?_)
    rw [hdata]
    exact Allocator.data_allocate env size pool.allocator (hsize pool hpool)

theorem insert (h : w.Kept) (env : Environment) (type : BufferType) (length : Nat) (hx : w.Admitted (env, .insert type length))
    (hlength : w.Provident (env, .insert type length)) : (w.watch (env, .insert type length)).Kept := by
  show Kept (if (Payload.received env type length).null then _ else _)
  by_cases hnull : (Payload.received env type length).null = true
  · have hr : Holder.insert w.next (Payload.received env type length) w.holder = .ok none w.holder := by
      unfold Holder.insert
      rw [hnull]
      rfl
    rw [if_pos hnull, hr]
    exact h.same rfl
  · rw [if_neg hnull]
    rcases Holder.insert_cases w.next (Bool.eq_false_iff.2 hnull) w.holder with hr | ⟨pool, b, hpool, hid, hdata, hr⟩
    · rw [hr]
      exact h.same rfl
    · rw [hr]
      refine h.added (Holder.buffers_addBuffer hpool b) rfl hid (new hx rfl (.inl ?_))
      have hname : type.name ≠ "NULL" := fun heq => hnull (beq_iff_eq.2 heq)
      exact hdata.trans (Memory.data_of_capacity (hlength hname (Option.isSome_of_eq_some hpool)))

theorem adopt (h : w.Kept) (env : Environment) (type : BufferType) (length : Nat) (hx : w.Admitted (env, .adopt type length))
    (hlength : w.Provident (env, .adopt type length)) : (w.watch (env, .adopt type length)).Kept := by
  show Kept (if (Payload.received env type length).null then _ else _)
  by_cases hnull : (Payload.received env type length).null = true
  · have hr : Holder.insert w.next (Payload.received env type length) w.holder = .ok none w.holder := by
      unfold Holder.insert
      rw [hnull]
      rfl
    have hadopt : Holder.adopt w.next (Payload.received env type length) w.holder = .ok none { w.holder with inbound := none } := by
      unfold Holder.adopt
      rw [bind_ok hr]
      rfl
    rw [if_pos hnull, hadopt]
    exact ⟨h.matched, nofun, fun _ => rfl⟩
  · rw [if_neg hnull]
    rcases Holder.insert_cases w.next (Bool.eq_false_iff.2 hnull) w.holder with hr | ⟨pool, b, hpool, hid, hdata, hr⟩
    · have hadopt : Holder.adopt w.next (Payload.received env type length) w.holder = .error .type w.holder := bind_error hr
      rw [hadopt]
      exact h.same rfl
    · have hadopt : Holder.adopt w.next (Payload.received env type length) w.holder =
          .ok b.handle { w.holder.addBuffer type b with inbound := b.handle } := by
        unfold Holder.adopt
        rw [bind_ok hr]
        rfl
      have hname : type.name ≠ "NULL" := fun heq => hnull (beq_iff_eq.2 heq)
      have hnew : b.handle ≠ none ∧ ∀ c ∈ w.holder.buffers, c.handle ≠ b.handle := by
        refine new hx rfl (.inl ?_)
        exact hdata.trans (Memory.data_of_capacity (hlength hname (Option.isSome_of_eq_some hpool)))
      rw [hadopt]
      refine ⟨(h.matched.add hid hnew.1 hnew.2).perm (Holder.buffers_addBuffer hpool b).symm, ?_, nofun⟩
      rintro _ ⟨⟩
      exact List.mem_append_right _ (List.mem_singleton.2 rfl)

theorem reallocate (h : w.Kept) (env : Environment) (handle : Handle) (size : Nat) (hx : w.Admitted (env, .reallocate handle size)) :
    (w.watch (env, .reallocate handle size)).Kept := by
  rcases Holder.reallocate_cases env handle size w.holder with hr | ⟨pool, b, c, rest, hperm, hhandle, hid, hmemory, hr, hbuffers, hinbound⟩
  · unfold watch
    simp only [hr]
    exact h.same rfl
  · have hmatched := h.matched.perm hperm
    have hcapacity : b.payload.memory.capacity ≠ 0 := by
      intro hzero
      exact hmatched.handles b List.mem_cons_self (if_pos hzero)
    have hdata : c.handle = b.handle ∨ c.handle = some env.first.address ∨ c.handle = some env.second.address := by
      unfold Buffer.handle
      rw [hmemory]
      exact Allocator.data_reallocate env size hcapacity pool.allocator
    have hnull : c.handle ≠ none := by
      rcases hdata with hc | hc | hc
      · rw [hc]
        exact hmatched.handles b List.mem_cons_self
      · rw [hc]
        exact Option.some_ne_none _
      · rw [hc]
        exact Option.some_ne_none _
    have hnew : ∀ d ∈ rest, d.handle ≠ c.handle := by
      intro d hd heq
      rcases hdata with hc | hc
      · exact hmatched.handle_ne d hd (heq.trans hc)
      · -- what is new is where the buffer was, if it is where one was
        have hmoved : (handle == d.handle) = true := hx d (hperm.mem_iff.2 (List.mem_cons_of_mem _ hd)) (by rw [heq]; exact hc)
        exact hmatched.handle_ne d hd ((beq_iff_eq.1 hmoved).symm.trans hhandle.symm)
    have hmove := hmatched.move hid hnull hnew
    unfold watch
    simp only [hr]
    refine ⟨?_, fun id hservice => ?_, fun hnobody => ?_⟩
    · rw [hhandle] at hmove
      exact hmove.perm hbuffers.symm
    · show (id, (result (Holder.reallocate env handle size w.holder)).2.inbound) ∈ _
      rw [hinbound]
      refine List.mem_map.2 ⟨_, h.service id hservice, ?_⟩
      by_cases heq : handle = w.holder.inbound
      · rw [if_pos heq.symm, if_pos heq]
      · rw [if_neg fun heq' => heq heq'.symm, if_neg heq]
    · have hnone := h.nobody hnobody
      show (result (Holder.reallocate env handle size w.holder)).2.inbound = none
      rw [hinbound, hnone, if_neg]
      rintro rfl
      exact hmatched.handles b List.mem_cons_self hhandle

theorem deallocate (h : w.Kept) (env : Environment) (handle : Handle) : (w.watch (env, .deallocate handle)).Kept := by
  rcases Holder.deallocate_cases handle w.holder with ⟨hkept, hr⟩ | ⟨hne, hr | ⟨b, rest, t, hperm, hhandle, hr, ht, hinbound⟩⟩
  · have hall : (w.live.filter fun e => decide (e.2 ≠ handle ∨ some e.1 = w.service)) = w.live := by
      refine List.filter_eq_self.2 fun e he => decide_eq_true ?_
      by_cases heq : e.2 = handle
      · right
        have hnull := h.matched.handle_ne_none he
        rcases hkept with hinbound | hnone
        · cases hservice : w.service with
          | none => exact absurd (heq.trans (hinbound.trans (h.nobody hservice))) hnull
          | some id =>
            have := h.matched.eq_of_handle he (h.service id hservice) (heq.trans hinbound)
            rw [this]
        · exact absurd (heq.trans hnone) hnull
      · exact .inl heq
    unfold watch
    simp only [hr, hall]
    exact h
  · unfold watch
    simp only [hr]
    exact h.same rfl
  · have hmatched := h.matched.perm hperm
    have hmem : (b.id, b.handle) ∈ w.live := hmatched.mem_live.2 ⟨b, List.mem_cons_self, rfl⟩
    have hfreed : ¬ (b.handle ≠ handle ∨ some b.id = w.service) := by
      rintro (hother | hservice)
      · exact hother hhandle
      · have := h.matched.eq_of_id hmem (h.service b.id hservice.symm) rfl
        exact hne (hhandle.symm.trans (congrArg Prod.snd this))
    have hothers : ∀ c ∈ rest, c.handle ≠ handle := hhandle ▸ hmatched.handle_ne
    unfold watch
    simp only [hr]
    refine ⟨(hmatched.remove (decide_eq_false hfreed) fun c hc => decide_eq_true (.inl (hothers c hc))).perm ht.symm,
      fun id hservice => ?_, fun hnobody => ?_⟩
    · show (id, t.inbound) ∈ _
      rw [hinbound]
      exact List.mem_filter.2 ⟨h.service id hservice, decide_eq_true (.inr hservice.symm)⟩
    · exact hinbound.trans (h.nobody hnobody)

theorem release (h : w.Kept) (env : Environment) (handle : Handle) (userSize : Option Nat)
    (hsize : w.Provident (env, .release handle userSize)) : (w.watch (env, .release handle userSize)).Kept := by
  rcases Holder.release_cases hsize with ⟨hnull, hr⟩ | ⟨hnull, hr | ⟨b, rest, t, hperm, hhandle, hr, ht, hinbound⟩⟩
  · have hall : (w.live.filter fun e => decide (e.2 ≠ handle)) = w.live :=
      List.filter_eq_self.2 fun e he => decide_eq_true (hnull ▸ h.matched.handle_ne_none he)
    have hservice : (w.service.filter fun id => decide ((id, handle) ∉ w.live)) = w.service := by
      cases hservice : w.service with
      | none => rfl
      | some id =>
        refine Option.filter_some_pos (decide_eq_true fun hmem => ?_)
        exact h.matched.handle_ne_none hmem hnull
    unfold watch
    simp only [hr, hall, hservice]
    exact h
  · unfold watch
    simp only [hr]
    exact h.same rfl
  · have hmatched := h.matched.perm hperm
    unfold watch
    simp only [hr]
    refine ⟨(hmatched.remove (decide_eq_false (not_not.2 hhandle)) fun c hc => decide_eq_true ?_).perm ht.symm,
      fun id hservice => ?_, fun hnobody => ?_⟩
    · rw [← hhandle]
      exact hmatched.handle_ne c hc
    · obtain ⟨hservice, hother⟩ := Option.filter_eq_some_iff.1 hservice
      have hlive := h.service id hservice
      have hne : handle ≠ w.holder.inbound := fun heq => of_decide_eq_true hother (heq ▸ hlive)
      show (id, t.inbound) ∈ _
      rw [hinbound, if_neg hne]
      exact List.mem_filter.2 ⟨hlive, decide_eq_true hne.symm⟩
    · show t.inbound = none
      rw [hinbound]
      split_ifs with heq
      · rfl
      · cases hservice : w.service with
        | none => exact h.nobody hservice
        | some id =>
          -- the inbound buffer is the one that is released
          exfalso
          have hnone : (w.service.filter fun id => decide ((id, handle) ∉ w.live)) = none := hnobody
          rw [hservice] at hnone
          have hmem : (id, handle) ∈ w.live := by
            by_contra hother
            rw [Option.filter_some_pos (p := fun id => decide ((id, handle) ∉ w.live)) (decide_eq_true hother)] at hnone
            cases hnone
          exact heq (congrArg Prod.snd (h.matched.eq_of_id hmem (h.service id hservice) rfl))

theorem clear (h : w.Kept) (env : Environment) : (w.watch (env, .clear)).Kept := by
  rcases Holder.clear_cases w.holder with ⟨hnothing, hr⟩ | ⟨hinbound, b, rest, hperm, hhandle, ht, hnone⟩
  · have hservice : w.service = none := by
      cases hservice : w.service with
      | none => rfl
      | some id =>
        have hlive := h.service id hservice
        rcases hnothing with hnull | hunmanaged
        · exact absurd hnull (h.matched.handle_ne_none hlive)
        · obtain ⟨b, hb, heq⟩ := h.matched.mem_live.1 hlive
          exact absurd (congrArg Prod.snd heq) (Holder.handle_ne_of_unmanaged hunmanaged b hb)
    have hall : (w.live.filter fun e => decide (some e.1 ≠ w.service)) = w.live :=
      List.filter_eq_self.2 fun e _ => decide_eq_true (hservice ▸ Option.some_ne_none _)
    unfold watch
    simp only [hr, hall]
    exact ⟨h.matched, nofun, fun _ => h.nobody hservice⟩
  · have hmatched := h.matched.perm hperm
    have hservice : w.service = some b.id := by
      cases hservice : w.service with
      | none => exact absurd (h.nobody hservice) hinbound
      | some id =>
        have hmem : (b.id, b.handle) ∈ w.live := hmatched.mem_live.2 ⟨b, List.mem_cons_self, rfl⟩
        exact congrArg some (congrArg Prod.fst (h.matched.eq_of_handle (h.service id hservice) hmem hhandle.symm))
    unfold watch
    refine ⟨(hmatched.remove (decide_eq_false ?_) fun c hc => decide_eq_true ?_).perm ht.symm, nofun, fun _ => hnone⟩
    · exact not_not.2 hservice.symm
    · rw [hservice]
      exact fun heq => hmatched.id_ne c hc (Option.some.inj heq)

theorem use (h : w.Kept) (env : Environment) (handle : Handle) (size : Nat) : (w.watch (env, .use handle size)).Kept := by
  rcases Holder.use_cases handle size w.holder with hr | ⟨b, c, rest, hperm, hid, hhandle, ht, hinbound⟩
  · unfold watch
    simp only [hr]
    exact h
  · have hmatched := h.matched.perm hperm
    have hmove := hmatched.move hid (hhandle ▸ hmatched.handles b List.mem_cons_self) (hhandle ▸ hmatched.handle_ne)
    have hsame : (w.live.map fun e => if e.2 = b.handle then (e.1, c.handle) else e) = w.live := by
      refine List.map_id'' (fun e => ?_) _
      split_ifs with heq
      · rw [hhandle, ← heq]
      · rfl
    rw [hsame] at hmove
    refine ⟨hmove.perm ht.symm, fun id hservice => ?_, fun hnobody => hinbound.trans (h.nobody hnobody)⟩
    show (id, (result (Holder.use handle size w.holder)).2.inbound) ∈ w.live
    rw [hinbound]
    exact h.service id hservice

theorem watch (h : w.Kept) (hx : w.Admitted x) (hprovident : w.Provident x) : (w.watch x).Kept := by
  obtain ⟨env, e⟩ := x
  cases e with
  | allocate type size => exact h.allocate env type size hx hprovident
  | reallocate handle size => exact h.reallocate env handle size hx
  | deallocate handle => exact h.deallocate env handle
  | insert type length => exact h.insert env type length hx hprovident
  | adopt type length => exact h.adopt env type length hx hprovident
  | release handle userSize => exact h.release env handle userSize hprovident
  | clear => exact h.clear env
  | use handle size => exact h.use env handle size

end Kept

/-- In every provident run each live buffer has a handle of its own that leads to it. -/
theorem tracked_of_reachable {w : Watched} (h : (machine.restrict Provident).Reachable w) : w.Tracked := by
  suffices hkept : w.Kept from hkept.tracked
  apply h.invariant
  · rintro w ⟨hbuffers, hinbound, hlive, hservice⟩
    refine ⟨⟨?_, ?_, ?_, ?_, ?_⟩, fun id hid => ?_, fun _ => hinbound⟩
    · rw [hbuffers, hlive]
      exact .nil
    · rw [hbuffers]
      exact fun _ hb => absurd hb List.not_mem_nil
    · rw [hbuffers]
      exact List.nodup_nil
    · rw [hbuffers]
      exact List.nodup_nil
    · rw [hbuffers]
      exact fun _ hb => absurd hb List.not_mem_nil
    · rw [hservice] at hid
      cases hid
  · rintro w x hkept ⟨hadmitted, hprovident⟩
    exact hkept.watch hadmitted hprovident

instance : ∀ w x, Decidable (Admitted w x) := fun w x => inferInstanceAs (Decidable (∀ b ∈ w.holder.buffers,
  b.handle = some x.1.first.address ∨ b.handle = some x.1.second.address → x.2.moves b.handle))

instance : ∀ w x, Decidable (Provident w x)
  | w, (_, .allocate type size) =>
    inferInstanceAs (Decidable (∀ pool ∈ w.holder.pools.find? (BasicPool.manageType type), pool.allocator = .basic → size ≠ 0))
  | w, (_, .insert type length) | w, (_, .adopt type length) =>
    inferInstanceAs (Decidable (type.name ≠ "NULL" → (w.holder.pools.find? (BasicPool.manageType type)).isSome → length ≠ 0))
  | w, (_, .release handle userSize) =>
    inferInstanceAs (Decidable (∀ size ∈ userSize, ∀ pool ∈ w.holder.pools.find? (BasicPool.manage handle),
      ∀ b ∈ pool.find handle, size ≤ pool.allocator.limit b.payload.memory))
  | _, (_, .reallocate ..) | _, (_, .deallocate _) | _, (_, .clear) | _, (_, .use ..) => .isTrue trivial

instance : ∀ w x, Decidable (machine.admits w x) := fun w x => inferInstanceAs (Decidable (Admitted w x))

/-! ### Two runs -/

/-- The type of the buffers of a default pool. -/
def octet : BufferType := ⟨"X_OCTET", ""⟩

/-- The type of order buffers. -/
def order : BufferType := ⟨"CORDER", ""⟩

/-- A process with two pools. -/
def process : Watched := ⟨⟨[⟨[octet], .basic, []⟩, ⟨[order], .reserving, []⟩], none⟩, [], none, 0⟩

theorem process_init : machine.init process := ⟨rfl, rfl, rfl, rfl⟩

/-- Memory at two addresses. -/
def memoryAt (first second : Nat) : Environment := ⟨⟨first, 0⟩, ⟨second, 0⟩⟩

/-- A service that is called with a buffer, allocates another, and frees and reallocates both; it is called again, with
an order buffer, and allocates. -/
def invoked : List (Environment × Event) :=
  [(memoryAt 1 2, .adopt octet 3), (memoryAt 3 4, .allocate order 0), (memoryAt 5 6, .deallocate (some 1)),
    (memoryAt 5 6, .reallocate (some 1) 8), (memoryAt 7 8, .reallocate (some 4) 0), (memoryAt 9 9, .release (some 8) (some 1)),
    (memoryAt 9 9, .clear), (memoryAt 1 2, .adopt order 3), (memoryAt 3 4, .allocate octet 2), (memoryAt 5 6, .use (some 1) 4),
    (memoryAt 5 6, .reallocate (some 3) 7)]

theorem invoked_tracked : ∃ w, (machine.restrict Provident).Reachable w ∧ w.live = [(2, some 1), (3, some 5)] ∧
    w.service = some 2 ∧ w.Tracked := by
  have hreach : (machine.restrict Provident).Reachable (invoked.foldl (machine.restrict Provident).step process) := by
    have hinit : (machine.restrict Provident).init process := process_init
    apply Machine.Reachable.foldl (.of_init hinit)
    decide
  exact ⟨_, hreach, by decide, by decide, tracked_of_reachable hreach⟩

/-- Two services are called with order buffers to which nothing was added. -/
def received : List (Environment × Event) := [(memoryAt 1 2, .insert order 0), (memoryAt 1 2, .adopt order 0)]

/-- Both buffers are live, under the same handle, which is null. -/
theorem received_untracked : ∃ w, machine.Reachable w ∧ w.live = [(0, none), (1, none)] ∧ ¬ w.Tracked := by
  have hreach : machine.Reachable (received.foldl machine.step process) := by
    apply Machine.Reachable.foldl (.of_init process_init)
    decide
  have hlive : (received.foldl machine.step process).live = [(0, none), (1, none)] := by decide
  refine ⟨_, hreach, hlive, fun h => ?_⟩
  have hmem : (0, none) ∈ (received.foldl machine.step process).live := hlive ▸ List.mem_cons_self
  exact h.handles _ hmem rfl

end Watched

end Casual.Pool

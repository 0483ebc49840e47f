/-
`server::Context::advertise` and `unadvertise`: the table by which a server finds the function of a service,
and what the broker is told of it.
-/
import Casual.Lib.Triple
import Casual.Lib.Run

namespace Casual.Server.Dispatch

open Casual.Lib

/-! ## Services -/

/-- A name, by its characters. -/
abbrev Name := List UInt8

/-- `std::function` of a service: a pointer, which has a target, or another object, which has none. -/
inductive Function
  | pointer (address : Nat)
  | object (id : Nat)
  | empty
  deriving DecidableEq, Repr

/-- `adress`. -/
def Function.address : Function → Option Nat
  | pointer address => some address
  | _ => none

/-- The function of a pointer, which may be null. -/
def Function.ofPointer : Option Nat → Function
  | some address => pointer address
  | none => empty

/-- `Service`, which is `active`. -/
structure Service where
  origin : Name
  function : Function
  type : Nat
  transaction : Nat
  deriving DecidableEq

/-- `operator ==`: the targets are compared, and that there is none. -/
def Service.eq (lhs rhs : Service) : Bool := lhs.function.address == rhs.function.address

/-- The length that a service name may have. -/
def XATMI_SERVICE_NAME_LENGTH : Nat := 128

/-- The name of a prospect after it was validated. -/
def truncate (name : Name) : Name :=
  if name.length ≥ XATMI_SERVICE_NAME_LENGTH then name.take (XATMI_SERVICE_NAME_LENGTH - 1) else name

/-- What is to be advertised: an XATMI service whose transactions are automatic. -/
def prospect (service : Name) (adress : Option Nat) : Service := ⟨truncate service, .ofPointer adress, 0, 0⟩

/-! ## State -/

/-- What the broker is told: the services with which the server connects, and each that changes later. -/
inductive Message
  | connect (services : List (Name × Nat × Nat))
  | advertise (services : List (Name × Nat × Nat))
  | unadvertise (services : List Name)
  deriving DecidableEq

/-- `State`: the table refers to the physical services, which stay where they are. -/
structure State where
  physical : List Service
  services : Name → Option Nat
  sent : List Message

/-- What the functions of the context throw. -/
inductive Exception
  | advertised | entry | unavailable
  deriving DecidableEq, Repr

/-- What advertising does to the context of a server. -/
abbrev M (α : Type) := EStateM Exception State α

namespace State

/-- The service a name refers to. -/
def lookup (name : Name) (s : State) : Option Service := (s.services name).bind fun i => s.physical[i]?

/-- `emplace`: a name that is known keeps its service. -/
def emplace (name : Name) (i : Nat) (s : State) : State :=
  if (s.services name).isSome then s else { s with services := Function.update s.services name (some i) }

/-- A message to the broker, whose queue may be gone. -/
def send (gone : Bool) (message : Message) : M Unit := do
  if gone then throw .unavailable
  modify fun s => { s with sent := s.sent ++ [message] }

/-- `advertise`. -/
def advertise (gone : Bool) (service : Name) (adress : Option Nat) : M Unit := do
  let prospect := prospect service adress
  let s ← get
  match s.lookup prospect.origin with
  | some found =>
    if !found.eq prospect then throw .advertised
  | none =>
    match s.physical.findIdx? fun known => known.eq prospect with
    | some i =>
      modify (emplace prospect.origin i)
      send gone (.advertise ((s.physical[i]?).toList.map fun found => (prospect.origin, found.type, found.transaction)))
    | none =>
      modify fun s => { s with physical := s.physical ++ [prospect] }
      -- the prospect was moved from, and its name with it
      modify fun s => s.emplace [] (s.physical.length - 1)
      send gone (.advertise [(prospect.origin, prospect.type, prospect.transaction)])

/-- `unadvertise`. -/
def unadvertise (gone : Bool) (service : Name) : M Unit := do
  let s ← get
  if (s.services service).isNone then throw .entry
  modify fun s => { s with services := Function.update s.services service none }
  send gone (.unadvertise [service])

/-- A service of the arguments. -/
def provide (s : State) (service : Service) : State :=
  let s := { s with physical := s.physical ++ [service] }
  s.emplace service.origin (s.physical.length - 1)

/-- `basic_call`: what a server starts with. -/
def start (services : List Service) : State :=
  { services.foldl provide ⟨[], fun _ => none, []⟩ with
    sent := [.connect (services.map fun service => (service.origin, service.type, service.transaction))] }

end State

/-! ## What is advertised -/

/-- What a service of the server may call. -/
inductive Event
  | advertise (service : Name) (adress : Option Nat)
  | unadvertise (service : Name)

/-- What the server calls. -/
def call (gone : Bool) : Event → M Unit
  | .advertise service adress => State.advertise gone service adress
  | .unadvertise service => State.unadvertise gone service

/-- The names that are known for a message. -/
def Message.tell (known : Name → Bool) : Message → Name → Bool
  | connect services | advertise services => fun name => known name || services.any fun service => service.1 == name
  | unadvertise services => fun name => known name && !services.contains name

/-- The services of the server, as the broker knows them. -/
def told (sent : List Message) : Name → Bool := sent.foldl Message.tell fun _ => false

/-- A server, and which names are advertised for which functions. -/
structure Watched where
  state : State
  advertised : Name → Option Function

namespace Watched

/-- The call has thrown. -/
def rejected (r : EStateM.Result Exception State Unit) : Bool :=
  match r with
  | .ok _ _ => false
  | .error _ _ => true

/-- What is advertised after a call. -/
def change (advertised : Name → Option Function) : Event → Name → Option Function
  | .advertise service adress => Function.update advertised (truncate service) (some (.ofPointer adress))
  | .unadvertise service => Function.update advertised (truncate service) none

/-- A call, and what is offered after it. -/
def watch (w : Watched) (x : Bool × Event) : Watched :=
  let r := call x.1 x.2 w.state
  { state := after r, advertised := if rejected r then w.advertised else change w.advertised x.2 }

/-- What is advertised by a server that starts: of services with one name it is the first. -/
def offered (services : List Service) (name : Name) : Option Function :=
  (services.find? fun service => truncate service.origin == name).map Service.function

/-- A server with the services of its arguments. -/
def started (services : List Service) : Watched := ⟨State.start services, offered services⟩

/-- The runs of a server from its start. -/
def machine : Machine Watched (Bool × Event) where
  init w := ∃ services, w = started services
  admits _ _ := True
  step := watch

/-- What is to be rejected: another function for a name, and a name that is not advertised. -/
def Rejects (advertised : Name → Option Function) : Event → Prop
  | .advertise service adress => ∃ function, advertised (truncate service) = some function ∧ function ≠ .ofPointer adress
  | .unadvertise service => advertised (truncate service) = none

/-- The table has the names that are advertised, with their functions, and the broker was told of them. -/
structure Agrees (w : Watched) : Prop where
  table : ∀ name, (w.state.lookup name).map Service.function = w.advertised name
  told : ∀ name, told w.state.sent name = (w.advertised name).isSome

/-- A function that is known to the server or, for what has no name, a new one; services whose functions can be
told apart; a name that is removed as it is known; and a broker that is there when it is told. -/
def Sound (w : Watched) (x : Bool × Event) : Prop :=
  match x.2 with
  | .advertise service adress =>
    (∀ found ∈ w.state.lookup (truncate service), found.eq (prospect service adress) → found.function = .ofPointer adress) ∧
    (w.state.lookup (truncate service) = none → x.1 = false ∧
      (∀ i ∈ w.state.physical.findIdx? fun known => known.eq (prospect service adress),
        ∀ known ∈ w.state.physical[i]?, known.function = .ofPointer adress) ∧
      ((w.state.physical.findIdx? fun known => known.eq (prospect service adress)) = none → service = []))
  | .unadvertise service =>
    ((w.state.lookup service).isSome → x.1 = false) ∧
    (w.state.lookup service = none → w.state.lookup (truncate service) = none)

end Watched

/-! ## The table -/

theorem truncate_of_lt {name : Name} (h : name.length < XATMI_SERVICE_NAME_LENGTH) : truncate name = name := if_neg (not_le.2 h)

theorem length_truncate (name : Name) : (truncate name).length < XATMI_SERVICE_NAME_LENGTH := by
  unfold truncate
  split_ifs with h
  · rw [List.length_take]
    unfold XATMI_SERVICE_NAME_LENGTH
    omega
  · exact not_le.1 h

namespace State

/-- The table refers to services that are there, by names that are not too long. -/
structure Sane (s : State) : Prop where
  within : ∀ name i, s.services name = some i → i < s.physical.length
  short : ∀ name, (s.services name).isSome → name.length < XATMI_SERVICE_NAME_LENGTH

theorem lookup_eq_none {s : State} (h : s.Sane) {name : Name} : s.lookup name = none ↔ s.services name = none := by
  unfold lookup
  cases hi : s.services name with
  | none => exact iff_of_true rfl rfl
  | some i =>
    have hlt := h.within name i hi
    rw [Option.bind_some, List.getElem?_eq_getElem hlt]
    exact iff_of_false (Option.some_ne_none _) (Option.some_ne_none _)

/-- The same table, and services of which more may have been appended. -/
structure Grown (s t : State) (more : List Service) : Prop where
  physical : t.physical = s.physical ++ more
  services : t.services = s.services
  sent : t.sent = s.sent

@[simp] theorem physical_emplace (name : Name) (i : Nat) (s : State) : (s.emplace name i).physical = s.physical := by
  unfold emplace
  split_ifs <;> rfl

@[simp] theorem sent_emplace (name : Name) (i : Nat) (s : State) : (s.emplace name i).sent = s.sent := by
  unfold emplace
  split_ifs <;> rfl

theorem services_emplace {s : State} {name : Name} (h : s.services name = none) (i : Nat) :
    (s.emplace name i).services = Function.update s.services name (some i) := by
  unfold emplace
  rw [h]
  rfl

theorem Grown.lookup {s t : State} {more : List Service} (h : Grown s t more) (hs : s.Sane) (name : Name) : t.lookup name = s.lookup name := by
  unfold State.lookup
  rw [h.services, h.physical]
  cases hi : s.services name with
  | none => rfl
  | some i =>
    rw [Option.bind_some, Option.bind_some]
    exact List.getElem?_append_left (hs.within name i hi)

theorem Grown.sane {s t : State} {more : List Service} (h : Grown s t more) (hs : s.Sane) : t.Sane := by
  constructor
  · intro name i hi
    rw [h.services] at hi
    have := hs.within name i hi
    rw [h.physical, List.length_append]
    omega
  · rw [h.services]
    exact hs.short

/-- A name that is new refers to its service, the others to theirs. -/
theorem Grown.lookup_emplace {s t : State} {more : List Service} (h : Grown s t more) (hs : s.Sane) {name : Name}
    (hname : s.services name = none) (i : Nat) (name' : Name) :
    (t.emplace name i).lookup name' = if name' = name then t.physical[i]? else s.lookup name' := by
  have hlookup := h.lookup hs name'
  unfold State.lookup at hlookup ⊢
  rw [physical_emplace, services_emplace (h.services ▸ hname)]
  by_cases heq : name' = name
  · rw [if_pos heq, heq, Function.update_self, Option.bind_some]
  · rw [if_neg heq, Function.update_of_ne heq]
    exact hlookup

theorem Grown.sane_emplace {s t : State} {more : List Service} (h : Grown s t more) (hs : s.Sane) {name : Name}
    (hname : s.services name = none) (hlength : name.length < XATMI_SERVICE_NAME_LENGTH) {i : Nat} (hi : i < t.physical.length) :
    (t.emplace name i).Sane := by
  have hservices := services_emplace (h.services ▸ hname) i
  rw [h.services] at hservices
  constructor
  · intro name' j hj
    rw [physical_emplace]
    rw [hservices] at hj
    by_cases heq : name' = name
    · subst heq
      rw [Function.update_self] at hj
      exact Option.some.inj hj ▸ hi
    · rw [Function.update_of_ne heq] at hj
      have hlt := hs.within name' j hj
      rw [h.physical, List.length_append]
      omega
  · intro name' hsome
    rw [hservices] at hsome
    by_cases heq : name' = name
    · exact heq ▸ hlength
    · rw [Function.update_of_ne heq] at hsome
      exact hs.short name' hsome

/-! ### What a call does -/

@[simp] theorem origin_prospect (service : Name) (adress : Option Nat) : (prospect service adress).origin = truncate service := rfl

theorem advertise_found {s : State} {gone : Bool} {service : Name} {adress : Option Nat} {found : Service}
    (h : s.lookup (truncate service) = some found) :
    advertise gone service adress s = if found.eq (prospect service adress) then .ok () s else .error .advertised s := by
  have hget : (get : M State) s = .ok s s := rfl
  unfold advertise
  rw [bind_ok hget]
  simp only [origin_prospect, h]
  cases found.eq (prospect service adress) <;> rfl

/-- A function the server knows. -/
theorem advertise_known {s : State} {service : Name} {adress : Option Nat} {i : Nat} {known : Service}
    (h : s.lookup (truncate service) = none) (hi : (s.physical.findIdx? fun known => known.eq (prospect service adress)) = some i)
    (hknown : s.physical[i]? = some known) :
    advertise false service adress s = .ok () { s.emplace (truncate service) i with
      sent := (s.emplace (truncate service) i).sent ++ [.advertise [(truncate service, known.type, known.transaction)]] } := by
  have hget : (get : M State) s = .ok s s := rfl
  unfold advertise
  rw [bind_ok hget]
  simp only [origin_prospect, h, hi, hknown]
  rfl

/-- A function that is new: it is the name of what was moved from that refers to it. -/
theorem advertise_new {s : State} {service : Name} {adress : Option Nat} (h : s.lookup (truncate service) = none)
    (hi : (s.physical.findIdx? fun known => known.eq (prospect service adress)) = none) :
    ∃ t, Grown s t [prospect service adress] ∧ advertise false service adress s =
      .ok () { t.emplace [] (t.physical.length - 1) with
        sent := (t.emplace [] (t.physical.length - 1)).sent ++ [.advertise [(truncate service, 0, 0)]] } := by
  have hget : (get : M State) s = .ok s s := rfl
  unfold advertise
  rw [bind_ok hget]
  simp only [origin_prospect, h, hi]
  exact ⟨{ s with physical := s.physical ++ [prospect service adress] }, ⟨rfl, rfl, rfl⟩, rfl⟩

theorem unadvertise_some {s : State} {service : Name} (h : (s.services service).isSome) :
    unadvertise false service s = .ok () { s with
      services := Function.update s.services service none
      sent := s.sent ++ [.unadvertise [service]] } := by
  have hget : (get : M State) s = .ok s s := rfl
  obtain ⟨i, hi⟩ := Option.isSome_iff_exists.1 h
  unfold unadvertise
  rw [bind_ok hget, hi]
  rfl

theorem unadvertise_none {s : State} {gone : Bool} {service : Name} (h : s.services service = none) :
    unadvertise gone service s = .error .entry s := by
  have hget : (get : M State) s = .ok s s := rfl
  unfold unadvertise
  rw [bind_ok hget, h]
  rfl

end State

theorem told_append (sent : List Message) (message : Message) : told (sent ++ [message]) = message.tell (told sent) := List.foldl_append ..

namespace Watched

/-- What every call keeps. -/
structure Kept (w : Watched) : Prop where
  agrees : w.Agrees
  sane : w.state.Sane

/-- What a call does, and whether it is rejected as it should be. -/
structure Called (w : Watched) (x : Bool × Event) : Prop where
  kept : (w.watch x).Kept
  rejects : rejected (call x.1 x.2 w.state) ↔ Rejects w.advertised x.2
  unchanged : rejected (call x.1 x.2 w.state) → after (call x.1 x.2 w.state) = w.state

namespace Kept

variable {w : Watched}

/-- A name that is new, with the service it refers to. -/
theorem added (h : w.Kept) {name : Name} (hname : w.state.services name = none) (hlength : name.length < XATMI_SERVICE_NAME_LENGTH)
    {t : State} {more : List Service} (ht : w.state.Grown t more) {i : Nat} {known : Service} (hknown : t.physical[i]? = some known)
    (type transaction : Nat) :
    Kept ⟨{ t.emplace name i with sent := (t.emplace name i).sent ++ [.advertise [(name, type, transaction)]] },
      Function.update w.advertised name (some known.function)⟩ := by
  obtain ⟨hi, -⟩ := List.getElem?_eq_some_iff.1 hknown
  have hsane := ht.sane_emplace h.sane hname hlength hi
  refine ⟨⟨fun name' => ?_, fun name' => ?_⟩, hsane.within, hsane.short⟩
  · show ((t.emplace name i).lookup name').map Service.function = Function.update w.advertised name (some known.function) name'
    rw [ht.lookup_emplace h.sane hname, hknown]
    by_cases heq : name' = name
    · rw [if_pos heq, heq, Function.update_self]
      rfl
    · rw [if_neg heq, Function.update_of_ne heq]
      exact h.agrees.table name'
  · show told ((t.emplace name i).sent ++ [.advertise [(name, type, transaction)]]) name' =
      (Function.update w.advertised name (some known.function) name').isSome
    rw [told_append, State.sent_emplace, ht.sent]
    show (told w.state.sent name' || (name == name' || false)) = _
    rw [h.agrees.told, Bool.or_false]
    by_cases heq : name' = name
    · subst heq
      rw [Function.update_self, beq_self_eq_true, Bool.or_true]
      rfl
    · rw [Function.update_of_ne heq, beq_eq_false_iff_ne.2 (Ne.symm heq), Bool.or_false]

/-- A name that is removed. -/
theorem removed (h : w.Kept) (name : Name) :
    Kept ⟨{ w.state with services := Function.update w.state.services name none, sent := w.state.sent ++ [.unadvertise [name]] },
      Function.update w.advertised name none⟩ := by
  refine ⟨⟨fun name' => ?_, fun name' => ?_⟩, fun name' i hi => ?_, fun name' hsome => ?_⟩
  · show ((Function.update w.state.services name none name').bind fun i => w.state.physical[i]?).map Service.function =
      Function.update w.advertised name none name'
    by_cases heq : name' = name
    · rw [heq, Function.update_self, Function.update_self]
      rfl
    · rw [Function.update_of_ne heq, Function.update_of_ne heq]
      exact h.agrees.table name'
  · show told (w.state.sent ++ [.unadvertise [name]]) name' = (Function.update w.advertised name none name').isSome
    rw [told_append]
    show (told w.state.sent name' && !([name].contains name')) = _
    rw [h.agrees.told]
    by_cases heq : name' = name
    · rw [heq, Function.update_self, List.contains_iff_mem.2 (List.mem_singleton.2 rfl), Bool.not_true, Bool.and_false]
      rfl
    · have hother : [name].contains name' = false := by
        rw [Bool.eq_false_iff]
        exact fun hmem => heq (List.mem_singleton.1 (List.contains_iff_mem.1 hmem))
      rw [Function.update_of_ne heq, hother, Bool.not_false, Bool.and_true]
  · have hi : Function.update w.state.services name none name' = some i := hi
    by_cases heq : name' = name
    · rw [heq, Function.update_self] at hi
      cases hi
    · rw [Function.update_of_ne heq] at hi
      exact h.sane.within name' i hi
  · have hsome : (Function.update w.state.services name none name').isSome := hsome
    by_cases heq : name' = name
    · rw [heq, Function.update_self] at hsome
      cases hsome
    · rw [Function.update_of_ne heq] at hsome
      exact h.sane.short name' hsome

/-- A call that is rejected as it should be. -/
theorem refused (h : w.Kept) {x : Bool × Event} {e : Exception} (hcall : call x.1 x.2 w.state = .error e w.state)
    (hrejects : Rejects w.advertised x.2) : w.Called x := by
  refine ⟨?_, ?_, ?_⟩
  · unfold watch
    rw [hcall]
    exact h
  · rw [hcall]
    exact iff_of_true rfl hrejects
  · rw [hcall]
    exact fun _ => rfl

/-- A call that succeeds. -/
theorem accepted {x : Bool × Event} {t : State} (hcall : call x.1 x.2 w.state = .ok () t) (hkept : Kept ⟨t, change w.advertised x.2⟩)
    (hrejects : ¬ Rejects w.advertised x.2) : w.Called x := by
  refine ⟨?_, ?_, ?_⟩
  · unfold watch
    rw [hcall]
    exact hkept
  · rw [hcall]
    exact iff_of_false Bool.false_ne_true hrejects
  · rw [hcall]
    exact fun hrejected => absurd hrejected Bool.false_ne_true

theorem advertise (h : w.Kept) {gone : Bool} {service : Name} {adress : Option Nat} (hx : w.Sound (gone, .advertise service adress)) :
    w.Called (gone, .advertise service adress) := by
  have htable := h.agrees.table (truncate service)
  cases hfound : w.state.lookup (truncate service) with
  | some found =>
    rw [hfound] at htable
    have hcall := @State.advertise_found _ gone _ adress _ hfound
    cases heq : found.eq (prospect service adress) with
    | true =>
      have hfunction : found.function = .ofPointer adress := hx.1 found hfound heq
      rw [heq, if_pos rfl] at hcall
      have hsame : Function.update w.advertised (truncate service) (some (.ofPointer adress)) = w.advertised := by
        rw [← hfunction]
        exact (congrArg (Function.update w.advertised (truncate service)) htable).trans (Function.update_eq_self _ _)
      refine accepted hcall ?_ ?_
      · show Kept ⟨w.state, Function.update w.advertised (truncate service) (some (.ofPointer adress))⟩
        rw [hsame]
        exact h
      · rintro ⟨function, hadvertised, hne⟩
        rw [← htable] at hadvertised
        obtain rfl := Option.some.inj hadvertised
        exact hne hfunction
    | false =>
      rw [heq, if_neg Bool.false_ne_true] at hcall
      refine h.refused hcall ⟨found.function, htable.symm, fun hfunction => ?_⟩
      have htarget : found.eq (prospect service adress) = true := by
        unfold Service.eq
        rw [hfunction]
        exact beq_self_eq_true _
      rw [htarget] at heq
      cases heq
  | none =>
    rw [hfound] at htable
    have hname := (State.lookup_eq_none h.sane).1 hfound
    obtain ⟨hgone, hknown, hnew⟩ := hx.2 hfound
    obtain rfl : gone = false := hgone
    have hfresh : ¬ Rejects w.advertised (.advertise service adress) := by
      rintro ⟨function, hfunction, -⟩
      rw [← htable] at hfunction
      cases hfunction
    cases hi : w.state.physical.findIdx? fun known => known.eq (prospect service adress) with
    | some i =>
      obtain ⟨hlt, -, -⟩ := List.findIdx?_eq_some_iff_getElem.1 hi
      have hget : w.state.physical[i]? = some w.state.physical[i] := List.getElem?_eq_getElem hlt
      have hfunction : w.state.physical[i].function = .ofPointer adress := hknown i hi _ hget
      have hsame : w.state.Grown w.state [] := ⟨(List.append_nil _).symm, rfl, rfl⟩
      have hadded := h.added hname (length_truncate service) hsame hget w.state.physical[i].type w.state.physical[i].transaction
      rw [hfunction] at hadded
      exact accepted (State.advertise_known hfound hi hget) hadded hfresh
    | none =>
      obtain rfl := hnew hi
      obtain ⟨t, ht, hcall⟩ := State.advertise_new hfound hi
      have hget : t.physical[t.physical.length - 1]? = some (prospect [] adress) := by
        rw [ht.physical, List.length_append, List.length_singleton, Nat.add_sub_cancel, List.getElem?_concat_length]
      exact accepted hcall (h.added hname (length_truncate []) ht hget 0 0) hfresh

theorem unadvertise (h : w.Kept) {gone : Bool} {service : Name} (hx : w.Sound (gone, .unadvertise service)) :
    w.Called (gone, .unadvertise service) := by
  have htable := h.agrees.table (truncate service)
  cases hfound : w.state.lookup service with
  | none =>
    rw [hx.2 hfound] at htable
    exact h.refused (State.unadvertise_none ((State.lookup_eq_none h.sane).1 hfound)) htable.symm
  | some found =>
    have hsome : (w.state.services service).isSome := by
      rw [Option.isSome_iff_ne_none]
      intro hnone
      rw [(State.lookup_eq_none h.sane).2 hnone] at hfound
      cases hfound
    have hgone : gone = false := hx.1 (by rw [hfound]; rfl)
    have htruncate := truncate_of_lt (h.sane.short service hsome)
    rw [htruncate, hfound] at htable
    subst hgone
    refine accepted (State.unadvertise_some hsome) ?_ ?_
    · show Kept ⟨_, Function.update w.advertised (truncate service) none⟩
      rw [htruncate]
      exact h.removed service
    · intro hrejects
      have hnone : w.advertised (truncate service) = none := hrejects
      rw [htruncate, ← htable] at hnone
      cases hnone

theorem called (h : w.Kept) {x : Bool × Event} (hx : w.Sound x) : w.Called x := by
  obtain ⟨gone, e⟩ := x
  cases e with
  | advertise service adress => exact h.advertise hx
  | unadvertise service => exact h.unadvertise hx

end Kept

/-! ## Runs -/

theorem provide_spec {s : State} (hs : s.Sane) {service : Service} (hlength : service.origin.length < XATMI_SERVICE_NAME_LENGTH) :
    (s.provide service).Sane ∧ ∀ name, (s.provide service).lookup name =
      (s.lookup name).or (if service.origin == name then some service else none) := by
  have hgrown : s.Grown { s with physical := s.physical ++ [service] } [service] := ⟨rfl, rfl, rfl⟩
  have hlast : (s.physical ++ [service])[(s.physical ++ [service]).length - 1]? = some service := by
    rw [List.length_append, List.length_singleton, Nat.add_sub_cancel, List.getElem?_concat_length]
  cases hname : s.services service.origin with
  | none =>
    have hlookup := hgrown.lookup_emplace hs hname ((s.physical ++ [service]).length - 1)
    refine ⟨hgrown.sane_emplace hs hname hlength (List.getElem?_eq_some_iff.1 hlast).1, fun name => (hlookup name).trans ?_⟩
    by_cases heq : name = service.origin
    · subst heq
      rw [if_pos rfl, (State.lookup_eq_none hs).2 hname, Option.none_or, beq_self_eq_true, if_pos rfl]
      exact hlast
    · rw [if_neg heq, beq_eq_false_iff_ne.2 (Ne.symm heq), if_neg Bool.false_ne_true, Option.or_none]
  | some i =>
    have hsame : s.provide service = { s with physical := s.physical ++ [service] } := by
      have hsome : (s.services service.origin).isSome := by
        rw [hname]
        rfl
      exact if_pos hsome
    rw [hsame]
    refine ⟨hgrown.sane hs, fun name => (hgrown.lookup hs name).trans ?_⟩
    by_cases heq : name = service.origin
    · subst heq
      cases hlookup : s.lookup service.origin with
      | none =>
        rw [State.lookup_eq_none hs, hname] at hlookup
        cases hlookup
      | some known => rfl
    · rw [beq_eq_false_iff_ne.2 (Ne.symm heq), if_neg Bool.false_ne_true, Option.or_none]

/-- Of services with one name the table has the first. -/
theorem foldl_provide : ∀ {services : List Service} {s : State}, s.Sane →
    (∀ service ∈ services, service.origin.length < XATMI_SERVICE_NAME_LENGTH) →
    (services.foldl State.provide s).Sane ∧ ∀ name, (services.foldl State.provide s).lookup name =
      (s.lookup name).or (services.find? fun service => service.origin == name)
  | [], s, hs, _ => ⟨hs, fun name => (Option.or_none ..).symm⟩
  | service :: services, s, hs, hlength => by
    obtain ⟨hsane, hlookup⟩ := provide_spec hs (hlength service List.mem_cons_self)
    obtain ⟨hsane', hlookup'⟩ := @foldl_provide services _ hsane fun service hservice => hlength service (List.mem_cons_of_mem _ hservice)
    refine ⟨hsane', fun name => ?_⟩
    rw [List.foldl_cons, hlookup', hlookup, Option.or_assoc, List.find?_cons]
    cases service.origin == name <;> rfl

theorem kept_started {services : List Service} (h : ∀ service ∈ services, service.origin.length < XATMI_SERVICE_NAME_LENGTH) :
    (started services).Kept := by
  have hempty : State.Sane ⟨[], fun _ => none, []⟩ := ⟨nofun, nofun⟩
  obtain ⟨hsane, hlookup⟩ := foldl_provide hempty h
  have hoffered : ∀ name, offered services name = (services.find? fun service => service.origin == name).map Service.function := by
    intro name
    unfold offered
    congr 1
    refine List.find?_congr fun service hservice => ?_
    rw [truncate_of_lt (h service hservice)]
  refine ⟨⟨fun name => ?_, fun name => ?_⟩, hsane.within, hsane.short⟩
  · exact (congrArg (Option.map Service.function) (hlookup name)).trans (hoffered name).symm
  · show (false || (services.map fun service => (service.origin, service.type, service.transaction)).any fun service => service.1 == name) =
      (offered services name).isSome
    rw [hoffered, Option.isSome_map, List.isSome_find?, List.any_map, Bool.false_or]
    rfl

theorem agrees_of_run {services : List Service} (h : ∀ service ∈ services, service.origin.length < XATMI_SERVICE_NAME_LENGTH)
    {es : List (Bool × Event)} {w : Watched} (hrun : (machine.restrict Sound).Run (started services) es w) :
    w.Agrees ∧ ∀ x, w.Sound x → (rejected (call x.1 x.2 w.state) ↔ Rejects w.advertised x.2) ∧
      (rejected (call x.1 x.2 w.state) → after (call x.1 x.2 w.state) = w.state) := by
  have hkept : w.Kept := by
    refine hrun.invariant ?_ (kept_started h)
    rintro w x hw ⟨-, hx⟩
    exact (hw.called hx).kept
  exact ⟨hkept.agrees, fun x hx => ⟨(hkept.called hx).rejects, (hkept.called hx).unchanged⟩⟩

instance : ∀ w x, Decidable (Sound w x)
  | w, (gone, .advertise service adress) => inferInstanceAs (Decidable (
      (∀ found ∈ w.state.lookup (truncate service), found.eq (prospect service adress) → found.function = .ofPointer adress) ∧
      (w.state.lookup (truncate service) = none → gone = false ∧
        (∀ i ∈ w.state.physical.findIdx? fun known => known.eq (prospect service adress),
          ∀ known ∈ w.state.physical[i]?, known.function = .ofPointer adress) ∧
        ((w.state.physical.findIdx? fun known => known.eq (prospect service adress)) = none → service = []))))
  | w, (gone, .unadvertise service) => inferInstanceAs (Decidable (((w.state.lookup service).isSome → gone = false) ∧
      (w.state.lookup service = none → w.state.lookup (truncate service) = none)))

/-! ### Two runs -/

/-- A service with the function at an address. -/
def at1 (name : Name) : Service := ⟨name, .pointer 1, 0, 0⟩

/-- The function of a service gets a second name and loses the first. -/
def renamed : List (Bool × Event) := [(false, .advertise [98] (some 1)), (false, .unadvertise [97])]

theorem renamed_run : (machine.restrict Sound).Run (started [at1 [97]]) renamed (renamed.foldl machine.step (started [at1 [97]])) := by
  have hall : (machine.restrict Sound).AdmitsAll (started [at1 [97]]) renamed := by
    refine ⟨⟨trivial, ?_⟩, ⟨trivial, ?_⟩, trivial⟩
    · show Sound (started [at1 [97]]) (false, .advertise [98] (some 1))
      decide
    · show Sound (machine.step (started [at1 [97]]) (false, .advertise [98] (some 1))) (false, .unadvertise [97])
      decide
  exact Machine.Run.foldl (.nil _) hall

theorem renamed_agrees : (renamed.foldl machine.step (started [at1 [97]])).Agrees :=
  (agrees_of_run (by decide) renamed_run).1

/-- A function that the server does not know is advertised. -/
def novel : List (Bool × Event) := [(false, .advertise [97] (some 1))]

/-- The broker is told of the name, and the table does not have it. -/
theorem novel_disagrees : ∃ w, machine.Reachable w ∧ told w.state.sent [97] = true ∧ w.state.lookup [97] = none ∧ ¬ w.Agrees := by
  have hreach : machine.Reachable (novel.foldl machine.step (started [])) :=
    Machine.Reachable.foldl (.of_init ⟨[], rfl⟩) ⟨trivial, trivial⟩
  have htold : told (novel.foldl machine.step (started [])).state.sent [97] = true := by decide
  have hlookup : (novel.foldl machine.step (started [])).state.lookup [97] = none := by decide
  refine ⟨_, hreach, htold, hlookup, fun h => ?_⟩
  have htable := h.table [97]
  rw [hlookup] at htable
  have hknown := h.told [97]
  rw [htold, ← htable] at hknown
  cases hknown

end Watched

end Casual.Server.Dispatch

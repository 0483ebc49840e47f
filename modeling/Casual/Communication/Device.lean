/-
`common/communication/device.h`: the inbound device, which reads transports from its connector,
puts the messages together in a cache and hands out complete ones.
-/
import Casual.Communication.Message

namespace Casual.Communication

/-- What a caller of `next` asks for: any message, one of a type, one of several types, or the one
with a correlation. -/
inductive Selector
  | any
  | type (t : Int)
  | types (ts : List Int)
  | correlation (c : Uuid)
  deriving DecidableEq, Repr

/-- The predicate `next` hands to `find_complete`. -/
def Selector.accepts : Selector → Complete → Bool
  | .any, _ => true
  | .type t, m => m.type == t
  | .types ts, m => ts.contains m.type
  | .correlation c, m => m.correlation == c

/-- `inbound::Device`: the cache, the correlations that are to be discarded, and the transports
that wait in the connector. -/
structure Device where
  cache : List Complete
  discarded : List Uuid
  connector : List Transport
  deriving DecidableEq, Repr

/-- `cache( transport)` on the cache: the first message with the transport's correlation takes it,
and without one there is a new message at the end. -/
def cacheTransport : List Complete → Transport → List Complete
  | [], transport => [.ofTransport transport]
  | m :: rest, transport =>
    if transport.correlation = m.correlation then m.add transport :: rest
    else m :: cacheTransport rest transport

namespace Device

/-- A transport that was read: `discard( transport)`, and if it is not to be discarded, `cache( transport)`. -/
def take (d : Device) (transport : Transport) : Device :=
  if transport.correlation ∈ d.discarded then
    { d with discarded := if transport.last then d.discarded.erase transport.correlation else d.discarded }
  else { d with cache := cacheTransport d.cache transport }

/-- The loop of `find`. The policy reads one transport after the other: `reads` is how many it gets
before it gives up, because the connector is empty and the policy does not block, or because the
error handler leaves with an exception. -/
def find (predicate : Complete → Bool) : Nat → Device → Device
  | 0, d => d
  | reads + 1, d =>
    if d.cache.any predicate then d
    else
      match d.connector with
      | [] => d
      | transport :: rest => find predicate reads (take { d with connector := rest } transport)

/-- `next`: the first complete message in the cache that the selector accepts leaves the cache. -/
def next (d : Device) (selector : Selector) (reads : Nat) : Option Complete × Device :=
  let predicate := fun m : Complete => m.complete && selector.accepts m
  let d := d.find predicate reads
  match d.cache.find? predicate with
  | some found => (some found, { d with cache := d.cache.eraseP predicate })
  | none => (none, d)

/-- `discard( correlation)`. -/
def discard (d : Device) (correlation : Uuid) : Device :=
  let predicate := fun m : Complete => m.correlation == correlation
  match d.cache.find? predicate with
  | some complete =>
    { d with
      discarded := if complete.complete then d.discarded else d.discarded ++ [correlation]
      cache := d.cache.eraseP predicate }
  | none => if correlation ∈ d.discarded then d else { d with discarded := d.discarded ++ [correlation] }

end Device

/-! ## The cache by correlation -/

/-- The messages of a cache with a correlation. -/
def withCorrelation (c : Uuid) (cache : List Complete) : List Complete :=
  cache.filter fun m => m.correlation == c

theorem mem_withCorrelation {c : Uuid} {cache : List Complete} {m : Complete} :
    m ∈ withCorrelation c cache ↔ m ∈ cache ∧ m.correlation = c := by simp [withCorrelation]

/-- The message a cache holds after some of its transports. -/
def partly : List Transport → List Complete
  | [] => []
  | t :: ts => [.feed t ts]

theorem partly_append (ts : List Transport) (t : Transport) :
    partly (ts ++ [t]) = if ts = [] then [.ofTransport t] else (partly ts).map (·.add t) := by
  cases ts with
  | nil => rfl
  | cons u us => simp [partly, Complete.feed_append]

theorem withCorrelation_cacheTransport_of_ne {c : Uuid} {t : Transport} (h : t.correlation ≠ c) :
    ∀ cache : List Complete, withCorrelation c (cacheTransport cache t) = withCorrelation c cache
  | [] => by simp [cacheTransport, withCorrelation, h]
  | m :: rest => by
    unfold cacheTransport
    split_ifs with hm
    · have : ¬ m.correlation = c := fun h' => h (hm.trans h')
      simp [withCorrelation, this]
    · have ih := withCorrelation_cacheTransport_of_ne h rest
      unfold withCorrelation at ih ⊢
      by_cases hc : m.correlation = c <;> simp [hc, ih]

theorem withCorrelation_cacheTransport {t : Transport} : ∀ {cache : List Complete} {ts : List Transport},
    withCorrelation t.correlation cache = partly ts →
    withCorrelation t.correlation (cacheTransport cache t) = partly (ts ++ [t])
  | [], ts, h => by
    cases ts with
    | nil => simp [cacheTransport, withCorrelation, partly]
    | cons u us => simp [withCorrelation, partly] at h
  | m :: rest, ts, h => by
    unfold cacheTransport
    by_cases hm : t.correlation = m.correlation
    · -- the message is there, and no other with its correlation behind it
      have hm' : m.correlation = t.correlation := hm.symm
      rw [if_pos hm]
      cases ts with
      | nil => simp [withCorrelation, hm', partly] at h
      | cons u us =>
        simp only [withCorrelation, List.filter_cons, hm', beq_self_eq_true, if_true, partly, List.cons.injEq] at h
        rw [partly_append, if_neg (by simp)]
        obtain ⟨rfl, hrest⟩ := h
        simp [withCorrelation, hm', partly, hrest]
    · have hm' : ¬ m.correlation = t.correlation := fun h' => hm h'.symm
      rw [if_neg hm]
      have hrest : withCorrelation t.correlation rest = partly ts := by
        simpa [withCorrelation, hm'] using h
      have ih := withCorrelation_cacheTransport hrest
      simpa [withCorrelation, hm'] using ih

theorem map_correlation_cacheTransport (t : Transport) : ∀ cache : List Complete,
    (cacheTransport cache t).map (·.correlation) =
      if t.correlation ∈ cache.map (·.correlation) then cache.map (·.correlation)
      else cache.map (·.correlation) ++ [t.correlation]
  | [] => by simp [cacheTransport, Complete.ofTransport]
  | m :: rest => by
    unfold cacheTransport
    by_cases hm : t.correlation = m.correlation
    · simp [hm]
    · have ih := map_correlation_cacheTransport t rest
      rw [if_neg hm, List.map_cons, ih]
      by_cases hr : t.correlation ∈ rest.map (·.correlation)
      · simp only [hr, if_true, List.map_cons, List.mem_cons, or_true]
      · simp only [hr, if_false, List.map_cons, List.mem_cons, or_false, hm, List.cons_append]

/-- A message that is taken out, the first that satisfies a predicate, leaves the messages of other
correlations where they are. -/
theorem withCorrelation_eraseP_of_ne {c : Uuid} {p : Complete → Bool} : ∀ {cache : List Complete} {r : Complete},
    cache.find? p = some r → r.correlation ≠ c → withCorrelation c (cache.eraseP p) = withCorrelation c cache
  | [], _, h, _ => by simp at h
  | m :: rest, r, h, hne => by
    by_cases hp : p m
    · rw [List.find?_cons_of_pos hp] at h
      cases h
      rw [List.eraseP_cons_of_pos hp]
      simp [withCorrelation, hne]
    · rw [List.find?_cons_of_neg hp] at h
      rw [List.eraseP_cons_of_neg hp]
      have ih := withCorrelation_eraseP_of_ne h hne
      unfold withCorrelation at ih ⊢
      by_cases hc : m.correlation = c <;> simp [hc, ih]

theorem withCorrelation_eraseP {p : Complete → Bool} : ∀ {cache : List Complete} {r : Complete},
    cache.find? p = some r → withCorrelation r.correlation cache = [r] →
      withCorrelation r.correlation (cache.eraseP p) = []
  | [], _, h, _ => by simp at h
  | m :: rest, r, h, hone => by
    by_cases hp : p m
    · rw [List.find?_cons_of_pos hp] at h
      cases h
      rw [List.eraseP_cons_of_pos hp]
      simpa [withCorrelation] using hone
    · rw [List.find?_cons_of_neg hp] at h
      rw [List.eraseP_cons_of_neg hp]
      have hm : ¬ m.correlation = r.correlation := by
        intro hc
        simp only [withCorrelation, List.filter_cons, hc, beq_self_eq_true, if_true, List.cons.injEq] at hone
        obtain ⟨rfl, -⟩ := hone
        exact hp (List.find?_some h)
      have hrest : withCorrelation r.correlation rest = [r] := by simpa [withCorrelation, hm] using hone
      have ih := withCorrelation_eraseP h hrest
      simpa [withCorrelation, hm] using ih

end Casual.Communication

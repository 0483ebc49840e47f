/-
`first` and `next` of `buffer/source/field.cpp`: the next field is found from an id and an occurrence, and
what is found are an id and an occurrence again. Together they visit each field once, in order.
-/
import Casual.Field.Fields

namespace Casual.Field

/-! ## The functions -/

/-- `first`. -/
def first (b : Buffer) : Except Code (BitVec 64 × Int) :=
  match b.index with
  | [] => .error .noOccurrence
  | e :: _ => .ok (e.1, 0)

/-- `next`: the id and the occurrence of the field that is adjacent. -/
def next (id : BitVec 64) (occurrence : Int) (b : Buffer) : Except Code (BitVec 64 × Int) :=
  match findIndex id occurrence b.index with
  | some current =>
    match b.index[current + 1]? with
    | some adjacent => .ok (adjacent.1, ((b.index.take (current + 1)).countP fun e => e.1 == adjacent.1 : Nat))
    | none => .error .noOccurrence
  -- not even the previous one is there
  | none => .error .invalidId

/-- What is visited from a field on, while `next` succeeds, and what it reports then. -/
def visitFrom (b : Buffer) : Nat → BitVec 64 × Int → List (BitVec 64 × Int) × Option Code
  | 0, _ => ([], none)
  | fuel + 1, current =>
    match next current.1 current.2 b with
    | .ok adjacent => (current :: (visitFrom b fuel adjacent).1, (visitFrom b fuel adjacent).2)
    | .error e => ([current], some e)

/-- What is visited with `first` and then `next`. -/
def visit (b : Buffer) (fuel : Nat) : List (BitVec 64 × Int) × Option Code :=
  match first b with
  | .ok current => visitFrom b fuel current
  | .error e => ([], some e)

/-! ## Numbers of occurrences -/

/-- Each id with how often it was before; some were already. -/
def numberedFrom : List (BitVec 64) → List (BitVec 64) → List (BitVec 64 × Int)
  | _, [] => []
  | before, id :: ids => (id, (before.count id : Int)) :: numberedFrom (before ++ [id]) ids

/-- Each id with the number of its occurrence. -/
def numbered (ids : List (BitVec 64)) : List (BitVec 64 × Int) := numberedFrom [] ids

/-- The fields lie in the buffer one after the other, and the index is theirs. -/
structure Lies (b : Buffer) (items : List Item) : Prop where
  memory : b.memory = bytesOf items
  index : b.index = indexFrom 0 items

theorem Represents.lies {b : Buffer} {items : List Item} (h : Represents b items) : Lies b items := ⟨h.memory, h.index⟩

/-- What is received and is made of fields is a buffer with these. -/
theorem lies_of_construct {items : List Item} (hfits : ∀ i ∈ items, i.Fits) {capacity : Nat} (limit : capacity < 2 ^ 63)
    {fuel : Nat} {b : Buffer} (hfuel : items.length < fuel) (h : construct (bytesOf items) capacity limit fuel = some (.ok b)) :
    Lies b items := by
  have hindex := updateIndex_items items [] fuel [] hfits (List.nil_append _).symm hfuel
  unfold construct at h
  rw [List.length_nil, Int.natCast_zero] at hindex
  rw [hindex] at h
  obtain rfl := Except.ok.inj (Option.some.inj h)
  exact ⟨rfl, List.nil_append _⟩

/-! ## What is found -/

/-- The occurrence that has as many of its id before it as its number says. -/
theorem findIndex_count (id : BitVec 64) (offset : Int) (after : List (BitVec 64 × Int)) :
    ∀ before : List (BitVec 64 × Int), findIndex id ((before.map Prod.fst).count id : Nat) (before ++ (id, offset) :: after) =
      some before.length
  | [] => by simp [findIndex]
  | (id', offset') :: before => by
    have ih := findIndex_count id offset after before
    rw [List.cons_append, findIndex]
    by_cases hid : id' = id
    · have hcount : ((((id', offset') :: before).map Prod.fst).count id : Int) = (before.map Prod.fst).count id + 1 := by
        rw [List.map_cons, hid, List.count_cons_self]
        push_cast
        rfl
      rw [if_pos hid, hcount, if_neg (by omega), Int.add_sub_cancel, ih, List.length_cons]
      rfl
    · have hcount : (((id', offset') :: before).map Prod.fst).count id = (before.map Prod.fst).count id :=
        List.count_cons_of_ne hid
      rw [if_neg hid, hcount, ih, List.length_cons]
      rfl

theorem countP_eq (id : BitVec 64) (index : List (BitVec 64 × Int)) :
    (index.countP fun e => e.1 == id) = (index.map Prod.fst).count id := by
  rw [List.count, List.countP_map]
  rfl

/-- The field that is adjacent, with how often its id was before. -/
theorem next_eq {b : Buffer} {before after : List (BitVec 64 × Int)} {id id' : BitVec 64} {offset offset' : Int}
    (h : b.index = before ++ (id, offset) :: (id', offset') :: after) :
    next id ((before.map Prod.fst).count id : Nat) b =
      .ok (id', (((before ++ [(id, offset)]).map Prod.fst).count id' : Nat)) := by
  have htake : b.index.take (before.length + 1) = before ++ [(id, offset)] := by
    rw [h, List.take_append, List.take_of_length_le (Nat.le_succ _)]
    simp
  have hget : b.index[before.length + 1]? = some (id', offset') := by
    rw [h, List.getElem?_append_right (Nat.le_succ _)]
    simp
  have hfind : findIndex id ((before.map Prod.fst).count id : Nat) b.index = some before.length := by
    rw [h]
    exact findIndex_count id offset _ before
  unfold next
  rw [hfind]
  dsimp only
  rw [hget]
  dsimp only
  rw [htake, countP_eq]

theorem next_last {b : Buffer} {before : List (BitVec 64 × Int)} {id : BitVec 64} {offset : Int}
    (h : b.index = before ++ [(id, offset)]) : next id ((before.map Prod.fst).count id : Nat) b = .error .noOccurrence := by
  have hget : b.index[before.length + 1]? = none := by
    rw [h]
    simp
  have hfind : findIndex id ((before.map Prod.fst).count id : Nat) b.index = some before.length := by
    rw [h]
    exact findIndex_count id offset _ before
  unfold next
  rw [hfind]
  dsimp only
  rw [hget]

/-- The induction is on the fields that are left. -/
theorem visitFrom_eq {b : Buffer} : ∀ {after before : List (BitVec 64 × Int)} {id : BitVec 64} {offset : Int} {fuel : Nat},
    b.index = before ++ (id, offset) :: after → after.length < fuel →
      visitFrom b fuel (id, ((before.map Prod.fst).count id : Nat)) =
        (numberedFrom (before.map Prod.fst) (id :: after.map Prod.fst), some .noOccurrence)
  | [], before, id, offset, fuel + 1, h, _ => by
    rw [visitFrom, next_last h]
    rfl
  | (id', offset') :: after, before, id, offset, fuel + 1, h, hfuel => by
    have hsplit : b.index = (before ++ [(id, offset)]) ++ (id', offset') :: after := by
      rw [h, List.append_assoc, List.singleton_append]
    have ih := visitFrom_eq hsplit (Nat.lt_of_succ_lt_succ hfuel)
    rw [visitFrom, next_eq h]
    dsimp only
    rw [ih, List.map_append, numberedFrom]
    rfl

/-- The pairs that are visited denote the fields, one after the other. -/
theorem findIndex_numberedFrom : ∀ {after before : List (BitVec 64 × Int)} {k : Nat} {current : BitVec 64 × Int},
    (numberedFrom (before.map Prod.fst) (after.map Prod.fst))[k]? = some current →
      findIndex current.1 current.2 (before ++ after) = some (before.length + k)
  | [], _, _, _, h => by simp [numberedFrom] at h
  | (id, offset) :: after, before, 0, current, h => by
    obtain rfl := Option.some.inj h
    exact findIndex_count id offset after before
  | (id, offset) :: after, before, k + 1, current, h => by
    have hmap : before.map Prod.fst ++ [id] = (before ++ [(id, offset)]).map Prod.fst := by
      rw [List.map_append]
      rfl
    rw [List.map_cons, numberedFrom, List.getElem?_cons_succ, hmap] at h
    have ih := findIndex_numberedFrom h
    rw [List.append_assoc, List.singleton_append, List.length_append] at ih
    rw [ih, List.length_singleton, Nat.add_assoc, Nat.add_comm 1]

theorem map_fst_indexFrom : ∀ (offset : Int) (items : List Item), (indexFrom offset items).map Prod.fst = items.map Item.id
  | _, [] => rfl
  | offset, i :: items => by rw [indexFrom, List.map_cons, map_fst_indexFrom, List.map_cons]

/-- Each field is visited once, in the order of the index, which is that in which the fields lie in the buffer, with its id
and the number of its occurrence; by these it is the field at its place that is found. Then there are no more. -/
theorem visit_eq (b : Buffer) :
    (∀ fuel, b.index.length ≤ fuel → visit b fuel = (numbered (b.index.map Prod.fst), some .noOccurrence)) ∧
    (∀ (k : Nat) current, (numbered (b.index.map Prod.fst))[k]? = some current →
      findIndex current.1 current.2 b.index = some k) ∧
    ∀ items, Lies b items → b.index.map Prod.fst = items.map Item.id := by
  refine ⟨?_, ?_, ?_⟩
  · intro fuel hfuel
    unfold visit first
    cases hindex : b.index with
    | nil => rfl
    | cons e after =>
      rw [hindex] at hfuel
      exact @visitFrom_eq b after [] e.1 e.2 fuel hindex hfuel
  · intro k current h
    have hfind := @findIndex_numberedFrom b.index [] k current h
    rwa [List.nil_append, List.length_nil, Nat.zero_add] at hfind
  · intro items h
    rw [h.index]
    exact map_fst_indexFrom 0 items

end Casual.Field

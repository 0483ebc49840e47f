/-
`common/transaction/id.cpp`: how the `XID`s of transactions are compared. What `operator <` and
`operator ==` say of the memory they lie in is a linear order of keys, two of which are the same when
the transactions are.
-/
import Casual.Common.Marshal
import Mathlib.Data.List.Lex
import Mathlib.Data.Prod.Lex

namespace Casual.Common.Marshal

open Casual.Lib

/-! ## Memory -/

/-- `std::memcmp`: bytes are compared as they are without a sign. -/
def memcmp : Nat → List UInt8 → List UInt8 → Int
  | n + 1, a :: as, b :: bs => if a = b then memcmp n as bs else if a < b then -1 else 1
  | _, _, _ => 0

/-- The numbers of the first bytes. -/
def leading (n : Nat) (bytes : List UInt8) : List Nat := (bytes.take n).map UInt8.toNat

theorem leading_cons (n : Nat) (b : UInt8) (bytes : List UInt8) :
    leading (n + 1) (b :: bytes) = b.toNat :: leading n bytes := rfl

/-- Of as many bytes, the order is the one of a dictionary. -/
theorem memcmp_neg_iff : ∀ (n : Nat) {as bs : List UInt8}, as.length = bs.length →
    (memcmp n as bs < 0 ↔ leading n as < leading n bs)
  | 0, as, bs, _ => by simp [memcmp, leading]
  | _ + 1, [], [], _ => by simp [memcmp, leading]
  | n + 1, a :: as, b :: bs, h => by
    have ih := memcmp_neg_iff n (Nat.succ.inj h)
    rw [leading_cons, leading_cons, List.cons_lt_cons_iff, memcmp]
    split_ifs with heq hlt
    · subst heq
      simpa using ih
    · exact iff_of_true (by decide) (.inl (UInt8.lt_iff_toNat_lt.1 hlt))
    · refine iff_of_false (by decide) ?_
      rintro (hless | ⟨hsame, -⟩)
      · exact hlt (UInt8.lt_iff_toNat_lt.2 hless)
      · exact heq (UInt8.toNat_inj.1 hsame)

theorem memcmp_eq_zero_iff : ∀ (n : Nat) {as bs : List UInt8}, as.length = bs.length →
    (memcmp n as bs = 0 ↔ as.take n = bs.take n)
  | 0, as, bs, _ => by simp [memcmp]
  | _ + 1, [], [], _ => by simp [memcmp]
  | n + 1, a :: as, b :: bs, h => by
    have ih := memcmp_eq_zero_iff n (Nat.succ.inj h)
    rw [List.take_succ_cons, List.take_succ_cons, List.cons.injEq, memcmp]
    split_ifs with heq hlt
    · rw [ih]
      exact (and_iff_right heq).symm
    · exact iff_of_false (by decide) fun hsame => heq hsame.1
    · exact iff_of_false (by decide) fun hsame => heq hsame.1

/-- Behind parts of one size, what follows matters only when the parts are the same. -/
theorem append_lt_append_iff {as bs : List Nat} (as' bs' : List Nat) (h : as.length = bs.length) :
    as ++ as' < bs ++ bs' ↔ as < bs ∨ as = bs ∧ as' < bs' := by
  induction as generalizing bs with
  | nil =>
    obtain rfl := List.length_eq_zero_iff.1 h.symm
    simp
  | cons a as ih =>
    cases bs with
    | nil => cases h
    | cons b bs =>
      rw [List.cons_append, List.cons_append, List.cons_lt_cons_iff, List.cons_lt_cons_iff, ih (Nat.succ.inj h),
        List.cons.injEq]
      tauto

theorem leading_append (n : Nat) (as bs : List UInt8) :
    leading (as.length + n) (as ++ bs) = as.map UInt8.toNat ++ leading n bs := by
  unfold leading
  rw [List.take_length_add_append, List.map_append]

namespace XID

/-! ## Comparing -/

/-- The members before the data, as they lie in memory. -/
def header (x : XID) : List UInt8 :=
  Bytes.ofNat 8 x.formatID.toNat ++ Bytes.ofNat 8 x.gtridLength.toNat ++ Bytes.ofNat 8 x.bqualLength.toNat

/-- The bytes of an object. -/
def object (x : XID) : List UInt8 := x.header ++ x.data

/-- `sizeof( XID) - ( XIDDATASIZE - ( gtrid_length + bqual_length))`, as a `std::size_t`. -/
def compared (x : XID) : Nat := (152#64 - (128#64 - (x.gtridLength + x.bqualLength))).toNat

/-- `operator ==`. -/
def equal (lhs rhs : XID) : Bool :=
  if lhs.formatID ≠ rhs.formatID then false
  else if lhs.formatID = -1 then true
  else memcmp lhs.compared lhs.object rhs.object = 0

/-- `operator <`. -/
def less (lhs rhs : XID) : Bool :=
  if lhs.formatID ≠ rhs.formatID then lhs.formatID.slt rhs.formatID
  else if lhs.formatID = -1 then false
  else memcmp lhs.compared lhs.object rhs.object < 0

/-- `global`. -/
def global (x : XID) : List UInt8 := x.data.take x.gtridLength.toNat

/-- `branch`. -/
def branch (x : XID) : List UInt8 := (x.data.drop x.gtridLength.toNat).take x.bqualLength.toNat

/-- Two `XID`s name one branch of one transaction, or none. -/
def SameBranch (x y : XID) : Prop :=
  x.formatID = y.formatID ∧ (x.formatID = -1 ∨ x.global = y.global ∧ x.branch = y.branch)

@[simp] theorem length_header (x : XID) : x.header.length = 24 := by simp [header]

@[simp] theorem length_object (x : XID) : x.object.length = 152 := by simp [object, x.size]

theorem length_le {x : XID} (h : x.formatID ≠ -1) : x.length ≤ 128 := x.fits.resolve_left h

/-- What is compared is within the object: the members and the data that the lengths say. -/
theorem compared_eq {x : XID} (h : x.formatID ≠ -1) : x.compared = 24 + x.length := by
  have hfits := length_le h
  unfold length at hfits
  unfold compared length
  rw [BitVec.toNat_sub, BitVec.toNat_sub, BitVec.toNat_add]
  simp only [BitVec.toNat_ofNat]
  omega

theorem length_eq {x y : XID} (hgtrid : x.gtridLength = y.gtridLength) (hbqual : x.bqualLength = y.bqualLength) :
    x.length = y.length := by
  unfold length
  rw [hgtrid, hbqual]

/-- Numbers of eight bytes are the same when their bytes are. -/
theorem ofNat_inj {v w : BitVec 64} (h : Bytes.ofNat 8 v.toNat = Bytes.ofNat 8 w.toNat) : v = w := by
  have hv := Bytes.toNat_ofNat_of_lt (n := 8) v.isLt
  rw [h, Bytes.toNat_ofNat_of_lt w.isLt] at hv
  exact BitVec.eq_of_toNat_eq hv.symm

theorem header_inj {x y : XID} (h : x.header = y.header) :
    x.formatID = y.formatID ∧ x.gtridLength = y.gtridLength ∧ x.bqualLength = y.bqualLength := by
  unfold header at h
  obtain ⟨h, hbqual⟩ := List.append_inj h (by simp)
  obtain ⟨hformat, hgtrid⟩ := List.append_inj h (by simp)
  exact ⟨ofNat_inj hformat, ofNat_inj hgtrid, ofNat_inj hbqual⟩

/-! ## Keys -/

/-- What the order is about: the format, and unless it is the null `XID` the bytes that are compared. -/
def key (x : XID) : Int ×ₗ List Nat :=
  toLex (x.formatID.toInt, if x.formatID = -1 then [] else leading x.compared x.object)

theorem leading_object {x : XID} {n : Nat} : leading (24 + n) x.object = x.header.map UInt8.toNat ++ leading n x.data := by
  have h := leading_append n x.header x.data
  rwa [length_header] at h

theorem toNat_injective : Function.Injective UInt8.toNat := fun _ _ => UInt8.toNat_inj.1

/-- The bytes another `XID` would compare order the two in the same way: lengths that differ do so
before the data. -/
theorem leading_lt_iff {x y : XID} (hx : x.formatID ≠ -1) (hy : y.formatID ≠ -1) :
    leading x.compared x.object < leading x.compared y.object ↔ leading x.compared x.object < leading y.compared y.object := by
  rw [compared_eq hx, compared_eq hy, leading_object, leading_object, leading_object,
    append_lt_append_iff _ _ (by simp), append_lt_append_iff _ _ (by simp)]
  refine or_congr_right (and_congr_right fun h => ?_)
  obtain ⟨-, hgtrid, hbqual⟩ := header_inj (toNat_injective.list_map h)
  rw [length_eq hgtrid hbqual]

theorem leading_eq_iff {x y : XID} (hx : x.formatID ≠ -1) (hy : y.formatID ≠ -1) :
    x.object.take x.compared = y.object.take x.compared ↔ leading x.compared x.object = leading y.compared y.object := by
  have hsame : x.header.map UInt8.toNat = y.header.map UInt8.toNat → x.compared = y.compared := by
    intro h
    obtain ⟨-, hgtrid, hbqual⟩ := header_inj (toNat_injective.list_map h)
    unfold compared
    rw [hgtrid, hbqual]
  have htake : x.object.take x.compared = y.object.take x.compared ↔
      leading x.compared x.object = leading x.compared y.object := toNat_injective.list_map.eq_iff.symm
  rw [htake]
  constructor
  · intro h
    have hheader := h
    rw [compared_eq hx, leading_object, leading_object] at hheader
    rw [← hsame (List.append_inj_left hheader (by simp))]
    exact h
  · intro h
    have hheader := h
    rw [compared_eq hx, compared_eq hy, leading_object, leading_object] at hheader
    rw [hsame (List.append_inj_left hheader (by simp))] at h ⊢
    exact h

/-- `operator <` is the order of the keys. -/
theorem less_iff (x y : XID) : x.less y = true ↔ x.key < y.key := by
  unfold less key
  rw [Prod.Lex.toLex_lt_toLex]
  by_cases hformat : x.formatID = y.formatID
  · rw [if_neg (not_not.2 hformat), ← hformat]
    by_cases hnull : x.formatID = -1
    · simp [hnull]
    · have hnull' : y.formatID ≠ -1 := hformat ▸ hnull
      simp only [if_neg hnull, lt_irrefl, false_or, true_and, decide_eq_true_eq]
      rw [memcmp_neg_iff _ (by simp), leading_lt_iff hnull hnull']
  · rw [if_pos hformat, BitVec.slt_iff_toInt_lt]
    exact (or_iff_left fun h => hformat (BitVec.toInt_inj.1 h.1)).symm

/-- `operator ==` is the equality of the keys. -/
theorem equal_iff (x y : XID) : x.equal y = true ↔ x.key = y.key := by
  unfold equal key
  rw [toLex_inj, Prod.mk.injEq, BitVec.toInt_inj]
  by_cases hformat : x.formatID = y.formatID
  · rw [if_neg (not_not.2 hformat), ← hformat]
    by_cases hnull : x.formatID = -1
    · simp [hnull]
    · have hnull' : y.formatID ≠ -1 := hformat ▸ hnull
      simp only [if_neg hnull, true_and, decide_eq_true_eq]
      rw [memcmp_eq_zero_iff _ (by simp), leading_eq_iff hnull hnull']
  · rw [if_pos hformat]
    exact iff_of_false Bool.false_ne_true fun h => hformat h.1

/-! ## The same transaction -/

/-- The two parts of the data. -/
theorem take_length (x : XID) : x.data.take x.length = x.global ++ x.branch := List.take_add

theorem length_global {x : XID} (h : x.formatID ≠ -1) : x.global.length = x.gtridLength.toNat := by
  have hfits := length_le h
  unfold length at hfits
  rw [global, List.length_take, x.size]
  omega

theorem length_branch {x : XID} (h : x.formatID ≠ -1) : x.branch.length = x.bqualLength.toNat := by
  have hfits := length_le h
  unfold length at hfits
  rw [branch, List.length_take, List.length_drop, x.size]
  omega

/-- The bytes that are compared are the members and the two parts. -/
theorem take_compared {x y : XID} (hx : x.formatID ≠ -1) :
    y.object.take x.compared = y.header ++ y.data.take x.length := by
  rw [compared_eq hx, object, ← y.length_header, List.take_length_add_append]

/-- The lengths and the data they say are those of the two parts. -/
theorem parts_eq_iff {x y : XID} (hx : x.formatID ≠ -1) (hy : y.formatID ≠ -1) :
    x.gtridLength = y.gtridLength ∧ x.bqualLength = y.bqualLength ∧ x.data.take x.length = y.data.take y.length ↔
      x.global = y.global ∧ x.branch = y.branch := by
  rw [take_length, take_length]
  constructor
  · rintro ⟨hgtrid, -, hdata⟩
    exact List.append_inj hdata (by rw [length_global hx, length_global hy, hgtrid])
  · rintro ⟨hglobal, hbranch⟩
    have hgtrid : x.gtridLength = y.gtridLength := by
      rw [← BitVec.toNat_inj, ← length_global hx, ← length_global hy, hglobal]
    have hbqual : x.bqualLength = y.bqualLength := by
      rw [← BitVec.toNat_inj, ← length_branch hx, ← length_branch hy, hbranch]
    exact ⟨hgtrid, hbqual, by rw [hglobal, hbranch]⟩

theorem memory_eq_iff {x y : XID} (hformat : x.formatID = y.formatID) (hx : x.formatID ≠ -1) :
    x.object.take x.compared = y.object.take x.compared ↔ x.global = y.global ∧ x.branch = y.branch := by
  have hy : y.formatID ≠ -1 := hformat ▸ hx
  rw [← parts_eq_iff hx hy, take_compared hx, take_compared hx]
  constructor
  · intro h
    obtain ⟨hheader, hdata⟩ := List.append_inj h (by simp)
    obtain ⟨-, hgtrid, hbqual⟩ := header_inj hheader
    rw [length_eq hgtrid hbqual] at hdata ⊢
    exact ⟨hgtrid, hbqual, hdata⟩
  · rintro ⟨hgtrid, hbqual, hdata⟩
    have hheader : x.header = y.header := by
      unfold header
      rw [hformat, hgtrid, hbqual]
    rw [length_eq hgtrid hbqual] at hdata ⊢
    rw [hheader, hdata]

/-- `operator ==` compares what the two name. -/
theorem equal_iff_sameBranch (x y : XID) : x.equal y = true ↔ SameBranch x y := by
  unfold equal SameBranch
  by_cases hformat : x.formatID = y.formatID
  · rw [if_neg (not_not.2 hformat), and_iff_right hformat]
    by_cases hnull : x.formatID = -1
    · rw [if_pos hnull]
      exact iff_of_true rfl (.inl hnull)
    · rw [if_neg hnull, decide_eq_true_eq, memcmp_eq_zero_iff _ (by simp), memory_eq_iff hformat hnull,
        or_iff_right hnull]
  · rw [if_pos hformat]
    exact iff_of_false Bool.false_ne_true fun h => hformat h.1

/-- What is marshalled is equal when its members are. -/
theorem eq_iff_equal (x y : XID) : x.eq y = true ↔ x.equal y = true := by
  rw [equal_iff_sameBranch]
  unfold SameBranch
  by_cases hnull : x.formatID = -1
  · simp [XID.eq, null, hnull]
  · have hparts := fun hy => parts_eq_iff (x := x) (y := y) hnull hy
    constructor
    · intro h
      simp only [XID.eq, null, Bool.and_eq_true, Bool.or_eq_true, beq_iff_eq, hnull, false_or] at h
      obtain ⟨hformat, ⟨hgtrid, hbqual⟩, hdata⟩ := h
      have hlen := length_eq hgtrid hbqual
      exact ⟨hformat, .inr ((hparts (hformat ▸ hnull)).1 ⟨hgtrid, hbqual, hlen ▸ hdata⟩)⟩
    · rintro ⟨hformat, hsame⟩
      obtain ⟨hgtrid, hbqual, hdata⟩ := (hparts (hformat ▸ hnull)).2 (hsame.resolve_left hnull)
      simp only [XID.eq, null, Bool.and_eq_true, Bool.or_eq_true, beq_iff_eq]
      rw [← length_eq hgtrid hbqual] at hdata
      exact ⟨hformat, .inr ⟨⟨hgtrid, hbqual⟩, hdata⟩⟩

/-! ## The order -/

/-- A strict order that is total for an equality. -/
structure StrictTotal {α : Type} (lt eq : α → α → Bool) : Prop where
  irrefl : ∀ a, lt a a = false
  trans : ∀ a b c, lt a b = true → lt b c = true → lt a c = true
  trichotomous : ∀ a b, lt a b = false ∧ lt b a = false ↔ eq a b = true

/-- An order of keys is one of what has them. -/
theorem StrictTotal.of_key {α β : Type} [LinearOrder β] {lt eq : α → α → Bool} (key : α → β)
    (hlt : ∀ a b, lt a b = true ↔ key a < key b) (heq : ∀ a b, eq a b = true ↔ key a = key b) : StrictTotal lt eq where
  irrefl a := by
    rw [← Bool.not_eq_true, hlt]
    exact lt_irrefl _
  trans a b c hab hbc := (hlt a c).2 (((hlt a b).1 hab).trans ((hlt b c).1 hbc))
  trichotomous a b := by
    rw [← Bool.not_eq_true, ← Bool.not_eq_true, hlt, hlt, heq, not_lt, not_lt, and_comm]
    exact le_antisymm_iff.symm

/-- Two `XID`s are neither before nor behind one another exactly when they are equal, which they are
when they name the same branch of the same transaction. -/
theorem less_strictTotal : StrictTotal less equal ∧ ∀ x y, equal x y = true ↔ SameBranch x y :=
  ⟨.of_key key less_iff equal_iff, equal_iff_sameBranch⟩

end XID

end Casual.Common.Marshal

/-
Integers as decimal texts, and what is read of a text that starts with one.
-/
import Mathlib.Tactic
import Mathlib.Data.Nat.Digits.Lemmas
import Mathlib.Data.List.TakeWhile

namespace Casual.Lib.Decimal

/-- The digit of a number below ten. -/
def digit (d : Nat) : UInt8 := UInt8.ofNat (48 + d)

/-- A digit. -/
def isDigit (c : UInt8) : Bool := 48 ≤ c ∧ c ≤ 57

/-- The digits of a number, the first of which is not zero unless it is the only one. -/
def ofNat (n : Nat) : List UInt8 := if n = 0 then [digit 0] else ((Nat.digits 10 n).map digit).reverse

/-- The number that digits stand for. -/
def toNat (text : List UInt8) : Nat := text.foldl (fun n c => 10 * n + (c.toNat - 48)) 0

/-- A number in digits, with a sign when it is negative. -/
def ofInt (i : Int) : List UInt8 := if i < 0 then 45 :: ofNat i.natAbs else ofNat i.natAbs

/-- The digits that come first, as a number. -/
def scanNat (text : List UInt8) : Option Nat :=
  if text.takeWhile isDigit = [] then none else some (toNat (text.takeWhile isDigit))

/-- A sign, if there is one, and digits. -/
def scan : List UInt8 → Option Int
  | 45 :: text => (scanNat text).map fun n => -Int.ofNat n
  | 43 :: text => (scanNat text).map Int.ofNat
  | text => (scanNat text).map Int.ofNat

theorem digit_toNat {d : Nat} (h : d < 10) : (digit d).toNat - 48 = d := by
  have hdigit : (digit d).toNat = (48 + d) % 256 := rfl
  omega

theorem isDigit_digit {d : Nat} (h : d < 10) : isDigit (digit d) = true := by
  interval_cases d <;> decide

theorem isDigit_ofNat (n : Nat) : ∀ c ∈ ofNat n, isDigit c = true := by
  intro c hc
  unfold ofNat at hc
  split_ifs at hc with hn
  · rw [List.mem_singleton.1 hc]
    decide
  · obtain ⟨d, hd, rfl⟩ := List.mem_map.1 (List.mem_reverse.1 hc)
    exact isDigit_digit (Nat.digits_lt_base (by omega) hd)

theorem ofNat_ne_nil (n : Nat) : ofNat n ≠ [] := by
  unfold ofNat
  split_ifs with hn
  · exact List.cons_ne_nil _ _
  · simpa [Nat.digits_eq_nil_iff_eq_zero] using hn

/-- Digits in the order of their weight. -/
theorem toNat_reverse_map : ∀ {digits : List Nat}, (∀ d ∈ digits, d < 10) →
    toNat (digits.map digit).reverse = Nat.ofDigits 10 digits
  | [], _ => rfl
  | d :: digits, h => by
    have ih := toNat_reverse_map fun d hd => h d (List.mem_cons_of_mem _ hd)
    unfold toNat at ih ⊢
    rw [List.map_cons, List.reverse_cons, List.foldl_append, ih, List.foldl_cons, List.foldl_nil,
      digit_toNat (h d List.mem_cons_self), Nat.ofDigits_cons, Nat.add_comm]

theorem toNat_ofNat (n : Nat) : toNat (ofNat n) = n := by
  unfold ofNat
  split_ifs with hn
  · rw [hn]
    rfl
  · rw [toNat_reverse_map fun d hd => Nat.digits_lt_base (by omega) hd, Nat.ofDigits_digits]

theorem scanNat_ofNat (n : Nat) : scanNat (ofNat n) = some n := by
  unfold scanNat
  rw [List.takeWhile_eq_self_iff.2 (isDigit_ofNat n), if_neg (ofNat_ne_nil n), toNat_ofNat]

/-- A number that was written is read. -/
theorem scan_ofInt (i : Int) : scan (ofInt i) = some i := by
  unfold ofInt
  split_ifs with hi
  · rw [scan, scanNat_ofNat, Option.map_some]
    have hi : -Int.ofNat i.natAbs = i := by rw [Int.ofNat_eq_natCast]; omega
    rw [hi]
  · have hfirst : ∀ c ∈ ofNat i.natAbs, c ≠ 45 ∧ c ≠ 43 := by
      intro c hc
      have hdigit := isDigit_ofNat _ c hc
      constructor <;> (rintro rfl; revert hdigit; decide)
    have hscan : scan (ofNat i.natAbs) = (scanNat (ofNat i.natAbs)).map Int.ofNat := by
      cases hn : ofNat i.natAbs with
      | nil => rfl
      | cons c text =>
        obtain ⟨hminus, hplus⟩ := hfirst c (hn ▸ List.mem_cons_self)
        rw [scan] <;> simpa
    rw [hscan, scanNat_ofNat, Option.map_some]
    have hi : Int.ofNat i.natAbs = i := by rw [Int.ofNat_eq_natCast]; omega
    rw [hi]

/-- Only digits and a sign are written. -/
theorem mem_ofInt {i : Int} {c : UInt8} (h : c ∈ ofInt i) : c = 45 ∨ isDigit c = true := by
  unfold ofInt at h
  split_ifs at h
  · rcases List.mem_cons.1 h with h | h
    · exact .inl h
    · exact .inr (isDigit_ofNat _ c h)
  · exact .inr (isDigit_ofNat _ c h)

theorem ofInt_ne_nil (i : Int) : ofInt i ≠ [] := by
  unfold ofInt
  split_ifs
  · exact List.cons_ne_nil _ _
  · exact ofNat_ne_nil _

end Casual.Lib.Decimal

/-
What the get operations of an order buffer read, and when they stay inside of what is used. A value of a
fixed size and a string are read before it is known whether they are there, and a binary is got by a size
that may be negative.
-/
import Casual.Order.Buffer

namespace Casual.Order

open Casual.Lib

/-- The bytes of a value that is encoded with a fixed number of them; those of a binary are those of its size. -/
def Kind.fixed : Kind → Nat
  | .bool => 1
  | .char => 1
  | .short => 2
  | .long => 8
  | .float => 4
  | .double => 8
  | .string => 0
  | .binary => 8

/-- The `long` that comes next. -/
def size (b : Buffer) : Int := (BitVec.ofNat 64 (Bytes.toNat ((unread b).take 8).reverse)).toInt

section

variable (beyond : List UInt8)

namespace Buffer

/-- How many bytes a get reads of where the selector is. -/
def readBy (b : Buffer) : Kind → Nat
  | .string => strlen (b.whereTo beyond) + 1
  | kind => kind.fixed

/-- Where the data of a binary is, and the size of it. -/
def binary (b : Buffer) : Option (Nat × Int) :=
  match b.selectPod beyond 8 with
  | (some size, b) =>
    if (b.consumed + size) % 2 ^ 64 > b.utilized then none else some (b.consumed, (BitVec.ofNat 64 size).toInt)
  | (none, _) => none

end Buffer

/-- A get reads nothing that is not used, a binary it returns is what is used, it does not pass what is used,
and stays where it is when it fails. -/
structure Inside (p : Floating) (b : Buffer) (kind : Kind) : Prop where
  read : b.selector + b.readBy beyond kind ≤ b.utilized
  binary : kind = .binary → ∀ start size, b.binary beyond = some (start, size) → 0 ≤ size ∧ start + size ≤ b.utilized
  position : (@get p beyond b kind).2.selector ≤ b.utilized
  failed : (@get p beyond b kind).1 = none → (@get p beyond b kind).2.selector = b.selector

/-- Something holds of each get, where it is done. -/
def Each (p : Floating) (P : Buffer → Kind → Prop) (b : Buffer) : List Kind → Prop
  | [] => True
  | kind :: kinds => P b kind ∧ Each p P (@get p beyond b kind).2 kinds

end

/-- As much is there as is got: the bytes of the value, the null character of a string, and the size of a binary, which
is not negative, or so much that the data would start before the buffer. -/
def Readable (b : Buffer) : Kind → Prop
  | .string => 0 ∈ unread b
  | .binary => 8 ≤ (unread b).length ∧ (0 ≤ size b ∨ b.selector + 8 + size b < 0)
  | kind => kind.fixed ≤ (unread b).length

/-! ## What a get does -/

section

variable {beyond : List UInt8} {b : Buffer}

theorem selectPod_cases (n : Nat) :
    ((unread b).length < n ∧ b.selectPod beyond n = (none, b)) ∨
    ∃ h, b.selectPod beyond n = (some (Bytes.toNat ((unread b).take n).reverse), b.consume n h) := by
  unfold Buffer.selectPod
  dsimp only
  split_ifs with hspace
  · exact .inl ⟨by rwa [length_unread], rfl⟩
  · refine .inr ⟨Buffer.consume_le hspace, ?_⟩
    rw [← length_unread, not_lt] at hspace
    rw [whereTo_eq, List.take_append_of_le_length hspace]

/-- A binary is refused, and the selector goes back over the size, or the data and the size are returned. -/
theorem selectBinary_cases (h : 8 ≤ (unread b).length) :
    (b.utilized < (b.selector + 8 + Bytes.toNat ((unread b).take 8).reverse) % 2 ^ 64 ∧ b.binary beyond = none ∧
      ∃ b', b.selectBinary beyond = (none, b') ∧ b'.memory = b.memory ∧ b'.selector = b.selector) ∨
    ((b.selector + 8 + Bytes.toNat ((unread b).take 8).reverse) % 2 ^ 64 ≤ b.utilized ∧
      b.binary beyond = some (b.selector + 8, size b) ∧
      ∃ data b', b.selectBinary beyond = (some data, b') ∧ b'.memory = b.memory) := by
  rcases @selectPod_cases beyond b 8 with ⟨hless, -⟩ | ⟨hle, hpod⟩
  · exact absurd h (not_le.2 hless)
  · unfold Buffer.selectBinary Buffer.binary
    rw [hpod]
    dsimp only
    by_cases hpast : ((b.consume 8 hle).consumed + Bytes.toNat ((unread b).take 8).reverse) % 2 ^ 64 >
      (b.consume 8 hle).utilized
    · rw [dif_pos hpast, if_pos hpast]
      exact .inl ⟨hpast, rfl, _, rfl, rfl, Nat.add_sub_cancel b.selector 8⟩
    · rw [dif_neg hpast, if_neg hpast]
      exact .inr ⟨not_lt.1 hpast, rfl, _, _, rfl, rfl⟩

theorem selectBinary_short (h : (unread b).length < 8) :
    b.selectBinary beyond = (none, b) ∧ b.binary beyond = none := by
  rcases @selectPod_cases beyond b 8 with ⟨-, hpod⟩ | ⟨hle, -⟩
  · unfold Buffer.selectBinary Buffer.binary
    rw [hpod]
    exact ⟨rfl, rfl⟩
  · rw [length_unread] at h
    unfold Buffer.utilized Buffer.consumed at h
    omega

theorem selectString_cases :
    b.selectString beyond = (none, b) ∨ ∃ value h, b.selectString beyond = (some value, b.consume
      (Buffer.strlen (b.whereTo beyond) + 1) h) := by
  unfold Buffer.selectString
  dsimp only
  split_ifs with hspace
  · exact .inl rfl
  · exact .inr ⟨_, Buffer.consume_le hspace, rfl⟩

/-- The content is as it was, and so is the position when the get fails. -/
structure Got (b : Buffer) {α : Type} (r : Option α × Buffer) : Prop where
  memory : r.2.memory = b.memory
  failed : r.1 = none → r.2.selector = b.selector

theorem Got.map {α α' : Type} {r : Option α × Buffer} (h : Got b r) (f : α → α') : Got b (r.map (Option.map f) id) :=
  ⟨h.memory, fun hnone => h.failed (Option.map_eq_none_iff.1 hnone)⟩

theorem got_selectPod (n : Nat) : Got b (b.selectPod beyond n) := by
  rcases @selectPod_cases beyond b n with ⟨-, hpod⟩ | ⟨hle, hpod⟩
  · rw [hpod]
    exact ⟨rfl, fun _ => rfl⟩
  · rw [hpod]
    exact ⟨rfl, nofun⟩

theorem got_selectString : Got b (b.selectString beyond) := by
  rcases @selectString_cases beyond b with hstring | ⟨value, hle, hstring⟩
  · rw [hstring]
    exact ⟨rfl, fun _ => rfl⟩
  · rw [hstring]
    exact ⟨rfl, nofun⟩

theorem got_selectBinary : Got b (b.selectBinary beyond) := by
  rcases lt_or_ge (unread b).length 8 with hless | hthere
  · rw [(selectBinary_short hless).1]
    exact ⟨rfl, fun _ => rfl⟩
  · rcases @selectBinary_cases beyond b hthere with ⟨-, -, b', hbinary, hmemory, hselector⟩ |
      ⟨-, -, data, b', hbinary, hmemory⟩
    · rw [hbinary]
      exact ⟨hmemory, fun _ => hselector⟩
    · rw [hbinary]
      exact ⟨hmemory, nofun⟩

theorem got_get (p : Floating) (kind : Kind) : Got b (@get p beyond b kind) := by
  cases kind with
  | string => exact got_selectString.map _
  | binary => exact got_selectBinary.map _
  | bool => exact (got_selectPod 1).map _
  | char => exact (got_selectPod 1).map _
  | short => exact (got_selectPod 2).map _
  | long => exact (got_selectPod 8).map _
  | float => exact (got_selectPod 4).map _
  | double => exact (got_selectPod 8).map _

/-! ## What is read -/

theorem selector_add_le_iff (n : Nat) (hpos : 0 < n) : b.selector + n ≤ b.utilized ↔ n ≤ (unread b).length := by
  rw [length_unread]
  unfold Buffer.consumed
  omega

/-- A string is read up to the null character, wherever that is. -/
theorem strlen_lt_iff : Buffer.strlen (b.whereTo beyond) < (unread b).length ↔ 0 ∈ unread b := by
  unfold Buffer.strlen
  rw [whereTo_eq]
  constructor
  · intro hlt
    by_contra hnot
    have hall : ∀ c ∈ unread b, decide (c ≠ 0) = true := by
      intro c hc
      exact decide_eq_true fun heq => hnot (heq ▸ hc)
    rw [List.takeWhile_append_of_pos hall, List.length_append] at hlt
    omega
  · intro hmem
    obtain ⟨value, rest, hsplit, hvalue⟩ := List.eq_append_cons_of_mem hmem
    have hlength : ((unread b ++ beyond).takeWhile (· ≠ 0)) = value := by
      rw [hsplit, List.append_assoc, List.cons_append]
      exact takeWhile_terminated hvalue _
    rw [hlength, hsplit, List.length_append, List.length_cons]
    omega

theorem read_iff (kind : Kind) : b.selector + b.readBy beyond kind ≤ b.utilized ↔
    if kind = .string then 0 ∈ unread b else kind.fixed ≤ (unread b).length := by
  cases kind with
  | string =>
    rw [if_pos rfl, ← @strlen_lt_iff beyond b]
    exact selector_add_le_iff _ (Nat.succ_pos _)
  | bool => exact selector_add_le_iff 1 (by decide)
  | char => exact selector_add_le_iff 1 (by decide)
  | short => exact selector_add_le_iff 2 (by decide)
  | long => exact selector_add_le_iff 8 (by decide)
  | float => exact selector_add_le_iff 4 (by decide)
  | double => exact selector_add_le_iff 8 (by decide)
  | binary => exact selector_add_le_iff 8 (by decide)

/-! ## Binaries -/

theorem size_bytes_lt (h : 8 ≤ (unread b).length) : Bytes.toNat ((unread b).take 8).reverse < 2 ^ 64 := by
  have hlt := Bytes.toNat_lt ((unread b).take 8).reverse
  rw [List.length_reverse, List.length_take, min_eq_left h] at hlt
  exact hlt

/-- A size that is negative is as large as can be when it is taken for one that is not. -/
theorem size_eq (h : 8 ≤ (unread b).length) :
    (Bytes.toNat ((unread b).take 8).reverse < 2 ^ 63 ∧ size b = Bytes.toNat ((unread b).take 8).reverse) ∨
    (2 ^ 63 ≤ Bytes.toNat ((unread b).take 8).reverse ∧
      size b = (Bytes.toNat ((unread b).take 8).reverse : Int) - 2 ^ 64) := by
  have hlt := size_bytes_lt h
  unfold size
  rw [BitVec.toInt_eq_toNat_cond, BitVec.toNat_ofNat, Nat.mod_eq_of_lt hlt]
  split_ifs with hsmall
  · exact .inl ⟨by omega, rfl⟩
  · refine .inr ⟨by omega, ?_⟩
    norm_num

theorem binary_inside_iff (h : 8 ≤ (unread b).length) :
    (∀ start size, b.binary beyond = some (start, size) → 0 ≤ size ∧ start + size ≤ b.utilized) ↔
      0 ≤ size b ∨ b.selector + 8 + size b < 0 := by
  have hlt := size_bytes_lt h
  have hwithin := b.within
  have hthere := h
  have haddressable := b.addressable
  have hfits := b.fits
  rw [length_unread] at hthere
  unfold Buffer.utilized Buffer.consumed at hthere
  rcases @selectBinary_cases beyond b h with ⟨hpast, hbinary, -⟩ | ⟨hwithin', hbinary, -⟩
  · -- it is refused: a size that is negative leads to before the buffer
    rw [hbinary]
    refine iff_of_true nofun ?_
    rcases size_eq h with ⟨-, hsize⟩ | ⟨hlarge, hsize⟩
    · left
      omega
    · right
      by_contra hnot
      unfold Buffer.utilized at hpast
      omega
  · rw [hbinary]
    unfold Buffer.utilized at hwithin' ⊢
    constructor
    · intro hinside
      exact .inl (hinside _ _ rfl).1
    · rintro hsize start size heq
      obtain ⟨rfl, rfl⟩ := Prod.mk.inj (Option.some.inj heq)
      rcases size_eq h with ⟨hsmall, hsize'⟩ | ⟨hlarge, hsize'⟩
      · rw [Nat.mod_eq_of_lt (by omega)] at hwithin'
        omega
      · -- the sum does not wrap, and is past what is used
        exfalso
        rcases hsize with hsize | hsize
        · omega
        · rw [Nat.mod_eq_of_lt (by omega)] at hwithin'
          omega

/-! ## When gets stay inside -/

theorem inside_iff (p : Floating) (kind : Kind) : Inside beyond p b kind ↔ Readable b kind := by
  have hgot := @got_get beyond b p kind
  have hposition : (@get p beyond b kind).2.selector ≤ b.utilized := by
    have hwithin := (@get p beyond b kind).2.within
    rwa [hgot.memory] at hwithin
  have hread := @read_iff beyond b kind
  constructor
  · intro h
    have hthere := hread.1 h.read
    cases kind with
    | binary =>
      have height : 8 ≤ (unread b).length := hthere
      exact ⟨height, (binary_inside_iff height).1 (h.binary rfl)⟩
    | string => exact hthere
    | bool => exact hthere
    | char => exact hthere
    | short => exact hthere
    | long => exact hthere
    | float => exact hthere
    | double => exact hthere
  · intro h
    refine ⟨?_, ?_, hposition, hgot.failed⟩
    · apply hread.2
      cases kind with
      | binary => exact h.1
      | string => exact h
      | bool => exact h
      | char => exact h
      | short => exact h
      | long => exact h
      | float => exact h
      | double => exact h
    · rintro rfl
      exact (binary_inside_iff h.1).2 h.2

end

/-- Any gets of any content stay inside exactly when each of them is of what is there. -/
theorem each_inside_iff (p : Floating) (beyond : List UInt8) (b : Buffer) (kinds : List Kind) :
    Each beyond p (Inside beyond p) b kinds ↔ Each beyond p Readable b kinds := by
  induction kinds generalizing b with
  | nil => exact Iff.rfl
  | cons kind kinds ih => exact and_congr (inside_iff p kind) (ih _)

theorem fits_filled (memory : List UInt8) : memory.length ≤ memory.length := le_rfl

theorem within_filled (memory : List UInt8) : 0 ≤ memory.length := Nat.zero_le _

/-- A buffer that is as large as its content. -/
def filled (memory : List UInt8) (h : memory.length < 2 ^ 63) : Buffer :=
  ⟨memory, memory.length, 0, h, fits_filled memory, within_filled memory⟩

/-- A `long` is read of a buffer that has nothing, a string of one that has no null character, and a binary that is
returned has the size -1. -/
theorem gets_outside :
    ¬ Each [] bits (Inside [] bits) (filled [] (by decide)) [.long] ∧
    ¬ Each [] bits (Inside [] bits) (filled [97] (by decide)) [.string] ∧
    ¬ Each [] bits (Inside [] bits) (filled [255, 255, 255, 255, 255, 255, 255, 255] (by decide)) [.binary] := by
  refine ⟨?_, ?_, ?_⟩
  · rintro ⟨h, -⟩
    exact absurd h.read (by decide)
  · rintro ⟨h, -⟩
    exact absurd h.read (by decide)
  · rintro ⟨h, -⟩
    have hbinary := h.binary rfl 8 (-1) (by decide)
    exact absurd hbinary.1 (by decide)

end Casual.Order

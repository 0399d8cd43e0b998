import Mathlib.Data.BitVec

/-! # Library — Reflected cyclic redundancy checks

The remainder is a word of `w` bits, low bit first: one bit of a message takes it down a place,
and the bit that falls out brings the polynomial in (`bit`).  A bit step is linear in exclusive
or (`bit_xor`), so the steps for the low `k` bits can be read from a table (`IsTable`), and an
octet goes in as its two halves (`octet_halves`). -/

namespace Crc

variable {w : ℕ} (poly : BitVec w)

/-! ### Bit by bit -/

def bit (x : BitVec w) : BitVec w := if x.getLsbD 0 then (x >>> 1) ^^^ poly else x >>> 1

def bits : ℕ → BitVec w → BitVec w
  | 0, x => x
  | n + 1, x => bits n (bit poly x)

/-- One octet of the message. -/
def octet (crc : BitVec w) (b : BitVec 8) : BitVec w := bits poly 8 (crc ^^^ b.setWidth w)

/-- A message. -/
def run (crc : BitVec w) (l : List (BitVec 8)) : BitVec w := l.foldl (octet poly) crc

theorem bit_xor (x y : BitVec w) : bit poly (x ^^^ y) = bit poly x ^^^ bit poly y := by
  have hcancel : ∀ a b : BitVec w, a ^^^ poly ^^^ (b ^^^ poly) = a ^^^ b := by
    intro a b
    rw [BitVec.xor_assoc a, ← BitVec.xor_assoc poly b, BitVec.xor_comm poly b, BitVec.xor_assoc b,
      BitVec.xor_self, BitVec.xor_zero]
  unfold bit
  rw [BitVec.getLsbD_xor, BitVec.ushiftRight_xor_distrib]
  cases x.getLsbD 0 with
  | false =>
    cases y.getLsbD 0 with
    | false => rfl
    | true => exact BitVec.xor_assoc _ _ _
  | true =>
    cases y.getLsbD 0 with
    | false =>
      change x >>> 1 ^^^ y >>> 1 ^^^ poly = x >>> 1 ^^^ poly ^^^ y >>> 1
      rw [BitVec.xor_assoc, BitVec.xor_assoc, BitVec.xor_comm (y >>> 1)]
    | true => exact (hcancel _ _).symm

theorem bits_xor (n : ℕ) (x y : BitVec w) :
    bits poly n (x ^^^ y) = bits poly n x ^^^ bits poly n y := by
  induction n generalizing x y with
  | zero => rfl
  | succ n ih => rw [bits, bits, bits, bit_xor, ih]

theorem bits_add (m n : ℕ) (x : BitVec w) : bits poly (m + n) x = bits poly n (bits poly m x) := by
  induction m generalizing x with
  | zero => rw [Nat.zero_add, bits]
  | succ m ih => rw [Nat.succ_add, bits, ih, bits]

/-- As long as no bit falls out, the steps are a shift. -/
theorem bits_of_low {n : ℕ} {x : BitVec w} (h : ∀ i < n, x.getLsbD i = false) :
    bits poly n x = x >>> n := by
  induction n generalizing x with
  | zero => exact (BitVec.ushiftRight_zero x).symm
  | succ n ih =>
    have hbit : bit poly x = x >>> 1 := by
      rw [bit, h 0 (Nat.succ_pos n)]
      rfl
    rw [bits, hbit, ih, ← BitVec.shiftRight_add, Nat.add_comm]
    intro i hi
    rw [BitVec.getLsbD_ushiftRight, Nat.add_comm]
    exact h (i + 1) (Nat.succ_lt_succ hi)

/-! ### By a table -/

/-- The low `k` bits alone. -/
def IsTable (k : ℕ) (tbl : List (BitVec w)) : Prop :=
  ∀ i < 2 ^ k, tbl.getD i 0 = bits poly k (BitVec.ofNat w i)

instance (k : ℕ) (tbl : List (BitVec w)) : Decidable (IsTable poly k tbl) :=
  inferInstanceAs (Decidable (∀ i < 2 ^ k, _))

variable {poly} {k : ℕ} {tbl : List (BitVec w)}

theorem getLsbD_low (k : ℕ) (x : BitVec w) (i : ℕ) :
    (BitVec.ofNat w (x.toNat % 2 ^ k)).getLsbD i = (decide (i < k) && x.getLsbD i) := by
  by_cases hi : i < w
  · rw [BitVec.getLsbD_ofNat, Nat.testBit_mod_two_pow, decide_eq_true hi, Bool.true_and]
    rfl
  · rw [BitVec.getLsbD_of_ge _ _ (Nat.le_of_not_lt hi),
      BitVec.getLsbD_of_ge _ _ (Nat.le_of_not_lt hi), Bool.and_false]

/-- **`k` steps at once.** -/
theorem IsTable.bits_eq (h : IsTable poly k tbl) (x : BitVec w) :
    bits poly k x = (x >>> k) ^^^ tbl.getD (x.toNat % 2 ^ k) 0 := by
  have hhigh : bits poly k (x ^^^ BitVec.ofNat w (x.toNat % 2 ^ k)) = x >>> k := by
    rw [bits_of_low]
    · refine BitVec.eq_of_getLsbD_eq fun i hi => ?_
      have hlow : ¬ k + i < k := Nat.not_lt.mpr (Nat.le_add_right k i)
      rw [BitVec.getLsbD_ushiftRight, BitVec.getLsbD_ushiftRight, BitVec.getLsbD_xor, getLsbD_low,
        decide_eq_false hlow, Bool.false_and, Bool.xor_false]
    · intro i hi
      rw [BitVec.getLsbD_xor, getLsbD_low, decide_eq_true hi, Bool.true_and, Bool.xor_self]
  have hsplit : x = x ^^^ BitVec.ofNat w (x.toNat % 2 ^ k) ^^^
      BitVec.ofNat w (x.toNat % 2 ^ k) := by
    rw [BitVec.xor_assoc, BitVec.xor_self, BitVec.xor_zero]
  rw [h _ (Nat.mod_lt _ (Nat.two_pow_pos k))]
  conv_lhs => rw [hsplit]
  rw [bits_xor, hhigh]

/-- Bits that only just fall in. -/
theorem bits_shiftLeft {n : ℕ} {x : BitVec w} (h : ∀ i, w ≤ i + n → x.getLsbD i = false) :
    bits poly n (x <<< n) = x := by
  rw [bits_of_low]
  · refine BitVec.eq_of_getLsbD_eq fun i hi => ?_
    rw [BitVec.getLsbD_ushiftRight, BitVec.getLsbD_shiftLeft]
    by_cases hin : n + i < w
    · rw [decide_eq_true hin, decide_eq_false (Nat.not_lt.mpr (Nat.le_add_right n i)),
        Nat.add_sub_cancel_left]
      rfl
    · rw [decide_eq_false hin, Bool.false_and, Bool.false_and]
      exact (h i (by omega)).symm
  · intro i hi
    rw [BitVec.getLsbD_shiftLeft, decide_eq_true hi, Bool.not_true, Bool.and_false, Bool.false_and]

/-- The halves of an octet, one behind the other. -/
theorem setWidth_halves (b : BitVec 8) :
    b.setWidth w = (b &&& 0x0f).setWidth w ^^^ ((b >>> 4).setWidth w <<< 4) := by
  have hmask : ∀ i < 8, (0x0f : BitVec 8).getLsbD i = decide (i < 4) := by decide
  refine BitVec.eq_of_getLsbD_eq fun i hi => ?_
  rw [BitVec.getLsbD_xor, BitVec.getLsbD_setWidth, BitVec.getLsbD_setWidth,
    BitVec.getLsbD_shiftLeft, BitVec.getLsbD_setWidth, BitVec.getLsbD_and,
    BitVec.getLsbD_ushiftRight, decide_eq_true hi]
  by_cases h4 : i < 4
  · rw [hmask i (by omega), decide_eq_true h4]
    simp
  · have hsub : 4 + (i - 4) = i := by omega
    have hin : i - 4 < w := by omega
    rw [decide_eq_false h4, hsub, decide_eq_true hin]
    by_cases h8 : i < 8
    · rw [hmask i h8, decide_eq_false h4]
      simp
    · rw [BitVec.getLsbD_of_ge b i (by omega)]
      rfl

/-- **An octet by its halves**, the low one first. -/
theorem octet_halves (hw : 8 ≤ w) (crc : BitVec w) (b : BitVec 8) :
    octet poly crc b =
      bits poly 4 (bits poly 4 (crc ^^^ (b &&& 0x0f).setWidth w) ^^^ (b >>> 4).setWidth w) := by
  have hhigh : bits poly 4 ((b >>> 4).setWidth w <<< 4) = (b >>> 4).setWidth w := by
    refine bits_shiftLeft fun i hi => ?_
    rw [BitVec.getLsbD_setWidth, BitVec.getLsbD_ushiftRight, BitVec.getLsbD_of_ge b _ (by omega),
      Bool.and_false]
  have height : bits poly 8 (crc ^^^ b.setWidth w) =
      bits poly 4 (bits poly 4 (crc ^^^ b.setWidth w)) := bits_add poly 4 4 _
  rw [octet, height, setWidth_halves, ← BitVec.xor_assoc,
    bits_xor poly 4 _ ((b >>> 4).setWidth w <<< 4), hhigh]

end Crc

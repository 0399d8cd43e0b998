import Mathlib.Data.BitVec
import Mathlib.Logic.Function.Basic

/-! # Library — Bits and fields of words

An array of words of `w` bits read as one long bitmap: bit `i` is bit `i % w` of
word `i / w`.  Setting or clearing a bit changes that bit only (`test_set`,
`test_clear`).

A field of a word is `len` bits from bit `off` on.  It is read with a shift and a mask, and
written with a mask that clears it. -/

/-! ### Bits packed into words -/

namespace BitArray

variable {w : Nat} {words : Nat → BitVec w} {i j : Nat}

def test (words : Nat → BitVec w) (i : Nat) : Bool := (words (i / w)).getLsbD (i % w)

/-- The word with bit `i`, and no other. -/
def mask (w i : Nat) : BitVec w := BitVec.twoPow w (i % w)

def set (words : Nat → BitVec w) (i : Nat) : Nat → BitVec w :=
  Function.update words (i / w) (words (i / w) ||| mask w i)

def clear (words : Nat → BitVec w) (i : Nat) : Nat → BitVec w :=
  Function.update words (i / w) (words (i / w) &&& ~~~ mask w i)

theorem test_zero : test (fun _ => (0 : BitVec w)) i = false := BitVec.getLsbD_zero

theorem getLsbD_mask (hw : 0 < w) : (mask w i).getLsbD (j % w) = decide (i % w = j % w) := by
  rw [mask, BitVec.getLsbD_twoPow, decide_eq_true (Nat.mod_lt i hw), Bool.true_and]

/-- Bits of one word are told apart by their place in it. -/
theorem eq_iff_mod_eq (h : j / w = i / w) : i % w = j % w ↔ j = i := by
  constructor
  · intro hm
    rw [← Nat.div_add_mod j w, ← Nat.div_add_mod i w, h, hm]
  · rintro rfl
    rfl

theorem test_set (hw : 0 < w) : test (set words i) j = (decide (j = i) || test words j) := by
  unfold test set
  by_cases h : j / w = i / w
  · rw [h, Function.update_self, BitVec.getLsbD_or, getLsbD_mask hw, Bool.or_comm,
      decide_eq_decide.mpr (eq_iff_mod_eq h)]
  · rw [Function.update_of_ne h, decide_eq_false fun hij => h (by rw [hij]), Bool.false_or]

theorem test_clear (hw : 0 < w) : test (clear words i) j = (!decide (j = i) && test words j) := by
  unfold test clear
  by_cases h : j / w = i / w
  · rw [h, Function.update_self, BitVec.getLsbD_and, BitVec.getLsbD_not, getLsbD_mask hw,
      decide_eq_true (Nat.mod_lt j hw), Bool.true_and, Bool.and_comm,
      decide_eq_decide.mpr (eq_iff_mod_eq h)]
  · rw [Function.update_of_ne h, decide_eq_false fun hij => h (by rw [hij]), Bool.not_false,
      Bool.true_and]

end BitArray

/-! ### Fields of a word -/

namespace BitFields

variable {n : Nat}

/-- `len` ones. -/
def mask (n len : Nat) : BitVec n := (BitVec.allOnes len).setWidth n

def get (w : BitVec n) (off len : Nat) : BitVec n := (w >>> off) &&& mask n len

def set (w : BitVec n) (off len : Nat) (value : BitVec n) : BitVec n :=
  (w &&& ~~~(mask n len <<< off)) ||| ((value &&& mask n len) <<< off)

theorem getLsbD_mask (n len i : Nat) : (mask n len).getLsbD i = decide (i < n ∧ i < len) := by
  simp [mask]

theorem getElem_mask (n len i : Nat) (h : i < n) : (mask n len)[i] = decide (i < len) := by
  rw [← BitVec.getLsbD_eq_getElem, getLsbD_mask]
  simp [h]

theorem getLsbD_get (w : BitVec n) (off len i : Nat) :
    (get w off len).getLsbD i = (decide (i < len) && w.getLsbD (off + i)) := by
  rw [get, BitVec.getLsbD_and, BitVec.getLsbD_ushiftRight, getLsbD_mask]
  by_cases hi : i < n
  · simp [hi, Bool.and_comm]
  · rw [BitVec.getLsbD_of_ge w (off + i) (by omega), Bool.false_and, Bool.and_false]

/-- A field as a word of its own width. -/
theorem get_eq_extract (w : BitVec n) (off len : Nat) :
    get w off len = (w.extractLsb' off len).setWidth n := by
  refine BitVec.eq_of_getLsbD_eq fun i hi => ?_
  rw [getLsbD_get]
  simp [hi]

theorem getLsbD_set (w value : BitVec n) (off len : Nat) {i : Nat} (hi : i < n) :
    (set w off len value).getLsbD i =
      if off ≤ i ∧ i < off + len then value.getLsbD (i - off) else w.getLsbD i := by
  simp only [set, BitVec.getLsbD_or, BitVec.getLsbD_and, BitVec.getLsbD_not,
    BitVec.getLsbD_shiftLeft, getLsbD_mask, hi, decide_true, Bool.true_and]
  by_cases hoff : off ≤ i
  · by_cases hlen : i < off + len
    · simp [hoff, hlen, Nat.not_lt.mpr hoff, show i - off < n by omega,
        show i - off < len by omega]
    · simp [hlen, Nat.not_lt.mpr hoff, show ¬ i - off < len by omega]
  · simp [hoff, Nat.lt_of_not_le hoff]

/-- A field that is written reads as what its bits hold. -/
theorem get_set_self (w value : BitVec n) {off len : Nat} (h : off + len ≤ n) :
    get (set w off len value) off len = (value.setWidth len).setWidth n := by
  refine BitVec.eq_of_getLsbD_eq fun i hi => ?_
  rw [getLsbD_get, BitVec.getLsbD_setWidth, BitVec.getLsbD_setWidth, decide_eq_true hi,
    Bool.true_and]
  by_cases hlen : i < len
  · rw [getLsbD_set w value off len (by omega), if_pos ⟨Nat.le_add_right off i, by omega⟩,
      Nat.add_sub_cancel_left]
  · rw [decide_eq_false hlen, Bool.false_and, Bool.false_and]

theorem get_set_of_disjoint (w value : BitVec n) {off len off' len' : Nat}
    (h : off + len ≤ off' ∨ off' + len' ≤ off) :
    get (set w off len value) off' len' = get w off' len' := by
  refine BitVec.eq_of_getLsbD_eq fun i hi => ?_
  rw [getLsbD_get, getLsbD_get]
  by_cases hlen : i < len'
  · by_cases hn : off' + i < n
    · rw [getLsbD_set w value off len hn, if_neg (by omega)]
    · rw [BitVec.getLsbD_of_ge _ _ (Nat.le_of_not_lt hn), BitVec.getLsbD_of_ge _ _ (by omega)]
  · rw [decide_eq_false hlen, Bool.false_and, Bool.false_and]

theorem get_zero (off len : Nat) : get (0 : BitVec n) off len = 0 := by
  refine BitVec.eq_of_getLsbD_eq fun i _ => ?_
  rw [getLsbD_get]
  simp

/-- Neighbours are one field. -/
theorem extract_append (w : BitVec n) (off len len' : Nat) :
    w.extractLsb' (off + len) len' ++ w.extractLsb' off len = w.extractLsb' off (len' + len) := by
  rw [BitVec.extractLsb'_append_extractLsb'_eq_extractLsb' rfl]

theorem extract_start (w : BitVec n) (off : Nat) {len len' : Nat} (h : len ≤ len') :
    (w.extractLsb' off len').extractLsb' 0 len = w.extractLsb' off len := by
  ext i hi
  simp
  omega

theorem toNat_append_add {m : Nat} (a : BitVec m) (b : BitVec n) :
    (a ++ b).toNat = 2 ^ n * a.toNat + b.toNat := by
  rw [BitVec.toNat_append, Nat.shiftLeft_eq, Nat.mul_comm, Nat.two_pow_add_eq_or_of_lt b.isLt]

/-! ### Maps of bits -/

/-- A bit of a word is what a mask of one reads. -/
theorem shift_and_one (w : BitVec n) (i : Nat) (hn : 0 < n) :
    w >>> i &&& 1#n = 1#n ↔ w.getLsbD i = true := by
  rw [BitVec.and_one_eq_setWidth_ofBool_getLsbD, BitVec.getLsbD_ushiftRight, Nat.add_zero]
  have hne : (0 : BitVec n) ≠ 1#n := fun h => by
    have hbit := congrArg (BitVec.getLsbD · 0) h
    simp [hn] at hbit
  cases w.getLsbD i with
  | false => simpa using hne
  | true =>
    refine iff_of_true (BitVec.eq_of_getLsbD_eq fun j hj => ?_) rfl
    simp [hj]

/-- A loop that sets the bits of what it finds. -/
theorem getLsbD_foldl_or {α : Type} (l : List α) (found : α → Bool) (place : α → Nat) (w : BitVec n)
    {j : Nat} (hj : j < n) :
    (l.foldl (fun w a => if found a then w ||| 1#n <<< place a else w) w).getLsbD j =
      (w.getLsbD j || l.any fun a => found a && decide (place a = j)) := by
  induction l generalizing w with
  | nil => simp
  | cons a l ih =>
    rw [List.foldl_cons, ih, List.any_cons]
    cases found a with
    | false => simp
    | true =>
      have hbit : (1#n <<< place a).getLsbD j = decide (place a = j) := by
        rw [BitVec.getLsbD_shiftLeft, BitVec.getLsbD_one]
        by_cases heq : place a = j
        · simp [heq, hj]
          omega
        · simp [heq]
          omega
      simp [hbit, Bool.or_assoc]

end BitFields

import Mathlib.Algebra.GroupWithZero.Nat
import Mathlib.Data.BitVec
import PirMesh.Library.Reassembly

/-! # Library — Words in a string of octets

A word is two octets, the low one first.  It is read at an offset (`word`) and written as
two octets (`wordBytes`); a string of words is read two octets at a time (`words`), and an
octet left over is dropped.  Reading undoes writing, and writing undoes reading but for
that octet (`flatMap_words`). -/

namespace Words

abbrev Octet := BitVec 8

def word (data : List Octet) (off : ℕ) : BitVec 16 := data.getD (off + 1) 0 ++ data.getD off 0

def wordBytes (x : BitVec 16) : List Octet := [x.setWidth 8, (x >>> 8).setWidth 8]

def words : List Octet → List (BitVec 16)
  | low :: high :: data => (high ++ low) :: words data
  | _ => []

theorem append_wordBytes (x : BitVec 16) : (x >>> 8).setWidth 8 ++ x.setWidth 8 = x := by
  refine BitVec.eq_of_getLsbD_eq fun i hi => ?_
  rw [BitVec.getLsbD_append]
  split
  · rename_i hlt
    simp [hlt]
  · rename_i hge
    have hlow : i - 8 < 8 := by omega
    simp [hlow, show 8 + (i - 8) = i by omega]

theorem setWidth_append (high low : Octet) : (high ++ low).setWidth 8 = low := by
  ext i hi
  rw [BitVec.getElem_setWidth, BitVec.getLsbD_append, if_pos hi, BitVec.getLsbD_eq_getElem]

theorem setWidth_append_shift (high low : Octet) : ((high ++ low) >>> 8).setWidth 8 = high := by
  ext i hi
  rw [BitVec.getElem_setWidth, BitVec.getLsbD_ushiftRight, BitVec.getLsbD_append,
    if_neg (by omega), Nat.add_sub_cancel_left, BitVec.getLsbD_eq_getElem]

theorem wordBytes_append (high low : Octet) : wordBytes (high ++ low) = [low, high] := by
  rw [wordBytes, setWidth_append, setWidth_append_shift]

@[simp] theorem length_wordBytes (x : BitVec 16) : (wordBytes x).length = 2 := rfl

/-- The octets of a stretch; behind the end they are 0. -/
def octets (data : List Octet) (off n : ℕ) : List Octet :=
  Reassembly.read (fun i => data.getD i 0) off n

theorem octets_take {data : List Octet} {n : ℕ} (h : n ≤ data.length) :
    octets data 0 n = data.take n := by
  refine List.ext_getElem (by simp [octets, h]) fun i hi hi' => ?_
  rw [List.length_take] at hi'
  have hlt : i < data.length := by omega
  simp [octets, hlt]

/-- A string is its octets. -/
theorem octets_all (data : List Octet) : octets data 0 data.length = data := by
  rw [octets_take (Nat.le_refl _), List.take_length]

/-- A word that is read is written as the octets it was read from. -/
theorem wordBytes_word (data : List Octet) (off : ℕ) :
    wordBytes (word data off) = octets data off 2 :=
  wordBytes_append _ _

/-- An octet of a part. -/
theorem getD_of_part {data part : List Octet} {off n i : ℕ} (h : (data.drop off).take n = part)
    (hi : i < n) : data.getD (off + i) 0 = part.getD i 0 := by
  rw [← h, List.getD_eq_getElem?_getD, List.getD_eq_getElem?_getD, List.getElem?_take_of_lt hi,
    List.getElem?_drop]

theorem words_flatMap (xs : List (BitVec 16)) : words (xs.flatMap wordBytes) = xs := by
  induction xs with
  | nil => rfl
  | cons x xs ih =>
    rw [List.flatMap_cons]
    exact congrArg₂ List.cons (append_wordBytes x) ih

/-- **Writing what was read** gives the string back iff it has no octet left over. -/
theorem flatMap_words (data : List Octet) :
    (words data).flatMap wordBytes = data ↔ data.length % 2 = 0 := by
  induction data using words.induct with
  | case1 low high data ih =>
    have hlen : (low :: high :: data).length % 2 = data.length % 2 := Nat.add_mod_right _ 2
    rw [words, List.flatMap_cons, wordBytes_append, hlen, ← ih]
    exact List.append_right_inj [low, high]
  | case2 data h =>
    cases data with
    | nil => exact iff_of_true rfl rfl
    | cons low data =>
      cases data with
      | nil => exact iff_of_false nofun Nat.one_ne_zero
      | cons high data => exact absurd rfl (h low high data)

end Words

import Mathlib.Data.Finset.Card
import Mathlib.Data.Fintype.Card
import Mathlib.Data.Set.Function

/-! # Library — Reassembly of a cut image

An image in memory is cut into segments; the segments arrive in any order and any
number of times, and each is copied to its place.  A copy of the image onto itself
never undoes an earlier one (`Cut.holds_copy`), so no order and no overlap of the
segments matters: once each has come the image is there (`Cut.eq_image`). -/

namespace Reassembly

variable {α : Type}

/-! ### Memory -/

/-- `len` cells from `adr`. -/
def read (m : Nat → α) (adr len : Nat) : List α := (List.range len).map fun i => m (adr + i)

/-- The memory with `l` copied to `adr`. -/
def copy (m : Nat → α) (adr : Nat) (l : List α) : Nat → α := fun a =>
  if h : adr ≤ a ∧ a - adr < l.length then l[a - adr] else m a

@[simp] theorem length_read (m : Nat → α) (adr len : Nat) : (read m adr len).length = len := by
  simp [read]

@[simp] theorem getElem_read (m : Nat → α) (adr len i : Nat) (h : i < (read m adr len).length) :
    (read m adr len)[i] = m (adr + i) := by
  simp [read]

theorem read_congr {m m' : Nat → α} {adr adr' len : Nat}
    (h : ∀ i < len, m (adr + i) = m' (adr' + i)) : read m adr len = read m' adr' len :=
  List.map_congr_left fun i hi => h i (List.mem_range.mp hi)

theorem copy_inside (m : Nat → α) (adr : Nat) {l : List α} {i : Nat} (h : i < l.length) :
    copy m adr l (adr + i) = l[i] := by
  simp [copy, h]

/-- The frame of a copy. -/
theorem copy_outside (m : Nat → α) {adr a : Nat} {l : List α} (h : a < adr ∨ adr + l.length ≤ a) :
    copy m adr l a = m a :=
  dif_neg (by omega)

/-- What has been copied is read back, a part of it too. -/
theorem read_copy (m : Nat → α) (adr : Nat) (l : List α) (off len : Nat)
    (h : off + len ≤ l.length) : read (copy m adr l) (adr + off) len = (l.drop off).take len := by
  refine List.ext_getElem (by simp; omega) fun i hi _ => ?_
  rw [length_read] at hi
  rw [getElem_read, Nat.add_assoc, copy_inside m adr (by omega), List.getElem_take,
    List.getElem_drop]

/-- A copy right behind what is read. -/
theorem read_copy_behind (m : Nat → α) (adr n : Nat) (l : List α) :
    read (copy m (adr + n) l) adr (n + l.length) = read m adr n ++ l := by
  refine List.ext_getElem (by simp) fun i hi _ => ?_
  rw [length_read] at hi
  rw [getElem_read, List.getElem_append]
  split
  · rename_i hlt
    rw [length_read] at hlt
    rw [copy_outside _ (Or.inl (Nat.add_lt_add_left hlt adr)), getElem_read]
  · rename_i hge
    rw [length_read] at hge
    obtain ⟨k, rfl⟩ := Nat.exists_eq_add_of_le (Nat.le_of_not_lt hge)
    rw [← Nat.add_assoc, copy_inside _ _ (Nat.lt_of_add_lt_add_left hi)]
    simp

theorem read_copy_append (m : Nat → α) (n : Nat) (l : List α) :
    read (copy m n l) 0 (n + l.length) = read m 0 n ++ l := by
  have h := read_copy_behind m 0 n l
  rwa [Nat.zero_add] at h

/-- A stretch of memory in two. -/
theorem read_add (m : Nat → α) (adr a b : Nat) :
    read m adr (a + b) = read m adr a ++ read m (adr + a) b := by
  simp only [read, List.range_add, List.map_append, List.map_map]
  refine congrArg (_ ++ ·) (List.map_congr_left fun i _ => ?_)
  exact congrArg m (Nat.add_assoc adr a i).symm

/-- A part of what is read. -/
theorem read_part (m : Nat → α) (adr off len n : Nat) (h : off + len ≤ n) :
    read m (adr + off) len = ((read m adr n).drop off).take len := by
  refine List.ext_getElem (by simp; omega) fun i _ _ => ?_
  simp [Nat.add_assoc]

/-- A copy into a block that has been copied changes the block. -/
theorem copy_copy (m : Nat → α) (adr : Nat) (l : List α) (off : Nat) (l' : List α)
    (h : off + l'.length ≤ l.length) :
    copy (copy m adr l) (adr + off) l' =
      copy m adr (l.take off ++ (l' ++ l.drop (off + l'.length))) := by
  have hlen : (l.take off ++ (l' ++ l.drop (off + l'.length))).length = l.length := by
    simp; omega
  funext a
  by_cases hin : adr ≤ a ∧ a < adr + l.length
  · obtain ⟨k, rfl⟩ := Nat.exists_eq_add_of_le hin.1
    have hk : k < l.length := by omega
    rw [copy_inside m adr (l := _ ++ _) (by omega), List.getElem_append]
    split
    · rename_i hlt
      rw [List.length_take] at hlt
      rw [copy_outside _ (by omega), copy_inside m adr hk, List.getElem_take]
    · rename_i hge
      rw [List.length_take] at hge
      obtain ⟨j, rfl⟩ := Nat.exists_eq_add_of_le (show off ≤ k by omega)
      rw [List.getElem_append]
      split
      · rename_i hlt
        rw [← Nat.add_assoc, copy_inside _ _ (by simp at hlt; omega)]
        simp [Nat.min_eq_left (show off ≤ l.length by omega)]
      · rename_i hge
        rw [copy_outside _ (by simp at hge; omega), copy_inside m adr hk]
        simp at hge ⊢
        congr 1
        omega
  · rw [copy_outside _ (by omega), copy_outside _ (by omega), copy_outside _ (by omega)]

/-! ### Cuts -/

/-- Segments of an image; `cover` says that they leave no gap. -/
structure Cut (α : Type) (n : Nat) where
  image : Nat → α
  total : Nat
  lo : Fin n → Nat
  hi : Fin n → Nat
  cover : ∀ a < total, ∃ i, lo i ≤ a ∧ a < hi i

namespace Cut

variable {n : Nat} {c : Cut α n} {m : Nat → α} {D : Finset (Fin n)}

/-- The octets of segment `i`. -/
def segment (c : Cut α n) (i : Fin n) : List α := read c.image (c.lo i) (c.hi i - c.lo i)

/-- The segments in `D` are in place. -/
def Holds (c : Cut α n) (m : Nat → α) (D : Finset (Fin n)) : Prop :=
  ∀ i ∈ D, Set.EqOn m c.image (Set.Ico (c.lo i) (c.hi i))

theorem holds_empty (m : Nat → α) : c.Holds m ∅ := fun i hi => by simp at hi

/-- **A segment arrives.** -/
theorem holds_copy (h : c.Holds m D) (i : Fin n) :
    c.Holds (copy m (c.lo i) (c.segment i)) (insert i D) := by
  intro j hj a ha
  by_cases hin : c.lo i ≤ a ∧ a < c.hi i
  · obtain ⟨k, rfl⟩ := Nat.exists_eq_add_of_le hin.1
    have hk : k < (c.segment i).length := by simp [segment]; omega
    rw [copy_inside m _ hk]
    simp [segment]
  · rw [copy_outside m (by simp [segment]; omega)]
    rcases Finset.mem_insert.mp hj with rfl | hj
    · exact absurd ha hin
    · exact h j hj ha

/-- **Every segment has come.** -/
theorem eq_image (h : c.Holds m Finset.univ) {a : Nat} (ha : a < c.total) : m a = c.image a := by
  obtain ⟨i, hlo, hhi⟩ := c.cover a ha
  exact h i (Finset.mem_univ i) ⟨hlo, hhi⟩

theorem read_eq (h : c.Holds m Finset.univ) {adr len : Nat} (hlen : adr + len ≤ c.total) :
    read m adr len = read c.image adr len :=
  read_congr fun _ _ => eq_image h (by omega)

end Cut

end Reassembly

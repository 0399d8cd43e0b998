import Mathlib.Algebra.GroupWithZero.Nat
import Mathlib.Data.BitVec
import Mathlib.Logic.Function.Basic

/-! # Library — A ring of cells under two wrapping counters

`2 ^ k` cells, a write counter and a read counter of `w > k` bits that never
return to zero but wrap; a counter points at the cell of its low `k` bits.
`contents` is the queue the ring stands for: `push`, `pop` and `set` on the ring
are `++ [x]`, `tail` and `List.set` on it. -/

namespace Ring

structure Buf (w : ℕ) (α : Type) where
  wptr : BitVec w
  rptr : BitVec w
  cell : ℕ → α

variable {w k : ℕ} {α : Type} {r : Buf w α}

/-- The cell a counter points at. -/
def slot (k : ℕ) (p : BitVec w) : ℕ := p.toNat % 2 ^ k

theorem slot_add (hk : k ≤ w) (p : BitVec w) (i : ℕ) :
    slot k (p + BitVec.ofNat w i) = (p.toNat + i) % 2 ^ k := by
  unfold slot
  rw [BitVec.toNat_add, BitVec.toNat_ofNat, Nat.add_mod_mod,
    Nat.mod_mod_of_dvd _ (pow_dvd_pow 2 hk)]

theorem add_one_add (p : BitVec w) (i : ℕ) :
    p + 1 + BitVec.ofNat w i = p + BitVec.ofNat w (i + 1) := by
  rw [Nat.add_comm i 1, BitVec.ofNat_add, BitVec.add_assoc]
  rfl

theorem slot_inj (hk : k ≤ w) (p : BitVec w) {i j : ℕ} (hi : i < 2 ^ k) (hj : j < 2 ^ k)
    (h : slot k (p + BitVec.ofNat w i) = slot k (p + BitVec.ofNat w j)) : i = j := by
  rw [slot_add hk, slot_add hk] at h
  have hmod : i ≡ j [MOD 2 ^ k] := Nat.ModEq.add_left_cancel' _ h
  exact Nat.ModEq.eq_of_lt_of_lt hmod hi hj

namespace Buf

def count (r : Buf w α) : ℕ := (r.wptr - r.rptr).toNat

/-- The queue, oldest first. -/
def contents (k : ℕ) (r : Buf w α) : List α :=
  (List.range r.count).map fun i => r.cell (slot k (r.rptr + BitVec.ofNat w i))

def push (k : ℕ) (r : Buf w α) (x : α) : Buf w α :=
  { r with wptr := r.wptr + 1, cell := Function.update r.cell (slot k r.wptr) x }

def pop (r : Buf w α) : Buf w α := { r with rptr := r.rptr + 1 }

def set (r : Buf w α) (c : ℕ) (x : α) : Buf w α := { r with cell := Function.update r.cell c x }

@[simp] theorem count_set (c : ℕ) (x : α) : (r.set c x).count = r.count := rfl

@[simp] theorem rptr_set (c : ℕ) (x : α) : (r.set c x).rptr = r.rptr := rfl

@[simp] theorem rptr_push (x : α) : (r.push k x).rptr = r.rptr := rfl

@[simp] theorem length_contents : (r.contents k).length = r.count := by simp [contents]

theorem getElem_contents {i : ℕ} (hi : i < (r.contents k).length) :
    (r.contents k)[i] = r.cell (slot k (r.rptr + BitVec.ofNat w i)) := by
  simp [contents]

theorem isLt_count (r : Buf w α) : r.count < 2 ^ w := BitVec.isLt _

theorem wptr_eq (r : Buf w α) : r.wptr = r.rptr + BitVec.ofNat w r.count := by
  unfold count
  rw [BitVec.ofNat_toNat, BitVec.setWidth_eq, add_sub_cancel]

theorem count_of {n : ℕ} (h : r.wptr = r.rptr + BitVec.ofNat w n) (hn : n < 2 ^ w) :
    r.count = n := by
  unfold count
  rw [h, add_sub_cancel_left, BitVec.toNat_ofNat, Nat.mod_eq_of_lt hn]

theorem count_eq_zero : r.count = 0 ↔ r.rptr = r.wptr := by
  constructor
  · intro h
    have hw := r.wptr_eq
    rw [h, BitVec.add_zero] at hw
    exact hw.symm
  · intro h
    unfold count
    rw [h, BitVec.sub_self, BitVec.toNat_zero]

theorem count_push (hk : k < w) (x : α) (h : r.count < 2 ^ k) :
    (r.push k x).count = r.count + 1 := by
  refine count_of ?_ ((Nat.succ_le_of_lt h).trans_lt (Nat.pow_lt_pow_right (by decide) hk))
  unfold push
  dsimp only
  rw [BitVec.ofNat_add, ← BitVec.add_assoc, ← wptr_eq]
  rfl

theorem count_pop (h : r.count ≠ 0) : r.pop.count = r.count - 1 := by
  refine count_of ?_ ((Nat.sub_le ..).trans_lt r.isLt_count)
  unfold pop
  dsimp only
  rw [add_one_add, Nat.sub_add_cancel (Nat.one_le_iff_ne_zero.mpr h)]
  exact r.wptr_eq

/-! ### The operations on the queue -/

theorem cell_push_of_lt (hk : k < w) (x : α) (h : r.count < 2 ^ k) {i : ℕ} (hi : i < r.count) :
    (r.push k x).cell (slot k (r.rptr + BitVec.ofNat w i)) =
      r.cell (slot k (r.rptr + BitVec.ofNat w i)) := by
  refine Function.update_of_ne ?_ _ _
  rw [r.wptr_eq]
  intro heq
  exact hi.ne (slot_inj hk.le _ (hi.trans h) h heq)

theorem contents_push (hk : k < w) (x : α) (h : r.count < 2 ^ k) :
    (r.push k x).contents k = r.contents k ++ [x] := by
  unfold contents
  rw [count_push hk x h, List.range_succ, List.map_append]
  congr 1
  · refine List.map_congr_left fun i hi => ?_
    exact cell_push_of_lt hk x h (List.mem_range.mp hi)
  · rw [List.map_singleton, rptr_push, ← wptr_eq]
    exact congrArg ([·]) (Function.update_self ..)

theorem contents_pop (h : r.count ≠ 0) : r.pop.contents k = (r.contents k).tail := by
  obtain ⟨n, hn⟩ := Nat.exists_eq_succ_of_ne_zero h
  unfold contents
  rw [count_pop h, hn, List.range_succ_eq_map, List.map_cons, List.tail_cons, List.map_map]
  refine List.map_congr_left fun i _ => ?_
  unfold pop
  dsimp only [Function.comp]
  rw [add_one_add]

theorem count_ne_zero_of_full (h : r.count = 2 ^ k) : r.count ≠ 0 := h ▸ (Nat.two_pow_pos k).ne'

theorem count_pop_lt (h : r.count = 2 ^ k) : r.pop.count < 2 ^ k := by
  rw [count_pop (count_ne_zero_of_full h), h]
  exact Nat.sub_lt (Nat.two_pow_pos k) Nat.one_pos

/-- Writing the oldest cell of a full ring, with both counters moved on. -/
theorem contents_pop_push (hk : k < w) (x : α) (h : r.count = 2 ^ k) :
    (r.pop.push k x).contents k = (r.contents k).tail ++ [x] := by
  rw [contents_push hk x (count_pop_lt h), contents_pop (count_ne_zero_of_full h)]

theorem contents_set (hk : k < w) (x : α) (h : r.count ≤ 2 ^ k) {i : ℕ} (hi : i < r.count) :
    (r.set (slot k (r.rptr + BitVec.ofNat w i)) x).contents k = (r.contents k).set i x := by
  refine List.ext_getElem (by simp) fun j hj hj' => ?_
  rw [List.length_set] at hj'
  rw [List.getElem_set, getElem_contents hj, getElem_contents hj']
  rw [length_contents, count_set] at hj
  unfold set
  dsimp only
  split_ifs with hij
  · rw [hij, Function.update_self]
  · refine Function.update_of_ne (fun heq => hij ?_) _ _
    exact (slot_inj hk.le _ (hj.trans_le h) (hi.trans_le h) heq).symm

theorem head_contents (h : r.count ≠ 0) :
    (r.contents k).head? = some (r.cell (slot k r.rptr)) := by
  obtain ⟨n, hn⟩ := Nat.exists_eq_succ_of_ne_zero h
  unfold contents
  rw [hn, List.range_succ_eq_map, List.map_cons, List.head?_cons, BitVec.add_zero]

end Buf

end Ring

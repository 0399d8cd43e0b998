import Mathlib.Order.Monotone.Basic

/-! # Library — Tilings of the naturals

A sequence of lengths cuts the naturals into consecutive tiles; tile `n` begins at
`start len n`.  A number lies in at most one tile (`start_add_inj`), and walking over
the tiles finds it (`walk_spec`). -/

namespace Tiling

variable {len : Nat → Nat} {a b m n r x : Nat}

/-- Where tile `n` begins. -/
def start (len : Nat → Nat) : Nat → Nat
  | 0 => 0
  | n + 1 => start len n + len n

@[simp] theorem start_zero : start len 0 = 0 := rfl

@[simp] theorem start_succ (n : Nat) : start len (n + 1) = start len n + len n := rfl

theorem start_mono (len : Nat → Nat) : Monotone (start len) :=
  monotone_nat_of_le_succ fun _ => Nat.le_add_right _ _

/-- An offset inside tile `n` lies before tile `m` when `n` does. -/
theorem start_add_lt (ha : a < len n) (h : n < m) : start len n + a < start len m :=
  Nat.lt_of_lt_of_le (Nat.add_lt_add_left ha _) (start_mono len h)

/-- **One place.**  A number has one tile and one offset in it. -/
theorem start_add_inj (ha : a < len n) (hb : b < len m) (h : start len n + a = start len m + b) :
    n = m ∧ a = b := by
  rcases Nat.lt_trichotomy n m with hnm | rfl | hmn
  · exact absurd (start_add_lt ha hnm) (by omega)
  · exact ⟨rfl, Nat.add_left_cancel h⟩
  · exact absurd (start_add_lt hb hmn) (by omega)

/-- The walk from tile `n` with `r` left: the tile it stops in, and what is left there. -/
def walk (len : Nat → Nat) : Nat → Nat → Nat → Nat × Nat
  | 0, r, n => (n, r)
  | fuel + 1, r, n => if len n ≤ r then walk len fuel (r - len n) (n + 1) else (n, r)

/-- The walk stops inside a tile, at the number it looks for. -/
theorem walk_spec (len : Nat → Nat) (fuel n r : Nat) (h : start len n + r < start len (n + fuel)) :
    start len (walk len fuel r n).1 + (walk len fuel r n).2 = start len n + r ∧
      (walk len fuel r n).2 < len (walk len fuel r n).1 ∧ (walk len fuel r n).1 < n + fuel := by
  induction fuel generalizing n r with
  | zero => exact absurd h (by simp)
  | succ fuel ih =>
    unfold walk
    split
    · rename_i hle
      have hpos : start len (n + 1) + (r - len n) = start len n + r := by
        rw [start_succ]
        omega
      have hih := ih (n + 1) (r - len n)
        (by rw [hpos, Nat.succ_add_eq_add_succ]; exact h)
      rw [hpos] at hih
      exact ⟨hih.1, hih.2.1, by omega⟩
    · rename_i hlt
      exact ⟨rfl, Nat.lt_of_not_le hlt, by omega⟩

end Tiling

import Mathlib.Algebra.Order.Group.Nat
import Mathlib.Tactic.Ring

/-! # Library — Proportions of naturals

The time for a way `d`, when `s` takes `t`, is `d * t / s`.  It is taken in two parts, the
whole multiples of `s` and what is left of the way (`proportion_split`), and the second
part coarsely, with `c * t / s` rounded first.  `le_coarse_add_one_iff` is when that costs
less than two.

A scale of `r` parts goes to one of more parts and comes back when both ways are rounded
to the nearest (`divRound_divRound`). -/

namespace Proportion

/-- `m` of `s` that take `t`, by a quotient of `c * t`. -/
def coarse (c t s m : ℕ) : ℕ := c * t / s * m / c

theorem proportion_split (d t : ℕ) {s : ℕ} (hs : 0 < s) :
    d * t / s = t * (d / s) + t * (d % s) / s := by
  have hd : d * t = t * (d % s) + s * (t * (d / s)) := by
    calc d * t = (d % s + s * (d / s)) * t := by rw [Nat.mod_add_div]
      _ = t * (d % s) + s * (t * (d / s)) := by ring
  rw [hd, Nat.add_mul_div_left _ _ hs, Nat.add_comm]

variable {c s : ℕ} (t m : ℕ)

/-- What the first quotient drops. -/
theorem coarse_rest (c s : ℕ) :
    c * t / s * m * s + c * t % s * m = c * (t * m) := by
  calc c * t / s * m * s + c * t % s * m = (c * t % s + s * (c * t / s)) * m := by ring
    _ = c * (t * m) := by rw [Nat.mod_add_div, Nat.mul_assoc]

theorem coarse_le (hc : 0 < c) (hs : 0 < s) : coarse c t s m ≤ t * m / s := by
  have hrest := coarse_rest t m c s
  rw [Nat.le_div_iff_mul_le hs]
  refine Nat.le_of_mul_le_mul_left ?_ hc
  calc c * (coarse c t s m * s) = c * (c * t / s * m / c) * s := (Nat.mul_assoc ..).symm
    _ ≤ c * t / s * m * s := Nat.mul_le_mul_right s (Nat.mul_div_le _ _)
    _ ≤ c * (t * m) := by rw [← hrest]; exact Nat.le_add_right _ _

theorem le_coarse_add_one_iff (hc : 0 < c) (hs : 0 < s) :
    t * m / s ≤ coarse c t s m + 1 ↔
      c * t / s * m % c * s + c * t % s * m < 2 * c * s := by
  have hrest := coarse_rest t m c s
  have hsplit : c * t / s * m * s = c * coarse c t s m * s + c * t / s * m % c * s := by
    rw [← Nat.add_mul, coarse, Nat.div_add_mod]
  have hlt : t * m / s ≤ coarse c t s m + 1 ↔ c * (t * m) < c * ((coarse c t s m + 2) * s) := by
    rw [← Nat.lt_succ_iff, Nat.div_lt_iff_lt_mul hs, Nat.mul_lt_mul_left hc]
  have hmul : c * ((coarse c t s m + 2) * s) = c * coarse c t s m * s + 2 * c * s := by ring
  rw [hlt, hmul]
  omega

/-! ### To the nearest -/

/-- The quotient, to the nearest. -/
def divRound (a b : ℕ) : ℕ := (a + b / 2) / b

theorem divRound_mono {a a' : ℕ} (h : a ≤ a') (b : ℕ) : divRound a b ≤ divRound a' b :=
  Nat.div_le_div_right (Nat.add_le_add_right h _)

/-- A part of the one scale is a part of the other. -/
theorem divRound_le {n x : ℕ} (hn : 0 < n) (hx : x ≤ n) (r : ℕ) : divRound (x * r) n ≤ r := by
  refine Nat.lt_succ_iff.mp ((Nat.div_lt_iff_lt_mul hn).mpr ?_)
  calc x * r + n / 2 ≤ n * r + n / 2 := Nat.add_le_add_right (Nat.mul_le_mul_right r hx) _
    _ < n * r + n := Nat.add_lt_add_left (Nat.div_lt_self hn (by decide)) _
    _ = r.succ * n := by rw [Nat.succ_mul, Nat.mul_comm]

/-- There and back: the first rounding costs half a part of `r`, which is less than half of `n`. -/
theorem divRound_divRound {n r : ℕ} (hr : 0 < r) (h : r < n) (k : ℕ) :
    divRound (divRound (k * n) r * r) n = k := by
  obtain ⟨q, hq⟩ : ∃ q, q = divRound (k * n) r := ⟨_, rfl⟩
  have hmod := Nat.mod_lt (k * n + r / 2) hr
  have hdiv : r * q + (k * n + r / 2) % r = k * n + r / 2 := by
    rw [hq]
    exact Nat.div_add_mod _ _
  rw [Nat.mul_comm] at hdiv
  rw [← hq, divRound]
  refine Nat.div_eq_of_lt_le ?_ ?_
  · omega
  · rw [Nat.succ_mul]
    omega

end Proportion

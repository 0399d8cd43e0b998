import Mathlib.Algebra.Order.Ring.Int
import Mathlib.Data.Int.ConditionallyCompleteOrder
import Mathlib.Order.ConditionallyCompleteLattice.Basic
import Mathlib.Order.Monotone.Basic

/-! # Library — Ramps in whole steps

A quantity goes up or down by a fixed fraction at a time, and only the whole part of what
was collected is added; the rest is carried over.  `wholes unit step n` is what `n` steps
of `step / unit` add up to (`tdiv_carry`, `tmod_carry`).

`Stops x P t` says that `x` follows the path `P` until it meets `t`, and stays there.  A
path that goes up passes its target exactly when it ends above it and never meets it
(`Stops.rises_iff`). -/

namespace Ramp

/-! ### Whole parts -/

def wholes (unit step : ℤ) (n : ℕ) : ℤ := (n * step).tdiv unit

section

variable {unit step : ℤ}

@[simp] theorem wholes_zero : wholes unit step 0 = 0 := by
  unfold wholes
  rw [Nat.cast_zero, zero_mul, Int.zero_tdiv]

theorem wholes_no_step (n : ℕ) : wholes unit 0 n = 0 := by
  unfold wholes
  rw [mul_zero, Int.zero_tdiv]

theorem wholes_neg (n : ℕ) : wholes unit (-step) n = -wholes unit step n := by
  unfold wholes
  rw [mul_neg, Int.neg_tdiv]

theorem wholes_of_nonneg (h : 0 ≤ step) (n : ℕ) : wholes unit step n = n * step / unit :=
  Int.tdiv_eq_ediv_of_nonneg (mul_nonneg (Int.natCast_nonneg n) h)

/-- A step up, with what was carried over. -/
theorem carry_of_nonneg (hunit : 0 < unit) (h : 0 ≤ step) (n : ℕ) :
    (step + (n * step).tmod unit).tdiv unit = wholes unit step (n + 1) - wholes unit step n ∧
      (step + (n * step).tmod unit).tmod unit = ((n + 1 : ℕ) * step).tmod unit := by
  have hn : 0 ≤ (n : ℤ) * step := mul_nonneg (Int.natCast_nonneg n) h
  have hr : (n * step).tmod unit = n * step % unit := Int.tmod_eq_emod_of_nonneg hn
  have hr0 : 0 ≤ n * step % unit := Int.emod_nonneg _ hunit.ne'
  have hsucc : ((n + 1 : ℕ) : ℤ) * step = step + n * step % unit + unit * (n * step / unit) := by
    have hsplit := Int.emod_add_mul_ediv (n * step) unit
    rw [Nat.cast_succ, add_mul, one_mul]
    omega
  rw [hr]
  constructor
  · rw [wholes_of_nonneg h, wholes_of_nonneg h, hsucc, Int.add_mul_ediv_left _ _ hunit.ne',
      Int.tdiv_eq_ediv_of_nonneg (add_nonneg h hr0)]
    omega
  · rw [Int.tmod_eq_emod_of_nonneg (add_nonneg h hr0), hsucc,
      Int.tmod_eq_emod_of_nonneg, Int.add_mul_emod_self_left]
    rw [← hsucc]
    exact mul_nonneg (Int.natCast_nonneg _) h

/-- A step down is a step up the other way. -/
theorem carry (hunit : 0 < unit) (step : ℤ) (n : ℕ) :
    (step + (n * step).tmod unit).tdiv unit = wholes unit step (n + 1) - wholes unit step n ∧
      (step + (n * step).tmod unit).tmod unit = ((n + 1 : ℕ) * step).tmod unit := by
  rcases le_total 0 step with h | h
  · exact carry_of_nonneg hunit h n
  · obtain ⟨hdiv, hmod⟩ := carry_of_nonneg hunit (Int.neg_nonneg_of_nonpos h) n
    have hneg : -step + (n * -step).tmod unit = -(step + (n * step).tmod unit) := by
      rw [mul_neg, Int.neg_tmod, neg_add]
    rw [hneg, Int.neg_tdiv, wholes_neg, wholes_neg] at hdiv
    rw [hneg, Int.neg_tmod, mul_neg, Int.neg_tmod] at hmod
    constructor
    · omega
    · exact neg_inj.mp hmod

theorem wholes_mono (hunit : 0 < unit) (h : 0 ≤ step) : Monotone (wholes unit step) := by
  intro a b hab
  rw [wholes_of_nonneg h, wholes_of_nonneg h]
  exact Int.ediv_le_ediv hunit (mul_le_mul_of_nonneg_right (Int.ofNat_le.mpr hab) h)

theorem wholes_anti (hunit : 0 < unit) (h : step ≤ 0) : Antitone (wholes unit step) := by
  intro a b hab
  have hneg := wholes_mono hunit (Int.neg_nonneg_of_nonpos h) hab
  rw [wholes_neg, wholes_neg] at hneg
  exact neg_le_neg_iff.mp hneg

theorem wholes_le (hunit : 0 < unit) (h : 0 ≤ step) {n : ℕ} {d : ℤ} (hd : n * step ≤ unit * d) :
    wholes unit step n ≤ d := by
  rw [wholes_of_nonneg h]
  exact Int.ediv_le_of_le_mul hunit (mul_comm unit d ▸ hd)

end

/-! ### Paths that stop -/

variable {x P : ℕ → ℤ} {t : ℤ}

structure Stops (x P : ℕ → ℤ) (t : ℤ) : Prop where
  zero : x 0 = P 0
  stays : ∀ n, x n = t → x (n + 1) = t
  follows : ∀ n, x n = P n → x n ≠ t → x (n + 1) = P (n + 1)

/-- The path meets the target, or is not above it, up to `N`. -/
theorem Stops.eq_min (h : Stops x P t) (hmono : Monotone P) {N : ℕ}
    (hsafe : P N ≤ t ∨ ∃ n ≤ N, P n = t) : ∀ n ≤ N, x n = min (P n) t := by
  -- a point before which the target was not met is not above it
  have hle : ∀ n ≤ N, (∀ i < n, P i < t) → P n ≤ t := by
    intro n hn hbefore
    obtain hN | ⟨i, hi, rfl⟩ := hsafe
    · exact (hmono hn).trans hN
    · by_contra hgt
      have hin : i < n := hmono.reflect_lt (not_le.mp hgt)
      exact lt_irrefl _ (hbefore i hin)
  intro n
  induction n with
  | zero =>
    intro hn
    rw [h.zero, min_eq_left (hle 0 hn fun i hi => absurd hi (Nat.not_lt_zero i))]
  | succ n ih =>
    intro hn
    have hx := ih (Nat.le_of_succ_le hn)
    rcases lt_or_ge (P n) t with hlt | hge
    · rw [min_eq_left hlt.le] at hx
      rw [h.follows n hx (hx.trans_ne hlt.ne), min_eq_left]
      exact hle _ hn fun i hi => (hmono (Nat.le_of_lt_succ hi)).trans_lt hlt
    · rw [min_eq_right hge] at hx
      rw [h.stays n hx, min_eq_right (hge.trans (hmono n.le_succ))]

theorem Stops.eq_of_missed (h : Stops x P t) {N : ℕ} (hmiss : ∀ n ≤ N, P n ≠ t) :
    ∀ n ≤ N, x n = P n := by
  intro n
  induction n with
  | zero => exact fun _ => h.zero
  | succ n ih =>
    intro hn
    have hx := ih (Nat.le_of_succ_le hn)
    exact h.follows n hx (hx.trans_ne (hmiss n (Nat.le_of_succ_le hn)))

/-- **A rising path.**  Its first `N` steps go up to the target and not beyond. -/
theorem Stops.rises_iff (h : Stops x P t) (hmono : Monotone P) (h0 : P 0 ≤ t) (N : ℕ) :
    (∀ n < N, x n ≤ x (n + 1) ∧ x (n + 1) ≤ t) ↔ P N ≤ t ∨ ∃ n ≤ N, P n = t := by
  constructor
  · intro hup
    by_contra hno
    obtain ⟨hend, hmiss⟩ := not_or.mp hno
    have hx := h.eq_of_missed (fun n hn hP => hmiss ⟨n, hn, hP⟩) N le_rfl
    cases N with
    | zero => exact hend h0
    | succ N => exact hend (hx ▸ (hup N N.lt_succ_self).2)
  · intro hsafe n hn
    rw [h.eq_min hmono hsafe n hn.le, h.eq_min hmono hsafe (n + 1) hn]
    exact ⟨min_le_min_right t (hmono n.le_succ), min_le_right _ _⟩

end Ramp

import Mathlib.Data.Int.Log
import Mathlib.Data.Rat.Floor
import Mathlib.Tactic.Linarith
import Mathlib.Tactic.NormNum
import Mathlib.Tactic.Positivity

/-! # Library — Rounding to a number of binary places

A positive number goes to the nearest one of `p` binary places, and half way to the one whose last
place is even (`nearest`).  Rounding keeps the order, and a number that has the places already is
left; so nothing crosses such a number (`nearest_le`, `le_nearest`). -/

namespace Rounding

/-! ### To whole numbers -/

/-- Half way goes to the even number. -/
def halfEven (x : ℚ) : ℤ :=
  if x - ⌊x⌋ < 1 / 2 then ⌊x⌋
  else if 1 / 2 < x - ⌊x⌋ then ⌊x⌋ + 1
  else if ⌊x⌋ % 2 = 0 then ⌊x⌋ else ⌊x⌋ + 1

theorem floor_le_halfEven (x : ℚ) : ⌊x⌋ ≤ halfEven x := by
  unfold halfEven
  split_ifs
  all_goals omega

theorem halfEven_le_floor_succ (x : ℚ) : halfEven x ≤ ⌊x⌋ + 1 := by
  unfold halfEven
  split_ifs
  all_goals omega

/-- Nothing goes below a whole number. -/
theorem le_halfEven {n : ℤ} {x : ℚ} (h : n ≤ x) : n ≤ halfEven x :=
  (Int.le_floor.mpr h).trans (floor_le_halfEven x)

/-- Nothing goes above a whole number. -/
theorem halfEven_le {n : ℤ} {x : ℚ} (h : x ≤ n) : halfEven x ≤ n := by
  rcases h.lt_or_eq with hlt | rfl
  · exact (halfEven_le_floor_succ x).trans (Int.floor_lt.mpr hlt)
  · have hzero : ((n : ℚ)) - ⌊(n : ℚ)⌋ < 1 / 2 := by
      rw [Int.floor_intCast, sub_self]
      norm_num
    rw [halfEven, if_pos hzero, Int.floor_intCast]

/-- More than half way goes up. -/
theorem lt_halfEven {n : ℤ} {x : ℚ} (h : n + 1 / 2 < x) : n < halfEven x := by
  have hfloor : n ≤ ⌊x⌋ := Int.le_floor.mpr (by linarith)
  rcases hfloor.lt_or_eq with hlt | heq
  · exact hlt.trans_le (floor_le_halfEven x)
  · have hup : 1 / 2 < x - ⌊x⌋ := by
      rw [← heq]
      linarith
    rw [halfEven, if_neg (by linarith), if_pos hup]
    omega

/-! ### To binary places -/

/-- The value of the last of `p` places. -/
def ulp (p : ℕ) (x : ℚ) : ℚ := 2 ^ (Int.log 2 x + 1 - p)

/-- A positive number, rounded to `p` places. -/
def nearest (p : ℕ) (x : ℚ) : ℚ := halfEven (x / ulp p x) * ulp p x

variable {p : ℕ} {x : ℚ}

theorem ulp_pos (p : ℕ) (x : ℚ) : 0 < ulp p x := zpow_pos (by norm_num) _

/-- Nothing goes above a multiple of the last place. -/
theorem nearest_le_mul {n : ℤ} (h : x ≤ n * ulp p x) : nearest p x ≤ n * ulp p x := by
  have hpos := ulp_pos p x
  have hle : halfEven (x / ulp p x) ≤ n := halfEven_le ((div_le_iff₀ hpos).mpr h)
  exact mul_le_mul_of_nonneg_right (by exact_mod_cast hle) hpos.le

theorem mul_le_nearest {n : ℤ} (h : n * ulp p x ≤ x) : n * ulp p x ≤ nearest p x := by
  have hpos := ulp_pos p x
  have hle : n ≤ halfEven (x / ulp p x) := le_halfEven ((le_div_iff₀ hpos).mpr h)
  exact mul_le_mul_of_nonneg_right (by exact_mod_cast hle) hpos.le

theorem mul_lt_nearest {n : ℤ} (h : n * ulp p x + ulp p x / 2 < x) :
    n * ulp p x < nearest p x := by
  have hpos := ulp_pos p x
  have hlt : n < halfEven (x / ulp p x) := by
    refine lt_halfEven ((lt_div_iff₀ hpos).mpr ?_)
    linarith
  exact mul_lt_mul_of_pos_right (by exact_mod_cast hlt) hpos

/-- A power of two has any number of places. -/
theorem two_zpow_eq_mul (hp : 1 ≤ p) {e : ℤ} (h : Int.log 2 x ≤ e) :
    ∃ n : ℤ, (2 : ℚ) ^ e = n * ulp p x := by
  obtain ⟨k, hk⟩ := Int.eq_ofNat_of_zero_le (a := e - (Int.log 2 x + 1 - p)) (by omega)
  refine ⟨2 ^ k, ?_⟩
  have he : e = k + (Int.log 2 x + 1 - p) := by omega
  rw [ulp, he, zpow_add₀ (by norm_num), zpow_natCast]
  push_cast
  ring

/-- A whole number of `p` places. -/
theorem natCast_eq_mul {m : ℕ} (hm : m ≤ 2 ^ p) (hp : 1 ≤ p) (hx : 0 < x) (hle : x ≤ m) :
    ∃ n : ℤ, (m : ℚ) = n * ulp p x := by
  have hlog : (2 : ℚ) ^ Int.log 2 x ≤ x := by
    have hself := Int.zpow_log_le_self (b := 2) Nat.one_lt_two hx
    exact_mod_cast hself
  have hcast : (m : ℚ) ≤ 2 ^ (p : ℤ) := by
    rw [zpow_natCast]
    exact_mod_cast hm
  have he : Int.log 2 x ≤ p :=
    (zpow_le_zpow_iff_right₀ (by norm_num)).mp (hlog.trans (hle.trans hcast))
  rcases he.lt_or_eq with hlt | heq
  · obtain ⟨k, hk⟩ := Int.eq_ofNat_of_zero_le (a := p - (Int.log 2 x + 1)) (by omega)
    refine ⟨m * 2 ^ k, ?_⟩
    have hneg : Int.log 2 x + 1 - p = -(k : ℤ) := by omega
    rw [ulp, hneg, zpow_neg, zpow_natCast]
    push_cast
    field_simp
  · -- only the number `2 ^ p` is this large
    have hmax : (m : ℚ) = 2 ^ (p : ℤ) := le_antisymm hcast (heq ▸ hlog.trans hle)
    rw [hmax]
    exact two_zpow_eq_mul hp heq.le

theorem nearest_le_natCast {m : ℕ} (hm : m ≤ 2 ^ p) (hp : 1 ≤ p) (hx : 0 < x) (hle : x ≤ m) :
    nearest p x ≤ m := by
  obtain ⟨n, hn⟩ := natCast_eq_mul hm hp hx hle
  rw [hn] at hle ⊢
  exact nearest_le_mul hle

/-- A whole number that has the places is left. -/
theorem nearest_natCast {m : ℕ} (hm : m ≤ 2 ^ p) (hp : 1 ≤ p) (hpos : 0 < m) :
    nearest p m = m := by
  have hcast : (0 : ℚ) < m := by exact_mod_cast hpos
  obtain ⟨n, hn⟩ := natCast_eq_mul hm hp hcast le_rfl
  refine le_antisymm (nearest_le_natCast hm hp hcast le_rfl) ?_
  have hle := mul_le_nearest hn.symm.le
  rwa [← hn] at hle

/-- More than half a place above one. -/
theorem one_lt_nearest (hp : 1 ≤ p) (h : 1 + ((2 : ℚ) ^ p)⁻¹ < x) : 1 < nearest p x := by
  have hinv : (0 : ℚ) < ((2 : ℚ) ^ p)⁻¹ := by positivity
  have hx : 1 < x := by linarith
  have hlog : 0 ≤ Int.log 2 x := by
    refine (Int.zpow_le_iff_le_log Nat.one_lt_two (by linarith)).mp ?_
    rw [zpow_zero]
    exact hx.le
  -- from 2 on a power of two lies between; below 2 the next place is above 1
  rcases hlog.lt_or_eq with hlt | heq
  · obtain ⟨n, hn⟩ := two_zpow_eq_mul hp (x := x) (e := Int.log 2 x) le_rfl
    have hself := Int.zpow_log_le_self (b := 2) Nat.one_lt_two (show 0 < x by linarith)
    have htwo : (2 : ℚ) ^ (1 : ℤ) ≤ 2 ^ Int.log 2 x := zpow_le_zpow_right₀ (by norm_num) (by omega)
    have hle : n * ulp p x ≤ nearest p x := by
      refine mul_le_nearest ?_
      rw [← hn]
      exact_mod_cast hself
    rw [← hn] at hle
    rw [zpow_one] at htwo
    linarith
  · obtain ⟨n, hn⟩ := two_zpow_eq_mul hp (x := x) (e := 0) heq.ge
    have hulp : ulp p x / 2 = ((2 : ℚ) ^ p)⁻¹ := by
      have hexp : Int.log 2 x + 1 - p = 1 + -(p : ℤ) := by omega
      rw [ulp, hexp, zpow_add₀ (by norm_num), zpow_neg, zpow_natCast, zpow_one]
      ring
    have hlt : n * ulp p x < nearest p x := by
      refine mul_lt_nearest ?_
      rw [← hn, hulp, zpow_zero]
      exact h
    rwa [← hn, zpow_zero] at hlt

/-- The last place of a number between two powers of two. -/
theorem ulp_eq {e : ℤ} (hlo : (2 : ℚ) ^ e ≤ x) (hhi : x < 2 ^ (e + 1)) :
    ulp p x = 2 ^ (e + 1 - p) := by
  have hx : 0 < x := (zpow_pos (by norm_num) e).trans_le hlo
  have hle : e ≤ Int.log 2 x :=
    (Int.zpow_le_iff_le_log Nat.one_lt_two hx).mp (by exact_mod_cast hlo)
  have hlt : Int.log 2 x < e + 1 :=
    (Int.lt_zpow_iff_log_lt Nat.one_lt_two hx).mp (by exact_mod_cast hhi)
  have heq : Int.log 2 x = e := by omega
  rw [ulp, heq]

end Rounding

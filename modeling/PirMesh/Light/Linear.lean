import PirMesh.Library.Bisection
import Mathlib.Algebra.Order.SuccPred
import Mathlib.Data.BitVec
import Mathlib.Data.Nat.SuccPred
import Mathlib.Tactic.Ring

/-! # Light — Linear lightness (`lighting_model.c`)

The linear lightness is the square of the perceived one.  The way back takes the root down to a
whole number, and the square is rounded up. -/

namespace PirMesh

open Bisection

/-! ### The root -/

/-- `mid` of a turn of the loop. -/
def mySqrtMid (start stop : BitVec 32) : BitVec 32 := start + (stop - start) / 2

/-- `start` and `end` after a turn that does not return. -/
def mySqrtEnds (x start stop : BitVec 32) : BitVec 32 × BitVec 32 :=
  let mid := mySqrtMid start stop
  if x < mid * mid then (start, mid) else (mid, stop)

theorem toNat_mySqrtMid {start stop : BitVec 32} (h : start < stop) :
    (mySqrtMid start stop).toNat = start.toNat + (stop.toNat - start.toNat) / 2 := by
  have hlt : start.toNat < stop.toNat := h
  have hway : (stop - start).toNat = stop.toNat - start.toNat :=
    BitVec.toNat_sub_of_le (BitVec.le_of_lt h)
  have hstop := stop.isLt
  have htwo : (2 : BitVec 32).toNat = 2 := rfl
  rw [mySqrtMid, BitVec.toNat_add, BitVec.toNat_udiv, hway, htwo]
  exact Nat.mod_eq_of_lt (by omega)

theorem mySqrtMid_le {start stop : BitVec 32} (h : start < stop) :
    (mySqrtMid start stop).toNat ≤ stop.toNat := by
  have hlt : start.toNat < stop.toNat := h
  rw [toNat_mySqrtMid h]
  omega

theorem sub_eq_one_iff {start stop : BitVec 32} (h : start < stop) :
    stop - start = 1 ↔ stop.toNat = start.toNat + 1 := by
  have hlt : start.toNat < stop.toNat := h
  have hone : (1 : BitVec 32).toNat = 1 := rfl
  rw [← BitVec.toNat_inj, BitVec.toNat_sub_of_le (BitVec.le_of_lt h), hone]
  omega

/-- A turn takes the ends closer, but for neighbours. -/
theorem mySqrtEnds_closer {x start stop : BitVec 32} (h : start < stop)
    (hadj : (mySqrtEnds x start stop).2 - (mySqrtEnds x start stop).1 ≠ 1) :
    (mySqrtEnds x start stop).2.toNat - (mySqrtEnds x start stop).1.toNat <
      stop.toNat - start.toNat := by
  have hlt : start.toNat < stop.toNat := h
  have hmid := toNat_mySqrtMid h
  unfold mySqrtEnds at hadj ⊢
  dsimp only at hadj ⊢
  split_ifs at hadj ⊢
  · dsimp only
    omega
  · have hup : mySqrtMid start stop < stop := BitVec.lt_def.mpr (by omega)
    have hne := mt (sub_eq_one_iff hup).mpr hadj
    dsimp only
    omega

/-- The loop of `mySqrt`, from its ends on. -/
def mySqrtLoop (x start stop : BitVec 32) : BitVec 16 :=
  if hlt : start < stop then
    let mid := mySqrtMid start stop
    let res := mid * mid
    if res = x then mid.setWidth 16
    else
      let ends := mySqrtEnds x start stop
      if hadj : ends.2 - ends.1 = 1 then ends.1.setWidth 16 else mySqrtLoop x ends.1 ends.2
  else start.setWidth 16
termination_by stop.toNat - start.toNat
decreasing_by exact mySqrtEnds_closer hlt hadj

def mySqrt (x : BitVec 32) : BitVec 16 :=
  if x = 0 ∨ x = 1 then x.setWidth 16
  else
    let magicNum : BitVec 32 := 65535 * 65535
    if magicNum ≤ x then 65535 else mySqrtLoop x 0 65535

/-- The places that `mySqrt` looks for. -/
abbrev square (r : ℕ) : ℕ := r * r

theorem square_strictMono : StrictMono square := fun _ _ h => Nat.mul_self_lt_mul_self h

/-- The product of a place below `65535` does not wrap. -/
theorem toNat_mul_self {mid : BitVec 32} (h : mid.toNat ≤ 65535) :
    (mid * mid).toNat = square mid.toNat := by
  rw [BitVec.toNat_mul]
  refine Nat.mod_eq_of_lt (lt_of_le_of_lt (Nat.mul_le_mul h h) ?_)
  decide

/-- A turn keeps the root between the ends. -/
theorem mySqrtEnds_between {x start stop : BitVec 32} (hstop : stop.toNat ≤ 65535)
    (h : Between square x.toNat start.toNat stop.toNat) :
    Between square x.toNat (mySqrtEnds x start stop).1.toNat
      (mySqrtEnds x start stop).2.toNat ∧ (mySqrtEnds x start stop).2.toNat ≤ 65535 := by
  have hends : start < stop := h.ends square_strictMono
  have hle : (mySqrtMid start stop).toNat ≤ 65535 := (mySqrtMid_le hends).trans hstop
  unfold mySqrtEnds
  dsimp only
  split_ifs with hres
  · refine ⟨h.lower ?_, hle⟩
    rw [← toNat_mul_self hle]
    exact hres
  · refine ⟨h.upper ?_, hstop⟩
    rw [← toNat_mul_self hle]
    exact Nat.le_of_not_lt hres

theorem mySqrtLoop_isGreatest (x start stop : BitVec 32) (hstop : stop.toNat ≤ 65535)
    (h : Between square x.toNat start.toNat stop.toNat) :
    IsGreatest {r | square r ≤ x.toNat} (mySqrtLoop x start stop).toNat := by
  have hnarrow : ∀ {r : BitVec 32}, r.toNat ≤ 65535 → (r.setWidth 16).toNat = r.toNat := by
    intro r hr
    rw [BitVec.toNat_setWidth, Nat.mod_eq_of_lt (by omega)]
  induction start, stop using mySqrtLoop.induct x with
  | case1 start stop hlt mid res hres =>
    have hle : mid.toNat ≤ 65535 := (mySqrtMid_le hlt).trans hstop
    rw [mySqrtLoop, dif_pos hlt, if_pos hres, hnarrow hle]
    exact isGreatest_of_eq square_strictMono (by rw [← toNat_mul_self hle, ← hres])
  | case2 start stop hlt mid res hres ends hadj =>
    obtain ⟨hbetween, hle⟩ := mySqrtEnds_between hstop h
    have hends : ends.1 < ends.2 := hbetween.ends square_strictMono
    have hsucc : ends.2.toNat = ends.1.toNat + 1 := (sub_eq_one_iff hends).mp hadj
    have hstart : ends.1.toNat ≤ 65535 := (Nat.le_of_lt hends).trans hle
    rw [mySqrtLoop, dif_pos hlt, if_neg hres, dif_pos hadj, hnarrow hstart]
    exact hbetween.isGreatest square_strictMono (Order.covBy_iff_add_one_eq.mpr hsucc.symm)
  | case3 start stop hlt mid res hres ends hadj ih =>
    obtain ⟨hbetween, hle⟩ := mySqrtEnds_between hstop h
    rw [mySqrtLoop, dif_pos hlt, if_neg hres, dif_neg hadj]
    exact ih hle hbetween
  | case4 start stop hlt => exact absurd (h.ends square_strictMono) hlt

/-- The root, rounded down, as far as the result goes. -/
theorem mySqrt_isGreatest (x : BitVec 32) :
    IsGreatest {r | r ≤ 65535 ∧ square r ≤ x.toNat} (mySqrt x).toNat := by
  unfold mySqrt
  dsimp only
  split_ifs with hsmall hlarge
  · have hself : (x.setWidth 16).toNat = x.toNat := by
      rcases hsmall with rfl | rfl <;> rfl
    have hle : x.toNat ≤ 1 := by
      rcases hsmall with rfl | rfl <;> decide
    rw [hself]
    refine ⟨⟨hle.trans (by decide), ?_⟩, fun r hr => (Nat.le_mul_self r).trans hr.2⟩
    exact (Nat.mul_le_mul_left x.toNat hle).trans_eq (Nat.mul_one _)
  · exact ⟨⟨le_rfl, hlarge⟩, fun r hr => hr.1⟩
  · have hbetween : Between square x.toNat (0 : BitVec 32).toNat (65535 : BitVec 32).toNat :=
      ⟨Nat.zero_le _, Nat.lt_of_not_le hlarge⟩
    have hgreatest := mySqrtLoop_isGreatest x 0 65535 le_rfl hbetween
    refine ⟨⟨?_, hgreatest.1⟩, fun r hr => hgreatest.2 hr.2⟩
    have hlt := (show Between square x.toNat _ 65535 from ⟨hgreatest.1, hbetween.lt⟩).ends
      square_strictMono
    exact Nat.le_of_lt hlt

/-! ### The two scales -/

def lightnessToLinear (val : BitVec 16) : BitVec 16 :=
  let linearTemp : BitVec 32 := val.setWidth 32 * val.setWidth 32
  let linear := linearTemp / 65535
  (if linearTemp % 65535 ≠ 0 then linear + 1 else linear).setWidth 16

def linearToLightness (val : BitVec 16) : BitVec 16 :=
  let sqrtVal : BitVec 32 := val.setWidth 32 * 65535
  mySqrt sqrtVal

/-- The square, rounded up to whole parts of `65535`. -/
theorem toNat_lightnessToLinear (val : BitVec 16) :
    (lightnessToLinear val).toNat = (square val.toNat + 65534) / 65535 := by
  have hval : (val.setWidth 32).toNat = val.toNat := BitVec.toNat_setWidth_of_le (by decide)
  have hle : val.toNat ≤ 65535 := Nat.le_of_lt_succ val.isLt
  have htemp : (val.setWidth 32 * val.setWidth 32).toNat = square val.toNat := by
    rw [toNat_mul_self (hval.trans_le hle), hval]
  have hsquare : square val.toNat ≤ 65535 * 65535 := Nat.mul_le_mul hle hle
  have hdiv : (val.setWidth 32 * val.setWidth 32 / 65535).toNat = square val.toNat / 65535 := by
    rw [BitVec.toNat_udiv, htemp]
    rfl
  have hmod : val.setWidth 32 * val.setWidth 32 % 65535 = 0 ↔ square val.toNat % 65535 = 0 := by
    rw [← BitVec.toNat_inj, BitVec.toNat_umod, htemp]
    rfl
  unfold lightnessToLinear
  dsimp only
  split_ifs with hrest
  · rw [ne_eq, hmod] at hrest
    have hone : (1 : BitVec 32).toNat = 1 := rfl
    rw [BitVec.toNat_setWidth, BitVec.toNat_add, hdiv, hone]
    omega
  · rw [ne_eq, not_not, hmod] at hrest
    rw [BitVec.toNat_setWidth, hdiv]
    omega

/-- The root of a value is at most that much lighter. -/
theorem linearToLightness_isGreatest (val : BitVec 16) :
    IsGreatest {r | r ≤ 65535 ∧ square r ≤ val.toNat * 65535} (linearToLightness val).toNat := by
  have hval : (val.setWidth 32 * 65535 : BitVec 32).toNat = val.toNat * 65535 := by
    have hlt := val.isLt
    have hmax : (65535 : BitVec 32).toNat = 65535 := rfl
    rw [BitVec.toNat_mul, BitVec.toNat_setWidth_of_le (by decide), hmax]
    exact Nat.mod_eq_of_lt (by omega)
  rw [← hval]
  exact mySqrt_isGreatest _

/-- The next place is too light, but at the top. -/
theorem linearToLightness_next (val : BitVec 16) (h : (linearToLightness val).toNat < 65535) :
    val.toNat * 65535 < square ((linearToLightness val).toNat + 1) := by
  by_contra hle
  have hnext := (linearToLightness_isGreatest val).2 ⟨h, Nat.le_of_not_lt hle⟩
  exact Nat.not_succ_le_self _ hnext

/-- There and back loses one part at most. -/
theorem linear_of_lightness (val : BitVec 16) :
    (lightnessToLinear (linearToLightness val)).toNat ≤ val.toNat ∧
      val.toNat ≤ (lightnessToLinear (linearToLightness val)).toNat + 1 := by
  obtain ⟨htop, hroot⟩ := (linearToLightness_isGreatest val).1
  rw [toNat_lightnessToLinear]
  generalize hr : (linearToLightness val).toNat = r at htop hroot ⊢
  refine ⟨by omega, ?_⟩
  rcases htop.lt_or_eq with hlt | rfl
  · have hnext : val.toNat * 65535 < square r + 2 * r + 1 := by
      calc val.toNat * 65535 < square ((linearToLightness val).toNat + 1) :=
            linearToLightness_next val (hr ▸ hlt)
        _ = square r + 2 * r + 1 := by rw [hr]; unfold square; ring
    omega
  · have hval := val.isLt
    have hmax : square 65535 = 65535 * 65535 := rfl
    omega

/-- A linear lightness that is not zero has a root of at least `255`. -/
theorem linear_of_lightness_pos {val : BitVec 16} (h : val ≠ 0) :
    lightnessToLinear (linearToLightness val) ≠ 0 := by
  have hpos : val.toNat ≠ 0 := fun hzero => h (BitVec.eq_of_toNat_eq hzero)
  have hroot : 255 ≤ (linearToLightness val).toNat := by
    refine (linearToLightness_isGreatest val).2 ⟨by decide, ?_⟩
    have hmax : square 255 = 65025 := rfl
    omega
  have hsquare : square 255 ≤ square (linearToLightness val).toNat :=
    square_strictMono.monotone hroot
  have hmax : square 255 = 65025 := rfl
  have hzero : (0 : BitVec 16).toNat = 0 := rfl
  rw [ne_eq, ← BitVec.toNat_inj, toNat_lightnessToLinear, hzero]
  omega

/-- The square is rounded up, so that its root is not below the lightness. -/
theorem lightness_of_linear (val : BitVec 16) :
    val ≤ linearToLightness (lightnessToLinear val) := by
  refine (linearToLightness_isGreatest _).2 ⟨Nat.le_of_lt_succ val.isLt, ?_⟩
  rw [toNat_lightnessToLinear]
  omega

/-- The root is taken down and the square up: a linear lightness comes back as it was or one less,
and is not lost; a lightness does not come back darker. -/
theorem linear_roundTrip :
    (∀ x : BitVec 32, IsGreatest {r : ℕ | r ≤ 65535 ∧ r * r ≤ x.toNat} (mySqrt x).toNat) ∧
      (∀ val : BitVec 16,
        (lightnessToLinear (linearToLightness val) = val ∨
          lightnessToLinear (linearToLightness val) = val - 1) ∧
        (lightnessToLinear (linearToLightness val) = 0 → val = 0)) ∧
      ∀ val : BitVec 16, val ≤ linearToLightness (lightnessToLinear val) := by
  refine ⟨mySqrt_isGreatest, fun val => ⟨?_, ?_⟩, lightness_of_linear⟩
  · obtain ⟨hle, hge⟩ := linear_of_lightness val
    rcases hle.lt_or_eq with hlt | heq
    · refine Or.inr (BitVec.eq_of_toNat_eq ?_)
      have hone : (1 : BitVec 16).toNat = 1 := rfl
      rw [BitVec.toNat_sub_of_le (BitVec.le_def.mpr (by omega)), hone]
      omega
    · exact Or.inl (BitVec.eq_of_toNat_eq heq)
  · exact fun hzero => by_contra fun hval => linear_of_lightness_pos hval hzero

end PirMesh

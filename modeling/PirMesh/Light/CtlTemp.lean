import PirMesh.Library.Proportion
import PirMesh.Light.TransitionSteps

/-! # Light — Temperatures and levels (`light.h`)

A colour temperature is kept as a level: its range goes to the 65536 levels, and back, both
rounded to the nearest.  The range has fewer temperatures than there are levels, so each
one comes back (`ctlTemp_roundTrip`). -/

namespace PirMesh

open Proportion

/-! ### The conversions -/

def divisionRound (val dividend : BitVec 32) : BitVec 32 := (val + dividend / 2) / dividend

def getCtlTempFromLevel (level min max : BitVec 16) : BitVec 16 :=
  if max = min then max
  else
    (min.setWidth 32 + divisionRound
      ((level.signExtend 32 + 32768) * (max.setWidth 32 - min.setWidth 32)) 65535).setWidth 16

def getLevelFromCtlTemp (temp min max : BitVec 16) : BitVec 16 :=
  if max = min then 0x7fff
  else
    (divisionRound ((temp.setWidth 32 - min.setWidth 32) * 65535)
      (max.setWidth 32 - min.setWidth 32) - 32768).setWidth 16

/-- `RANGE_TEMPERATURE_MAX` -/
def ctlTempMax : ℕ := 20000

/-- A range of temperatures. -/
structure CtlTempRange (min max : BitVec 16) : Prop where
  le : min.toNat ≤ max.toNat
  top : max.toNat ≤ ctlTempMax

/-- The products of the two, which are `int`, with what `division_round` adds, which is a `u32`. -/
structure CtlTempFits (val dividend : ℤ) : Prop where
  product : FitsS32 val
  sum : 0 ≤ val + dividend / 2 ∧ val + dividend / 2 < 2 ^ 32

/-! ### What they compute -/

theorem divisionRound_toNat (val dividend : BitVec 32)
    (h : val.toNat + dividend.toNat / 2 < 2 ^ 32) :
    (divisionRound val dividend).toNat = divRound val.toNat dividend.toNat := by
  unfold divisionRound divRound
  have hhalf : (dividend / 2).toNat = dividend.toNat / 2 := BitVec.toNat_udiv ..
  rw [BitVec.toNat_udiv, BitVec.toNat_add, hhalf, Nat.mod_eq_of_lt h]

/-- The level from the bottom. -/
def levelParts (level : BitVec 16) : ℕ := (level.toInt + 32768).toNat

theorem levelParts_le (level : BitVec 16) : levelParts level ≤ 65535 := by
  have hbounds := toInt_bounds level
  unfold levelParts
  omega

section

variable {min max temp level : BitVec 16}

theorem toNat_sub_min (h : min.toNat ≤ temp.toNat) :
    (temp.setWidth 32 - min.setWidth 32).toNat = temp.toNat - min.toNat := by
  have htemp := temp.isLt
  have hmin := min.isLt
  rw [BitVec.toNat_sub, BitVec.toNat_setWidth, BitVec.toNat_setWidth]
  omega

theorem toNat_level_parts (level : BitVec 16) :
    (level.signExtend 32 + 32768).toNat = levelParts level := by
  have hbounds := toInt_bounds level
  have hext : (level.signExtend 32).toInt = level.toInt := BitVec.toInt_signExtend_of_le (by decide)
  have hhalf : (32768 : BitVec 32).toNat = 32768 := rfl
  rw [BitVec.toNat_add, hhalf, levelParts]
  rcases toInt_eq_toNat_cases (level.signExtend 32) with ⟨h, -⟩ | ⟨h, -⟩
  · omega
  · omega

theorem mul_range_lt (hrange : CtlTempRange min max) {x : ℕ} (hx : x ≤ 65535) :
    x * (max.toNat - min.toNat) ≤ 65535 * 20000 :=
  Nat.mul_le_mul hx ((Nat.sub_le _ _).trans hrange.top)

theorem getCtlTempFromLevel_toNat (hrange : CtlTempRange min max) (hne : max ≠ min) :
    (getCtlTempFromLevel level min max).toNat =
      min.toNat + divRound (levelParts level * (max.toNat - min.toNat)) 65535 := by
  have hlevel := levelParts_le level
  have hprod := mul_range_lt hrange hlevel
  have htop : max.toNat ≤ 20000 := hrange.top
  have hle := divRound_le (by decide) hlevel (max.toNat - min.toNat)
  have hmul : ((level.signExtend 32 + 32768) * (max.setWidth 32 - min.setWidth 32)).toNat =
      levelParts level * (max.toNat - min.toNat) := by
    rw [BitVec.toNat_mul, toNat_level_parts, toNat_sub_min hrange.le]
    exact Nat.mod_eq_of_lt (by omega)
  have hdiv := divisionRound_toNat ((level.signExtend 32 + 32768) *
    (max.setWidth 32 - min.setWidth 32)) 65535 (by
      rw [hmul]
      show _ + 65535 / 2 < _
      omega)
  unfold getCtlTempFromLevel
  rw [if_neg hne, BitVec.toNat_setWidth, BitVec.toNat_add, hdiv, hmul, BitVec.toNat_setWidth]
  show (min.toNat % 2 ^ 32 + divRound _ 65535) % 2 ^ 32 % 2 ^ 16 = _
  have hmin := hrange.le
  omega

theorem getLevelFromCtlTemp_parts (hrange : CtlTempRange min max) (hne : max ≠ min)
    (hmin : min.toNat ≤ temp.toNat) (hmax : temp.toNat ≤ max.toNat) :
    levelParts (getLevelFromCtlTemp temp min max) =
      divRound ((temp.toNat - min.toNat) * 65535) (max.toNat - min.toNat) := by
  have hpos : 0 < max.toNat - min.toNat := by
    have hlt := lt_of_le_of_ne hrange.le fun h => hne (BitVec.eq_of_toNat_eq h.symm)
    omega
  have htop : max.toNat ≤ 20000 := hrange.top
  have hle := divRound_le hpos (Nat.sub_le_sub_right hmax min.toNat) 65535
  have hmul : ((temp.setWidth 32 - min.setWidth 32) * 65535).toNat =
      (temp.toNat - min.toNat) * 65535 := by
    rw [BitVec.toNat_mul, toNat_sub_min hmin]
    exact Nat.mod_eq_of_lt (by
      show _ * 65535 < 2 ^ 32
      omega)
  have hdiv := divisionRound_toNat ((temp.setWidth 32 - min.setWidth 32) * 65535)
    (max.setWidth 32 - min.setWidth 32) (by
      rw [hmul, toNat_sub_min hrange.le]
      omega)
  rw [hmul, toNat_sub_min hrange.le] at hdiv
  obtain ⟨q, hq⟩ : ∃ q, q = divisionRound ((temp.setWidth 32 - min.setWidth 32) * 65535)
    (max.setWidth 32 - min.setWidth 32) := ⟨_, rfl⟩
  rw [← hq] at hdiv
  rw [← hdiv] at hle ⊢
  have hhalf : (32768 : BitVec 32).toNat = 32768 := rfl
  unfold levelParts getLevelFromCtlTemp
  rw [if_neg hne, ← hq, BitVec.toInt_eq_toNat_cond, BitVec.toNat_setWidth, BitVec.toNat_sub, hhalf]
  split_ifs
  · omega
  · omega

end

/-! ### There and back -/

/-- **Every temperature of a range** comes back from its level, a higher one has no lower level,
every level has a temperature of the range, and nothing on the way leaves 32 bits. -/
theorem ctlTemp_roundTrip (min max : BitVec 16) (hrange : CtlTempRange min max) :
    (∀ temp : BitVec 16, min.toNat ≤ temp.toNat → temp.toNat ≤ max.toNat →
      getCtlTempFromLevel (getLevelFromCtlTemp temp min max) min max = temp) ∧
    (∀ temp temp' : BitVec 16, min.toNat ≤ temp.toNat → temp.toNat ≤ temp'.toNat →
      temp'.toNat ≤ max.toNat →
        (getLevelFromCtlTemp temp min max).toInt ≤ (getLevelFromCtlTemp temp' min max).toInt) ∧
    (∀ level : BitVec 16, min.toNat ≤ (getCtlTempFromLevel level min max).toNat ∧
      (getCtlTempFromLevel level min max).toNat ≤ max.toNat) ∧
    (∀ level : BitVec 16,
      CtlTempFits ((level.toInt + 32768) * ((max.toNat : ℤ) - min.toNat)) 65535) ∧
    ∀ temp : BitVec 16, min.toNat ≤ temp.toNat → temp.toNat ≤ max.toNat →
      CtlTempFits (((temp.toNat : ℤ) - min.toNat) * 65535) ((max.toNat : ℤ) - min.toNat) := by
  have hle := hrange.le
  have htop : max.toNat ≤ 20000 := hrange.top
  refine ⟨fun temp hmin hmax => ?_, fun temp temp' hmin htemp hmax => ?_, fun level => ?_,
    fun level => ?_, fun temp hmin hmax => ?_⟩
  · by_cases hne : max = min
    · have htemp : temp = max := BitVec.eq_of_toNat_eq (by rw [← hne] at hmin; omega)
      rw [getCtlTempFromLevel, if_pos hne, htemp]
    · have hlt := lt_of_le_of_ne hle fun h => hne (BitVec.eq_of_toNat_eq h.symm)
      refine BitVec.eq_of_toNat_eq ?_
      rw [getCtlTempFromLevel_toNat hrange hne, getLevelFromCtlTemp_parts hrange hne hmin hmax,
        divRound_divRound (by omega) (by omega)]
      omega
  · by_cases hne : max = min
    · rw [getLevelFromCtlTemp, getLevelFromCtlTemp, if_pos hne, if_pos hne]
    · have hparts := divRound_mono (Nat.mul_le_mul_right 65535
        (Nat.sub_le_sub_right htemp min.toNat)) (max.toNat - min.toNat)
      rw [← getLevelFromCtlTemp_parts hrange hne hmin (htemp.trans hmax),
        ← getLevelFromCtlTemp_parts hrange hne (hmin.trans htemp) hmax] at hparts
      have hbounds := toInt_bounds (getLevelFromCtlTemp temp min max)
      have hbounds' := toInt_bounds (getLevelFromCtlTemp temp' min max)
      unfold levelParts at hparts
      omega
  · by_cases hne : max = min
    · rw [getCtlTempFromLevel, if_pos hne]
      exact ⟨hle, le_rfl⟩
    · have hparts := divRound_le (by decide) (levelParts_le level) (max.toNat - min.toNat)
      rw [getCtlTempFromLevel_toNat hrange hne]
      omega
  · have hbounds := toInt_bounds level
    have hnn : 0 ≤ (level.toInt + 32768) * ((max.toNat : ℤ) - min.toNat) :=
      mul_nonneg (by omega) (by omega)
    have hprod : (level.toInt + 32768) * ((max.toNat : ℤ) - min.toNat) ≤ 65535 * 20000 :=
      mul_le_mul (by omega) (by omega) (by omega) (by decide)
    exact ⟨⟨by omega, by omega⟩, by omega, by omega⟩
  · exact ⟨⟨by omega, by omega⟩, by omega, by omega⟩

/-- From 800 to 20000 kelvin. -/
theorem ctlTemp_roundTrip_whole :
    getCtlTempFromLevel (getLevelFromCtlTemp 6500 800 20000) 800 20000 = 6500 :=
  (ctlTemp_roundTrip 800 20000 ⟨by decide, by decide⟩).1 6500 (by decide) (by decide)

end PirMesh

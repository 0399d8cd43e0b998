import PirMesh.Light.TransitionSteps

/-! # Light — What a level command starts

`RampsWell` is when the transition of a command goes to its target without passing it:
`gLevelSet_transits`. -/

namespace PirMesh

open Ramp

/-! ### The steps of a command -/

section

variable {lib : TransLib} {set : MeshSetTrans} {present : BitVec 16}

/-- The time of a transition fits, and is no less than a unit. -/
theorem transition_remain (hlib : lib.Lawful) (transitT : BitVec 8)
    (h0 : 100 * lib.getTransition100ms transitT ≠ 0) :
    100 ≤ (100 * lib.getTransition100ms transitT).toNat ∧
      (100 * lib.getTransition100ms transitT).toInt =
        (100 * lib.getTransition100ms transitT).toNat := by
  have hle := hlib.le transitT
  have hunits : (100 * lib.getTransition100ms transitT).toNat =
      100 * (lib.getTransition100ms transitT).toNat := by
    rw [BitVec.toNat_mul]
    exact Nat.mod_eq_of_lt (by
      show 100 * _ < 2 ^ 32
      omega)
  have hpos : (100 * lib.getTransition100ms transitT).toNat ≠ 0 := by
    intro hz
    exact h0 (BitVec.eq_of_toNat_eq hz)
  refine ⟨by omega, BitVec.toInt_eq_toNat_of_lt ?_⟩
  omega

variable {remain : BitVec 32} {delta : ℤ}

/-- A step fits. -/
theorem transitionStep_toInt (hge : 100 ≤ remain.toNat) (hint : remain.toInt = remain.toNat)
    (hdelta : delta.natAbs ≤ 65535) :
    (transitionStep delta remain).toInt = (delta * 32768).tdiv remain.toNat * 20 := by
  have habs : ((delta * 32768).tdiv remain.toNat).natAbs ≤ 65535 * 32768 / 100 := by
    rw [Int.natAbs_tdiv, Int.natAbs_mul, Int.natAbs_natCast]
    exact Nat.div_le_div (Nat.mul_le_mul_right _ hdelta) hge (by decide)
  unfold transitionStep
  rw [hint]
  exact BitVec.toInt_ofInt_eq_self (by decide) (by unfold lightAdjustInterval; omega)
    (by unfold lightAdjustInterval; omega)

/-- The steps of a way up do not go beyond its end. -/
theorem transitionStep_up (hge : 100 ≤ remain.toNat) (hint : remain.toInt = remain.toNat)
    (h0 : 0 ≤ delta) (hdelta : delta.natAbs ≤ 65535) :
    0 ≤ (transitionStep delta remain).toInt ∧
      wholes 32768 (transitionStep delta remain).toInt (remain.toNat / lightAdjustInterval) ≤
        delta := by
  have hquot : 0 ≤ delta * 32768 / (remain.toNat : ℤ) :=
    Int.ediv_nonneg (by omega) (Int.natCast_nonneg _)
  have hstep : (transitionStep delta remain).toInt = delta * 32768 / (remain.toNat : ℤ) * 20 := by
    rw [transitionStep_toInt hge hint hdelta, Int.tdiv_eq_ediv_of_nonneg (by omega)]
  have hnn : 0 ≤ (transitionStep delta remain).toInt := by omega
  refine ⟨hnn, wholes_le (by decide) hnn ?_⟩
  have hsteps : ((remain.toNat / lightAdjustInterval : ℕ) : ℤ) * 20 ≤ remain.toNat := by
    unfold lightAdjustInterval
    omega
  calc ((remain.toNat / lightAdjustInterval : ℕ) : ℤ) * (transitionStep delta remain).toInt
      = ((remain.toNat / lightAdjustInterval : ℕ) : ℤ) * 20 *
          (delta * 32768 / (remain.toNat : ℤ)) := by
        rw [hstep, mul_comm (delta * 32768 / (remain.toNat : ℤ)), mul_assoc]
    _ ≤ remain.toNat * (delta * 32768 / (remain.toNat : ℤ)) :=
        mul_le_mul_of_nonneg_right hsteps hquot
    _ ≤ delta * 32768 := Int.mul_ediv_self_le (by omega)
    _ = 32768 * delta := mul_comm _ _

/-- A way down is a way up the other way. -/
theorem transitionStep_down (hge : 100 ≤ remain.toNat) (hint : remain.toInt = remain.toNat)
    (h0 : delta ≤ 0) (hdelta : delta.natAbs ≤ 65535) :
    (transitionStep delta remain).toInt ≤ 0 ∧
      delta ≤ wholes 32768 (transitionStep delta remain).toInt
        (remain.toNat / lightAdjustInterval) := by
  have hneg : (transitionStep (-delta) remain).toInt = -(transitionStep delta remain).toInt := by
    rw [transitionStep_toInt hge hint hdelta,
      transitionStep_toInt hge hint ((Int.natAbs_neg delta).trans_le hdelta), neg_mul,
      Int.neg_tdiv, neg_mul]
  obtain ⟨hnn, hle⟩ := @transitionStep_up remain (-delta) hge hint (neg_nonneg_of_nonpos h0)
    ((Int.natAbs_neg delta).trans_le hdelta)
  rw [hneg] at hnn hle
  rw [wholes_neg] at hle
  exact ⟨neg_nonneg.mp hnn, neg_le_neg_iff.mp hle⟩

/-- The way of a command, up or down: its steps end before the target, or the range does. -/
structure Heads (set : MeshSetTrans) (present : BitVec 16) (times : BitVec 32 × BitVec 32) :
    Prop where
  up : present.toInt < set.targetVal.toInt → 0 ≤ times.2.toInt ∧
    (present.toInt + wholes 32768 times.2.toInt (times.1.toNat / lightAdjustInterval) ≤
      set.targetVal.toInt ∨ 32767 ≤ set.targetVal.toInt)
  down : set.targetVal.toInt < present.toInt → times.2.toInt ≤ 0 ∧
    (set.targetVal.toInt ≤
      present.toInt + wholes 32768 times.2.toInt (times.1.toNat / lightAdjustInterval) ∨
      set.targetVal = levelOff)

theorem transitionTimes_heads (hlib : lib.Lawful)
    (hmove : ∀ m ∈ set.move, set.targetVal = getTargetLevelForMoveSet (m.signExtend 32)) :
    Heads set present (transitionTimes lib set present) := by
  have hbounds := toInt_bounds present
  have htarget := toInt_bounds set.targetVal
  unfold transitionTimes
  dsimp only
  by_cases h0 : 100 * lib.getTransition100ms set.par.transitT = 0
  · rw [if_pos h0]
    have hz : wholes 32768 (0 : BitVec 32).toInt ((0 : BitVec 32).toNat / lightAdjustInterval) =
      0 :=
      wholes_zero
    constructor
    · intro hup
      rw [hz]
      exact ⟨le_rfl, .inl (by omega)⟩
    · intro hdown
      rw [hz]
      exact ⟨le_rfl, .inl (by omega)⟩
  · rw [if_neg h0]
    obtain ⟨hge, hint⟩ := transition_remain hlib set.par.transitT h0
    cases hm : set.move with
    | none =>
      constructor
      · intro hup
        obtain ⟨hnn, hle⟩ := @transitionStep_up _ (set.targetVal.toInt - present.toInt) hge hint
          (by omega) (by omega)
        exact ⟨hnn, .inl (by dsimp only; omega)⟩
      · intro hdown
        obtain ⟨hnp, hle⟩ := @transitionStep_down _ (set.targetVal.toInt - present.toInt) hge hint
          (by omega) (by omega)
        exact ⟨hnp, .inl (by dsimp only; omega)⟩
    | some m =>
      have hto := hmove m hm
      have hm' := toInt_bounds m
      unfold getTargetLevelForMoveSet at hto
      rw [BitVec.toInt_signExtend_of_le (by decide)] at hto
      by_cases hsign : 0 ≤ m.toInt
      · rw [if_pos hsign] at hto
        have hmax : set.targetVal.toInt = 32767 := congrArg BitVec.toInt hto
        constructor
        · intro _
          exact ⟨(transitionStep_up hge hint hsign (by omega)).1, .inr hmax.ge⟩
        · intro hdown
          omega
      · rw [if_neg hsign] at hto
        have hmin : set.targetVal.toInt = -32768 := congrArg BitVec.toInt hto
        constructor
        · intro hup
          omega
        · intro _
          exact ⟨(transitionStep_down hge hint (by omega) (by omega)).1, .inr hto⟩

end

/-! ### When a transition goes well -/

/-- The level is in the range as it is checked. -/
def SwLevelSave.Inside (save : SwLevelSave) (ty : StTrans) (v : BitVec 16) : Prop :=
  checkMin save ty ≤ v.toInt ∧ v.toInt ≤ checkMax save ty

/-- The light is there already; or the transition takes some time, and starts from a level
in the range, or its steps from off clear the target. -/
def RampsWell (lib : TransLib) (save : SwLevelSave) (ty : StTrans) (present : BitVec 16)
    (set : MeshSetTrans) : Prop :=
  let times := transitionTimes lib set present
  present = set.targetVal ∨ (times.1 ≠ 0 ∨ set.par.delay ≠ 0) ∧ (save.Inside ty present ∨
    StTransition.ClearsOff save ty set.targetVal.toInt (wholes 32768 times.2.toInt)
      (times.1.toNat / lightAdjustInterval))

/-- The command sets its target: it is new, and a move has a transition. -/
def gLevelActs (l : Light) (ty : StTrans) (p : GLevelPar) (deltaLast : BitVec 32)
    (retransaction force : Bool) : Prop :=
  (¬ retransaction ∨ (gLevelAdjust p.cmd deltaLast retransaction).2 ≠ 0) ∧
    (p.cmd.isMove = true → (gLevelTrans l p).isSome = true ∧
      ((l.trans ty).present ≠ gLevelTarget l ty p deltaLast retransaction ∨ force = true))

def gLevelMove (cmd : LevelCmd) : Option (BitVec 16) :=
  if cmd.isMove then some (cmd.level.setWidth 16) else none

/-- The transition that a command sets. -/
def gLevelSetTrans (l : Light) (ty : StTrans) (p : GLevelPar) (deltaLast : BitVec 32)
    (retransaction : Bool) (par : TransitionPar) : MeshSetTrans :=
  ⟨gLevelTarget l ty p deltaLast retransaction, gLevelMove p.cmd, par⟩

section

variable {lib : TransLib} {l : Light} {ty : StTrans}

theorem lightGLevelSetIdxWithTrans_valid {set : MeshSetTrans}
    (h : isValidTransitionStep set.par.transitT = true) (t : StTransition) :
    lightGLevelSetIdxWithTrans lib set t =
      { t with
        target := set.targetVal
        delayMs := set.par.delay.setWidth 16 * 5
        remainTMs := (transitionTimes lib set t.present).1
        step1p32768 := (transitionTimes lib set t.present).2
        present1p32768 := 0 } :=
  if_neg (getTransitionStep_ne h)

/-- No delay, when the command has none. -/
theorem delayMs_eq_zero (delay : BitVec 8) : (delay.setWidth 16 * 5).toNat = 0 ↔ delay = 0 := by
  have hmul : (delay.setWidth 16 * 5).toNat = delay.toNat * 5 := by
    have hlt := delay.isLt
    rw [BitVec.toNat_mul, BitVec.toNat_setWidth]
    show delay.toNat % 65536 * 5 % 65536 = delay.toNat * 5
    omega
  rw [hmul]
  constructor
  · intro hz
    exact BitVec.eq_of_toNat_eq (by show _ = 0; omega)
  · rintro rfl
    rfl

/-- A transition to the present level. -/
theorem transits_of_present_eq (h : (l.trans ty).present = (l.trans ty).target) :
    l.Transits ty := by
  rcases Nat.eq_zero_or_pos (l.trans ty).passes with h0 | hpos
  · exact (transits_of_passes_eq_zero h0).mpr h
  · refine (transits_iff hpos).mpr fun n _ => ?_
    have hstay : ∀ n, (StTransition.steps (l.save ty) ty (l.trans ty) n).present =
        (l.trans ty).target := by
      intro n
      refine BitVec.toInt_inj.mp ?_
      induction n with
      | zero => exact congrArg BitVec.toInt h
      | succ n ih => exact StTransition.level_stays ih
    rw [hstay n, hstay (n + 1)]
    exact .start _ _

/-- The steps of a transition that heads for its target. -/
theorem stepsToward_iff {save : SwLevelSave} {set : MeshSetTrans} {present : BitVec 16}
    {times : BitVec 32 × BitVec 32} {t : StTransition} (hc : t.present1p32768 = 0)
    (hrange : save.min.toInt ≤ save.max.toInt)
    (hpresent : save.Inside ty present ∨ present = levelOff) (hne : present ≠ set.targetVal)
    (hheads : Heads set present times) (hp : t.present = present) (hT : t.target = set.targetVal)
    (hR : t.remainTMs = times.1) (hS : t.step1p32768 = times.2) :
    t.StepsToward save ty ↔ save.Inside ty present ∨ StTransition.ClearsOff save ty
      set.targetVal.toInt (wholes 32768 times.2.toInt) (times.1.toNat / lightAdjustInterval) := by
  rw [← hp, ← hT] at hne
  rw [← hp] at hpresent
  obtain ⟨hup, hdown⟩ := hheads
  rw [← hp, ← hT, ← hR, ← hS] at hup hdown
  rw [← hp, ← hT, ← hR, ← hS]
  have hmax := checkMax_le save ty
  by_cases hin : save.Inside ty t.present
  · refine iff_of_true ?_ (.inl hin)
    rcases lt_or_gt_of_ne (mt BitVec.toInt_inj.mp hne) with hlt | hgt
    · obtain ⟨hnn, hend⟩ := hup hlt
      exact (StTransition.stepsToward_iff_rises hlt.le).mpr
        (StTransition.rises_of_inside hc hnn hin.1 hin.2 hlt.le (hend.imp_right hmax.trans))
    · obtain ⟨hnp, hend⟩ := hdown hgt
      intro n hn
      exact .inr (StTransition.falls_of_inside hc hnp hin.1 hin.2 hgt.le hend n hn)
  · have hoff := hpresent.resolve_left hin
    have hbounds := toInt_bounds t.target
    have hlow : t.present.toInt = -32768 := (congrArg BitVec.toInt hoff).trans levelOff_toInt
    have hmin := checkMin_ge save ty
    have hle := checkMin_le_checkMax hrange ty
    have hlt : t.present.toInt < t.target.toInt :=
      lt_of_le_of_ne (hlow.trans_le hbounds.1) (mt BitVec.toInt_inj.mp hne)
    have hout : levelOff.toInt < checkMin save ty := by
      by_contra hge
      rw [levelOff_toInt] at hge
      exact hin ⟨by omega, by omega⟩
    obtain ⟨hnn, hend⟩ := hup hlt
    rw [or_iff_right hin, StTransition.stepsToward_iff_rises hlt.le]
    rw [hoff] at hend hlt
    exact StTransition.rises_of_off_iff hc hnn hle hoff hout hlt (hend.imp_right hmax.trans)

/-- **A transition goes well exactly when** it starts in the range, or its steps clear. -/
theorem transits_iff_rampsWell (hlib : lib.Lawful) {set : MeshSetTrans} {t : StTransition}
    (hrange : (l.save ty).min.toInt ≤ (l.save ty).max.toInt)
    (hpresent : (l.save ty).Inside ty t.present ∨ t.present = levelOff)
    (hvalid : isValidTransitionStep set.par.transitT = true)
    (hmove : ∀ m ∈ set.move, set.targetVal = getTargetLevelForMoveSet (m.signExtend 32))
    (ht : l.trans ty = lightGLevelSetIdxWithTrans lib set t) :
    l.Transits ty ↔ RampsWell lib (l.save ty) ty t.present set := by
  rw [lightGLevelSetIdxWithTrans_valid hvalid] at ht
  by_cases heq : t.present = set.targetVal
  · refine iff_of_true (transits_of_present_eq ?_) (.inl heq)
    rw [ht]
    exact heq
  · have hp : (l.trans ty).present = t.present := by rw [ht]
    have hT : (l.trans ty).target = set.targetVal := by rw [ht]
    have hR : (l.trans ty).remainTMs = (transitionTimes lib set t.present).1 := by rw [ht]
    have hS : (l.trans ty).step1p32768 = (transitionTimes lib set t.present).2 := by rw [ht]
    have hc : (l.trans ty).present1p32768 = 0 := by rw [ht]
    have hpasses : (l.trans ty).passes = 0 ↔
        ¬ ((transitionTimes lib set t.present).1 ≠ 0 ∨ set.par.delay ≠ 0) := by
      unfold StTransition.passes
      rw [Nat.add_eq_zero_iff, hR, ht, delayMs_eq_zero, not_or, not_not, not_not, and_comm]
      exact and_congr_left fun _ => ⟨fun h => BitVec.eq_of_toNat_eq h, congrArg BitVec.toNat⟩
    have hwell : RampsWell lib (l.save ty) ty t.present set ↔
        ((transitionTimes lib set t.present).1 ≠ 0 ∨ set.par.delay ≠ 0) ∧
          ((l.save ty).Inside ty t.present ∨ _) := or_iff_right heq
    rw [hwell]
    rcases Nat.eq_zero_or_pos (l.trans ty).passes with h0 | hpos
    · rw [transits_of_passes_eq_zero h0, hp, hT]
      exact iff_of_false heq fun h => hpasses.mp h0 h.1
    · rw [transits_iff hpos, and_iff_right (not_not.mp (mt hpasses.mpr hpos.ne'))]
      exact stepsToward_iff hc hrange hpresent heq (transitionTimes_heads hlib hmove) hp hT hR hS

theorem gLevelMove_target {p : GLevelPar} {deltaLast : BitVec 32} {retransaction : Bool} :
    ∀ m ∈ gLevelMove p.cmd, gLevelTarget l ty p deltaLast retransaction =
      getTargetLevelForMoveSet (m.signExtend 32) := by
  intro m hm
  unfold gLevelMove at hm
  unfold gLevelTarget
  cases hcmd : p.cmd with
  | set level =>
    rw [hcmd] at hm
    cases hm
  | delta level =>
    rw [hcmd] at hm
    cases hm
  | move level =>
    rw [hcmd] at hm
    obtain rfl : level = m := (setWidth_signExtend_level level).symm.trans (Option.some.inj hm)
    rfl

/-- A command without a transition goes to its target. -/
theorem gLevelSetNow_transits {cmd : LevelCmd} (hcmd : ¬ cmd.isMove = true) (target : BitVec 16)
    (t : StTransition) : (l.setTrans ty (gLevelSetNow cmd target t)).Transits ty := by
  have hnow : gLevelSetNow cmd target t = lightResSwGLevelSet t target true := if_neg hcmd
  refine transits_of_present_eq ?_
  rw [Light.setTrans_trans_self, hnow]
  rfl

/-- **Transitions of commands.** -/
theorem gLevelSet_transits (hlib : lib.Lawful) {l' : Light} {p : GLevelPar}
    {deltaLast : BitVec 32} {retransaction force : Bool}
    (hrange : (l.save ty).min.toInt ≤ (l.save ty).max.toInt)
    (hpresent : (l.save ty).Inside ty (l.trans ty).present ∨ (l.trans ty).present = levelOff)
    (htime : ∀ par ∈ gLevelTrans l p, isValidTransitionStep par.transitT = true)
    (hacts : gLevelActs l ty p deltaLast retransaction force)
    (hset : Light.gLevelSet lib l ty p deltaLast retransaction force = some l') :
    l'.Transits ty ↔ ∀ par ∈ gLevelTrans l p, RampsWell lib (l.save ty) ty (l.trans ty).present
      (gLevelSetTrans l ty p deltaLast retransaction par) := by
  obtain ⟨hnew, hmove⟩ := hacts
  have hstart : l' = l.setTrans ty (gLevelStart lib p.cmd
      (gLevelTarget l ty p deltaLast retransaction) (gLevelTrans l p) force (l.trans ty)) := by
    unfold Light.gLevelSet at hset
    dsimp only at hset
    split_ifs at hset
    exact (Option.some.inj hset).symm
  subst hstart
  cases hpar : gLevelTrans l p with
  | none =>
    refine iff_of_true (gLevelSetNow_transits (fun hm => ?_) _ _) nofun
    have hsome := (hmove hm).1
    rw [hpar] at hsome
    cases hsome
  | some par =>
    have hone : (∀ par' ∈ some par, RampsWell lib (l.save ty) ty (l.trans ty).present
        (gLevelSetTrans l ty p deltaLast retransaction par')) ↔
        RampsWell lib (l.save ty) ty (l.trans ty).present
          (gLevelSetTrans l ty p deltaLast retransaction par) := by
      refine ⟨fun h => h par rfl, fun h par' hmem => ?_⟩
      cases hmem
      exact h
    rw [hone]
    by_cases hgo : (l.trans ty).present ≠ gLevelTarget l ty p deltaLast retransaction ∨
        force = true
    · refine transits_iff_rampsWell hlib hrange hpresent (htime par hpar) gLevelMove_target ?_
      exact (Light.setTrans_trans_self _ _ _).trans (if_pos hgo)
    · -- there already, without a move
      have hnow : gLevelStart lib p.cmd (gLevelTarget l ty p deltaLast retransaction) (some par)
          force (l.trans ty) = gLevelSetNow p.cmd
          (gLevelTarget l ty p deltaLast retransaction) (l.trans ty) := if_neg hgo
      rw [hnow]
      refine iff_of_true (gLevelSetNow_transits (fun hm => hgo (hmove hm).2) _ _) (.inl ?_)
      exact not_not.mp fun hne => hgo (.inl hne)

end

/-! ### A target that is passed -/

/-- A light that is off, below its range. -/
def darkLight : Light where
  save _ := ⟨0, levelOff, -28000, 32767, false⟩
  trans _ := ⟨0, 0, 0, levelOff, 0, levelOff⟩
  defTransTime := 0

/-- To a level in 100 ms, after 10. -/
def levelSoon (level : BitVec 16) : GLevelPar := ⟨.set level, some ⟨1, 2⟩⟩

def darkLightTo (level : BitVec 16) : Light :=
  darkLight.setTrans .lightness
    (lightGLevelSetIdxWithTrans specTransLib ⟨level, none, ⟨1, 2⟩⟩ (darkLight.trans .lightness))

theorem darkLight_set {level : BitVec 16} (h : level ≠ levelOff) :
    Light.gLevelSet specTransLib darkLight .lightness (levelSoon level) 0 false false =
      some (darkLightTo level) := by
  have hvalid : ¬ gLevelInvalid (levelSoon level) := by
    rintro (hm | ⟨par, hpar, ht⟩)
    · cases hm
    · cases hpar
      exact ht (by decide)
  have htarget : gLevelTarget darkLight .lightness (levelSoon level) 0 false = level :=
    setWidth_signExtend_level level
  refine (if_neg hvalid).trans ((if_pos (.inl Bool.false_ne_true)).trans ?_)
  dsimp only
  rw [htarget]
  exact congrArg (fun t => some (darkLight.setTrans .lightness t)) (if_pos (.inl h.symm))

theorem gLevelSet_transits_dark : (darkLightTo 32767).Transits .lightness ↔
    ∀ par ∈ gLevelTrans darkLight (levelSoon 32767), RampsWell specTransLib
      (darkLight.save .lightness) .lightness (darkLight.trans .lightness).present
      (gLevelSetTrans darkLight .lightness (levelSoon 32767) 0 false par) :=
  @gLevelSet_transits specTransLib darkLight .lightness specTransLib_lawful (darkLightTo 32767)
    (levelSoon 32767) 0 false false (by decide) (.inr rfl) (by decide)
    ⟨.inl Bool.false_ne_true, fun h => nomatch h⟩ (darkLight_set (by decide))

theorem gLevelSet_overshoots :
    ¬ ∀ (lib : TransLib) (l l' : Light) (ty : StTrans) (p : GLevelPar) (deltaLast : BitVec 32)
      (retransaction force : Bool), lib.Lawful →
      (l.save ty).min.toInt ≤ (l.save ty).max.toInt →
      ((l.save ty).Inside ty (l.trans ty).present ∨ (l.trans ty).present = levelOff) →
      (∀ par ∈ gLevelTrans l p, isValidTransitionStep par.transitT = true) →
      gLevelActs l ty p deltaLast retransaction force →
      Light.gLevelSet lib l ty p deltaLast retransaction force = some l' → l'.Transits ty := by
  intro h
  have htrans := h specTransLib darkLight (darkLightTo (-27000)) .lightness
    (levelSoon (-27000)) 0 false false specTransLib_lawful (by decide) (.inr rfl) (by decide)
    ⟨.inl Bool.false_ne_true, fun h => nomatch h⟩ (darkLight_set (by decide))
  have hpast := htrans.between 31 (by decide +kernel)
  revert hpast
  decide +kernel

end PirMesh

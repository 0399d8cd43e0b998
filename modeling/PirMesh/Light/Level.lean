import Mathlib.Algebra.GroupWithZero.Nat
import Mathlib.Data.BitVec
import Mathlib.Logic.Function.Basic

/-! # Light — Levels and transitions (`light.c`, `lighting_model.c`)

The states of a light with colour temperature: the lightness, the temperature and delta
UV.  Each has a saved part (the last level, the default, the range) and a transition from
the present level to a target.  `gLevelSet` sets a target, at once or with a transition;
`lightTransitionProc` runs every millisecond.

The conversions of a transition time are in the library of the SDK: they are parameters,
and `TransLib.Lawful` is the encoding of the model specification (`trans_time_t`). -/

namespace PirMesh

/-! ### Words -/

/-- A value that an `s32` holds. -/
def FitsS32 (x : ℤ) : Prop := -2 ^ 31 ≤ x ∧ x < 2 ^ 31

instance (x : ℤ) : Decidable (FitsS32 x) := inferInstanceAs (Decidable (_ ∧ _))

theorem toInt_eq_toNat_cases (x : BitVec 32) :
    x.toInt = x.toNat ∧ x.toNat < 2 ^ 31 ∨ x.toInt = x.toNat - 2 ^ 32 ∧ 2 ^ 31 ≤ x.toNat := by
  rw [BitVec.toInt_eq_toNat_cond]
  split_ifs
  · exact .inl ⟨rfl, by omega⟩
  · exact .inr ⟨rfl, by omega⟩

/-! ### State -/

/-- `ST_TRANS_LIGHTNESS` and the others. -/
inductive StTrans
  | lightness
  | ctlTemp
  | ctlDUv
  deriving DecidableEq, Repr

/-- `sw_level_save_t` -/
structure SwLevelSave where
  last : BitVec 16
  dflt : BitVec 16
  min : BitVec 16
  max : BitVec 16
  onoff : Bool
  deriving DecidableEq, Repr

/-- `st_transition_t` -/
structure StTransition where
  step1p32768 : BitVec 32
  remainTMs : BitVec 32
  delayMs : BitVec 16
  present : BitVec 16
  present1p32768 : BitVec 16
  target : BitVec 16
  deriving DecidableEq, Repr

/-- `light_res_sw[idx]`, `light_res_sw_save[idx]` and the default transition time. -/
structure Light where
  save : StTrans → SwLevelSave
  trans : StTrans → StTransition
  defTransTime : BitVec 8

/-- `transition_par_t` -/
structure TransitionPar where
  transitT : BitVec 8
  delay : BitVec 8
  deriving DecidableEq, Repr

/-- `get_transition_100ms` and `get_transition_step_res`. -/
structure TransLib where
  getTransition100ms : BitVec 8 → BitVec 32
  getTransitionStepRes : BitVec 32 → BitVec 8

/-- `LEVEL_OFF` -/
def levelOff : BitVec 16 := -32768

/-- `LIGHT_ADJUST_INTERVAL` -/
def lightAdjustInterval : ℕ := 20

/-- `GET_TRANSITION_STEP` -/
def getTransitionStep (transitT : BitVec 8) : BitVec 8 := transitT &&& 0x3f

/-- The unit of a transition time, by its upper two bits. -/
def transitionRes (transitT : BitVec 8) : ℕ :=
  if transitT >>> 6 = 0 then 1
  else if transitT >>> 6 = 1 then 10
  else if transitT >>> 6 = 2 then 100
  else 6000

/-- A transition time is a number of units. -/
def TransLib.Lawful (lib : TransLib) : Prop :=
  ∀ t, (lib.getTransition100ms t).toNat = (getTransitionStep t).toNat * transitionRes t

/-- The conversions of the model specification, to whole units. -/
def specTransLib : TransLib where
  getTransition100ms t := BitVec.ofNat 32 ((getTransitionStep t).toNat * transitionRes t)
  getTransitionStepRes n :=
    if n ≤ 0x3e then n.setWidth 8
    else if n / 10 ≤ 0x3e then 0x40 ||| (n / 10).setWidth 8
    else if n / 100 ≤ 0x3e then 0x80 ||| (n / 100).setWidth 8
    else 0xc0 ||| (n / 6000).setWidth 8

theorem transition_units_le (t : BitVec 8) :
    (getTransitionStep t).toNat * transitionRes t ≤ 0x3f * 6000 := by
  have hstep : (getTransitionStep t).toNat ≤ 0x3f := by
    unfold getTransitionStep
    rw [BitVec.toNat_and]
    exact Nat.and_le_right
  have hres : transitionRes t ≤ 6000 := by
    unfold transitionRes
    split_ifs
    all_goals decide
  exact Nat.mul_le_mul hstep hres

theorem TransLib.Lawful.le {lib : TransLib} (hlib : lib.Lawful) (t : BitVec 8) :
    (lib.getTransition100ms t).toNat ≤ 0x3f * 6000 :=
  (hlib t).trans_le (transition_units_le t)

/-- The time of a transition with a step. -/
theorem TransLib.Lawful.time_ne_zero {lib : TransLib} (hlib : lib.Lawful) {transitT : BitVec 8}
    (h : getTransitionStep transitT ≠ 0) : 100 * lib.getTransition100ms transitT ≠ 0 := by
  have hstep : 0 < (getTransitionStep transitT).toNat :=
    Nat.pos_of_ne_zero fun hz => h (BitVec.eq_of_toNat_eq hz)
  have hres : 0 < transitionRes transitT := by
    unfold transitionRes
    split_ifs
    all_goals decide
  have hpos := Nat.mul_pos hstep hres
  have hle := transition_units_le transitT
  intro hz
  have htoNat : 100 * (lib.getTransition100ms transitT).toNat % 2 ^ 32 = 0 :=
    (BitVec.toNat_mul _ _).symm.trans (congrArg BitVec.toNat hz)
  rw [hlib] at htoNat
  omega

theorem specTransLib_lawful : specTransLib.Lawful := by
  intro t
  have hle := transition_units_le t
  unfold specTransLib
  rw [BitVec.toNat_ofNat, Nat.mod_eq_of_lt (by omega)]

def isValidTransitionStep (transitT : BitVec 8) : Bool := getTransitionStep transitT ≤ 0x3e

/-- A valid time has a length. -/
theorem getTransitionStep_ne {transitT : BitVec 8} (h : isValidTransitionStep transitT = true) :
    getTransitionStep transitT ≠ 0x3f := by
  intro heq
  unfold isValidTransitionStep at h
  rw [heq] at h
  revert h
  decide

def isTransitionNeed (t : TransitionPar) : Bool := getTransitionStep t.transitT ≠ 0 ∨ t.delay ≠ 0

/-! ### Ranges and targets -/

/-- Any level is valid for the temperature, and off for the lightness. -/
def getValWithCheckRange (levelTarget : ℤ) (min max : BitVec 16) (ty : StTrans) : BitVec 16 :=
  let min := if ty = .ctlTemp then -32768 else min
  let max := if ty = .ctlTemp then 32767 else max
  if levelTarget < min.toInt then
    if ty = .lightness ∧ levelTarget = levelOff.toInt then levelOff else min
  else if max.toInt < levelTarget then max
  else BitVec.ofInt 16 levelTarget

/-- `G_LEVEL_SET`, `G_DELTA_SET`, `G_MOVE_SET` and the ones without acknowledgement. -/
inductive LevelCmd
  | set (level : BitVec 16)
  | delta (level : BitVec 32)
  | move (level : BitVec 16)
  deriving DecidableEq, Repr

theorem setWidth_signExtend_level (level : BitVec 16) :
    (level.signExtend 32).setWidth 16 = level := by
  ext i hi
  rw [BitVec.getElem_setWidth, BitVec.getLsbD_signExtend]
  simp [hi, Nat.lt_trans hi (show 16 < 32 by decide)]

namespace LevelCmd

def isMove : LevelCmd → Bool
  | move _ => true
  | _ => false

/-- What the level in the command is, as an `s32`. -/
def level : LevelCmd → BitVec 32
  | set level | move level => level.signExtend 32
  | delta level => level

end LevelCmd

def getTargetLevelForMoveSet (moveDelta : BitVec 32) : BitVec 16 :=
  if 0 ≤ moveDelta.toInt then 32767 else -32768

def getTargetLevelByOp (save : SwLevelSave) (ty : StTrans) (cmd : LevelCmd)
    (targetLevel : BitVec 16) (level : BitVec 32) : BitVec 16 :=
  match cmd with
  | .delta _ =>
    getValWithCheckRange (targetLevel.signExtend 32 + level).toInt save.min save.max ty
  | .move _ => getTargetLevelForMoveSet level
  | .set _ => level.setWidth 16

/-! ### The transition of a state -/

def lightResSwGLevelSet (t : StTransition) (level : BitVec 16) (initTimeFlag : Bool) :
    StTransition :=
  if initTimeFlag then { t with present := level, target := level, remainTMs := 0, delayMs := 0 }
  else { t with present := level }

/-- The steps of 20 ms for `delta` in `remain` ms, in `1 / 32768` of a level. -/
def transitionStep (delta : ℤ) (remain : BitVec 32) : BitVec 32 :=
  BitVec.ofInt 32 ((delta * 32768).tdiv remain.toInt * lightAdjustInterval)

/-- The time of a move to `target`, when `levelMove` takes `remain` ms. -/
def moveRemainTMs (levelMove target present : BitVec 16) (remain : BitVec 32) : BitVec 32 :=
  let absStep := BitVec.ofNat 32 levelMove.toInt.natAbs
  let absDelta := target.signExtend 32 - present.signExtend 32
  let mod := absDelta % absStep
  let val :=
    if 65536 ≤ remain then remain * 100 / absStep * mod / 100 else remain * mod / absStep
  remain * (absDelta / absStep) + val

/-- `mesh_set_trans_t`; `move` is `level_move` of a move command. -/
structure MeshSetTrans where
  targetVal : BitVec 16
  move : Option (BitVec 16)
  par : TransitionPar
  deriving DecidableEq, Repr

/-- The whole time, and the steps, of a transition from `present`. -/
def transitionTimes (lib : TransLib) (set : MeshSetTrans) (present : BitVec 16) :
    BitVec 32 × BitVec 32 :=
  let remain := 100 * lib.getTransition100ms set.par.transitT
  if remain = 0 then (0, 0)
  else
    match set.move with
    | some levelMove =>
      (moveRemainTMs levelMove set.targetVal present remain,
        transitionStep levelMove.toInt remain)
    | none => (remain, transitionStep (set.targetVal.toInt - present.toInt) remain)

def lightGLevelSetIdxWithTrans (lib : TransLib) (set : MeshSetTrans) (t : StTransition) :
    StTransition :=
  let t := { t with target := set.targetVal, delayMs := set.par.delay.setWidth 16 * 5 }
  if getTransitionStep set.par.transitT = 0x3f then { t with remainTMs := -1 }
  else
    let (remainTMs, step1p32768) := transitionTimes lib set t.present
    { t with remainTMs, step1p32768, present1p32768 := 0 }

@[simp] theorem lightGLevelSetIdxWithTrans_target (lib : TransLib) (set : MeshSetTrans)
    (t : StTransition) : (lightGLevelSetIdxWithTrans lib set t).target = set.targetVal := by
  unfold lightGLevelSetIdxWithTrans
  dsimp only
  split_ifs
  · rfl
  · rfl

/-! ### Setting a level -/

/-- The parameters of a level command; no transition, when it is too short for one. -/
structure GLevelPar where
  cmd : LevelCmd
  trans : Option TransitionPar
  deriving DecidableEq, Repr

/-- The level to adjust by, and `delta_offset`: a delta sent again counts from `deltaLast`. -/
def gLevelAdjust (cmd : LevelCmd) (deltaLast : BitVec 32) (retransaction : Bool) :
    BitVec 32 × BitVec 32 :=
  match cmd with
  | .delta level => if retransaction then (level - deltaLast, level - deltaLast) else (level, 0)
  | .set _ | .move _ => (cmd.level, 0)

/-- `delta_last` after the command. -/
def gDeltaLast (cmd : LevelCmd) (deltaLast : BitVec 32) : BitVec 32 :=
  match cmd with
  | .delta level => level
  | .set _ | .move _ => deltaLast

/-- The early returns: a move by zero, and a time that is not known. -/
def gLevelInvalid (p : GLevelPar) : Prop :=
  p.cmd = .move 0 ∨ ∃ t ∈ p.trans, ¬ isValidTransitionStep t.transitT

instance (p : GLevelPar) : Decidable (gLevelInvalid p) := inferInstanceAs (Decidable (_ ∨ _))

/-- `p_set_trans`: the transition of the command, or the default one. -/
def gLevelTrans (l : Light) (p : GLevelPar) : Option TransitionPar :=
  match p.trans with
  | some t => if isTransitionNeed t then some t else none
  | none => if getTransitionStep l.defTransTime ≠ 0 then some ⟨l.defTransTime, 0⟩ else none

/-- The target that the command sets. -/
def gLevelTarget (l : Light) (ty : StTrans) (p : GLevelPar) (deltaLast : BitVec 32)
    (retransaction : Bool) : BitVec 16 :=
  getTargetLevelByOp (l.save ty) ty p.cmd (l.trans ty).target
    (gLevelAdjust p.cmd deltaLast retransaction).1

def Light.setTrans (l : Light) (ty : StTrans) (t : StTransition) : Light :=
  { l with trans := Function.update l.trans ty t }

@[simp] theorem Light.setTrans_trans_self (l : Light) (ty : StTrans) (t : StTransition) :
    (l.setTrans ty t).trans ty = t := by
  unfold Light.setTrans
  exact Function.update_self _ _ _

/-- Without a transition; a move needs one. -/
def gLevelSetNow (cmd : LevelCmd) (targetVal : BitVec 16) (t : StTransition) : StTransition :=
  if cmd.isMove then t else lightResSwGLevelSet t targetVal true

/-- The command begins, with a transition to a level that is not the present one. -/
def gLevelStart (lib : TransLib) (cmd : LevelCmd) (targetVal : BitVec 16)
    (par : Option TransitionPar) (force : Bool) (t : StTransition) : StTransition :=
  match par with
  | some par =>
    if t.present ≠ targetVal ∨ force then
      let move := if cmd.isMove then some (cmd.level.setWidth 16) else none
      lightGLevelSetIdxWithTrans lib ⟨targetVal, move, par⟩ t
    else gLevelSetNow cmd targetVal t
  | none => gLevelSetNow cmd targetVal t

theorem gLevelStart_target (lib : TransLib) {cmd : LevelCmd} (h : cmd.isMove = false)
    (targetVal : BitVec 16) (par : Option TransitionPar) (force : Bool) (t : StTransition) :
    (gLevelStart lib cmd targetVal par force t).target = targetVal := by
  have hnow : (gLevelSetNow cmd targetVal t).target = targetVal := by
    rw [gLevelSetNow, h]
    rfl
  unfold gLevelStart
  cases par with
  | none => exact hnow
  | some par =>
    dsimp only
    by_cases hc : t.present ≠ targetVal ∨ force
    · rw [if_pos hc, lightGLevelSetIdxWithTrans_target]
    · rw [if_neg hc]
      exact hnow

/-- `none` where it returns an error. -/
def Light.gLevelSet (lib : TransLib) (l : Light) (ty : StTrans) (p : GLevelPar)
    (deltaLast : BitVec 32) (retransaction force : Bool) : Option Light :=
  if gLevelInvalid p then none
  else if ¬ retransaction ∨ (gLevelAdjust p.cmd deltaLast retransaction).2 ≠ 0 then
    let targetVal := gLevelTarget l ty p deltaLast retransaction
    some (l.setTrans ty (gLevelStart lib p.cmd targetVal (gLevelTrans l p) force (l.trans ty)))
  else some l

/-! ### The pass of a millisecond -/

def lightGetNextLevel (save : SwLevelSave) (ty : StTrans) (t : StTransition) : StTransition :=
  let adjust := t.step1p32768.toInt + t.present1p32768.toInt
  let result := t.present.toInt + adjust.tdiv 32768
  { t with
    present := getValWithCheckRange result save.min save.max ty
    present1p32768 := BitVec.ofInt 16 (adjust.tmod 32768) }

/-- One state of one light; the flag is `complete_level`. -/
def transitionPass (save : SwLevelSave) (ty : StTrans) (t : StTransition) :
    StTransition × Bool :=
  if t.delayMs ≠ 0 then
    let t := { t with delayMs := t.delayMs - 1 }
    if t.delayMs = 0 ∧ t.remainTMs = 0 then (lightResSwGLevelSet t t.target false, true)
    else (t, false)
  else if t.remainTMs ≠ 0 then
    let t :=
      if t.present ≠ t.target ∧ t.remainTMs.toNat % lightAdjustInterval = 0 then
        lightGetNextLevel save ty t
      else t
    let t := { t with remainTMs := t.remainTMs - 1 }
    if t.remainTMs = 0 then (lightResSwGLevelSet t t.target false, true) else (t, false)
  else (t, false)

def lightTransitionProc (l : Light) : Light :=
  { l with trans := fun ty => (transitionPass (l.save ty) ty (l.trans ty)).1 }

end PirMesh

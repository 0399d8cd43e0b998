import PirMesh.Light.Level

/-! # Light — Hue (`lighting_model_HSL.c`, `light.c`)

The transitions of a light with hue and saturation.  The hue is an angle: its difference is
`getHueDeltaValue`, and its steps are not brought into a range but go around.

The rest of a transition is that of any level (`transitionPass_eq`). -/

namespace PirMesh

/-- `ST_TRANS_LIGHTNESS`, `ST_TRANS_HSL_HUE` and `ST_TRANS_HSL_SAT` -/
inductive HslTrans
  | lightness
  | hue
  | sat
  deriving DecidableEq, Repr

structure HslLight where
  save : HslTrans → SwLevelSave
  trans : HslTrans → StTransition

/-- `s16_to_u16` -/
def s16ToU16 (val : BitVec 16) : BitVec 16 := val + 32768

/-- `get_Hue_delta_value` -/
def getHueDeltaValue (hueTarget huePresent : BitVec 16) : BitVec 16 :=
  let target : ℤ := hueTarget.toNat
  let current : ℤ := huePresent.toNat
  BitVec.ofInt 16 <|
    if current < target then
      if current + 0x8000 < target then (target - 65535) + (0 - current) else target - current
    else if target + 0x8000 < current then (65535 - current) + target
    else target - current

namespace HslLight

def setTrans (l : HslLight) (ty : HslTrans) (t : StTransition) : HslLight :=
  { l with trans := Function.update l.trans ty t }

/-- All present levels are off. -/
def PresentOff (l : HslLight) : Prop :=
  (l.trans .lightness).present = levelOff ∧ (l.trans .hue).present = levelOff ∧
    (l.trans .sat).present = levelOff

/-- All targets are off. -/
def TargetOff (l : HslLight) : Prop :=
  (l.trans .lightness).target = levelOff ∧ (l.trans .hue).target = levelOff ∧
    (l.trans .sat).target = levelOff

instance (l : HslLight) : Decidable l.PresentOff := inferInstanceAs (Decidable (_ ∧ _))

instance (l : HslLight) : Decidable l.TargetOff := inferInstanceAs (Decidable (_ ∧ _))

/-- Hue and saturation are at their targets at once. -/
def colorNow (l : HslLight) : HslLight where
  save := l.save
  trans
    | .lightness => l.trans .lightness
    | .hue => { l.trans .hue with present := (l.trans .hue).target }
    | .sat => { l.trans .sat with present := (l.trans .sat).target }

/-- Hue and saturation take no steps. -/
def colorStays (l : HslLight) : HslLight where
  save := l.save
  trans
    | .lightness => l.trans .lightness
    | .hue => { l.trans .hue with step1p32768 := 0 }
    | .sat => { l.trans .sat with step1p32768 := 0 }

/-- The difference that the steps are made of. -/
def deltaOf (l : HslLight) (ty : HslTrans) (delta : ℤ) : ℤ :=
  if ty = .hue then
    (getHueDeltaValue (s16ToU16 (l.trans ty).target) (s16ToU16 (l.trans ty).present)).toInt
  else delta

def setStep (l : HslLight) (ty : HslTrans) (step : BitVec 32) : HslLight :=
  l.setTrans ty { l.trans ty with step1p32768 := step }

/-- The steps of a command that is not a move; `keepColor` is `flag_keep_color`. -/
def setSteps (l : HslLight) (ty : HslTrans) (remain : BitVec 32) (keepColor : Bool) : HslLight :=
  let delta := (l.trans ty).target.toInt - (l.trans ty).present.toInt
  let l := if keepColor = true ∧ l.PresentOff then l.colorNow else l
  let l := l.setStep ty (transitionStep (l.deltaOf ty delta) remain)
  if keepColor = true ∧ l.TargetOff then l.colorStays else l

/-- The times of a transition, with its target set. -/
def setTimes (lib : TransLib) (l : HslLight) (ty : HslTrans) (set : MeshSetTrans)
    (hslSetCmdFlag : Bool) : HslLight :=
  let remain := 100 * lib.getTransition100ms set.par.transitT
  if remain = 0 then
    l.setTrans ty { l.trans ty with remainTMs := 0, step1p32768 := 0, present1p32768 := 0 }
  else
    match set.move with
    | some levelMove =>
      l.setTrans ty { l.trans ty with
        remainTMs := moveRemainTMs levelMove set.targetVal (l.trans ty).present remain
        step1p32768 := transitionStep levelMove.toInt remain
        present1p32768 := 0 }
    | none =>
      let l := l.setSteps ty remain (hslSetCmdFlag && decide (ty ≠ .lightness))
      l.setTrans ty { l.trans ty with remainTMs := remain, present1p32768 := 0 }

/-- `light_g_level_set_idx_with_trans` -/
def gLevelSetIdxWithTrans (lib : TransLib) (l : HslLight) (ty : HslTrans) (set : MeshSetTrans)
    (hslSetCmdFlag : Bool) : HslLight :=
  let l := l.setTrans ty { l.trans ty with
    target := set.targetVal
    delayMs := set.par.delay.setWidth 16 * 5 }
  if getTransitionStep set.par.transitT = 0x3f then
    l.setTrans ty { l.trans ty with remainTMs := -1 }
  else l.setTimes lib ty set hslSetCmdFlag

end HslLight

/-! ### The pass of a millisecond -/

/-- The range of a level is checked as that of delta UV, if it is not a lightness. -/
def HslTrans.checked : HslTrans → StTrans
  | lightness => .lightness
  | hue | sat => .ctlDUv

/-- `light_get_next_level` -/
def hslGetNextLevel (save : SwLevelSave) (ty : HslTrans) (t : StTransition) : StTransition :=
  let adjust := t.step1p32768.toInt + t.present1p32768.toInt
  let result := t.present.toInt + adjust.tdiv 32768
  { t with
    present :=
      if ty = .hue then BitVec.ofInt 16 result
      else getValWithCheckRange result save.min save.max ty.checked
    present1p32768 := BitVec.ofInt 16 (adjust.tmod 32768) }

/-- One state of a light, whose next level is `next`. -/
def transitionPassBy (next : StTransition → StTransition) (t : StTransition) :
    StTransition × Bool :=
  if t.delayMs ≠ 0 then
    let t := { t with delayMs := t.delayMs - 1 }
    if t.delayMs = 0 ∧ t.remainTMs = 0 then (lightResSwGLevelSet t t.target false, true)
    else (t, false)
  else if t.remainTMs ≠ 0 then
    let t :=
      if t.present ≠ t.target ∧ t.remainTMs.toNat % lightAdjustInterval = 0 then next t else t
    let t := { t with remainTMs := t.remainTMs - 1 }
    if t.remainTMs = 0 then (lightResSwGLevelSet t t.target false, true) else (t, false)
  else (t, false)

theorem transitionPass_eq (save : SwLevelSave) (ty : StTrans) :
    transitionPass save ty = transitionPassBy (lightGetNextLevel save ty) := rfl

/-- `light_transition_proc` -/
def HslLight.transitionProc (l : HslLight) : HslLight where
  save := l.save
  trans ty := (transitionPassBy (hslGetNextLevel (l.save ty) ty) (l.trans ty)).1

def HslLight.after (l : HslLight) (k : ℕ) : HslLight := HslLight.transitionProc^[k] l

end PirMesh

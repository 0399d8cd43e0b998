import PirMesh.Light.PowerUp
import PirMesh.Light.TransitionSpec
import PirMesh.Node.Ticks

/-! # Light — Light control (`lighting_model_LC.c`)

The control fades a light on, to its prolonged lightness and to standby.  Each fade sets
the state first and then the lightness, with a transition; the state goes on when the
transition is complete.  A lightness that is set at once completes nothing: the state stays
(`lcNode_stuck`).  A fade that really fades leaves it (`lcNode_progress`). -/

namespace PirMesh

open Run

/-! ### State -/

/-- `LC_STATE_OFF` and the others. -/
inductive LcState
  | off
  | standby
  | fadeOn
  | run
  | fade
  | prolong
  | fadeStandbyAuto
  | fadeStandbyManual
  | occupancyDelay
  deriving DecidableEq, Repr

/-- The states that wait for a transition. -/
def LcState.fades : LcState → Bool
  | fadeOn | fade | fadeStandbyAuto | fadeStandbyManual => true
  | off | standby | run | prolong | occupancyDelay => false

/-- The properties that the control reads: lightness values, and times in ms. -/
inductive LcPropId
  | lightnessOn
  | lightnessProlong
  | lightnessStandby
  | timeOccupancyDelay
  | timeFadeOn
  | timeRun
  | timeFade
  | timeProlong
  | timeFadeStandbyAuto
  | timeFadeStandbyManual
  deriving DecidableEq, Repr

/-- A light, `model_sig_light_lc` and `g_lc_prop_proc` of it. -/
structure LcLight where
  light : Light
  mode : BitVec 8
  prop : LcPropId → BitVec 24
  lcOnoffTarget : BitVec 8
  st : LcState
  tickMs : BitVec 32

/-- `LC_MODE_ON` -/
def lcModeOn : BitVec 8 := 1

/-- `LC_MODE_MAX` -/
def lcModeMax : BitVec 8 := 2

/-- A fade: its state, and its lightness command. -/
structure LcFade where
  st : LcState
  lightness : BitVec 16
  par : TransitionPar

def lightRemainTimeGet (lib : TransLib) (remainMs : BitVec 32) (delayMs : BitVec 16) : BitVec 8 :=
  let remain := lib.getTransitionStepRes ((remainMs + 99) / 100)
  if remain = 0 then lib.getTransitionStepRes ((delayMs.setWidth 32 + 99) / 100) else remain

namespace LcLight

/-! ### Fades -/

def lightnessProp (n : LcLight) (id : LcPropId) : BitVec 16 := (n.prop id).setWidth 16

def timeProp (n : LcLight) (id : LcPropId) : BitVec 32 := (n.prop id).setWidth 32

/-- The transition of a time in ms. -/
def timePar (lib : TransLib) (timeMs : BitVec 32) : TransitionPar :=
  ⟨lightRemainTimeGet lib timeMs 0, 0⟩

/-- `LC_property_st_and_tick_set` -/
def propertyStAndTickSet (n : LcLight) (st : LcState) (clock : BitVec 32) : LcLight :=
  { n with st, tickMs := clock }

/-- `access_cmd_set_LC_lightness`: the command to itself always has a transition. -/
def accessCmdSetLCLightness (lib : TransLib) (n : LcLight) (lightness : BitVec 16)
    (par : TransitionPar) : LcLight :=
  { n with light := (lightnessSet lib n.light lightness (some par) false).getD n.light }

def startFade (lib : TransLib) (n : LcLight) (f : LcFade) (clock : BitVec 32) : LcLight :=
  (n.propertyStAndTickSet f.st clock).accessCmdSetLCLightness lib f.lightness f.par

/-- `LC_onoff_action` -/
def onoffAction (lib : TransLib) (n : LcLight) (on : Bool) (trsPar : Option TransitionPar) :
    LcFade :=
  if on then
    ⟨.fadeOn, n.lightnessProp .lightnessOn, trsPar.getD (timePar lib (n.timeProp .timeFadeOn))⟩
  else
    ⟨.fadeStandbyManual, n.lightnessProp .lightnessStandby,
      trsPar.getD (timePar lib (n.timeProp .timeFadeStandbyManual))⟩

/-- The fade of an on/off message, if it starts one. -/
def onoffSetFade (lib : TransLib) (n : LcLight) (onoff : BitVec 8)
    (trsPar : Option TransitionPar) (retransaction : Bool) : Option LcFade :=
  if ∃ t ∈ trsPar, ¬ isValidTransitionStep t.transitT then none
  else if n.mode = lcModeOn then
    if onoff = 1 then
      if n.st = .fadeOn ∨ n.st = .run ∨ retransaction then none
      else some (n.onoffAction lib true trsPar)
    else if onoff = 0 then
      if n.st = .off ∨ n.st = .standby ∨ n.st = .fadeStandbyManual ∨ retransaction then none
      else some (n.onoffAction lib false trsPar)
    else none
  else none

/-- `mesh_cmd_sig_lc_onoff_set` -/
def lcOnoffSet (lib : TransLib) (n : LcLight) (onoff : BitVec 8) (trsPar : Option TransitionPar)
    (retransaction : Bool) (clock : BitVec 32) : LcLight :=
  match n.onoffSetFade lib onoff trsPar retransaction with
  | some f => startFade lib { n with lcOnoffTarget := onoff } f clock
  | none => n

/-- The fade of a time that is over, if it is. -/
def propertyFade (lib : TransLib) (n : LcLight) (clock : BitVec 32) : Option LcFade :=
  if n.mode = lcModeOn then
    match n.st with
    | .run =>
      if clockTimeExceedMs clock n.tickMs (n.timeProp .timeRun) then
        some ⟨.fade, n.lightnessProp .lightnessProlong, timePar lib (n.timeProp .timeFade)⟩
      else none
    | .prolong =>
      if clockTimeExceedMs clock n.tickMs (n.timeProp .timeProlong) then
        some ⟨.fadeStandbyAuto, n.lightnessProp .lightnessStandby,
          timePar lib (n.timeProp .timeFadeStandbyAuto)⟩
      else none
    | .off | .standby | .fadeOn | .fade | .fadeStandbyAuto | .fadeStandbyManual
    | .occupancyDelay => none
  else none

/-- `LC_property_proc` -/
def propertyProc (lib : TransLib) (n : LcLight) (clock : BitVec 32) : LcLight :=
  match n.propertyFade lib clock with
  | some f => startFade lib n f clock
  | none => n

/-- `LC_light_transition_complete_handle` -/
def transitionCompleteHandle (n : LcLight) (clock : BitVec 32) : LcLight :=
  match n.st with
  | .fadeOn => n.propertyStAndTickSet .run clock
  | .fade => n.propertyStAndTickSet .prolong clock
  | .fadeStandbyAuto | .fadeStandbyManual => n.propertyStAndTickSet .standby clock
  | .off | .standby | .run | .prolong | .occupancyDelay => n

/-- `light_transition_proc`, with what is complete. -/
def transitionProc (n : LcLight) (clock : BitVec 32) : LcLight :=
  let complete :=
    (transitionPass (n.light.save .lightness) .lightness (n.light.trans .lightness)).2
  let n := { n with light := lightTransitionProc n.light }
  if complete then n.transitionCompleteHandle clock else n

/-- The on/off message that a motion sensor makes the light send to itself. -/
def sensorOnoff (percent : BitVec 8) : BitVec 8 := if percent = 0 then 0 else 1

def sensorPar (lib : TransLib) (n : LcLight) : TransitionPar :=
  timePar lib (n.timeProp .timeOccupancyDelay)

def lcRxSensorStatus (lib : TransLib) (n : LcLight) (percent : BitVec 8) (clock : BitVec 32) :
    LcLight :=
  n.lcOnoffSet lib (sensorOnoff percent) (some (n.sensorPar lib)) false clock

/-- `mesh_cmd_sig_lc_mode_set` -/
def lcModeSet (n : LcLight) (mode : BitVec 8) : LcLight :=
  if mode < lcModeMax then { n with mode } else n

/-- `mesh_cmd_sig_lc_prop_set` -/
def lcPropSet (n : LcLight) (id : LcPropId) (val : BitVec 24) : LcLight :=
  { n with prop := Function.update n.prop id val }

end LcLight

/-! ### A node and its messages -/

/-- A message to the light `idx`, or a pass over all lights. -/
inductive LcEvent (cnt : ℕ)
  | onoff (idx : Fin cnt) (onoff : BitVec 8) (trsPar : Option TransitionPar)
      (retransaction : Bool) (clock : BitVec 32)
  | sensor (idx : Fin cnt) (percent : BitVec 8) (clock : BitVec 32)
  | mode (idx : Fin cnt) (mode : BitVec 8)
  | prop (idx : Fin cnt) (id : LcPropId) (val : BitVec 24)
  | propertyProc (clock : BitVec 32)
  | transitionProc (clock : BitVec 32)

/-- `cnt` is `LIGHT_CNT`. -/
abbrev LcNode (cnt : ℕ) := Fin cnt → LcLight

namespace LcNode

variable {cnt : ℕ}

def step (lib : TransLib) (n : LcNode cnt) : LcEvent cnt → LcNode cnt
  | .onoff idx onoff trsPar retransaction clock =>
    Function.update n idx ((n idx).lcOnoffSet lib onoff trsPar retransaction clock)
  | .sensor idx percent clock =>
    Function.update n idx ((n idx).lcRxSensorStatus lib percent clock)
  | .mode idx mode => Function.update n idx ((n idx).lcModeSet mode)
  | .prop idx id val => Function.update n idx ((n idx).lcPropSet id val)
  | .propertyProc clock => fun i => (n i).propertyProc lib clock
  | .transitionProc clock => fun i => (n i).transitionProc clock

/-- The control of every light is off. -/
def Starts (n : LcNode cnt) : Prop := ∀ i, (n i).st = .off

end LcNode

/-- Its delay or its remaining time is not over. -/
def StTransition.InProgress (t : StTransition) : Prop := t.delayMs ≠ 0 ∨ t.remainTMs ≠ 0

instance (t : StTransition) : Decidable t.InProgress := inferInstanceAs (Decidable (_ ∨ _))

/-- A light whose control waits for a transition has one. -/
def LcLight.Moves (n : LcLight) : Prop :=
  n.mode = lcModeOn → n.st.fades = true → (n.light.trans .lightness).InProgress

/-- The fade has a time that is known and not zero, and goes to another level. -/
def LcLight.ReallyFades (n : LcLight) (f : LcFade) : Prop :=
  isValidTransitionStep f.par.transitT = true ∧ isTransitionNeed f.par = true ∧
    (n.light.trans .lightness).present ≠
      getValWithCheckRange (getLevelFromLightness f.lightness).toInt
        (n.light.save .lightness).min (n.light.save .lightness).max .lightness

instance (n : LcLight) (f : LcFade) : Decidable (n.ReallyFades f) :=
  inferInstanceAs (Decidable (_ ∧ _))

/-- Every fade that is started really fades. -/
def LcNode.Fades {cnt : ℕ} (lib : TransLib) (n : LcNode cnt) : LcEvent cnt → Prop
  | .onoff idx onoff trsPar retransaction _ =>
    ∀ f ∈ (n idx).onoffSetFade lib onoff trsPar retransaction, (n idx).ReallyFades f
  | .sensor idx percent _ =>
    ∀ f ∈ (n idx).onoffSetFade lib (LcLight.sensorOnoff percent) (some ((n idx).sensorPar lib))
      false, (n idx).ReallyFades f
  | .propertyProc clock => ∀ i, ∀ f ∈ (n i).propertyFade lib clock, (n i).ReallyFades f
  | .mode _ _ | .prop _ _ _ | .transitionProc _ => True

instance {cnt : ℕ} (lib : TransLib) (n : LcNode cnt) (e : LcEvent cnt) :
    Decidable (n.Fades lib e) :=
  match e with
  | .onoff _ _ _ _ _ | .sensor _ _ _ => Option.decidableForallMem _
  | .propertyProc _ => inferInstanceAs (Decidable (∀ i, ∀ f ∈ (n i).propertyFade lib _, _))
  | .mode _ _ | .prop _ _ _ | .transitionProc _ => inferInstanceAs (Decidable True)

/-! ### A fade is a transition -/

theorem StTransition.inProgress_pass {save : SwLevelSave} {ty : StTrans} {t : StTransition}
    (h : t.InProgress) :
    (transitionPass save ty t).2 = true ∨ (transitionPass save ty t).1.InProgress := by
  unfold transitionPass
  dsimp only
  by_cases hd : t.delayMs ≠ 0
  · rw [if_pos hd]
    by_cases hover : t.delayMs - 1 = 0 ∧ t.remainTMs = 0
    · rw [if_pos hover]
      exact .inl rfl
    · rw [if_neg hover]
      exact .inr (not_and_or.mp hover)
  · have hr : t.remainTMs ≠ 0 := h.resolve_left hd
    rw [if_neg hd, if_pos hr]
    split_ifs with hstep hover hover
    · exact .inl rfl
    · exact .inr (.inr hover)
    · exact .inl rfl
    · exact .inr (.inr hover)

/-- The time of a transition with a step. -/
theorem transitionTimes_ne_zero {lib : TransLib} (hlib : lib.Lawful) {par : TransitionPar}
    (h : getTransitionStep par.transitT ≠ 0) (target present : BitVec 16) :
    (transitionTimes lib ⟨target, none, par⟩ present).1 ≠ 0 := by
  have hne := hlib.time_ne_zero h
  have hsome : transitionTimes lib ⟨target, none, par⟩ present = _ := if_neg hne
  rw [hsome]
  exact hne

theorem lightGLevelSetIdxWithTrans_inProgress {lib : TransLib} (hlib : lib.Lawful)
    {par : TransitionPar} (hvalid : isValidTransitionStep par.transitT = true)
    (hneed : isTransitionNeed par = true) (target : BitVec 16) (t : StTransition) :
    (lightGLevelSetIdxWithTrans lib ⟨target, none, par⟩ t).InProgress := by
  rw [lightGLevelSetIdxWithTrans_valid hvalid]
  rcases of_decide_eq_true hneed with hstep | hdelay
  · exact .inr (transitionTimes_ne_zero hlib hstep _ _)
  · exact .inl fun hz => hdelay ((delayMs_eq_zero par.delay).mp (congrArg BitVec.toNat hz))

/-- A lightness command that really fades starts a transition. -/
theorem lightnessSet_inProgress {lib : TransLib} (hlib : lib.Lawful) {l : Light}
    {lightness : BitVec 16} {par : TransitionPar}
    (hvalid : isValidTransitionStep par.transitT = true) (hneed : isTransitionNeed par = true)
    (hne : (l.trans .lightness).present ≠
      getValWithCheckRange (getLevelFromLightness lightness).toInt
        (l.save .lightness).min (l.save .lightness).max .lightness) :
    ∃ l', lightnessSet lib l lightness (some par) false = some l' ∧
      (l'.trans .lightness).InProgress := by
  obtain ⟨target, htarget⟩ : ∃ target, target =
    getValWithCheckRange (getLevelFromLightness lightness).toInt (l.save .lightness).min
      (l.save .lightness).max .lightness := ⟨_, rfl⟩
  rw [← htarget] at hne
  have hinv : ¬ gLevelInvalid ⟨.set target, some par⟩ := by
    rintro (hm | ⟨t, ht, hv⟩)
    · cases hm
    · cases ht
      exact hv hvalid
  have hlevel : gLevelTarget l .lightness ⟨.set target, some par⟩ 0 false = target :=
    setWidth_signExtend_level target
  have hpar : gLevelTrans l ⟨.set target, some par⟩ = some par := if_pos hneed
  have hset : Light.gLevelSet lib l .lightness ⟨.set target, some par⟩ 0 false false =
      some (l.setTrans .lightness
        (lightGLevelSetIdxWithTrans lib ⟨target, none, par⟩ (l.trans .lightness))) := by
    refine (if_neg hinv).trans ((if_pos (.inl Bool.false_ne_true)).trans ?_)
    dsimp only
    rw [hlevel, hpar]
    exact congrArg (fun t => some (l.setTrans .lightness t)) (if_pos (.inl hne))
  refine ⟨(l.setTrans .lightness (lightGLevelSetIdxWithTrans lib ⟨target, none, par⟩
    (l.trans .lightness))).gLevelLastSet .lightness, ?_, ?_⟩
  · unfold lightnessSet gLevelSetAndUpdateLast
    dsimp only
    rw [← htarget, hset]
    rfl
  · have hself := l.setTrans_trans_self .lightness
      (lightGLevelSetIdxWithTrans lib ⟨target, none, par⟩ (l.trans .lightness))
    have hgo := lightGLevelSetIdxWithTrans_inProgress hlib hvalid hneed target
      (l.trans .lightness)
    rw [← hself] at hgo
    exact hgo

namespace LcLight

theorem startFade_inProgress {lib : TransLib} (hlib : lib.Lawful) {n : LcLight} {f : LcFade}
    (h : n.ReallyFades f) (clock : BitVec 32) :
    ((startFade lib n f clock).light.trans .lightness).InProgress := by
  obtain ⟨hvalid, hneed, hne⟩ := h
  obtain ⟨l', hset, hgo⟩ := lightnessSet_inProgress hlib hvalid hneed hne
  have hlight : (startFade lib n f clock).light = l' :=
    congrArg (Option.getD · n.light) hset
  rw [hlight]
  exact hgo

end LcLight

/-! ### Runs -/

namespace LcLight

variable {lib : TransLib} {n : LcLight}

/-- A state that waits for a transition has one, in any mode. -/
def Fading (n : LcLight) : Prop := n.st.fades = true → (n.light.trans .lightness).InProgress

theorem Fading.lcOnoffSet (hlib : lib.Lawful) (h : n.Fading) {onoff : BitVec 8}
    {trsPar : Option TransitionPar} {retransaction : Bool} {clock : BitVec 32}
    (hf : ∀ f ∈ n.onoffSetFade lib onoff trsPar retransaction, n.ReallyFades f) :
    (n.lcOnoffSet lib onoff trsPar retransaction clock).Fading := by
  unfold LcLight.lcOnoffSet
  cases hfade : n.onoffSetFade lib onoff trsPar retransaction with
  | none => exact h
  | some f =>
    have hreally : ReallyFades { n with lcOnoffTarget := onoff } f := hf f hfade
    exact fun _ => startFade_inProgress hlib hreally clock

theorem Fading.propertyProc (hlib : lib.Lawful) (h : n.Fading) {clock : BitVec 32}
    (hf : ∀ f ∈ n.propertyFade lib clock, n.ReallyFades f) :
    (n.propertyProc lib clock).Fading := by
  unfold LcLight.propertyProc
  cases hfade : n.propertyFade lib clock with
  | none => exact h
  | some f => exact fun _ => startFade_inProgress hlib (hf f hfade) clock

/-- What a complete transition leaves does not wait for one. -/
theorem transitionCompleteHandle_fades (n : LcLight) (clock : BitVec 32) :
    (n.transitionCompleteHandle clock).st.fades = false := by
  unfold transitionCompleteHandle
  cases hst : n.st
  all_goals first | rfl | exact congrArg LcState.fades hst

theorem Fading.transitionProc (h : n.Fading) (clock : BitVec 32) :
    (n.transitionProc clock).Fading := by
  unfold LcLight.transitionProc
  dsimp only
  by_cases hc : (transitionPass (n.light.save .lightness) .lightness
      (n.light.trans .lightness)).2 = true
  · rw [if_pos hc]
    intro hfades
    rw [transitionCompleteHandle_fades] at hfades
    cases hfades
  · rw [if_neg hc]
    exact fun hfades => (StTransition.inProgress_pass (h hfades)).resolve_left hc

end LcLight

namespace LcNode

variable {cnt : ℕ} {lib : TransLib} {n : LcNode cnt}

theorem fading_update (h : ∀ i, (n i).Fading) {idx : Fin cnt} {l : LcLight} (hl : l.Fading) :
    ∀ i, (Function.update n idx l i).Fading := by
  intro i
  by_cases hi : i = idx
  · subst hi
    rwa [Function.update_self]
  · rw [Function.update_of_ne hi]
    exact h i

theorem fading_step (hlib : lib.Lawful) (h : ∀ i, (n i).Fading) {e : LcEvent cnt}
    (hf : n.Fades lib e) : ∀ i, (n.step lib e i).Fading := by
  cases e with
  | onoff idx onoff trsPar retransaction clock =>
    exact fading_update h ((h idx).lcOnoffSet hlib hf)
  | sensor idx percent clock => exact fading_update h ((h idx).lcOnoffSet hlib hf)
  | mode idx mode =>
    refine fading_update h ?_
    unfold LcLight.lcModeSet
    split_ifs
    · exact h idx
    · exact h idx
  | prop idx id val => exact fading_update h (h idx)
  | propertyProc clock => exact fun i => (h i).propertyProc hlib (hf i)
  | transitionProc clock => exact fun i => (h i).transitionProc clock

end LcNode

def lcSys (lib : TransLib) (cnt : ℕ) : Run.Sys (LcNode cnt) (LcEvent cnt) :=
  Sys.det LcNode.Starts (LcNode.step lib)

theorem lcNode_progress {lib : TransLib} {cnt : ℕ} (hlib : lib.Lawful) {n : LcNode cnt}
    (h : ((lcSys lib cnt).restrict (LcNode.Fades lib)).Reach n) (i : Fin cnt) : (n i).Moves := by
  have hall : ∀ i, (n i).Fading := by
    refine h.inv (P := fun n => ∀ i, (n i).Fading) (fun n h0 i hfades => ?_) ?_
    · rw [h0 i] at hfades
      cases hfades
    · intro n e n' hn hstep
      obtain ⟨hf, rfl⟩ := hstep
      exact LcNode.fading_step hlib hn hf
  exact fun _ => hall i

/-! ### A fade that is none -/

/-- A light that is off, with its control on, and `fadeOn` ms to go on. -/
def lcDark (fadeOn : BitVec 24) : LcLight where
  light :=
    { save := fun _ => ⟨32767, levelOff, -32767, 32767, false⟩
      trans := fun _ => ⟨0, 0, 0, levelOff, 0, levelOff⟩
      defTransTime := 0 }
  mode := lcModeOn
  prop id := if id = .timeFadeOn then fadeOn else if id = .lightnessOn then 0xffff else 1000
  lcOnoffTarget := 0
  st := .off
  tickMs := 0

def lcOne (fadeOn : BitVec 24) : LcNode 1 := fun _ => lcDark fadeOn

def lcOn : LcEvent 1 := .onoff ⟨0, Nat.one_pos⟩ 1 none false 5

theorem lcNode_progress_on :
    ([lcOn, .transitionProc 6].foldl (LcNode.step specTransLib) (lcOne 2000) 0).Moves := by
  have h0 : ((lcSys specTransLib 1).restrict (LcNode.Fades specTransLib)).Reach (lcOne 2000) :=
    .init fun _ => rfl
  exact lcNode_progress specTransLib_lawful (Sys.reach_foldl_restrict h0 (by decide +kernel)) 0

theorem lcNode_stuck :
    ¬ ∀ (lib : TransLib) (cnt : ℕ) (n : LcNode cnt), lib.Lawful → (lcSys lib cnt).Reach n →
      ∀ i, (n i).Moves := by
  intro h
  have h0 : (lcSys specTransLib 1).Reach (lcOne 0) := .init fun _ => rfl
  have hreach := Sys.reach_foldl h0 [lcOn]
  have hmoves := h specTransLib 1 _ specTransLib_lawful hreach 0
  revert hmoves
  unfold LcLight.Moves
  decide +kernel

end PirMesh

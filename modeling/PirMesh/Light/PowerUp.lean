import PirMesh.Library.Run
import PirMesh.Light.Level
import PirMesh.Node.Ticks

/-! # Light — Power-up (`light.c`, `generic_model.c`)

What a light saves for the next power-up is a pair: whether it is on, and its last level
that was not off.  A level command saves its target in both; an on/off command saves the
first part only.  `lightResSwLoad` and `lightPwmInit` restore the lights when the state
OnPowerUp is "restore".

`Paired` is the invariant of a light: the saved pair says what its lightness target is.
A level command establishes it whatever the pair was (`paired_gLevelLastSet`); an on/off
command keeps it when it sets what it saves.  So the pair says what the target is
(`lightNode_restores`), unless an on command goes to a default lightness that is not the last
one, or a command that is sent again saves an on or off that it does not set
(`lightNode_default_lost`). -/

namespace PirMesh

open Run

/-! ### The saved pair -/

/-- `set_on_power_up_last` -/
def setOnPowerUpLast (save : SwLevelSave) (last : BitVec 16) : SwLevelSave :=
  if last = levelOff then { save with onoff := false } else { save with onoff := true, last }

def getOnPowerUpLast (save : SwLevelSave) : BitVec 16 :=
  if save.onoff then save.last else levelOff

namespace Light

def setSave (l : Light) (ty : StTrans) (save : SwLevelSave) : Light :=
  { l with save := Function.update l.save ty save }

/-- `set_on_power_up_onoff` -/
def setOnPowerUpOnoff (l : Light) (ty : StTrans) (onoff : Bool) : Light :=
  l.setSave ty { l.save ty with onoff }

/-- `light_res_sw_g_level_last_set` -/
def gLevelLastSet (l : Light) (ty : StTrans) : Light :=
  l.setSave ty (setOnPowerUpLast (l.save ty) (l.trans ty).target)

end Light

/-! ### Commands -/

/-- A level, but not a delta, is brought into the range first. -/
def gLevelSetAndUpdateLast (lib : TransLib) (l : Light) (ty : StTrans) (p : GLevelPar)
    (deltaLast : BitVec 32) (retransaction : Bool) : Option Light :=
  let inRange (level : BitVec 16) : BitVec 16 :=
    getValWithCheckRange level.toInt (l.save ty).min (l.save ty).max ty
  let cmd := match p.cmd with
    | .delta level => .delta level
    | .set level => .set (inRange level)
    | .move level => .move (inRange level)
  (Light.gLevelSet lib l ty { p with cmd } deltaLast retransaction false).map (·.gLevelLastSet ty)

def getLightGLevelByOnoff (l : Light) (on : Bool) (ty : StTrans) (forceLast : Bool) :
    BitVec 16 :=
  if on then
    if ty = .lightness then
      if forceLast ∨ (l.save ty).dflt = levelOff then (l.save ty).last else (l.save ty).dflt
    else (l.save ty).last
  else levelOff

/-- `onoff` is a byte of the command. -/
def gOnoffSet (lib : TransLib) (l : Light) (onoff : BitVec 8) (par : Option TransitionPar)
    (forceLast retransaction : Bool) : Option Light :=
  if onoff < 2 then
    let level := getLightGLevelByOnoff l (onoff ≠ 0) .lightness forceLast
    (Light.gLevelSet lib l .lightness ⟨.set level, par⟩ 0 retransaction false).map
      (·.setOnPowerUpOnoff .lightness (onoff ≠ 0))
  else none

/-- `get_level_from_lightness` -/
def getLevelFromLightness (lightness : BitVec 16) : BitVec 16 := lightness - 32768

def lightnessSet (lib : TransLib) (l : Light) (lightness : BitVec 16)
    (par : Option TransitionPar) (retransaction : Bool) : Option Light :=
  gLevelSetAndUpdateLast lib l .lightness ⟨.set (getLevelFromLightness lightness), par⟩ 0
    retransaction

/-! ### Boot -/

/-- `light_res_sw_load`, when OnPowerUp is "restore". -/
def lightResSwLoad (l : Light) : Light :=
  { l with
    trans := fun ty =>
      let level := getOnPowerUpLast (l.save ty)
      { l.trans ty with present := level, target := level } }

def lightTransitionOnoffManual (lib : TransLib) (l : Light) (onoff : Bool) (transitT : BitVec 8) :
    Light :=
  (gOnoffSet lib l (if onoff then 1 else 0) (some ⟨transitT, 0⟩) true false).getD l

/-- `edch`: a node that was in a network, and did not restart for an OTA. -/
def lightPwmInit (lib : TransLib) (edch : Bool) (l : Light) : Light :=
  let off := lightTransitionOnoffManual lib l false 0
  if (l.trans .lightness).present ≠ levelOff then
    lightTransitionOnoffManual lib off true (if edch then l.defTransTime else 0)
  else off

/-! ### A node and its commands -/

/-- The lights, and the last ones that were stored, with `tick_light_save`. -/
structure LightNode where
  light : ℕ → Light
  deltaLast : BitVec 32
  tickLightSave : BitVec 32
  /-- `FLASH_ADR_SW_LEVEL`, and the lightness targets when it was written. -/
  stored : Option ((ℕ → StTrans → SwLevelSave) × (ℕ → BitVec 16))

/-- A command to the light `idx`, a pass of a millisecond, or of the main loop. -/
inductive LightEvent
  | onoff (idx : ℕ) (onoff : BitVec 8) (par : Option TransitionPar) (retransaction : Bool)
      (clock : BitVec 32)
  | level (idx : ℕ) (ty : StTrans) (p : GLevelPar) (retransaction : Bool) (clock : BitVec 32)
  | lightness (idx : ℕ) (lightness : BitVec 16) (par : Option TransitionPar)
      (retransaction : Bool) (clock : BitVec 32)
  | pass
  | saveProc (clock : BitVec 32)

namespace LightNode

/-- A command was carried out, and the lights are to be saved. -/
def changed (n : LightNode) (idx : ℕ) (clock : BitVec 32) (l : Option Light) : LightNode :=
  match l with
  | some l => { n with light := Function.update n.light idx l, tickLightSave := clock ||| 1 }
  | none => n

/-- `light_par_save_proc` -/
def lightParSaveProc (n : LightNode) (clock : BitVec 32) : LightNode :=
  if n.tickLightSave ≠ 0 ∧ clockTickExceed clock n.tickLightSave (3 * 1000 * 1000) then
    { n with
      tickLightSave := 0
      stored := some (fun i => (n.light i).save, fun i => ((n.light i).trans .lightness).target) }
  else n

def step (lib : TransLib) (n : LightNode) : LightEvent → LightNode
  | .onoff idx onoff par retransaction clock =>
    n.changed idx clock (gOnoffSet lib (n.light idx) onoff par false retransaction)
  | .level idx ty p retransaction clock =>
    LightNode.changed { n with deltaLast := gDeltaLast p.cmd n.deltaLast } idx clock
      (gLevelSetAndUpdateLast lib (n.light idx) ty p n.deltaLast retransaction)
  | .lightness idx lightness par retransaction clock =>
    n.changed idx clock (lightnessSet lib (n.light idx) lightness par retransaction)
  | .pass => { n with light := fun i => lightTransitionProc (n.light i) }
  | .saveProc clock => n.lightParSaveProc clock

/-- The light after a restart from what was saved; its RAM is as `l`. -/
def reboot (lib : TransLib) (edch : Bool) (l : Light) (save : StTrans → SwLevelSave) : Light :=
  lightPwmInit lib edch (lightResSwLoad { l with save })

/-- A node that was just started from a record with a last level, and not stored anything. -/
def Starts (lib : TransLib) (n : LightNode) : Prop :=
  n.stored = none ∧ ∀ i, ∃ edch l,
    (l.save .lightness).last ≠ levelOff ∧ isValidTransitionStep l.defTransTime ∧
    n.light i = reboot lib edch l l.save

/-- A restart brings every light to the target it had when it was saved. -/
def Restores (lib : TransLib) (n : LightNode) : Prop :=
  ∀ save target, n.stored = some (save, target) → ∀ (i : ℕ) (edch : Bool),
    ((reboot lib edch (n.light i) (save i)).trans .lightness).target = target i

/-- An on command that is accepted goes to the last level, and an on/off command that is
sent again agrees with the target. -/
def Saves (n : LightNode) : LightEvent → Prop
  | .onoff idx onoff par retransaction _ =>
    let l := n.light idx
    onoff < 2 → ¬ gLevelInvalid ⟨.set levelOff, par⟩ →
      if retransaction then onoff ≠ 0 ↔ (l.trans .lightness).target ≠ levelOff
      else onoff ≠ 0 → (l.save .lightness).dflt = levelOff ∨
        (l.save .lightness).dflt = (l.save .lightness).last
  | .level _ _ _ _ _ | .lightness _ _ _ _ _ | .pass | .saveProc _ => True

instance (n : LightNode) (e : LightEvent) : Decidable (n.Saves e) :=
  match e with
  | .onoff _ _ _ retransaction _ =>
    inferInstanceAs (Decidable (_ → _ → if retransaction = true then _ else _))
  | .level _ _ _ _ _ | .lightness _ _ _ _ _ | .pass | .saveProc _ =>
    inferInstanceAs (Decidable True)

end LightNode

/-! ### What a power-up restores -/

/-! ### What the commands leave alone -/

/-- Only the transition of `ty` changes. -/
structure Light.SameBut (l l' : Light) (ty : StTrans) : Prop where
  save : l'.save = l.save
  defTransTime : l'.defTransTime = l.defTransTime
  trans : ∀ ty' ≠ ty, l'.trans ty' = l.trans ty'

theorem Light.SameBut.refl (l : Light) (ty : StTrans) : l.SameBut l ty :=
  ⟨rfl, rfl, fun _ _ => rfl⟩

theorem Light.sameBut_setTrans (l : Light) (ty : StTrans) (t : StTransition) :
    l.SameBut (l.setTrans ty t) ty :=
  ⟨rfl, rfl, fun _ h => Function.update_of_ne h _ _⟩

section

variable {lib : TransLib} {l l' : Light} {ty : StTrans} {deltaLast : BitVec 32}
  {retransaction force : Bool}

theorem Light.gLevelSet_sameBut {p : GLevelPar}
    (h : Light.gLevelSet lib l ty p deltaLast retransaction force = some l') : l.SameBut l' ty := by
  unfold Light.gLevelSet at h
  dsimp only at h
  split_ifs at h
  · obtain rfl := Option.some.inj h
    exact l.sameBut_setTrans ty _
  · obtain rfl := Option.some.inj h
    exact .refl l ty

theorem Light.gLevelSet_eq_none {p : GLevelPar} :
    Light.gLevelSet lib l ty p deltaLast retransaction force = none ↔ gLevelInvalid p := by
  unfold Light.gLevelSet
  by_cases h : gLevelInvalid p
  · rw [if_pos h]
    exact iff_of_true rfl h
  · rw [if_neg h]
    refine iff_of_false (fun hn => ?_) h
    split_ifs at hn

/-- A set command goes to its level. -/
theorem Light.gLevelSet_set {level : BitVec 16} {par : Option TransitionPar}
    (h : ¬ gLevelInvalid ⟨.set level, par⟩) :
    ∃ l', Light.gLevelSet lib l ty ⟨.set level, par⟩ deltaLast retransaction force = some l' ∧
      l.SameBut l' ty ∧
      (l'.trans ty).target = if retransaction then (l.trans ty).target else level := by
  cases retransaction with
  | true =>
    refine ⟨l, ?_, .refl l ty, rfl⟩
    unfold Light.gLevelSet
    rw [if_neg h, if_neg]
    rintro (hr | hd)
    · exact hr rfl
    · exact hd rfl
  | false =>
    refine ⟨_, (if_neg h).trans (if_pos (.inl Bool.false_ne_true)), l.sameBut_setTrans ty _, ?_⟩
    rw [Light.setTrans_trans_self, gLevelStart_target _ rfl]
    exact setWidth_signExtend_level level

end

/-! ### The pair says what the target is -/

structure Light.Paired (l : Light) : Prop where
  last : (l.save .lightness).last ≠ levelOff
  valid : isValidTransitionStep l.defTransTime = true
  target : getOnPowerUpLast (l.save .lightness) = (l.trans .lightness).target

theorem getOnPowerUpLast_set {save : SwLevelSave} (last : BitVec 16) :
    getOnPowerUpLast (setOnPowerUpLast save last) = last := by
  unfold setOnPowerUpLast
  by_cases h : last = levelOff
  · rw [if_pos h, h]
    rfl
  · rw [if_neg h]
    rfl

theorem setOnPowerUpLast_last {save : SwLevelSave} (h : save.last ≠ levelOff)
    (last : BitVec 16) : (setOnPowerUpLast save last).last ≠ levelOff := by
  unfold setOnPowerUpLast
  by_cases hl : last = levelOff
  · rw [if_pos hl]
    exact h
  · rw [if_neg hl]
    exact hl

theorem isValidTransitionStep_zero : isValidTransitionStep 0 = true := by decide

/-- An on/off command that is not refused: the step of its time is known. -/
theorem gLevelInvalid_set_par {par : Option TransitionPar} {level level' : BitVec 16} :
    gLevelInvalid ⟨.set level, par⟩ ↔ gLevelInvalid ⟨.set level', par⟩ := by
  have hset : ∀ level : BitVec 16, (LevelCmd.set level = .move 0) = False :=
    fun _ => eq_false nofun
  unfold gLevelInvalid
  rw [hset, hset]

theorem not_gLevelInvalid_set {level : BitVec 16} {transitT delay : BitVec 8}
    (h : isValidTransitionStep transitT = true) :
    ¬ gLevelInvalid ⟨.set level, some ⟨transitT, delay⟩⟩ := by
  rintro (hm | ⟨t, ht, hv⟩)
  · cases hm
  · cases ht
    exact hv h

/-- An on command goes to the last level, when there is no other default. -/
theorem getLightGLevelByOnoff_last {l : Light}
    (h : (l.save .lightness).dflt = levelOff ∨
      (l.save .lightness).dflt = (l.save .lightness).last) :
    getLightGLevelByOnoff l true .lightness false = (l.save .lightness).last := by
  refine ((if_pos rfl).trans (if_pos rfl)).trans ?_
  by_cases hd : (l.save .lightness).dflt = levelOff
  · exact if_pos (.inr hd)
  · refine (if_neg ?_).trans (h.resolve_left hd)
    rintro (hforce | hoff)
    · cases hforce
    · exact hd hoff

namespace Light

variable {l : Light}

theorem setSave_self (ty : StTrans) (save : SwLevelSave) : (l.setSave ty save).save ty = save :=
  Function.update_self _ _ _

theorem setSave_of_ne {ty ty' : StTrans} (h : ty' ≠ ty) (save : SwLevelSave) :
    (l.setSave ty save).save ty' = l.save ty' :=
  Function.update_of_ne h _ _

/-- A level command saves its target, whatever was saved before. -/
theorem paired_gLevelLastSet (hlast : (l.save .lightness).last ≠ levelOff)
    (hvalid : isValidTransitionStep l.defTransTime = true) :
    (l.gLevelLastSet .lightness).Paired := by
  refine ⟨?_, hvalid, ?_⟩
  · unfold gLevelLastSet
    rw [setSave_self]
    exact setOnPowerUpLast_last hlast _
  · unfold gLevelLastSet
    rw [setSave_self, getOnPowerUpLast_set]
    rfl

/-- The lightness decides. -/
theorem Paired.congr (h : l.Paired) {l' : Light}
    (hsave : l'.save .lightness = l.save .lightness) (hdef : l'.defTransTime = l.defTransTime)
    (htarget : (l'.trans .lightness).target = (l.trans .lightness).target) : l'.Paired := by
  refine ⟨?_, ?_, ?_⟩
  · rw [hsave]
    exact h.last
  · rw [hdef]
    exact h.valid
  · rw [hsave, htarget]
    exact h.target

theorem transitionPass_target (save : SwLevelSave) (ty : StTrans) (t : StTransition) :
    (transitionPass save ty t).1.target = t.target := by
  unfold transitionPass
  dsimp only
  split_ifs
  all_goals rfl

theorem Paired.proc (h : l.Paired) : (lightTransitionProc l).Paired :=
  h.congr rfl rfl (transitionPass_target _ _ _)

end Light

/-! ### Commands keep it -/

section

variable {lib : TransLib} {l l' : Light} {retransaction : Bool}

theorem gLevelSetAndUpdateLast_paired {ty : StTrans} {p : GLevelPar} {deltaLast : BitVec 32}
    (h : l.Paired) (hset : gLevelSetAndUpdateLast lib l ty p deltaLast retransaction = some l') :
    l'.Paired := by
  unfold gLevelSetAndUpdateLast at hset
  dsimp only at hset
  obtain ⟨l₁, h₁, rfl⟩ := Option.map_eq_some_iff.mp hset
  have same := Light.gLevelSet_sameBut h₁
  have hdef : isValidTransitionStep l₁.defTransTime = true := by
    rw [same.defTransTime]
    exact h.valid
  by_cases hty : ty = .lightness
  · subst hty
    refine Light.paired_gLevelLastSet ?_ hdef
    rw [same.save]
    exact h.last
  · refine h.congr ?_ same.defTransTime ?_
    · unfold Light.gLevelLastSet
      rw [Light.setSave_of_ne (Ne.symm hty), same.save]
    · exact congrArg StTransition.target (same.trans _ (Ne.symm hty))

/-- What an on/off command that is not refused does. -/
theorem gOnoffSet_some {onoff : BitVec 8} {par : Option TransitionPar} {forceLast : Bool}
    (hon : onoff < 2) (hpar : ¬ gLevelInvalid ⟨.set levelOff, par⟩) :
    ∃ l₁, gOnoffSet lib l onoff par forceLast retransaction =
        some (l₁.setOnPowerUpOnoff .lightness (onoff ≠ 0)) ∧ l.SameBut l₁ .lightness ∧
      (l₁.trans .lightness).target = if retransaction then (l.trans .lightness).target
        else getLightGLevelByOnoff l (onoff ≠ 0) .lightness forceLast := by
  obtain ⟨l₁, h₁, same, htarget⟩ := @Light.gLevelSet_set lib l .lightness 0 retransaction false _
    par (mt gLevelInvalid_set_par.mpr hpar)
  refine ⟨l₁, ?_, same, htarget⟩
  unfold gOnoffSet
  rw [if_pos hon]
  exact congrArg (Option.map _) h₁

theorem gOnoffSet_refused {onoff : BitVec 8} {par : Option TransitionPar} {forceLast : Bool}
    (h : ¬ (onoff < 2 ∧ ¬ gLevelInvalid ⟨.set levelOff, par⟩)) :
    gOnoffSet lib l onoff par forceLast retransaction = none := by
  unfold gOnoffSet
  by_cases hon : onoff < 2
  · rw [if_pos hon]
    have hinv : gLevelInvalid ⟨.set levelOff, par⟩ := not_not.mp fun hn => h ⟨hon, hn⟩
    exact congrArg (Option.map _) (Light.gLevelSet_eq_none.mpr (gLevelInvalid_set_par.mp hinv))
  · exact if_neg hon

/-- The pair after an on/off command says on or off, and the last level. -/
theorem setOnPowerUpOnoff_paired (h : l.Paired) {l₁ : Light} {on : Bool}
    (same : l.SameBut l₁ .lightness)
    (htarget : (l₁.trans .lightness).target = if on then (l.save .lightness).last else levelOff) :
    (l₁.setOnPowerUpOnoff .lightness on).Paired := by
  have hsave : (l₁.setOnPowerUpOnoff .lightness on).save .lightness =
      { l.save .lightness with onoff := on } := by
    unfold Light.setOnPowerUpOnoff
    rw [Light.setSave_self, same.save]
  refine ⟨?_, ?_, ?_⟩
  · rw [hsave]
    exact h.last
  · exact (congrArg isValidTransitionStep same.defTransTime).trans h.valid
  · rw [hsave]
    exact htarget.symm

/-- What is on or off by the pair is so by the target. -/
theorem Light.Paired.target_eq (h : l.Paired) :
    (l.trans .lightness).target =
      if (l.trans .lightness).target ≠ levelOff then (l.save .lightness).last else levelOff := by
  rw [← h.target]
  unfold getOnPowerUpLast
  cases (l.save .lightness).onoff with
  | false => rfl
  | true => exact (if_pos h.last).symm

end

/-! ### Restarts -/

section

variable (lib : TransLib) {l : Light}

/-- A manual on or off, with a time that is known. -/
theorem lightTransitionOnoffManual_paired (h : l.Paired) (on : Bool) {transitT : BitVec 8}
    (ht : isValidTransitionStep transitT = true) :
    (lightTransitionOnoffManual lib l on transitT).Paired ∧
    (lightTransitionOnoffManual lib l on transitT).defTransTime = l.defTransTime ∧
    ((lightTransitionOnoffManual lib l on transitT).trans .lightness).target =
      (if on then (l.save .lightness).last else levelOff) ∧
    ((lightTransitionOnoffManual lib l on transitT).save .lightness).last =
      (l.save .lightness).last := by
  have hbit : decide ((if on then 1 else 0 : BitVec 8) ≠ 0) = on := by cases on <;> decide
  have hlt : (if on then 1 else 0 : BitVec 8) < 2 := by cases on <;> decide
  have hlast : getLightGLevelByOnoff l on .lightness true =
      if on then (l.save .lightness).last else levelOff := by
    cases on with
    | false => rfl
    | true => exact ((if_pos rfl).trans (if_pos rfl)).trans (if_pos (.inl rfl))
  obtain ⟨l₁, h₁, same, htarget⟩ := @gOnoffSet_some lib l false _ (some ⟨transitT, 0⟩) true hlt
    (not_gLevelInvalid_set ht)
  rw [hbit] at h₁ htarget
  have hto := htarget.trans hlast
  have hmanual : lightTransitionOnoffManual lib l on transitT =
      l₁.setOnPowerUpOnoff .lightness on := congrArg (Option.getD · l) h₁
  rw [hmanual]
  refine ⟨setOnPowerUpOnoff_paired h same hto, same.defTransTime, hto, ?_⟩
  unfold Light.setOnPowerUpOnoff
  rw [Light.setSave_self, same.save]

/-- A restart goes to the level of the pair, and leaves the pair saying so. -/
theorem reboot_paired {save : StTrans → SwLevelSave} (hlast : (save .lightness).last ≠ levelOff)
    (hvalid : isValidTransitionStep l.defTransTime = true) (edch : Bool) :
    (LightNode.reboot lib edch l save).Paired ∧
    ((LightNode.reboot lib edch l save).trans .lightness).target =
      getOnPowerUpLast (save .lightness) := by
  have hload : (lightResSwLoad { l with save }).Paired := ⟨hlast, hvalid, rfl⟩
  obtain ⟨hoff, hdef, htarget, hkeep⟩ :=
    lightTransitionOnoffManual_paired lib hload false isValidTransitionStep_zero
  unfold LightNode.reboot lightPwmInit
  dsimp only
  by_cases hp : ((lightResSwLoad { l with save }).trans .lightness).present ≠ levelOff
  · rw [if_pos hp]
    have ht : isValidTransitionStep (if edch then l.defTransTime else 0) = true := by
      cases edch with
      | false => exact isValidTransitionStep_zero
      | true => exact hvalid
    obtain ⟨hon, -, hto, -⟩ := lightTransitionOnoffManual_paired lib hoff true ht
    refine ⟨hon, (hto.trans hkeep).trans ?_⟩
    have hpair : getOnPowerUpLast (save .lightness) ≠ levelOff := hp
    unfold getOnPowerUpLast at hpair ⊢
    cases hs : (save .lightness).onoff with
    | false => exact absurd (by rw [hs]; rfl) hpair
    | true => rfl
  · rw [if_neg hp]
    exact ⟨hoff, htarget.trans (not_not.mp hp).symm⟩

end

/-! ### Runs -/

/-- Every light is `Paired`, and so is every one that is stored. -/
structure LightNode.PairedAll (n : LightNode) : Prop where
  light : ∀ i, (n.light i).Paired
  stored : ∀ save target, n.stored = some (save, target) → ∀ i,
    (save i .lightness).last ≠ levelOff ∧ getOnPowerUpLast (save i .lightness) = target i

namespace LightNode

variable {lib : TransLib} {n : LightNode}

theorem PairedAll.changed (h : n.PairedAll) {idx : ℕ} {clock : BitVec 32} {l : Option Light}
    (hl : ∀ l' ∈ l, l'.Paired) : (n.changed idx clock l).PairedAll := by
  cases l with
  | none => exact h
  | some l =>
    refine ⟨fun i => ?_, h.stored⟩
    by_cases hi : i = idx
    · subst hi
      exact (congrArg Light.Paired (Function.update_self i l n.light)).mpr (hl l rfl)
    · exact (congrArg Light.Paired (Function.update_of_ne hi l n.light)).mpr (h.light i)

theorem PairedAll.saveProc (h : n.PairedAll) (clock : BitVec 32) :
    (n.lightParSaveProc clock).PairedAll := by
  unfold lightParSaveProc
  split_ifs
  · refine ⟨h.light, fun save target hs i => ?_⟩
    cases hs
    exact ⟨(h.light i).last, (h.light i).target⟩
  · exact h

/-- An on/off command of a good run leaves the pair saying what the target is. -/
theorem gOnoffSet_paired (h : n.PairedAll) {idx : ℕ} {onoff : BitVec 8}
    {par : Option TransitionPar} {retransaction : Bool} {clock : BitVec 32}
    (hs : n.Saves (.onoff idx onoff par retransaction clock)) :
    ∀ l' ∈ gOnoffSet lib (n.light idx) onoff par false retransaction, l'.Paired := by
  intro l' hl'
  by_cases ha : onoff < 2 ∧ ¬ gLevelInvalid ⟨.set levelOff, par⟩
  · obtain ⟨l₁, h₁, same, htarget⟩ := @gOnoffSet_some lib (n.light idx) retransaction onoff par
      false ha.1 ha.2
    obtain rfl := Option.some.inj (h₁.symm.trans hl')
    have hgood := hs ha.1 ha.2
    refine setOnPowerUpOnoff_paired (h.light idx) same (htarget.trans ?_)
    cases retransaction with
    | true =>
      -- nothing is set: the pair is to say what it said
      have hiff : onoff ≠ 0 ↔ ((n.light idx).trans .lightness).target ≠ levelOff := hgood
      refine (h.light idx).target_eq.trans ?_
      exact if_congr (hiff.symm.trans decide_eq_true_iff.symm) rfl rfl
    | false =>
      -- on goes to the default, when there is one
      by_cases h0 : onoff ≠ 0
      · rw [decide_eq_true h0]
        exact getLightGLevelByOnoff_last (hgood h0)
      · rw [decide_eq_false h0]
        rfl
  · rw [gOnoffSet_refused ha] at hl'
    cases hl'

theorem PairedAll.step (h : n.PairedAll) {e : LightEvent} (hs : n.Saves e) :
    (n.step lib e).PairedAll := by
  cases e with
  | onoff idx onoff par retransaction clock => exact h.changed (gOnoffSet_paired h hs)
  | level idx ty p retransaction clock =>
    have hdelta : PairedAll { n with deltaLast := gDeltaLast p.cmd n.deltaLast } :=
      ⟨h.light, h.stored⟩
    exact hdelta.changed fun _ hl => gLevelSetAndUpdateLast_paired (h.light idx) hl
  | lightness idx lightness par retransaction clock =>
    exact h.changed fun _ hl => gLevelSetAndUpdateLast_paired (h.light idx) hl
  | pass => exact ⟨fun i => (h.light i).proc, h.stored⟩
  | saveProc clock => exact h.saveProc clock

theorem Starts.pairedAll (h : n.Starts lib) : n.PairedAll := by
  obtain ⟨hnone, hall⟩ := h
  refine ⟨fun i => ?_, fun save target hs => ?_⟩
  · obtain ⟨edch, l, hlast, hvalid, hl⟩ := hall i
    rw [hl]
    exact (reboot_paired lib hlast hvalid edch).1
  · rw [hnone] at hs
    cases hs

theorem PairedAll.restores (h : n.PairedAll) : n.Restores lib := by
  intro save target hs i edch
  obtain ⟨hlast, hpair⟩ := h.stored save target hs i
  exact (reboot_paired lib hlast (h.light i).valid edch).2.trans hpair

end LightNode

def lightSys (lib : TransLib) : Run.Sys LightNode LightEvent :=
  Sys.det (LightNode.Starts lib) (LightNode.step lib)

theorem lightNode_restores {lib : TransLib} {n : LightNode}
    (h : ((lightSys lib).restrict LightNode.Saves).Reach n) : n.Restores lib := by
  have hpaired : n.PairedAll := by
    refine h.inv (P := LightNode.PairedAll) (fun s h0 => h0.pairedAll) ?_
    intro s e t hs hst
    obtain ⟨hgood, rfl⟩ := hst
    exact hs.step hgood
  exact hpaired.restores

/-! ### A default lightness that is lost -/

/-- A light that is on, with its last level and a default lightness. -/
def litLight (last dflt : BitVec 16) : Light where
  save _ := ⟨last, dflt, -32767, 32767, true⟩
  trans _ := ⟨0, 0, 0, last, 0, last⟩
  defTransTime := 0

def litNode (last dflt : BitVec 16) : LightNode where
  light _ := LightNode.reboot specTransLib false (litLight last dflt) (litLight last dflt).save
  deltaLast := 0
  tickLightSave := 0
  stored := none

theorem litNode_starts {last : BitVec 16} (h : last ≠ levelOff) (dflt : BitVec 16) :
    (litNode last dflt).Starts specTransLib :=
  ⟨rfl, fun _ => ⟨false, litLight last dflt, h, isValidTransitionStep_zero, rfl⟩⟩

/-- On, after off, when the lights were saved in between. -/
def offOnSave : List LightEvent :=
  [.onoff 0 0 none false 1, .saveProc 0x10000001, .onoff 0 1 (some ⟨5, 2⟩) false 0x10000001,
    .pass, .saveProc 0x20000001]

theorem lightNode_restores_offOn :
    (offOnSave.foldl (LightNode.step specTransLib) (litNode 100 levelOff)).Restores
      specTransLib := by
  have h0 : ((lightSys specTransLib).restrict LightNode.Saves).Reach (litNode 100 levelOff) :=
    .init (litNode_starts (by decide) levelOff)
  exact lightNode_restores (Sys.reach_foldl_restrict h0 (by decide +kernel))

/-- The light goes to its default lightness, and the power-up to the last one. -/
theorem lightNode_default_lost :
    ¬ ∀ (lib : TransLib) (n : LightNode), (lightSys lib).Reach n → n.Restores lib := by
  intro h
  have h0 : (lightSys specTransLib).Reach (litNode 100 200) :=
    .init (litNode_starts (by decide) 200)
  have hreach := Sys.reach_foldl h0 offOnSave
  have hlost := h _ _ hreach _ _ rfl 0 false
  revert hlost
  decide +kernel

end PirMesh

import PirMesh.Library.Triple
import PirMesh.Sensor.Motion

/-! # Sensor — One wake

The sensor side of `main` on a joined node: detection, the light sensor, the
decision to sleep at once, the reports to the box, and the bookkeeping before
sleep.  The RAM is lost in deep sleep; only the analog registers are retained.

A predicate on the flag register, the flags in RAM and the payloads sent
(`View`) is kept by everything that touches none of them.  Detection changes the
flags but never the old motion state, in RAM or in the register
(`detect_spec`); only the bookkeeping before sleep does (`settleMotion_spec`). -/

namespace PirMesh

section

variable (inp : Inputs)

/-! ### Light and power -/

def lightSetLuxReg (lux : BitVec 32) : Sensor Unit := do
  analogWrite luxSaveReg0 ((lux >>> 8).setWidth 8)
  analogWrite luxSaveReg1 (lux.setWidth 8)

def lightgetLuxReg : Sensor (BitVec 32) := do
  let hi ← analogRead luxSaveReg0
  let lo ← analogRead luxSaveReg1
  return (hi ++ lo).setWidth 32

/-- The light changed by `threshold` or more: it is the new old one, and retained. -/
def luxChanged (luxNew : BitVec 32) : Sensor Bool := do
  modify fun d => { d with luxOld := luxNew }
  lightSetLuxReg luxNew
  return true

def luxDetect (threshold : BitVec 32) : Sensor Bool := do
  let luxOld ← lightgetLuxReg
  modify fun d => { d with luxOld := luxOld }
  if luxOld ≠ inp.lux then
    if luxOld ≥ inp.lux then
      if luxOld - inp.lux ≥ threshold then luxChanged inp.lux else return false
    else if inp.lux - luxOld ≥ threshold then luxChanged inp.lux else return false
  else return false

/-- The register is not used: the saved power is always zero. -/
def getPowerSaveReg : Nat := 0

def powerUpdate : Sensor Reg := do
  let powerPercent := (inp.power.setWidth 8).toNat
  let powerSave := getPowerSaveReg
  if powerSave > powerPercent ∧ powerSave - powerPercent ≥ 5 then return .ofNat 8 powerPercent
  else if powerSave < powerPercent ∧ powerPercent - powerSave ≥ 5 then
    return .ofNat 8 (if powerPercent > 100 then 100 else powerPercent)
  else return .ofNat 8 powerSave

/-! ### Reports -/

def meshTxCmd2normal (par : List Reg) : Sensor Unit :=
  modify fun d => { d with sent := d.sent ++ [par] }

def pirSendData (motionSendState : Bool) (power : Reg) : Sensor Unit :=
  meshTxCmd2normal [0x0c, (BitVec.ofBool motionSendState).setWidth 8, power]

def lightSendData (power : Reg) : Sensor Unit := do
  let d ← get
  meshTxCmd2normal [0x0d, d.luxOld.setWidth 8, (d.luxOld >>> 8).setWidth 8, power]

def sensorSendData (pirMotionFlag pirMotionFlagOld luxSendFlag : Bool) : Sensor Unit := do
  let powerRead ← powerUpdate inp
  (if pirMotionFlagOld ≠ pirMotionFlag then pirSendData pirMotionFlag powerRead else pure ())
  (if luxSendFlag then lightSendData powerRead else pure ())

/-! ### Sleep -/

/-- Deep sleep for at most `ms`.  Returns whether the node sleeps: the call comes back when a
wake-up pin is active. -/
def cpuSleepWakeup (ms : Nat) : Sensor Bool := modifyGet fun d =>
  match d.refused with
  | 0 => (true, { d with timer := ms })
  | n + 1 => (false, { d with refused := n })

def pirTime : Nat := 30

/-- The sleep of a node that looks again whether the motion is over. -/
def pirSleepTime : Nat :=
  if pirTime / 60 < 1 then 10000
  else if pirTime / 60 < 2 then 30000
  else if pirTime / 60 < 3 then 60000
  else 120000

def sleepBeforSend (motionFlag motionFlagOld luxFlag : Bool) : Sensor Bool :=
  if motionFlagOld = motionFlag ∧ ¬ luxFlag then
    if motionFlag then cpuSleepWakeup pirSleepTime else cpuSleepWakeup 120000
  else return false

/-- `rdPir.flag.motionFlagOld = rdPir.flag.motionFlag`, when they differ. -/
def PirFlag.settle (f : PirFlag) : PirFlag :=
  if f.motionFlagOld ≠ f.motionFlag then { f with motionFlagOld := f.motionFlag } else f

/-- New motion: the pin flags start over, and so does the hold time. -/
def settleOneTime : Sensor Unit := do
  let d ← get
  if d.rdPir.flag.motionOneTime then do
    setFlag fun f => { f with motionOneTime := false, pirLowFlag := false, pirHighFlag := false }
    setFlag .settle
    saveRdPirFlag
    startMotionTime inp
  else return

/-- The motion state is the old one from now on. -/
def settleOld : Sensor Unit := do
  let d ← get
  if d.rdPir.flag.motionFlagOld ≠ d.rdPir.flag.motionFlag then do
    setFlag .settle
    saveRdPirFlag
  else return

/-- The bookkeeping of `sleepAfterSend`. -/
def settleMotion : Sensor Unit := do
  settleOneTime inp
  settleOld

def sleepAfterSend : Sensor Bool := do
  settleMotion inp
  cpuSleepWakeup pirSleepTime

/-! ### The wake -/

/-- Returns `resetFlag`: the button is pressed. -/
def rdFactoryReset : Sensor Bool := do
  if inp.button then return false
  else do
    let t ← sys32kTickS inp
    setTimeOut t
    saveRdPirTimeOut
    return true

def detectMotion : Sensor Unit := do
  pirDCInit
  pirMotionCOntrol inp 45
  let _ ← pirDetect inp
  let lux ← luxDetect inp 30
  modify fun d => { d with sendLuxFlag := lux }

/-- From the reset to the decision what to report; returns `resetFlag`. -/
def detect : Sensor Bool := do
  let hi ← gpioRead inp .high
  let lo ← gpioRead inp .low
  modify fun d => { d with rdPir := { d.rdPir with pirHighState := hi, pirLowState := lo } }
  let resetFlag ← rdFactoryReset inp
  (if resetFlag then pure () else detectMotion inp)
  return resetFlag

/-- The main loop of a joined node, with the turns left. -/
def sleepLoop : Nat → Sensor Bool
  | 0 => return false
  | n + 1 => do
    let asleep ← sleepAfterSend inp
    if asleep then return true else sleepLoop n

/-- The reports and the sleep of a provisioned node; returns whether it sleeps. -/
def report (resetFlag : Bool) (d : Dev) : Sensor Bool := do
  (if resetFlag then pure ()
    else sensorSendData inp d.rdPir.flag.motionFlag d.rdPir.flag.motionFlagOld d.sendLuxFlag)
  sleepAfterSend inp

/-- `main` behind `sleepBeforSend`. -/
def mainAwake (resetFlag : Bool) (d : Dev) : Sensor Bool := do
  let asleep ← (if inp.provisioned then report inp resetFlag d else pure false)
  if asleep then return true
  else do
    let d ← get
    sleepLoop inp (d.refused + 1)

/-- `main` behind the detection, which left the state `d`. -/
def mainDetected (resetFlag : Bool) (d : Dev) : Sensor Bool := do
  let asleep ← sleepBeforSend d.rdPir.flag.motionFlag d.rdPir.flag.motionFlagOld d.sendLuxFlag
  if asleep then return true else mainAwake inp resetFlag d

/-- `main`.  Returns whether the node sleeps in the end. -/
def sensorMain : Sensor Bool := do
  let resetFlag ← detect inp
  let d ← get
  mainDetected inp resetFlag d

/-- The state a wake starts with. -/
def wakeUp (analog : Nat → Reg) : Dev where
  analog := analog
  rdPir := ⟨false, false, .ofData 0, 0⟩
  motionTimeLine := 0
  luxOld := 0
  sendLuxFlag := false
  now := 0
  sent := []
  refused := inp.refused
  timer := 0

end

/-! ### What a wake does with the flags -/

open StateProg

/-- A predicate on the flag register, the flags in RAM and the payloads. -/
def View (J : Reg → PirFlag → List (List Reg) → Prop) (d : Dev) : Prop :=
  J (d.analog pirFlagSaveReg) d.rdPir.flag d.sent

/-- The old motion state a byte of the flag register holds. -/
def oldOf (b : Reg) : Bool := (PirFlag.ofData b).motionFlagOld

/-- Nothing is sent, and the retained old motion state is `o`. -/
def Retained (o : Bool) : Dev → Prop := View fun r _ s => oldOf r = o ∧ s = []

/-- The same, with the flags loaded into RAM. -/
def Loaded (o : Bool) : Dev → Prop := View fun r f s => oldOf r = o ∧ f.motionFlagOld = o ∧ s = []

variable {J : Reg → PirFlag → List (List Reg) → Prop} {inp : Inputs} {o : Bool}

/-! ### What leaves every view as it is -/

theorem keeps_sys32kTickS : Keeps (View J) (sys32kTickS inp) := fun _ h => h

theorem keeps_sys32kTick15S : Keeps (View J) (sys32kTick15S inp) := fun _ h => h

theorem keeps_gpioRead (pin : PirPin) : Keeps (View J) (gpioRead inp pin) := fun _ h => h

theorem keeps_analogRead (reg : Nat) : Keeps (View J) (analogRead reg) := fun _ h => h

theorem keeps_analogWrite {reg : Nat} (v : Reg) (h : reg ≠ pirFlagSaveReg) :
    Keeps (View J) (analogWrite reg v) := fun d hd => by
  show J (Function.update d.analog reg v pirFlagSaveReg) _ _
  rwa [Function.update_of_ne h.symm]

theorem keeps_setTimeOut (t : BitVec 32) : Keeps (View J) (setTimeOut t) := fun _ h => h

theorem keeps_saveRdPirTimeOut : Keeps (View J) saveRdPirTimeOut :=
  .bind .get fun _ => .bind (keeps_analogWrite _ (by decide)) fun _ =>
    keeps_analogWrite _ (by decide)

theorem keeps_startMotionTime : Keeps (View J) (startMotionTime inp) :=
  .bind keeps_sys32kTick15S fun _ => .bind (.update fun _ h => h) fun _ =>
    keeps_analogWrite _ (by decide)

theorem keeps_luxChanged (lux : BitVec 32) : Keeps (View J) (luxChanged lux) :=
  .bind (.update fun _ h => h) fun _ => .bind (.bind (keeps_analogWrite _ (by decide)) fun _ =>
    keeps_analogWrite _ (by decide)) fun _ => .pure _

theorem keeps_luxDetect (threshold : BitVec 32) : Keeps (View J) (luxDetect inp threshold) := by
  refine .bind (.bind (keeps_analogRead _) fun _ => .bind (keeps_analogRead _) fun _ => .pure _)
    fun luxOld => .bind (.update fun _ h => h) fun _ => ?_
  exact .ite (.ite (.ite (keeps_luxChanged _) (.pure _))
    (.ite (keeps_luxChanged _) (.pure _))) (.pure _)

theorem keeps_cpuSleepWakeup (ms : Nat) : Keeps (View J) (cpuSleepWakeup ms) := by
  refine .step fun d h => ?_
  cases d.refused <;> exact h

theorem keeps_sleepBeforSend (motion old lux : Bool) :
    Keeps (View J) (sleepBeforSend motion old lux) :=
  .ite (.ite (keeps_cpuSleepWakeup _) (keeps_cpuSleepWakeup _)) (.pure _)

/-! ### Detection -/

theorem keeps_setFlag {g : PirFlag → PirFlag} (hg : ∀ f, (g f).motionFlagOld = f.motionFlagOld) :
    Keeps (Loaded o) (setFlag g) := fun d h => ⟨h.1, (hg d.rdPir.flag).trans h.2.1, h.2.2⟩

/-- Saving the flags saves the old motion state that was loaded. -/
theorem keeps_saveRdPirFlag : Keeps (Loaded o) saveRdPirFlag := by
  intro d h
  refine ⟨?_, h.2⟩
  show oldOf (Function.update d.analog pirFlagSaveReg d.rdPir.flag.data pirFlagSaveReg) = o
  rw [Function.update_self, oldOf, PirFlag.ofData_data]
  exact h.2.1

theorem pirDCInit_spec : Triple (Retained o) pirDCInit fun _ => Loaded o :=
  fun _ h => ⟨h.1, h.1, h.2⟩

theorem keeps_motionTimeOver : Keeps (Loaded o) (motionTimeOver inp) :=
  .bind (keeps_setFlag fun _ => rfl) fun _ => keeps_startMotionTime

theorem keeps_pirMotionCOntrol (pirTime : Reg) :
    Keeps (Loaded o) (pirMotionCOntrol inp pirTime) := by
  refine .bind (keeps_analogRead _) fun line => .bind (.update fun _ h => h) fun _ =>
    .bind .get fun d => ?_
  refine .ite (.bind keeps_sys32kTick15S fun t => ?_) (.pure _)
  exact .ite (.bind keeps_sys32kTick15S fun _ => .ite keeps_motionTimeOver (.pure _))
    (.bind keeps_sys32kTick15S fun _ => .ite keeps_motionTimeOver (.pure _))

theorem keeps_pirFlagsOver : Keeps (Loaded o) (pirFlagsOver inp) :=
  .bind keeps_sys32kTickS fun _ => .bind (keeps_setTimeOut _) fun _ => .bind keeps_saveRdPirTimeOut
    fun _ => .bind (keeps_setFlag fun _ => rfl) fun _ => keeps_saveRdPirFlag

theorem keeps_pirTimeout : Keeps (Loaded o) (pirTimeout inp) := by
  refine .bind .get fun d => .bind keeps_sys32kTickS fun t => ?_
  exact .ite (.bind keeps_sys32kTickS fun _ => .ite keeps_pirFlagsOver (.pure _))
    (.bind keeps_sys32kTickS fun _ => .ite keeps_pirFlagsOver (.pure _))

theorem setPin_old (pin : PirPin) (b : Bool) (f : PirFlag) :
    (f.setPin pin b).motionFlagOld = f.motionFlagOld := by cases pin <;> rfl

/-- The induction is on the reads left. -/
theorem keeps_pirCheckPin (pin : PirPin) (i : Nat) :
    ∀ n, Keeps (Loaded o) (pirCheckPin inp pin i n) := by
  induction i with
  | zero => exact fun _ => .pure _
  | succ i ih =>
    intro n
    refine .bind (keeps_gpioRead _) fun active => .ite (.ite ?_ (ih _)) ?_
    · exact .bind (keeps_setFlag (setPin_old pin true)) fun _ => .bind keeps_sys32kTickS fun _ =>
        .bind (keeps_setTimeOut _) fun _ => .bind keeps_saveRdPirFlag fun _ =>
          keeps_saveRdPirTimeOut
    · exact .bind (keeps_setFlag (setPin_old pin false)) fun _ => keeps_saveRdPirFlag

theorem keeps_pirMotion : Keeps (Loaded o) pirMotion :=
  .bind .get fun _ => .bind (.ite (keeps_setFlag fun _ => rfl) (.pure _)) fun _ =>
    .bind .get fun _ => .pure _

/-- **Detection leaves the old motion state alone.** -/
theorem keeps_pirDetect : Keeps (Loaded o) (pirDetect inp) :=
  .bind keeps_pirTimeout fun _ => .bind .get fun _ =>
    .bind (.ite (keeps_pirCheckPin _ _ _) (.pure _)) fun _ => .bind .get fun _ =>
      .bind (.ite (keeps_pirCheckPin _ _ _) (.pure _)) fun _ => keeps_pirMotion

theorem detectMotion_spec : Triple (Retained o) (detectMotion inp) fun _ => Loaded o :=
  .bind pirDCInit_spec fun _ => .bind (keeps_pirMotionCOntrol _) fun _ =>
    .bind keeps_pirDetect fun _ =>
    .bind (keeps_luxDetect _) fun _ => Keeps.update fun _ h => h

theorem keeps_rdFactoryReset : Keeps (View J) (rdFactoryReset inp) :=
  .ite (.pure _) (.bind keeps_sys32kTickS fun _ => .bind (keeps_setTimeOut _) fun _ =>
    .bind keeps_saveRdPirTimeOut fun _ => .pure _)

/-- The flags are as a wake starts with, and the retained old motion state is `o`. -/
def Unloaded (o : Bool) : Dev → Prop := View fun r f s => oldOf r = o ∧ f = .ofData 0 ∧ s = []

/-- The state behind detection: on a button wake nothing was loaded. -/
def Detected (o resetFlag : Bool) (d : Dev) : Prop := if resetFlag then Unloaded o d else Loaded o d

theorem detect_spec (inp : Inputs) : Triple (Unloaded o) (detect inp) (Detected o) := by
  refine .bind (keeps_gpioRead _) fun hi => .bind (keeps_gpioRead _) fun lo =>
    .bind (Keeps.update fun _ h => h) fun _ => .bind keeps_rdFactoryReset fun resetFlag => ?_
  cases resetFlag with
  | true => exact fun _ h => h
  | false => exact .bind (detectMotion_spec.pre fun _ h => ⟨h.1, h.2.2⟩) fun _ _ h => h

/-! ### Reports -/

/-- The motion states a list of payloads reports. -/
def motionReports (sent : List (List Reg)) : List Bool :=
  sent.filterMap fun par => match par with
    | [0x0c, state, _] => some (state ≠ 0)
    | _ => none

theorem keeps_powerUpdate : Keeps (View J) (powerUpdate inp) := by
  show Keeps (View J) (if _ then _ else if _ then _ else _)
  exact .ite (.pure _) (.ite (.pure _) (.pure _))

theorem pirSendData_spec (motion : Bool) (power : Reg) :
    Triple (View fun r f s => J r f s ∧ s = []) (pirSendData motion power)
      fun _ => View fun r f s => J r f [] ∧ motionReports s = [motion] := by
  rintro d ⟨hj, hs⟩
  refine ⟨hs ▸ hj, ?_⟩
  show motionReports (d.sent ++ [_]) = [motion]
  rw [hs]
  cases motion <;> rfl

/-- A light report is no motion report. -/
theorem lightSendData_spec (power : Reg) (l : List Bool) :
    Keeps (View fun r f s => J r f [] ∧ motionReports s = l) (lightSendData power) := by
  rintro d ⟨hj, hs⟩
  refine ⟨hj, ?_⟩
  show motionReports (d.sent ++ [_]) = l
  rw [motionReports, List.filterMap_append]
  simpa [motionReports] using hs

/-- **A motion report goes out iff the state differs from the old one.** -/
theorem sensorSendData_spec (motion old lux : Bool) :
    Triple (View fun r f s => J r f s ∧ s = []) (sensorSendData inp motion old lux) fun _ =>
      View fun r f s => J r f [] ∧ motionReports s = if old ≠ motion then [motion] else [] := by
  refine .bind keeps_powerUpdate fun power => .bind (Q := fun _ => View fun r f s =>
    J r f [] ∧ motionReports s = if old ≠ motion then [motion] else []) ?_ fun _ =>
      Keeps.ite (lightSendData_spec _ _) (.pure _)
  by_cases h : old ≠ motion
  · rw [if_pos h, if_pos h]
    exact pirSendData_spec motion power
  · rw [if_neg h, if_neg h]
    rintro d ⟨hj, hs⟩
    exact ⟨hs ▸ hj, by rw [show (Pure.pure () : Sensor Unit).run d = ((), d) from rfl, hs]; rfl⟩

/-! ### Bookkeeping -/

/-- Flags with nothing left for `sleepAfterSend` to do. -/
structure Settled (m : Bool) (f : PirFlag) : Prop where
  motion : f.motionFlag = m
  old : f.motionFlagOld = m
  oneTime : f.motionOneTime = false

variable {m : Bool}

theorem settled_settle {f : PirFlag} (h : f.motionFlag = m) (h1 : f.motionOneTime = false) :
    Settled m f.settle := by
  unfold PirFlag.settle
  by_cases hne : f.motionFlagOld ≠ f.motionFlag
  · rw [if_pos hne]
    exact ⟨h, h, h1⟩
  · rw [if_neg hne]
    exact ⟨h, (Decidable.not_not.mp hne).trans h, h1⟩

/-- The state that `sleepAfterSend` leaves: motion state `m` is the old one, retained. -/
def Told (m : Bool) (S : List (List Reg) → Prop) : Dev → Prop :=
  View fun r f s => Settled m f ∧ oldOf r = m ∧ S s

variable {S : List (List Reg) → Prop}

theorem settle_spec : Triple (View fun _ f s => (f.motionFlag = m ∧ f.motionOneTime = false) ∧ S s)
    (setFlag .settle) fun _ => View fun _ f s => Settled m f ∧ S s :=
  fun _ h => ⟨settled_settle h.1.1 h.1.2, h.2⟩

theorem saveRdPirFlag_spec :
    Triple (View fun _ f s => Settled m f ∧ S s) saveRdPirFlag fun _ => Told m S := by
  intro d h
  refine ⟨h.1, ?_, h.2⟩
  show oldOf (Function.update d.analog pirFlagSaveReg d.rdPir.flag.data pirFlagSaveReg) = m
  rw [Function.update_self, oldOf, PirFlag.ofData_data]
  exact h.1.old

theorem settleOneTime_spec :
    Triple (View fun r f s => (oldOf r = f.motionFlagOld ∧ f.motionFlag = m) ∧ S s)
      (settleOneTime inp)
      fun _ => View fun r f s => (oldOf r = f.motionFlagOld ∧ f.motionFlag = m ∧
        f.motionOneTime = false) ∧ S s := by
  have hnew : Triple (View fun _ f s => f.motionFlag = m ∧ S s) (do
      setFlag fun f => { f with motionOneTime := false, pirLowFlag := false, pirHighFlag := false }
      setFlag .settle
      saveRdPirFlag
      startMotionTime inp) fun _ => Told m S :=
    .bind (Q := fun _ => View fun _ f s => (f.motionFlag = m ∧ f.motionOneTime = false) ∧ S s)
      (fun _ h => ⟨⟨h.1, rfl⟩, h.2⟩) fun _ => .bind settle_spec fun _ => .bind saveRdPirFlag_spec
        fun _ => keeps_startMotionTime
  intro d h
  show View _ ((if d.rdPir.flag.motionOneTime then _ else _ : Sensor Unit).run d).2
  by_cases h1 : d.rdPir.flag.motionOneTime = true
  · rw [if_pos h1]
    have htold := hnew d ⟨h.1.2, h.2⟩
    exact ⟨⟨htold.2.1.trans htold.1.old.symm, htold.1.motion, htold.1.oneTime⟩, htold.2.2⟩
  · rw [if_neg h1]
    exact ⟨⟨h.1.1, h.1.2, Bool.eq_false_iff.mpr h1⟩, h.2⟩

theorem settleOld_spec :
    Triple (View fun r f s => (oldOf r = f.motionFlagOld ∧ f.motionFlag = m ∧
      f.motionOneTime = false) ∧ S s) settleOld fun _ => Told m S := by
  have hnew : Triple (View fun _ f s => (f.motionFlag = m ∧ f.motionOneTime = false) ∧ S s) (do
      setFlag .settle
      saveRdPirFlag) fun _ => Told m S := .bind settle_spec fun _ => saveRdPirFlag_spec
  intro d h
  show Told m S ((if d.rdPir.flag.motionFlagOld ≠ d.rdPir.flag.motionFlag then _ else _ :
    Sensor Unit).run d).2
  by_cases hne : d.rdPir.flag.motionFlagOld ≠ d.rdPir.flag.motionFlag
  · rw [if_pos hne]
    exact hnew d ⟨h.1.2, h.2⟩
  · rw [if_neg hne]
    have hold : d.rdPir.flag.motionFlagOld = m := (Decidable.not_not.mp hne).trans h.1.2.1
    exact ⟨⟨h.1.2.1, hold, h.1.2.2⟩, h.1.1.trans hold, h.2⟩

/-- **The bookkeeping makes the motion state the old one**, in RAM and in the register. -/
theorem settleMotion_spec :
    Triple (View fun r f s => (oldOf r = f.motionFlagOld ∧ f.motionFlag = m) ∧ S s)
      (settleMotion inp)
      fun _ => Told m S :=
  .bind settleOneTime_spec fun _ => settleOld_spec

/-- With settled flags it does nothing. -/
theorem settleMotion_idle {d : Dev} (h : Settled m d.rdPir.flag) :
    (settleMotion inp).run d = ((), d) := by
  have h1 : ¬ d.rdPir.flag.motionOneTime = true := by simp [h.oneTime]
  have h2 : ¬ d.rdPir.flag.motionFlagOld ≠ d.rdPir.flag.motionFlag := by simp [h.old, h.motion]
  have hone : (settleOneTime inp).run d = ((), d) := by
    show (if d.rdPir.flag.motionOneTime then _ else _ : Sensor Unit).run d = _
    rw [if_neg h1]
    rfl
  have hold : settleOld.run d = ((), d) := by
    show (if d.rdPir.flag.motionFlagOld ≠ d.rdPir.flag.motionFlag then _
      else _ : Sensor Unit).run d = _
    rw [if_neg h2]
    rfl
  show settleOld.run ((settleOneTime inp).run d).2 = _
  rw [hone, hold]

theorem keeps_settleMotion (hJ : ∀ r f s, J r f s → Settled m f) :
    Keeps (View J) (settleMotion inp) := by
  intro d h
  rw [settleMotion_idle (hJ _ _ _ h)]
  exact h

end PirMesh

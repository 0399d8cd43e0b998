import Mathlib.Logic.Function.Basic

/-! # Sensor — Motion detection

`RD_pir_DC_Control.c`: the retained analog registers, `rdPir`, the hold time of
the motion flag (`pirMotionCOntrol`) and the detection (`pirDetect`), as programs
on the state of one wake.  What the hardware reads is an input: at instant `n`,
counted in reads, the 32 kHz timer and the pins have any value. -/

namespace PirMesh

abbrev Reg := BitVec 8

/-! ### Registers and variables -/

/-- `DEEP_ANA_REG0`, `DEEP_ANA_REG6` to `DEEP_ANA_REG10` -/
def motionTimeReg : Nat := 0x3a

def pirFlagSaveReg : Nat := 0x35

def pirTimeoutReg0 : Nat := 0x36

def pirTimeoutReg1 : Nat := 0x37

def luxSaveReg0 : Nat := 0x38

def luxSaveReg1 : Nat := 0x39

def pirDcFlagTimeout : BitVec 32 := 5

def pirTheshold : Nat := 90

/-- `pirFlagTypeDef`, from its lowest bit. -/
structure PirFlag where
  store : BitVec 3
  pirHighFlag : Bool
  pirLowFlag : Bool
  motionOneTime : Bool
  motionFlagOld : Bool
  motionFlag : Bool
  deriving DecidableEq, Repr

namespace PirFlag

/-- The byte the bit fields share. -/
def data (f : PirFlag) : Reg :=
  BitVec.ofBool f.motionFlag ++ BitVec.ofBool f.motionFlagOld ++ BitVec.ofBool f.motionOneTime ++
    BitVec.ofBool f.pirLowFlag ++ BitVec.ofBool f.pirHighFlag ++ f.store

def ofData (b : Reg) : PirFlag where
  store := b.extractLsb' 0 3
  pirHighFlag := b.getLsbD 3
  pirLowFlag := b.getLsbD 4
  motionOneTime := b.getLsbD 5
  motionFlagOld := b.getLsbD 6
  motionFlag := b.getLsbD 7

@[simp] theorem ofData_data (f : PirFlag) : ofData f.data = f := by
  obtain ⟨store, hi, lo, one, old, motion⟩ := f
  revert store hi lo one old motion
  decide

end PirFlag

inductive PirPin
  | high
  | low
  deriving DecidableEq, Repr

/-- `rdPir` -/
structure RdPir where
  pirHighState : Bool
  pirLowState : Bool
  flag : PirFlag
  timeOut : BitVec 32
  deriving DecidableEq, Repr

/-- What a wake of a joined node meets. -/
structure Inputs where
  /-- `get_32k_tick()` at each instant. -/
  tick : Nat → BitVec 32
  pin : PirPin → Nat → Bool
  /-- The light the sensor measures, in lux. -/
  lux : BitVec 32
  /-- `RD_power_read()` -/
  power : BitVec 32
  /-- `btnStateRead`, low while the button is pressed. -/
  button : Bool
  /-- `is_provision_success()` -/
  provisioned : Bool
  /-- How many sleeps are refused because a wake-up pin is active. -/
  refused : Nat

/-- The state of one wake. -/
structure Dev where
  analog : Nat → Reg
  rdPir : RdPir
  motionTimeLine : Reg
  luxOld : BitVec 32
  sendLuxFlag : Bool
  /-- Hardware reads so far. -/
  now : Nat
  /-- Payloads handed to `mesh_tx_cmd2normal` with opcode `0xe5` for the box. -/
  sent : List (List Reg)
  refused : Nat
  /-- The wake-up timer of the sleep, in milliseconds. -/
  timer : Nat

abbrev Sensor := StateM Dev

/-! ### Hardware -/

section

variable (inp : Inputs)

def get32kTick : Sensor (BitVec 32) :=
  modifyGet fun d => (inp.tick d.now, { d with now := d.now + 1 })

/-- `SYS_32K_TICK_S` -/
def sys32kTickS : Sensor (BitVec 32) := do
  let t ← get32kTick inp
  return t / 32767

/-- `SYS_32K_TICK_15S` -/
def sys32kTick15S : Sensor (BitVec 32) := do
  let t ← get32kTick inp
  return t / (32767 * 15)

def gpioRead (pin : PirPin) : Sensor Bool :=
  modifyGet fun d => (inp.pin pin d.now, { d with now := d.now + 1 })

def analogRead (reg : Nat) : Sensor Reg := do
  let d ← get
  return d.analog reg

def analogWrite (reg : Nat) (v : Reg) : Sensor Unit :=
  modify fun d => { d with analog := Function.update d.analog reg v }

end

/-! ### The retained registers -/

def pirSaveTimeoutReg (data : BitVec 16) : Sensor Unit := do
  analogWrite pirTimeoutReg0 ((data >>> 8).setWidth 8)
  analogWrite pirTimeoutReg1 (data.setWidth 8)

def pirGetTimeoutReg : Sensor (BitVec 16) := do
  let hi ← analogRead pirTimeoutReg0
  let lo ← analogRead pirTimeoutReg1
  return hi ++ lo

def pirSaveFlagReg (data : Reg) : Sensor Unit := analogWrite pirFlagSaveReg data

def pirGetFlagReg : Sensor Reg := analogRead pirFlagSaveReg

def getMotionTime : Sensor Reg := analogRead motionTimeReg

def setMotionTime (time : Reg) : Sensor Unit := analogWrite motionTimeReg time

/-! ### Assignments to `rdPir` -/

def setFlag (g : PirFlag → PirFlag) : Sensor Unit :=
  modify fun d => { d with rdPir := { d.rdPir with flag := g d.rdPir.flag } }

def setTimeOut (t : BitVec 32) : Sensor Unit :=
  modify fun d => { d with rdPir := { d.rdPir with timeOut := t } }

/-- `pirSaveFlagReg(pin->flag.data)` -/
def saveRdPirFlag : Sensor Unit := do
  let d ← get
  pirSaveFlagReg d.rdPir.flag.data

/-- `pirSaveTimeoutReg(pin->timeOut)` -/
def saveRdPirTimeOut : Sensor Unit := do
  let d ← get
  pirSaveTimeoutReg (d.rdPir.timeOut.setWidth 16)

def PirFlag.setPin (pin : PirPin) (b : Bool) (f : PirFlag) : PirFlag :=
  match pin with
  | .high => { f with pirHighFlag := b }
  | .low => { f with pirLowFlag := b }

/-! ### Detection -/

section

variable (inp : Inputs)

def pirDCInit : Sensor Unit := do
  let t ← pirGetTimeoutReg
  setTimeOut (t.setWidth 32)
  let b ← pirGetFlagReg
  setFlag fun _ => .ofData b

/-- `MotionTimeLine = SYS_32K_TICK_15S; setMotionTime(MotionTimeLine);` -/
def startMotionTime : Sensor Unit := do
  let t ← sys32kTick15S inp
  modify fun d => { d with motionTimeLine := t.setWidth 8 }
  setMotionTime (t.setWidth 8)

/-- The motion flag is given up when its hold time is over. -/
def motionTimeOver : Sensor Unit := do
  setFlag fun f => { f with motionFlag := false }
  startMotionTime inp

def pirMotionCOntrol (pirTime : Reg) : Sensor Unit := do
  let line ← getMotionTime
  modify fun d => { d with motionTimeLine := line }
  let d ← get
  if d.rdPir.flag.motionFlag then do
    let t ← sys32kTick15S inp
    if line.setWidth 32 ≤ t then do
      let t ← sys32kTick15S inp
      if t - line.setWidth 32 ≥ (pirTime / 15).setWidth 32 then motionTimeOver inp else return
    else do
      let t ← sys32kTick15S inp
      if 0xff - line.toNat + (t.setWidth 8).toNat ≥ pirTime.toNat then motionTimeOver inp
      else return
  else return

/-- The pin flags are given up. -/
def pirFlagsOver : Sensor Unit := do
  let t ← sys32kTickS inp
  setTimeOut t
  saveRdPirTimeOut
  setFlag fun f => { f with pirHighFlag := false, pirLowFlag := false }
  saveRdPirFlag

/-- The first part of `pirDetect`: the pin flags time out. -/
def pirTimeout : Sensor Unit := do
  let d ← get
  let t ← sys32kTickS inp
  if d.rdPir.timeOut ≤ t then do
    let t ← sys32kTickS inp
    if t - d.rdPir.timeOut ≥ pirDcFlagTimeout then pirFlagsOver inp else return
  else do
    let t ← sys32kTickS inp
    if 0xffffffff - d.rdPir.timeOut + t ≥ pirDcFlagTimeout then pirFlagsOver inp else return

/-- The loop of `pirDetect` over a pin, with the reads left and `checkPullupTime`: the flag is
set after `PIR_THESHOLD` active reads in a row, and cleared at the first one that is not. -/
def pirCheckPin (pin : PirPin) : Nat → Nat → Sensor Unit
  | 0, _ => return
  | i + 1, checkPullupTime => do
    let active ← gpioRead inp pin
    if active then
      if checkPullupTime + 1 ≥ pirTheshold then do
        setFlag (.setPin pin true)
        let t ← sys32kTickS inp
        setTimeOut t
        saveRdPirFlag
        saveRdPirTimeOut
      else pirCheckPin pin i (checkPullupTime + 1)
    else do
      setFlag (.setPin pin false)
      saveRdPirFlag

/-- Motion is both pins; only the RAM learns of it here. -/
def pirMotion : Sensor Bool := do
  let d ← get
  (if d.rdPir.flag.pirHighFlag ∧ d.rdPir.flag.pirLowFlag then
    setFlag fun f => { f with motionFlag := true, motionOneTime := true }
  else pure ())
  let d ← get
  return d.rdPir.flag.motionFlag

def pirDetect : Sensor Bool := do
  pirTimeout inp
  let d ← get
  (if d.rdPir.pirHighState then pirCheckPin inp .high 100 0 else pure ())
  let d ← get
  (if d.rdPir.pirLowState then pirCheckPin inp .low 100 0 else pure ())
  pirMotion

end

end PirMesh

import PirMesh.Device.Join

/-! # Device — `factory_reset.c`

`factory_reset` and `kick_out`: which sectors are erased, in which order.

The sector at `FLASH_ADR_RESET_CNT` is an array of bytes of which only the
first one that is not zero counts.  `factory_reset_cnt_check` runs in the main
loop: after 50 ms of power it adds one to the count, when the window of the
power-on opens it adds another, and when the window closes it clears the count.
So a power-on that ends in its window leaves an even count. -/

namespace PirMesh

open Nor Nor.Prog

def flashAdrArea1Start : Nat := 0x30000

def flashAdrArea1End : Nat := 0x40000

def flashAdrProvisionCfgS : Nat := 0x3a000

def flashAdrResetCnt : Nat := 0x3e000

def flashAdrArea2Start : Nat := 0x70000

def flashAdrArea2End : Nat := 0x76000

/-- The loop over an area: `cnt` sectors from `adr` on, all but the reset counter. -/
def eraseArea : Nat → Nat → Prog Unit
  | _, 0 => return
  | adr, cnt + 1 => do
    if adr ≠ flashAdrResetCnt then flashEraseSector adr
    eraseArea (adr + 0x1000) cnt

/-- The loop over the sectors behind the calibration area has an empty body. -/
def factoryReset : Prog Unit := do
  eraseArea flashAdrArea1Start ((flashAdrArea1End - flashAdrArea1Start) / 4096)
  eraseArea flashAdrArea2Start ((flashAdrArea2End - flashAdrArea2Start) / 4096)
  flashEraseSector flashAdrResetCnt

/-- Ends in `start_reboot`. -/
def kickOut : Prog Unit := do
  flashEraseSector nodeAdr
  flashEraseSector boxAdr
  flashEraseSector joinFlagAdr
  factoryReset

/-! ### The order -/

/-- The sectors before the provisioning record. -/
def sectorsBefore : List Nat :=
  [0x30000, 0x31000, 0x32000, 0x33000, 0x34000, 0x35000, 0x36000, 0x37000, 0x38000, 0x39000]

/-- The sectors between the provisioning record and the reset counter, in the order of erase. -/
def sectorsBehind : List Nat :=
  [0x3b000, 0x3c000, 0x3d000, 0x3f000, 0x70000, 0x71000, 0x72000, 0x73000, 0x74000, 0x75000]

def resetSectors : List Nat :=
  sectorsBefore ++ flashAdrProvisionCfgS :: (sectorsBehind ++ [flashAdrResetCnt])

theorem factoryReset_eq : factoryReset = eraseList flashSectorSize resetSectors := rfl

theorem kickOut_eq :
    kickOut = eraseList flashSectorSize ([nodeAdr, boxAdr, joinFlagAdr] ++ resetSectors) := rfl

/-! ### The power-on counter -/

def factoryResetSerials : List Byte := [0, 3, 0, 3, 0, 3, 3, 30, 3, 30]

def resetCntInvalid : Byte := 0

def resetTriggerVal : Byte := 10

/-- `clock_time_exceed(0, us)` at a system tick of 16 MHz. -/
def clockTimeExceed (clock us : BitVec 32) : Bool := us * 16 < clock

def validPowerOnTimeUs : BitVec 32 := 50 * 1000

/-! ### The counter byte -/

/-- Returns `adr_reset_cnt_idx`. -/
def resetCntClean (idx : Nat) : Prog Nat :=
  if idx < 3840 then return idx
  else do
    flashEraseSector flashAdrResetCnt
    return 0

def writeResetCnt (idx : Nat) (cnt : Byte) : Prog Nat := do
  let idx ← resetCntClean idx
  flashWritePage (flashAdrResetCnt + idx) [cnt]
  return idx

def clearResetCnt (idx : Nat) : Prog Nat := writeResetCnt idx resetCntInvalid

def getResetCnt (idx : Nat) : Prog Byte := do
  let resetCnt ← flashReadPage (flashAdrResetCnt + idx) 1
  return resetCnt.getD 0 0

/-- The loop of `reset_cnt_get_idx` over the last `n` bytes of the sector. -/
def resetCntScan : Nat → Nat → Prog Nat
  | 0, idx => return idx
  | n + 1, idx => do
    let restcnt ← getResetCnt idx
    if restcnt = resetCntInvalid then resetCntScan n (idx + 1)
    else if restcnt = 0xFF then return idx
    else if resetTriggerVal < restcnt ∨ restcnt &&& 1 ≠ 0 then clearResetCnt idx
    else return idx

def resetCntGetIdx : Prog Nat := resetCntScan flashSectorSize 0

def increaseResetCnt (idx : Nat) : Prog Nat := do
  let resetCnt ← getResetCnt idx
  if resetCnt = 0xFF then writeResetCnt idx (0 + 1)
  else if resetCnt ≠ 0 then do
    let idx ← clearResetCnt idx
    writeResetCnt (idx + 1) (resetCnt + 1)
  else writeResetCnt idx (resetCnt + 1)

/-! ### The check of the main loop -/

structure CntRam where
  adrResetCntIdx : Nat := 0
  clearSt : Nat := 4
  resetCheckTime : BitVec 32 := 0
  /-- `start_reboot` has been called. -/
  rebooted : Bool := false
  /-- Not in the code: the indexes `factory_reset_serials` was read at. -/
  serialReads : List Int := []

def factoryResetHandle (r : CntRam) : Prog CntRam := do
  let idx ← resetCntGetIdx
  let cnt ← getResetCnt idx
  if cnt = resetTriggerVal then do
    factoryReset
    return { r with adrResetCntIdx := idx, rebooted := true }
  else do
    let idx ← increaseResetCnt idx
    return { r with adrResetCntIdx := idx }

section

-- the bytes around the array
variable (beyond : Int → Byte)

def serialAt (i : Int) : Byte :=
  if 0 ≤ i ∧ i < factoryResetSerials.length then factoryResetSerials.getD i.toNat 0 else beyond i

/-- `reset_check_time = factory_reset_serials[get_reset_cnt() - 1]` -/
def loadCheckTime (r : CntRam) : Prog CntRam := do
  let cnt ← getResetCnt r.adrResetCntIdx
  let i : Int := cnt.toNat - 1
  return { r with
    resetCheckTime := (serialAt beyond i).setWidth 32
    serialReads := r.serialReads ++ [i] }

/-- The block of `clear_st` 4. -/
def checkValid (clock : BitVec 32) (r : CntRam) : Prog CntRam :=
  if r.clearSt = 4 ∧ clockTimeExceed clock validPowerOnTimeUs then
    factoryResetHandle { r with clearSt := 3 }
  else return r

/-- The block of `clear_st` 3. -/
def checkFirst (r : CntRam) : Prog CntRam :=
  if r.clearSt = 3 then loadCheckTime beyond { r with clearSt := 2 } else return r

/-- The block of `clear_st` 2. -/
def checkOpen (clock : BitVec 32) (r : CntRam) : Prog CntRam :=
  if r.clearSt = 2 ∧ clockTimeExceed clock (r.resetCheckTime * 1000 * 1000) then do
    let idx ← increaseResetCnt r.adrResetCntIdx
    loadCheckTime beyond { r with clearSt := 1, adrResetCntIdx := idx }
  else return r

/-- The block of `clear_st` 1. -/
def checkClose (clock : BitVec 32) (r : CntRam) : Prog CntRam :=
  if r.clearSt = 1 ∧ clockTimeExceed clock (r.resetCheckTime * 1000 * 1000) then do
    let idx ← clearResetCnt r.adrResetCntIdx
    return { r with clearSt := 0, adrResetCntIdx := idx }
  else return r

def factoryResetCntCheck (clock : BitVec 32) (r : CntRam) : Prog CntRam :=
  if r.clearSt = 0 then return r
  else do
    let r ← checkValid clock r
    if r.rebooted then return r
    else do
      let r ← checkFirst beyond r
      let r ← checkOpen beyond clock r
      checkClose clock r

/-- The checks of one power-on, at the given ticks; a reboot ends it. -/
def checkAll : List Nat → CntRam → Prog CntRam
  | [], r => return r
  | t :: ts, r => do
    let r ← factoryResetCntCheck beyond (BitVec.ofNat 32 t) r
    if r.rebooted then return r else checkAll ts r

end

end PirMesh

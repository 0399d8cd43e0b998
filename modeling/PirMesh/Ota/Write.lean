import PirMesh.Library.Format
import PirMesh.Library.Reassembly

/-! # Ota — The image update of `ble_ll_ota.c`

A client writes a new firmware image in packets of 16 octets.  A write begins with an
index, and the three highest values are commands: the version, the start and the end of
an update.  A data packet is taken when its index follows the last one; a repeated one is
left alone, and a gap, a wrong check sum or a wrong image is an error.  The first result
of a started update is kept; some seconds later the device makes the new image bootable,
or erases it, and starts again. -/

namespace PirMesh

open Nor Reassembly

/-! ### Constants -/

def cmdOtaFwVersion : Nat := 0xff00

def cmdOtaStart : Nat := 0xff01

def cmdOtaEnd : Nat := 0xff02

def otaSuccess : Byte := 0

def otaPacketLoss : Byte := 1

def otaDataCrcErr : Byte := 2

def otaWriteFlashErr : Byte := 3

def otaDataUncomplete : Byte := 4

def otaTimeout : Byte := 5

def otaOverflow : Byte := 6

def otaErrSts : Byte := 7

def otaFwCheckErr : Byte := 9

/-- `FW_CHECK_AGTHM1` and `FW_CHECK_AGTHM2`. -/
def fwCheckAgthm1 : Byte := 1

def fwCheckAgthm2 : Byte := 2

/-- `START_UP_FLAG` -/
def startUpFlag : Nat := 0x544c4e4b

/-- `ota_firmware_size_k` -/
def otaFirmwareSizeK : Nat := 192

/-- `ota_program_bootAddr` -/
def otaProgramBootAddr : Nat := 0x40000

/-! ### Packets -/

/-- A write: the length field of L2CAP and `dat`. -/
structure OtaPkt where
  l2cap : BitVec 16
  dat : Nat → Byte

/-- The index in front of the data, or a command. -/
def otaAdr (p : OtaPkt) : Nat := ofLE (read p.dat 0 2)

/-- The data of a packet. -/
def otaBlock (p : OtaPkt) : List Byte := read p.dat 2 16

def crc16Octet (crc : BitVec 16) (ds : Byte) : BitVec 16 :=
  (List.range 8).foldl (fun crc i =>
    (crc >>> 1) ^^^ (if (crc ^^^ (ds >>> i).setWidth 16) &&& 1 = 1 then 0xa001 else 0)) crc

def crc16 (l : List Byte) : BitVec 16 := l.foldl crc16Octet 0xffff

/-- The check sum of a packet, over the index and the data. -/
def otaCrcField (p : OtaPkt) : BitVec 16 := BitVec.ofNat 16 (ofLE (read p.dat 18 2))

def otaCrcOk (p : OtaPkt) : Bool := decide (otaCrcField p = crc16 (read p.dat 0 18))

/-- The length of the image in packet 1. -/
def otaImageLen (p : OtaPkt) : BitVec 32 := BitVec.ofNat 32 (ofLE (read p.dat 10 4))

/-- The number of packets as the code has it: a 32-bit sum, cut to 16 bits. -/
def otaTotal (p : OtaPkt) : BitVec 16 := ((otaImageLen p + 15) / 16).setWidth 16

/-- The check value of the image in the last packet. -/
def otaCrcBin (p : OtaPkt) : BitVec 32 := BitVec.ofNat 32 (ofLE (read p.dat 2 4))

/-- `is_valid_tlk_fw_buf` on the flag in packet 0. -/
def isValidTlkFwBuf (p : OtaPkt) : Bool := decide (read p.dat 10 4 = toLE 4 startUpFlag)

def crc32HalfTbl : List (BitVec 32) :=
  [0x00000000, 0x1db71064, 0x3b6e20c8, 0x26d930ac, 0x76dc4190, 0x6b6b51f4, 0x4db26158, 0x5005713c,
    0xedb88320, 0xf00f9344, 0xd6d6a3e8, 0xcb61b38c, 0x9b64c2b0, 0x86d3d2d4, 0xa00ae278, 0xbdbdf21c]

def crc32HalfStep (crc : BitVec 32) (half : Byte) : BitVec 32 :=
  (crc >>> 4) ^^^ crc32HalfTbl.getD ((crc ^^^ half.setWidth 32) &&& 0x0f).toNat 0

/-- Each octet goes in as its two halves, the low one first. -/
def getCrc32OfBytes (crc : BitVec 32) (l : List Byte) : BitVec 32 :=
  (l.flatMap fun b : Byte => ([b &&& 0x0f, b >>> 4] : List Byte)).foldl crc32HalfStep crc

/-! ### The check of an image -/

def fwCheckInit (type : Byte) (val : BitVec 32) : BitVec 32 :=
  if type = fwCheckAgthm1 then 0 else if type = fwCheckAgthm2 then 0xFFFFFFFF else val

/-- The running check value with one more packet. -/
def fwCheckAdd (type : Byte) (val : BitVec 32) (p : OtaPkt) : BitVec 32 :=
  if type = fwCheckAgthm1 then val + (otaCrcField p).setWidth 32
  else if type = fwCheckAgthm2 then getCrc32OfBytes val (otaBlock p)
  else val

/-! ### State -/

structure Ota where
  otaAdrIndex : Int
  bltOtaStartTick : BitVec 32
  bltOtaFinishedTime : BitVec 32
  bltOtaFinishedFlag : Byte
  bltOtaTerminateFlag : Bool
  terminateCnt : Nat
  otaStartFlag : Bool
  fwCheckVal : BitVec 32
  needCheckType : Byte
  otaPktTotal : BitVec 16
  fwOtaValue : Byte
  otaRebootFlag : Byte
  otaProgramOffset : Nat
  flash : Flash
  /-- The result the device has started again with. -/
  rebooted : Option Byte

/-- `blt_ota_finished_flag_set` -/
def bltOtaFinishedFlagSet (now : BitVec 32) (s : Ota) (resetFlag : Byte) : Ota :=
  if s.otaStartFlag ∧ s.bltOtaFinishedTime = 0 then
    { s with bltOtaFinishedFlag := resetFlag, bltOtaFinishedTime := now ||| 1 }
  else s

/-! ### Writes -/

/-- `err_flg` of an end packet. -/
def otaEndErr (s : Ota) (p : OtaPkt) : Byte :=
  let adrIndexMax := BitVec.ofNat 16 (ofLE (read p.dat 2 2))
  let adrIndexMaxCheck := BitVec.ofNat 16 (ofLE (read p.dat 4 2))
  let errFlg :=
    if p.l2cap = 9 ∧ adrIndexMax ^^^ adrIndexMaxCheck = 0xffff ∧
      (adrIndexMax.toNat : Int) ≠ s.otaAdrIndex then otaDataUncomplete
    else otaSuccess
  if (s.otaPktTotal.toNat : Int) ≠ s.otaAdrIndex + 1 then otaDataUncomplete else errFlg

/-- What packet 0, packet 1 and the last packet say of the image, with `err_flg`. -/
def otaHeader (s : Ota) (p : OtaPkt) : Ota × Byte :=
  if otaAdr p = 0 then
    let needCheckType := if p.dat 8 = 0x5D then p.dat 9 else s.needCheckType
    ({ s with
        needCheckType := needCheckType
        fwCheckVal := fwCheckInit needCheckType s.fwCheckVal },
      if isValidTlkFwBuf p then otaSuccess else otaFwCheckErr)
  else if otaAdr p = 1 then
    ({ s with otaPktTotal := otaTotal p }, if otaTotal p < 3 then otaErrSts else otaSuccess)
  else if (otaAdr p : Int) = s.otaPktTotal.toNat - 1 then
    (s, if (s.needCheckType = fwCheckAgthm1 ∨ s.needCheckType = fwCheckAgthm2) ∧
        s.fwCheckVal ≠ otaCrcBin p then otaFwCheckErr else otaSuccess)
  else (s, otaSuccess)

/-- The packet goes into the check value, unless it is the last one. -/
def otaAddCheck (s : Ota) (p : OtaPkt) : Ota :=
  if otaAdr p = 0 ∨ (otaAdr p : Int) < s.otaPktTotal.toNat - 1 then
    { s with fwCheckVal := fwCheckAdd s.needCheckType s.fwCheckVal p }
  else s

/-- The octets that are written for a packet: the boot flag of packet 0 is left out. -/
def otaSaved (p : OtaPkt) : List Byte :=
  if otaAdr p = 0 then (otaBlock p).set 8 0xff else otaBlock p

/-- The packet is written and read back. -/
def otaStore (s : Ota) (p : OtaPkt) (errFlg : Byte) : Ota × Byte :=
  if otaAdr p <<< 4 ≥ otaFirmwareSizeK <<< 10 then (s, otaOverflow)
  else
    let s := { s with
      fwOtaValue := if otaAdr p = 0 then p.dat 10 else s.fwOtaValue
      flash := s.flash.write (s.otaProgramOffset + otaAdr p <<< 4) (otaSaved p) }
    if s.flash.read (s.otaProgramOffset + otaAdr p <<< 4) 16 = otaSaved p then
      ({ s with otaAdrIndex := otaAdr p }, errFlg)
    else (s, otaWriteFlashErr)

/-- A data packet, with `err_flg`. -/
def otaData (now : BitVec 32) (s : Ota) (p : OtaPkt) : Ota × Byte :=
  if s.otaAdrIndex + 1 = otaAdr p then
    let s := { s with bltOtaStartTick := now ||| 1 }
    if otaCrcOk p then
      let (s, errFlg) := otaHeader s p
      otaStore (otaAddCheck s p) p errFlg
    else (s, otaDataCrcErr)
  else if s.otaAdrIndex ≥ otaAdr p then (s, otaSuccess)
  else (s, otaPacketLoss)

/-- `enable` is what `ota_condition_enable` returns. -/
def otaWrite (enable : Bool) (now : BitVec 32) (s : Ota) (p : OtaPkt) : Ota :=
  if !enable then s
  else if otaAdr p = cmdOtaFwVersion then { s with bltOtaStartTick := now ||| 1 }
  else if otaAdr p = cmdOtaStart then
    let s := { s with otaAdrIndex := -1 }
    if s.otaRebootFlag ≠ 0 then { s with otaStartFlag := true, bltOtaStartTick := now ||| 1 } else s
  else if otaAdr p = cmdOtaEnd then bltOtaFinishedFlagSet now s (otaEndErr s p)
  else
    let (s, errFlg) := otaData now s p
    if errFlg ≠ otaSuccess then bltOtaFinishedFlagSet now s errFlg else s

/-! ### The end of an update -/

/-- The new image gets its boot flag, the running one loses its own. -/
def otaSetFlag (s : Ota) : Ota :=
  let flash := s.flash.write (s.otaProgramOffset + 8) [0x4b]
  let running := if s.otaProgramOffset ≠ 0 then 0 else otaProgramBootAddr
  { s with flash := flash.write (running + 8) [0, 0, 0, 0] }

/-- The sectors the packets up to the index lie in. -/
def otaSectors (s : Ota) : List Nat :=
  (List.range (s.otaAdrIndex.toNat / 256 + 1)).map fun k => s.otaProgramOffset + k * 4096

def rfLinkSlaveOtaFinishLedAndReboot (s : Ota) (st : Byte) : Ota :=
  let s := if st = otaSuccess then otaSetFlag s
    else if s.otaAdrIndex ≥ 0 then { s with flash := s.flash.eraseList 4096 (otaSectors s) }
    else s
  { s with rebooted := some st }

/-- A span of `us` microseconds from `ref` has passed, by the 16 MHz tick. -/
def tickExceeded (now ref us : BitVec 32) : Bool := decide (us * 16 < now - ref)

/-- The connection is closed two seconds after the result, and the device starts again
when it is gone, or after four. -/
def bltSlaveOtaFinishHandle (now : BitVec 32) (s : Ota) : Ota :=
  if s.bltOtaFinishedTime = 0 then s
  else
    let cnt := if s.terminateCnt = 0 ∧ s.bltOtaTerminateFlag then 6 else s.terminateCnt
    let closed := decide (cnt = 1)
    let s := { s with
      terminateCnt := cnt - 1
      bltOtaTerminateFlag := s.bltOtaTerminateFlag ||
        tickExceeded now s.bltOtaFinishedTime (2000 * 1000) }
    if closed ∨ tickExceeded now s.bltOtaFinishedTime (4000 * 1000) then
      rfLinkSlaveOtaFinishLedAndReboot s s.bltOtaFinishedFlag
    else s

def blsOtaProcTimeout (now timeoutUs : BitVec 32) (s : Ota) : Ota :=
  let s := bltSlaveOtaFinishHandle now s
  if s.rebooted.isSome then s
  else if s.bltOtaStartTick ≠ 0 ∧ tickExceeded now s.bltOtaStartTick timeoutUs then
    rfLinkSlaveOtaFinishLedAndReboot s otaTimeout
  else s

/-! ### Runs -/

/-- A write at a time, the main loop's call, or a change of the reboot flag. -/
inductive OtaEvent
  | write (enable : Bool) (now : BitVec 32) (p : OtaPkt)
  | procTimeout (now timeoutUs : BitVec 32)
  | rebootFlag (flag : Byte)

/-- Nothing happens after the device has started again. -/
def otaStep (s : Ota) (e : OtaEvent) : Ota :=
  if s.rebooted.isSome then s
  else match e with
    | .write enable now p => otaWrite enable now s p
    | .procTimeout now timeoutUs => blsOtaProcTimeout now timeoutUs s
    | .rebootFlag flag => { s with otaRebootFlag := flag }

/-- The variables as the device starts with them. -/
def otaBoot (otaProgramOffset : Nat) (flash : Flash) : Ota where
  otaAdrIndex := -1
  bltOtaStartTick := 0
  bltOtaFinishedTime := 0
  bltOtaFinishedFlag := 0
  bltOtaTerminateFlag := false
  terminateCnt := 0
  otaStartFlag := false
  fwCheckVal := 0
  needCheckType := 0
  otaPktTotal := 0
  fwOtaValue := 0
  otaRebootFlag := 1
  otaProgramOffset := otaProgramOffset
  flash := flash
  rebooted := none

end PirMesh

import PirMesh.Library.Accesses
import PirMesh.Library.BitFields
import PirMesh.Library.Format
import PirMesh.Library.Reassembly
import PirMesh.Node.Ticks
import PirMesh.Time.AliTiming

/-! # Time — Messages of the vendor time model (`user_ali_time.c`)

The handlers of the timing messages, with what they access: the octets of the message, the local
array of indexes, the timings and their operation groups, the status buffer, and the mask of a
report.  `ali_mesh_timing_set` and `ali_mesh_cycle_timing_set` are one program (`setWith`) with the
values of their records (`ParaKind`), and so are their statuses (`stsWith`).

A message is memory from its first octet on, and `parLen` is how many octets came. -/

namespace PirMesh.Ali

open Accesses Accesses.Traced Reassembly
open Nor (Byte toLE ofLE)

/-- `sizeof(ali_msg_header_t)`; structures are packed. -/
def aliMsgHeaderLen : ℕ := 3

/-- `sizeof(timing_op_group_t)` -/
def timingOpGroupLen : ℕ := 3

/-- `u8 indexs[8]` -/
def indexsLen : ℕ := 8

/-- `u8 data_buf[64]` -/
def dataBufLen : ℕ := 64

/-- `sizeof(timing_info_report_mask)` -/
def reportMaskLen : ℕ := 5

/-- `u8 indexs[5]` of the report -/
def reportIndexsLen : ℕ := 5

def errCodeTimeRunningOut : Byte := 0x84

def errCodeTimingIndexNotFound : Byte := 0x85

/-! ### Accesses -/

inductive Access
  /-- `n` octets of the message from `p` on -/
  | par (p n : ℕ)
  /-- `indexs[k]` of an array of `size` -/
  | index (k size : ℕ)
  /-- `timing_infos[i]` -/
  | info (i : ℕ)
  /-- `op_groups[x]` of a timing -/
  | group (x : ℕ)
  /-- `n` octets of `data_buf` from `p` on -/
  | buf (p n : ℕ)
  /-- `timing_info_report_mask[b]` -/
  | mask (b : ℕ)
  deriving DecidableEq, Repr

/-- The access is inside its object; `parLen` octets came. -/
def Access.Ok (parLen : ℕ) : Access → Prop
  | par p n => p + n ≤ parLen
  | index k size => k < size
  | info i => i < aliTimingInfoNum
  | group x => x < aliTimingOpGroupMax
  | buf p n => p + n ≤ dataBufLen
  | mask b => b < reportMaskLen

instance (parLen : ℕ) : DecidablePred (Access.Ok parLen)
  | .par p n => inferInstanceAs (Decidable (p + n ≤ parLen))
  | .index k size => inferInstanceAs (Decidable (k < size))
  | .info i => inferInstanceAs (Decidable (i < aliTimingInfoNum))
  | .group x => inferInstanceAs (Decidable (x < aliTimingOpGroupMax))
  | .buf p n => inferInstanceAs (Decidable (p + n ≤ dataBufLen))
  | .mask b => inferInstanceAs (Decidable (b < reportMaskLen))

abbrev Handler := Traced Access

def readPar (par : ℕ → Byte) (p n : ℕ) : Handler (List Byte) := look (.par p n) (read par p n)

/-- Octets written to the end of the status. -/
def writeBuf (buf bs : List Byte) : Handler (List Byte) :=
  look (.buf buf.length bs.length) (buf ++ bs)

section

variable {par : ℕ → Byte} {p n parLen : ℕ} {buf bs : List Byte}

@[simp] theorem val_readPar : (readPar par p n).val = read par p n := rfl

@[simp] theorem val_writeBuf : (writeBuf buf bs).val = buf ++ bs := rfl

@[simp] theorem within_readPar :
    (readPar par p n).Within (Access.Ok parLen) ↔ p + n ≤ parLen := within_look _ _

@[simp] theorem within_writeBuf :
    (writeBuf buf bs).Within (Access.Ok parLen) ↔ buf.length + bs.length ≤ dataBufLen :=
  within_look _ _

@[simp] theorem ok_index {k size : ℕ} : Access.Ok parLen (.index k size) ↔ k < size := Iff.rfl

@[simp] theorem ok_info {i : ℕ} : Access.Ok parLen (.info i) ↔ i < aliTimingInfoNum := Iff.rfl

@[simp] theorem ok_group {x : ℕ} : Access.Ok parLen (.group x) ↔ x < aliTimingOpGroupMax := Iff.rfl

@[simp] theorem ok_mask {b : ℕ} : Access.Ok parLen (.mask b) ↔ b < reportMaskLen := Iff.rfl

end

/-! ### State -/

/-- The time model with its pending save and report. -/
structure AliNode extends AliTime where
  saveTimeInfoTiming : BitVec 32
  allTimingInfoReportFlag : Bool
  allTimingInfoReportTiming : BitVec 32
  timingInfoReportMask : ℕ → Byte
  timingInfoReportSrcAddr : BitVec 16
  timingInfoReportDesAddr : BitVec 16

/-- What a handler is called with: whether the operation is `VD_MSG_ATTR_SET_NACK`, the addresses,
and `clock_time()`. -/
structure CbPar where
  setNack : Bool
  eleAdr : BitVec 16
  adrSrc : BitVec 16
  clockTime : BitVec 32

/-- How a handler ends. -/
inductive Reply
  | ret (r : ℤ)
  | errRsp (attrType : List Byte) (errCode index : Byte)
  | sts (src dst : BitVec 16) (data : List Byte)
  deriving DecidableEq, Repr

/-- `ali_mesh_time_save` -/
def AliNode.timeSave (s : AliNode) (clockTime : BitVec 32) : AliNode :=
  { s with saveTimeInfoFlag := true, saveTimeInfoTiming := clockTime }

/-- `ali_mesh_time_save_to_flash_process`, and whether it stores. -/
def AliNode.timeSaveToFlashProcess (s : AliNode) (clockTime : BitVec 32) : AliNode × Bool :=
  if s.saveTimeInfoFlag = false then (s, false)
  else if clockTickExceed clockTime s.saveTimeInfoTiming 1000000 = false then (s, false)
  else ({ s with saveTimeInfoFlag := false }, true)

/-! ### Records -/

/-- The records of a message, and of its status. -/
structure ParaKind where
  attrType : BitVec 16
  type : TimingType
  timeLen : ℕ
  hasSchedule : Bool
  /-- Octets read before a record is accepted. -/
  checkLen : ℕ
  /-- The error of these octets at a time. -/
  check : BitVec 32 → List Byte → Byte
  opGroupNum : BitVec 32 → BitVec 16

namespace ParaKind

variable (K : ParaKind)

def scheduleLen : ℕ := if K.hasSchedule then 1 else 0

/-- `OFFSETOF(.., op_groups)` -/
def headLen : ℕ := 1 + K.timeLen + K.scheduleLen

def indexOf (head : List Byte) : Byte := head.headD 0

def timeOf (head : List Byte) : BitVec 32 := BitVec.ofNat 32 (ofLE ((head.drop 1).take K.timeLen))

def scheduleOf (head : List Byte) : Byte :=
  if K.hasSchedule then head.getD (1 + K.timeLen) 0 else 0

/-- `op_group_num`, which is at least 1. -/
def groupsOf (head : List Byte) : BitVec 16 :=
  if K.opGroupNum (K.timeOf head) = 0 then 1 else K.opGroupNum (K.timeOf head)

/-- The head of a record of a status. -/
def headOf (index : Byte) (info : TimingInfo) : List Byte :=
  index :: toLE K.timeLen info.time.toNat ++ if K.hasSchedule then [info.schedule] else []

end ParaKind

/-- `ali_msg_timing_set_para_t` -/
def timingSetPara : ParaKind where
  attrType := 0xF010
  type := .single
  timeLen := 4
  hasSchedule := false
  checkLen := 5
  check now checked :=
    let time := BitVec.ofNat 32 (ofLE ((checked.drop 1).take 4))
    let err := if aliTimingInfoNum ≤ (checked.headD 0).toNat then errCodeTimingIndexNotFound else 0
    if time / 60 * 60 < now then errCodeTimeRunningOut else err
  opGroupNum time := (time % 60).setWidth 16

/-- `ali_msg_cycle_timing_set_para_t` -/
def cycleTimingSetPara : ParaKind where
  attrType := 0xF011
  type := .cycle
  timeLen := 2
  hasSchedule := true
  checkLen := 1
  check _ checked :=
    if aliTimingInfoNum ≤ (checked.headD 0).toNat then errCodeTimingIndexNotFound else 0
  opGroupNum time := ((time &&& 0xF000) >>> 12).setWidth 16

/-! ### Statuses -/

def OpGroup.ofBytes (bs : List Byte) : OpGroup := ⟨BitVec.ofNat 16 (ofLE (bs.take 2)), bs.getD 2 0⟩

def OpGroup.bytes (g : OpGroup) : List Byte := toLE 2 g.attrType.toNat ++ [g.attrPara]

section

variable (K : ParaKind) (past : Past) (t : TimingInfos)

def stsGroup (i : ℕ) (buf : List Byte) (j : ℕ) : Handler (List Byte) := do
  touch (.group j)
  writeBuf buf (opGroupAt past t i j).bytes

/-- One timing of a status; one that is not active is left out. -/
def stsOne (buf : List Byte) (index : Byte) : Handler (List Byte) := do
  let i := index.toNat
  touch (.info i)
  if 0 < (t i).activeTime then
    let buf ← writeBuf buf (K.headOf index (t i))
    (List.range (t i).opGroupNum.toNat).foldlM (stsGroup past t i) buf
  else pure buf

/-- The octets of the status. -/
def stsWith (indexs : List Byte) : Handler (List Byte) := do
  let buf ← writeBuf [] (0 :: toLE 2 K.attrType.toNat)
  indexs.foldlM (stsOne K past t) buf

end

def aliMeshTimingSts : Past → TimingInfos → List Byte → Handler (List Byte) := stsWith timingSetPara

def aliMeshCycleTimingSts : Past → TimingInfos → List Byte → Handler (List Byte) :=
  stsWith cycleTimingSetPara

/-! ### Setting timings -/

/-- The table and the indexes stored so far. -/
structure Stored where
  timingInfos : TimingInfos
  indexs : List Byte

/-- `err` and `err_index` -/
structure Refused where
  err : Byte
  index : Byte

section

variable (K : ParaKind) (now : BitVec 32) (par : ℕ → Byte)

/-- Operation group `i` of the record at `p`; there is room for `ALI_TIMING_OP_GROUP_MAX`. -/
def storeGroup (p : ℕ) (info : TimingInfo) (i : ℕ) : Handler TimingInfo :=
  if i < aliTimingOpGroupMax then do
    let bs ← readPar par (p + K.headLen + timingOpGroupLen * i) timingOpGroupLen
    touch (.group i)
    pure { info with opGroup := .ofBytes bs }
  else pure info

/-- Stores the record at `p`. -/
def storeRecord (p : ℕ) (st : Stored) : Handler Stored := do
  let head ← readPar par p K.headLen
  let i := (ParaKind.indexOf head).toNat
  touch (.info i)
  let info ← (List.range (K.groupsOf head).toNat).foldlM (storeGroup K par p)
    { st.timingInfos i with
      activeTime := now
      time := K.timeOf head
      type := K.type
      schedule := K.scheduleOf head
      opGroupNum := K.groupsOf head }
  touch (.index st.indexs.length indexsLen)
  pure ⟨Function.update st.timingInfos i info, st.indexs ++ [ParaKind.indexOf head]⟩

/-- Where the record behind the one at `p` begins. -/
def nextRecord (p : ℕ) : ℕ :=
  p + K.headLen + timingOpGroupLen * (K.groupsOf (read par p K.headLen)).toNat

theorem lt_nextRecord (p : ℕ) : p < nextRecord K par p := by
  unfold nextRecord ParaKind.headLen
  omega

/-- The loop over the records of a message, up to the first that is refused. -/
def setLoop (parLen handledLen : ℕ) (st : Stored) : Handler (Stored × Option Refused) :=
  if handledLen < parLen then do
    let checked ← readPar par handledLen K.checkLen
    let err := K.check now checked
    if err ≠ 0 then pure (st, some ⟨err, checked.headD 0⟩)
    else
      let st ← storeRecord K now par handledLen st
      setLoop parLen (nextRecord K par handledLen) st
  else pure (st, none)
termination_by parLen - handledLen
decreasing_by
  have hlt := lt_nextRecord K par handledLen
  omega

end

def setWith (K : ParaKind) (past : Past) (s : AliNode) (par : ℕ → Byte) (parLen : ℕ)
    (cbPar : CbPar) : Handler (AliNode × Reply) := do
  let done ← setLoop K s.aliUnixTime par parLen aliMsgHeaderLen ⟨s.timingInfos, []⟩
  let s := { s with timingInfos := done.1.timingInfos }
  if cbPar.setNack then pure (s, .ret (if done.2.isSome then -1 else 0))
  else
    match done.2 with
    | some refused =>
      let attrType ← readPar par 1 2
      pure (s, .errRsp attrType refused.err refused.index)
    | none =>
      let s := { s.timeSave cbPar.clockTime with
        timingInfoReportSrcAddr := cbPar.eleAdr
        timingInfoReportDesAddr := cbPar.adrSrc }
      let data ← stsWith K past s.timingInfos done.1.indexs
      pure (s, .sts s.timingInfoReportSrcAddr s.timingInfoReportDesAddr data)

def aliMeshTimingSet : Past → AliNode → (ℕ → Byte) → ℕ → CbPar → Handler (AliNode × Reply) :=
  setWith timingSetPara

def aliMeshCycleTimingSet : Past → AliNode → (ℕ → Byte) → ℕ → CbPar → Handler (AliNode × Reply) :=
  setWith cycleTimingSetPara

/-! ### Deleting timings -/

def delLoop (par : ℕ → Byte) (cbPar : CbPar) (s : AliNode) : List ℕ → Handler (AliNode × Reply)
  | [] => pure (s, .ret 0)
  | k :: ks => do
    let bs ← readPar par (aliMsgHeaderLen + k) 1
    let idx := bs.headD 0
    if aliTimingInfoNum ≤ idx.toNat then
      if cbPar.setNack then pure (s, .ret (-1))
      else
        let attrType ← readPar par 1 2
        pure (s, .errRsp attrType errCodeTimingIndexNotFound idx)
    else
      touch (.info idx.toNat)
      let s := { s with timingInfos := delete s.timingInfos idx.toNat }
      delLoop par cbPar (s.timeSave cbPar.clockTime) ks

def aliMeshTimingDel (s : AliNode) (par : ℕ → Byte) (parLen : ℕ) (cbPar : CbPar) :
    Handler (AliNode × Reply) :=
  if parLen ≤ aliMsgHeaderLen then pure (s, .ret (-1))
  else delLoop par cbPar s (List.range (parLen - aliMsgHeaderLen))

/-! ### Reports -/

/-- Whether `0xFF` is among the indexes asked for. -/
def checkAll (par : ℕ → Byte) : List ℕ → Handler Bool
  | [] => pure false
  | k :: ks => do
    let bs ← readPar par (aliMsgHeaderLen + k) 1
    if bs.headD 0 = 0xFF then pure true else checkAll par ks

/-- `timing_info_report_mask[i / 8] |= i % 8` -/
def markPlace (mask : ℕ → Byte) (i : ℕ) : Handler (ℕ → Byte) := do
  touch (.mask (i / 8))
  pure (Function.update mask (i / 8) (mask (i / 8) ||| BitVec.ofNat 8 (i % 8)))

/-- `memset` of the mask -/
def markAll (mask : ℕ → Byte) : ℕ → Byte := fun b => if b < reportMaskLen then 0xFF else mask b

/-- The mask behind a get. -/
def markFor (par : ℕ → Byte) (places : List ℕ) (mask : ℕ → Byte) : Handler (ℕ → Byte) := do
  let all ← checkAll par places
  if all then pure (markAll mask) else places.foldlM markPlace mask

/-- The report that a get begins. -/
def AliNode.asked (s : AliNode) (cbPar : CbPar) (mask : ℕ → Byte) : AliNode :=
  { s with
    timingInfoReportMask := mask
    allTimingInfoReportFlag := true
    allTimingInfoReportTiming := cbPar.clockTime
    timingInfoReportSrcAddr := cbPar.eleAdr
    timingInfoReportDesAddr := cbPar.adrSrc }

def aliMeshTimingGet (s : AliNode) (par : ℕ → Byte) (parLen : ℕ) (cbPar : CbPar) :
    Handler (AliNode × Reply) :=
  if parLen ≤ aliMsgHeaderLen then pure (s, .ret (-1))
  else do
    let places := List.range (parLen - aliMsgHeaderLen)
    let mask ← markFor par places s.timingInfoReportMask
    pure (s.asked cbPar mask, .ret 0)

/-- One loop of the report: timings of type `ty` in the mask, up to five of them. -/
def pickLoop (t : TimingInfos) (ty : TimingType) (mask : ℕ → Byte) (indexs : List ℕ) :
    List ℕ → Handler ((ℕ → Byte) × List ℕ)
  | [] => pure (mask, indexs)
  | i :: is => do
    touch (.mask (i / 8))
    if BitArray.test mask i = false then pickLoop t ty mask indexs is
    else
      touch (.info i)
      if (t i).active ∧ (t i).type = ty then
        touch (.index indexs.length reportIndexsLen)
        touch (.mask (i / 8))
        let mask := BitArray.clear mask i
        let indexs := indexs ++ [i]
        if reportIndexsLen ≤ indexs.length then pure (mask, indexs)
        else pickLoop t ty mask indexs is
      else if reportIndexsLen ≤ indexs.length then pure (mask, indexs)
      else pickLoop t ty mask indexs is

/-- A status of the report: the timings it lists, and its octets. -/
structure Listed where
  indexs : List ℕ
  data : List Byte

/-- The mask behind a pass, and `all_timing_info_report_timing`. -/
def AliNode.servedAt (s : AliNode) (clockTime : BitVec 32) (mask : ℕ → Byte) : AliNode :=
  { s with allTimingInfoReportTiming := clockTime, timingInfoReportMask := mask }

/-- One pass of the report. -/
def reportServe (past : Past) (s : AliNode) (clockTime : BitVec 32) :
    Handler (AliNode × Option Listed) := do
  let single ←
    pickLoop s.timingInfos .single s.timingInfoReportMask [] (List.range aliTimingInfoNum)
  if single.2 ≠ [] then
    let data ← aliMeshTimingSts past s.timingInfos (single.2.map (BitVec.ofNat 8))
    pure (s.servedAt clockTime single.1, some ⟨single.2, data⟩)
  else
    let cycle ← pickLoop s.timingInfos .cycle single.1 [] (List.range aliTimingInfoNum)
    if cycle.2 ≠ [] then
      let data ← aliMeshCycleTimingSts past s.timingInfos (cycle.2.map (BitVec.ofNat 8))
      pure (s.servedAt clockTime cycle.1, some ⟨cycle.2, data⟩)
    else pure ({ s.servedAt clockTime cycle.1 with allTimingInfoReportFlag := false }, none)

/-- A call of `user_ali_time_proc`, with `clock_time_ms()`. -/
structure ReportCall extends ProcCall where
  clockTimeMs : BitVec 32

/-- The report is due: `clock_time_exceed_ms` on a reference of `clock_time()`. -/
def AliNode.reportDue (s : AliNode) (e : ReportCall) : Bool :=
  s.allTimingInfoReportFlag && decide (300 < e.clockTimeMs - s.allTimingInfoReportTiming)

/-- The whole of `user_ali_time_proc`. -/
def userAliTimeProcAll (past : Past) (interval : BitVec 32) (s : AliNode) (e : ReportCall) :
    Handler (AliNode × Option Listed) :=
  if e.provisionSuccess = false then pure (s, none)
  else
    let s := { s with toAliTime := userAliTimeProc past interval s.toAliTime e.toProcCall }
    let s := (s.timeSaveToFlashProcess e.clockTime).1
    if s.reportDue e then reportServe past s e.clockTime else pure (s, none)

end PirMesh.Ali

import Mathlib.Algebra.GroupWithZero.Nat
import Mathlib.Data.BitVec
import Mathlib.Logic.Function.Basic
import PirMesh.Node.Ticks

/-! # FastProv — The provisioner (`fast_provision_model.c`)

The state machine of a provisioner on a PC, which keeps the next unicast address in
`prov_addr`.  It asks the unprovisioned nodes for their MAC (`getAddr`), writes the
answers into a buffer of 32 entries, gives each of these nodes an address (`setAddr`),
and asks again, until nobody answers twice.  One reliable command is outstanding at a
time; `meshFastProvReliableFinishHandle` runs when it is over. -/

namespace PirMesh

/-! ### State -/

/-- `FAST_PROV_IDLE` and the others. -/
inductive FastProvSts
  | idle
  | start
  | resetNetwork
  | getAddr
  | getAddrRetry
  | setAddr
  | netInfo
  | confirm
  | confirmOk
  | complete
  | timeOut
  deriving DecidableEq, Repr

/-- `fast_prov_mac_st` -/
@[ext] structure FastProvMac where
  mac : BitVec 48
  pid : BitVec 16
  defaultAddr : BitVec 16
  deriving DecidableEq, Repr

/-- `fast_prov_par_t` -/
structure FastProvPar where
  pid : BitVec 16
  provAddr : BitVec 16
  curSts : FastProvSts
  lastSts : FastProvSts
  pending : Bool
  delay : BitVec 16
  startTick : BitVec 32
  deriving DecidableEq, Repr

/-- The opcode of a reliable command; `other` is one that is not sent here. -/
inductive ReliableOp
  | addrGet
  | addrSet
  | provConfirm
  | other
  deriving DecidableEq, Repr

/-- What is passed to `SendOpParaDebug_vendor`, without the keys of the network. -/
inductive FastProvCmd
  | resetNetwork (delayMs : BitVec 16)
  | addrGet (pid : BitVec 16)
  | addrGetRetry (pid eleAddr : BitVec 16)
  | addrSet (adrDst : BitVec 16) (mac : BitVec 48) (eleAddr : BitVec 16)
  | provDataSet
  | provConfirm
  | provComplete (delayMs : BitVec 16)
  deriving DecidableEq, Repr

inductive FastProvRspOp
  | addrGetSts
  | provConfirmSts
  | other
  deriving DecidableEq, Repr

/-- A `mesh_rc_rsp_t`, with the MAC and the product of an address status. -/
structure FastProvRsp where
  op : FastProvRspOp
  src : BitVec 16
  mac : BitVec 48
  pid : BitVec 16
  deriving DecidableEq, Repr

structure FastProv where
  par : FastProvPar
  wIdx : ℕ
  rIdx : ℕ
  macBuf : ℕ → FastProvMac
  /-- The reliable command that is outstanding. -/
  reliable : Option ReliableOp

def cacheMacMaxNum : ℕ := 32

/-! ### The status -/

def meshFastProvStsSet (p : FastProvPar) (sts : FastProvSts) (clock : BitVec 32) : FastProvPar :=
  let p := { p with startTick := if sts = .idle then 0 else clock ||| 1 }
  if sts ≠ p.curSts then { p with lastSts := p.curSts, curSts := sts } else p

@[simp] theorem meshFastProvStsSet_provAddr (p : FastProvPar) (sts : FastProvSts)
    (clock : BitVec 32) : (meshFastProvStsSet p sts clock).provAddr = p.provAddr := by
  unfold meshFastProvStsSet
  dsimp only
  split_ifs
  all_goals rfl

namespace FastProv

def stsSet (f : FastProv) (sts : FastProvSts) (clock : BitVec 32) : FastProv :=
  { f with par := meshFastProvStsSet f.par sts clock }

end FastProv

/-- `prov_addr` is the one the PC keeps. -/
def meshFastProvStart (f : FastProv) (pid provAddr : BitVec 16) (clock : BitVec 32) : FastProv :=
  { f with
    par :=
      { f.par with
        pid
        provAddr
        curSts := .start
        lastSts := .start
        startTick := clock ||| 1
        pending := false } }

def meshFastProvValInit : FastProvPar := ⟨0, 0, .idle, .idle, false, 0, 0⟩

/-- The part of it that concerns the state machine. -/
def meshRevertNetwork (f : FastProv) : FastProv := { f with par := meshFastProvValInit }

/-! ### The buffer -/

def meshFastProvMacBufInit (f : FastProv) : FastProv :=
  { f with wIdx := 0, rIdx := 0, macBuf := fun _ => ⟨0, 0, 0⟩ }

def meshFastProvAddMacToBuf (f : FastProv) (rsp : FastProvRsp) : FastProv :=
  let c := f.wIdx % cacheMacMaxNum
  if ∃ i < f.wIdx, (f.macBuf i).defaultAddr = rsp.src then
    { f with macBuf := Function.update f.macBuf c ⟨rsp.mac, rsp.pid, (f.macBuf c).defaultAddr⟩ }
  else if f.wIdx < cacheMacMaxNum then
    { f with macBuf := Function.update f.macBuf c ⟨rsp.mac, rsp.pid, rsp.src⟩, wIdx := f.wIdx + 1 }
  else f

def meshFastProvGetMacFromBuf (f : FastProv) : FastProv × Option FastProvMac :=
  if f.rIdx < f.wIdx then
    ({ f with rIdx := f.rIdx + 1 }, some (f.macBuf (f.rIdx % cacheMacMaxNum)))
  else (f, none)

/-- By the type of the light: CT, HSL, XYL and CT_HSL. -/
def meshFastProvGetEleCnt (pid : BitVec 16) : ℕ :=
  if pid = 1 then 2
  else if pid = 2 then 3
  else if pid = 3 then 3
  else if pid = 5 then 4
  else 1

/-! ### Events -/

def meshFastProvRspHandle (f : FastProv) (rsp : FastProvRsp) (clock : BitVec 32) : FastProv :=
  match f.par.curSts with
  | .getAddr | .getAddrRetry =>
    if rsp.op = .addrGetSts then meshFastProvAddMacToBuf f rsp else f
  | .confirm => if rsp.op = .provConfirmSts then f.stsSet .netInfo clock else f
  | _ => f

def meshFastProvReliableFinishHandle (f : FastProv) (op : ReliableOp) (clock : BitVec 32) :
    FastProv :=
  match f.par.curSts with
  | .getAddr | .getAddrRetry =>
    if op = .addrGet then
      if f.wIdx = 0 then
        if f.par.curSts = .getAddr then f.stsSet .getAddrRetry clock else f.stsSet .netInfo clock
      else f.stsSet .setAddr clock
    else f
  | .setAddr =>
    if op = .addrSet then
      let eleCnt := meshFastProvGetEleCnt (f.macBuf (f.rIdx - 1)).pid
      let f := { f with par.provAddr := f.par.provAddr + BitVec.ofNat 16 eleCnt }
      if f.rIdx = f.wIdx then f.stsSet f.par.lastSts clock else f.stsSet .setAddr clock
    else f
  | .confirm => if op = .provConfirm then f.stsSet .confirmOk clock else f
  | _ => f

/-- It comes at the end of a reliable command; without one, its opcode is zero. -/
def meshTxReliableFinish (f : FastProv) (clock : BitVec 32) : FastProv :=
  match f.reliable with
  | some op => { meshFastProvReliableFinishHandle f op clock with reliable := none }
  | none => f

def fastProvisionTimeoutUs : BitVec 32 := 60 * 1000 * 1000

def meshFastProvisionTimeout (f : FastProv) (clock : BitVec 32) : FastProv :=
  if f.par.startTick ≠ 0 ∧ clockTickExceed clock f.par.startTick fastProvisionTimeoutUs then
    let f := f.stsSet .timeOut clock
    meshRevertNetwork { f with par.startTick := 0 }
  else f

namespace FastProv

/-- The delay after the start of the status is over. -/
def delayOver (f : FastProv) (clock : BitVec 32) : Bool :=
  clockTickExceed clock f.par.startTick (f.par.delay.setWidth 32 * 1000)

/-- The network was reset. -/
def resetOver (f : FastProv) (clock : BitVec 32) : FastProv :=
  if f.par.curSts = .resetNetwork ∧ f.delayOver clock then
    let f := FastProv.stsSet { f with par.delay := 0 } .getAddr clock
    { f with par.pending := false }
  else f

/-- All is done, or it took too long. -/
def completeOver (f : FastProv) (clock : BitVec 32) : FastProv :=
  if (f.par.curSts = .complete ∧ f.delayOver clock) ∨ f.par.curSts = .timeOut then
    let f := (meshRevertNetwork { f with par.delay := 0 }).stsSet .idle clock
    { f with par.pending := false }
  else f

/-- The command of the status, if there is one to send. -/
def switch (f : FastProv) (clock : BitVec 32) : FastProv × Option FastProvCmd :=
  match f.par.curSts with
  | .start =>
    let f := FastProv.stsSet { f with par.delay := 1000 + 500 } .resetNetwork clock
    ({ f with par.pending := true }, some (.resetNetwork 1000))
  | .getAddr => (meshFastProvMacBufInit f, some (.addrGet f.par.pid))
  | .getAddrRetry => (meshFastProvMacBufInit f, some (.addrGetRetry f.par.pid f.par.provAddr))
  | .setAddr =>
    match meshFastProvGetMacFromBuf f with
    | (f, some p) =>
      (f, some (.addrSet (f.macBuf (f.rIdx - 1)).defaultAddr p.mac f.par.provAddr))
    | (f, none) => (f, none)
  | .netInfo => (f.stsSet .confirm clock, some .provDataSet)
  | .confirm => (f, some .provConfirm)
  | .confirmOk =>
    let f := f.stsSet .complete clock
    ({ f with par.delay := 1000, par.pending := true }, some (.provComplete 1000))
  | _ => (f, none)

end FastProv

/-- `busySegment`: segments of an earlier message are on the way. -/
def meshFastProvProc (f : FastProv) (busySegment : Bool) (clock : BitVec 32) :
    FastProv × Option FastProvCmd :=
  if busySegment ∨ f.reliable.isSome then (f, none)
  else
    let f := ((meshFastProvisionTimeout f clock).resetOver clock).completeOver clock
    if f.par.pending then (f, none) else f.switch clock

namespace FastProvCmd

/-- The opcode, for a command that waits for status messages. -/
def reliableOp : FastProvCmd → Option ReliableOp
  | .addrGet _ | .addrGetRetry _ _ => some .addrGet
  | .addrSet _ _ _ => some .addrSet
  | .provConfirm => some .provConfirm
  | .resetNetwork _ | .provDataSet | .provComplete _ => none

end FastProvCmd

/-- `started`: the network layer took the command. -/
def sendOpParaDebugVendor (f : FastProv) (cmd : FastProvCmd) (started : Bool) : FastProv :=
  match cmd.reliableOp with
  | some op => if started then { f with reliable := some op } else f
  | none => f

end PirMesh

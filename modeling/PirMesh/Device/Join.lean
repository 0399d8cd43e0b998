import PirMesh.Flash.ParStore
import PirMesh.Library.Run

/-! # Device — Joining a gateway

The handlers of the gateway's messages (`RD_type_device.c`) and the part of
`main` that decides between sleep, the timer checks and `kick_out`, for a node
that is provisioned.

A boot of a provisioned node either finds the joined flag, lets
`sensorSendData` run the main loop and sleeps, or finds no flag and calls
`kick_out`.  So the `while` loop, with its two checks, is reached only in the
boot in which the node was provisioned. -/

namespace PirMesh

open Nor Nor.Prog Run

/-! ### Flash -/

/-- `rd_node_addr` is kept here. -/
def nodeAdr : Nat := 0x78000

/-- `rd_box_addr` is kept here. -/
def boxAdr : Nat := 0x79000

/-- The joined flag: zero in the first byte. -/
def joinFlagAdr : Nat := 0x7f000

def rdFlashReadData (adr : Nat) : Prog (BitVec 16) := do
  let buffRead ← readAt adr 2
  return buffRead.getD 1 0 ++ buffRead.getD 0 0

def flashReadJoinFlag : Prog Byte := do
  let flag ← readAt joinFlagAdr 1
  return flag.getD 0 0

/-! ### Messages of the gateway -/

/-- The variables of the join procedure; `.bss`, so zero at every boot. -/
structure JoinRam where
  rdNodeAddr : BitVec 16 := 0
  confirmFail : Bool := false
  confirmFailTime : BitVec 32 := 0
  bindAllFlag : Bool := false
  bindTime : BitVec 32 := 0
  confirmDone : Bool := false
  endConfigTime : BitVec 32 := 0
  deriving DecidableEq

/-- A message with the bytes its handler reads; no handler looks at `par_len`. -/
inductive GwMsg
  | cfgBind (par : Vector Byte 2)
  | typeDevice (par : Vector Byte 2)
  | endConfig (par : Vector Byte 8)
  | sendData
  deriving DecidableEq

section

-- what the target's `%` gives for a zero divisor
variable (modZero : BitVec 16 → BitVec 16)

def umod (a b : BitVec 16) : BitVec 16 := if b = 0 then modZero a else a % b

/-- `none` is the return value 0, with `*out` as it was. -/
def moduloCalculate (par1 par2 : BitVec 16) : Option (BitVec 16) :=
  if par2 < par1 then some (umod modZero par1 par2)
  else if par1 < par2 then some (umod modZero par2 par1)
  else none

def rdRogoRuleConfirm (data : Vector Byte 8) : BitVec 16 :=
  let param0 := data[0] ++ data[1]
  let param1 := data[2] ++ data[3]
  let param2 := data[4] ++ data[5]
  let param3 := data[6] ++ data[7]
  ((do
    let modulo ← moduloCalculate modZero param0 param1
    let modulo ← moduloCalculate modZero modulo param2
    moduloCalculate modZero modulo param3) : Option (BitVec 16)).getD 0

structure RuleParams where
  param0 : BitVec 16
  param1 : BitVec 16
  param2 : BitVec 16
  param3 : BitVec 16

/-- The parameters of `rd_rogo_rule_confirm`. -/
def ruleParams (data : Vector Byte 8) : RuleParams :=
  ⟨data[0] ++ data[1], data[2] ++ data[3], data[4] ++ data[5], data[6] ++ data[7]⟩

/-- The test of `end_config`, on what the flash holds. -/
def confirms (f : Flash) (par : Vector Byte 8) : Bool :=
  let confirmData := rdRogoRuleConfirm modZero par
  confirmData ≠ 0 && ((rdFlashReadData nodeAdr).run f).1 == confirmData

/-- Returns the status byte of the answer too: accepted or not. -/
def endConfig (now : BitVec 32) (r : JoinRam) (par : Vector Byte 8) : Prog (JoinRam × Bool) := do
  let rdNodeAddr ← rdFlashReadData nodeAdr
  let r := { r with rdNodeAddr := rdNodeAddr }
  let confirmData := rdRogoRuleConfirm modZero par
  if confirmData ≠ 0 ∧ rdNodeAddr = confirmData then do
    flashEraseSector joinFlagAdr
    writeAt joinFlagAdr [0]
    return ({ r with bindAllFlag := false, endConfigTime := now, confirmDone := true }, true)
  else
    return ({ r with confirmFail := true, confirmFailTime := now }, false)

/-- `RD_mesh_cmd_sig_cfg_bind`, before it goes on to `mesh_cmd_sig_cfg_bind`. -/
def rdMeshCmdSigCfgBind (now : BitVec 32) (r : JoinRam) (par : Vector Byte 2) : Prog JoinRam := do
  flashEraseSector nodeAdr
  writeAt nodeAdr par.toList
  let rdNodeAddr ← rdFlashReadData nodeAdr
  return { r with bindTime := now, bindAllFlag := true, rdNodeAddr := rdNodeAddr }

def saveAddBox (par : Vector Byte 2) : Prog Unit := do
  flashEraseSector boxAdr
  writeAt boxAdr par.toList

/-- The handler of a message; whether it accepted a confirm. -/
def handle (now : BitVec 32) (r : JoinRam) : GwMsg → Prog (JoinRam × Bool)
  | .cfgBind par => do return (← rdMeshCmdSigCfgBind now r par, false)
  | .typeDevice par => do saveAddBox par; return (r, false)
  | .endConfig par => endConfig modZero now r par
  | .sendData => return (r, false)

end

/-! ### Timer checks -/

/-- The condition under which `Join_confirm_check` calls `kick_out`. -/
def joinConfirmCheck (now : BitVec 32) (r : JoinRam) : Bool :=
  r.confirmFail && 1000 ≤ (now - r.confirmFailTime).toNat

/-- The condition under which `confirm_receive_check` calls `kick_out`. -/
def confirmReceiveCheck (now : BitVec 32) (r : JoinRam) : Bool :=
  r.bindAllFlag && 120000 ≤ (now - r.bindTime).toNat

/-- The test for `sleepAfterSend` at the top of the loop; `otaFlag` is never set. -/
def sleepDue (joinState : Byte) (now : BitVec 32) (r : JoinRam) : Bool :=
  joinState == 0 || (r.confirmDone && 1000 ≤ (now - r.endConfigTime).toNat)

/-! ### `main` -/

/-- Which call of `kick_out` removed the node. -/
inductive Removal
  | joinConfirmCheck
  | confirmReceiveCheck
  | main
  deriving DecidableEq

/-- Where `main` is. -/
inductive Phase
  /-- Deep sleep or no power; the next thing is a boot. -/
  | off
  /-- In a `main_loop` that `sensorSendData` calls. -/
  | report
  /-- In the `main_loop` of the `while` loop. -/
  | loop
  | left (cause : Removal)
  deriving DecidableEq

structure Node where
  flash : Flash
  phase : Phase
  /-- The local of `main`, read at boot. -/
  joinState : Byte
  ram : JoinRam
  clock : BitVec 32
  /-- Not in the code: a confirm has been accepted, in this boot or before. -/
  accepted : Bool

inductive NodeEvent
  | boot
  /-- `main_loop` handles a message. -/
  | msg (m : GwMsg)
  /-- `main_loop` returns, `dt` ms after the clock was last advanced. -/
  | tick (dt : Nat)
  /-- `sensorSendData` is done. -/
  | sleepAfterSend
  /-- Power fails after `n` flash operations of the handler of `m`. -/
  | cut (m : GwMsg) (n : Nat)

namespace Node

def running (s : Node) : Bool := s.phase == .report || s.phase == .loop

/-- `main` up to the loop: RAM is zero, the clock starts over. -/
def boot (s : Node) : Node :=
  let joinState := (flashReadJoinFlag.run s.flash).1
  { s with
    joinState := joinState
    ram := {}
    clock := 0
    phase := if joinState = 0 then .report else .left .main }

/-- The rest of a round of the loop after `main_loop`, and the top of the next. -/
def round (s : Node) (now : BitVec 32) : Node :=
  if joinConfirmCheck now s.ram then { s with phase := .left .joinConfirmCheck, clock := now }
  else if confirmReceiveCheck now s.ram then
    { s with phase := .left .confirmReceiveCheck, clock := now }
  else if sleepDue s.joinState now s.ram then { s with phase := .off, clock := now }
  else { s with clock := now }

/-- A message is handled with the clock of the last tick: `system_time_run` comes last. -/
def handled (modZero : BitVec 16 → BitVec 16) (s : Node) (m : GwMsg) : Node :=
  let res := (handle modZero s.clock s.ram m).run s.flash
  { s with flash := res.2, ram := res.1.1, accepted := s.accepted || res.1.2 }

def next (modZero : BitVec 16 → BitVec 16) (s : Node) : NodeEvent → Node
  | .boot => if s.phase = .off then s.boot else s
  | .msg m => if s.running then s.handled modZero m else s
  | .tick dt =>
    let now := s.clock + BitVec.ofNat 32 dt
    match s.phase with
    | .report => { s with clock := now }
    | .loop => s.round now
    | _ => s
  | .sleepAfterSend => if s.phase = .report then { s with phase := .off } else s
  | .cut m n =>
    if s.running then
      { s with flash := (handle modZero s.clock s.ram m).cutAfter n s.flash, phase := .off }
    else s

/-- Any state of a node that has not been removed and has accepted nothing yet. -/
def Provisioned (s : Node) : Prop := (∀ cause, s.phase ≠ .left cause) ∧ s.accepted = false

end Node

def joinSys (modZero : BitVec 16 → BitVec 16) : Sys Node NodeEvent :=
  .det Node.Provisioned (Node.next modZero)

end PirMesh

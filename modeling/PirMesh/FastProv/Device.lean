import PirMesh.Config.KeyClient
import PirMesh.FastProv.Provisioner
import PirMesh.Phone.ProvisioningData

/-! # FastProv — The device (`fast_provision_model.c`)

The vendor messages of a fast-provision session on the node, and
`mesh_fast_prov_proc`.  A handler stores what its message brings at once and
leaves the opcode in one cell (`rcvOp`); the state machine reads that cell at the
next pass.

The Bluetooth address and the product of the node, and the unicast address that
`mesh_flash_retrieve` brings back, are given (`DevConfig`). -/

namespace PirMesh

/-! ### Data -/

structure DevConfig where
  tblMac : BitVec 48
  meshPidSel : BitVec 16
  flashAdr : BitVec 16

/-- The vendor opcodes of a session. -/
inductive VdMeshOp
  | resetNetwork
  | addrGet
  | addrSet
  | provDataSet
  | provConfirm
  | provComplete
  deriving DecidableEq, Repr

/-- A message with its parameters.  An address-get has an element address or not. -/
inductive FastProvMsg
  | resetNetwork (delay : BitVec 16)
  | addrGet (pid : BitVec 16) (eleAddr : Option (BitVec 16))
  | addrSet (mac : BitVec 48) (addr : BitVec 16)
  | provDataSet (data : ProvisonNetInfo) (appkey : MeshAppkeySetT)
  | provConfirm
  | provComplete (delay : BitVec 16)

/-- `fast_prov_net_info_t` -/
structure FastProvNetInfo where
  proData : ProvisonNetInfo
  appkeySet : MeshAppkeySetT

def FastProvNetInfo.zero : FastProvNetInfo :=
  ⟨⟨Vector.replicate 16 0, 0, 0, [0, 0, 0, 0], 0⟩, ⟨⟨0, 0, 0⟩, Vector.replicate 16 0⟩⟩

/-- `fast_prov` on a device, with what it reads of the node: its address, whether it is
provisioned, and whether a network is in flash. -/
structure FastProvDev where
  par : FastProvPar
  getMacEn : Bool
  notNeedProv : Bool
  rcvOp : Option VdMeshOp
  netInfo : FastProvNetInfo
  eleAdrPrimary : BitVec 16
  provisioned : Bool
  stored : Bool
  defaultAddrRandom : Bool

/-- How a session ends: `mesh_revert_network` installs the data or brings the old state back. -/
inductive Outcome
  | installed (info : FastProvNetInfo)
  | timedOut

namespace FastProvDev

variable (cfg : DevConfig) (dev : FastProvDev)

/-! ### The messages -/

def isUnicast (adr : BitVec 16) : Bool := isUnicastAdr adr.toNat

/-- `mesh_set_ele_adr_ll` -/
def meshSetEleAdrLl (adr : BitVec 16) : FastProvDev :=
  if isUnicast adr then { dev with eleAdrPrimary := adr } else dev

def meshFastProvRcvOp (op : VdMeshOp) : FastProvDev := { dev with rcvOp := some op }

def cbVdMeshResetNetwork (delay : BitVec 16) : FastProvDev :=
  if !dev.notNeedProv then dev
  else
    let dev := dev.meshFastProvRcvOp .resetNetwork
    { dev with par.delay := delay }

/-- A random address above the one asked for; the arithmetic is that of `int`. -/
def defaultEleAddr (eleAddr : BitVec 16) (clock : BitVec 32) : BitVec 16 :=
  BitVec.ofInt 16 (eleAddr.toNat + 256 +
    Int.tmod (clock.setWidth 16).toNat (0x8000 - 256 - eleAddr.toNat)) &&& 0x7fff

def cbVdMeshGetAddr (pid : BitVec 16) (eleAddr : Option (BitVec 16)) (clock : BitVec 32) :
    FastProvDev :=
  if dev.notNeedProv ∨ !dev.getMacEn then dev
  else
    let dev :=
      match eleAddr with
      | some adr =>
        if (pid = cfg.meshPidSel ∨ pid = 0xffff) ∧ !dev.defaultAddrRandom then
          meshSetEleAdrLl { dev with defaultAddrRandom := true } (defaultEleAddr adr clock)
        else dev
      | none => dev
    dev.meshFastProvRcvOp .addrGet

def cbVdMeshSetAddr (mac : BitVec 48) (addr : BitVec 16) : FastProvDev :=
  if dev.notNeedProv then dev
  else if mac = cfg.tblMac then
    let dev :=
      if addr ≠ 0 ∧ isUnicast addr then (dev.meshFastProvRcvOp .addrSet).meshSetEleAdrLl addr
      else dev
    { dev with getMacEn := false }
  else dev

def cbVdMeshSetProvisionData (data : ProvisonNetInfo) (appkey : MeshAppkeySetT) : FastProvDev :=
  if dev.notNeedProv then dev
  else
    let dev := dev.meshFastProvRcvOp .provDataSet
    { dev with netInfo := ⟨{ data with unicastAddress := dev.eleAdrPrimary }, appkey⟩ }

def cbVdMeshProvisionConfirm : FastProvDev :=
  if dev.notNeedProv then dev else dev.meshFastProvRcvOp .provConfirm

def cbVdMeshProvisionComplete (delay : BitVec 16) : FastProvDev :=
  let dev := dev.meshFastProvRcvOp .provComplete
  { dev with par.delay := delay }

def receive (clock : BitVec 32) : FastProvMsg → FastProvDev
  | .resetNetwork delay => dev.cbVdMeshResetNetwork delay
  | .addrGet pid eleAddr => dev.cbVdMeshGetAddr cfg pid eleAddr clock
  | .addrSet mac addr => dev.cbVdMeshSetAddr cfg mac addr
  | .provDataSet data appkey => dev.cbVdMeshSetProvisionData data appkey
  | .provConfirm => dev.cbVdMeshProvisionConfirm
  | .provComplete delay => dev.cbVdMeshProvisionComplete delay

/-! ### The state machine -/

def stsSet (sts : FastProvSts) (clock : BitVec 32) : FastProvDev :=
  { dev with par := meshFastProvStsSet dev.par sts clock }

/-- `mesh_fast_prov_val_init` -/
def valInit : FastProvDev :=
  { dev with
    par := meshFastProvValInit
    getMacEn := !dev.provisioned
    notNeedProv := dev.provisioned
    rcvOp := none
    netInfo := .zero }

/-- `mesh_revert_network` -/
def revertNetwork : FastProvDev × Outcome :=
  if !dev.notNeedProv ∧ dev.par.curSts = .complete then
    let info := dev.netInfo
    ((meshSetEleAdrLl { dev with provisioned := true, stored := true }
      info.proData.unicastAddress).valInit, .installed info)
  else
    ((valInit { dev with provisioned := dev.stored, eleAdrPrimary := cfg.flashAdr }), .timedOut)

/-- `mesh_fast_provision_timeout` -/
def provisionTimeout (clock : BitVec 32) : FastProvDev × Option Outcome :=
  if dev.par.startTick ≠ 0 ∧ clockTickExceed clock dev.par.startTick fastProvisionTimeoutUs then
    let dev := dev.stsSet .timeOut clock
    let (dev, outcome) := revertNetwork cfg { dev with par.startTick := 0 }
    (dev, some outcome)
  else (dev, none)

/-- The delay after the start of the status is over. -/
def delayOver (clock : BitVec 32) : Bool :=
  clockTickExceed clock dev.par.startTick (dev.par.delay.setWidth 32 * 1000)

/-- The network is reset; a node that has none stays as it is. -/
def resetOver (clock : BitVec 32) : FastProvDev :=
  if dev.par.curSts = .resetNetwork ∧ dev.delayOver clock then
    stsSet { dev with par.delay := 0, provisioned := false } .confirm clock
  else dev

def completeOver (clock : BitVec 32) : FastProvDev × Option Outcome :=
  if (dev.par.curSts = .complete ∧ dev.delayOver clock) ∨ dev.par.curSts = .timeOut then
    let (dev, outcome) := revertNetwork cfg { dev with par.delay := 0 }
    (dev.stsSet .idle clock, some outcome)
  else (dev, none)

/-- The status that a message leads to, from the status it is expected in. -/
def target : Option VdMeshOp → FastProvSts → Option FastProvSts
  | some .resetNetwork, .idle => some .resetNetwork
  | some .addrGet, .idle => some .getAddr
  | some .addrSet, .getAddr => some .setAddr
  | some .provDataSet, .setAddr => some .netInfo
  | some .provConfirm, .netInfo => some .confirm
  | some .provComplete, .confirm => some .complete
  | _, _ => none

/-- `switch(fast_prov.rcv_op)` -/
def switch (clock : BitVec 32) : FastProvDev :=
  match target dev.rcvOp dev.par.curSts with
  | some sts => dev.stsSet sts clock
  | none => dev

/-- `mesh_fast_prov_proc`; `busy`: a segmented or reliable message is on the way. -/
def proc (busy : Bool) (clock : BitVec 32) : FastProvDev × Option Outcome :=
  if busy then (dev, none)
  else
    let (dev, timedOut) := dev.provisionTimeout cfg clock
    let (dev, done) := (dev.resetOver clock).completeOver cfg clock
    (dev.switch clock, timedOut.or done)

end FastProvDev

/-! ### Runs -/

/-- What happens to a device. -/
inductive DevEvent
  | message (m : FastProvMsg) (clock : BitVec 32)
  | pass (busy : Bool) (clock : BitVec 32)

/-- A device with the messages of the session so far and the sessions that ended. -/
structure DevRun where
  dev : FastProvDev
  received : List FastProvMsg
  outcomes : List Outcome

def DevRun.next (cfg : DevConfig) (r : DevRun) : DevEvent → DevRun
  | .message m clock => { r with dev := r.dev.receive cfg clock m, received := r.received ++ [m] }
  | .pass busy clock =>
    match r.dev.proc cfg busy clock with
    | (dev, none) => { r with dev }
    | (dev, some outcome) => ⟨dev, [], r.outcomes ++ [outcome]⟩

/-- A node that needs provisioning, before the first message of a session. -/
structure DevRun.Begins (r : DevRun) : Prop where
  fresh : r.dev = r.dev.valInit
  needsProv : r.dev.provisioned = false
  empty : r.dev.stored = false
  received : r.received = []
  outcomes : r.outcomes = []

end PirMesh

import Mathlib.Data.BitVec
import Mathlib.Logic.Function.Basic
import PirMesh.FastProv.Device
import PirMesh.Library.Register
import PirMesh.Phone.SegmentQueue

/-! # Phone — Fast provisioning (`SigFastProvisionAddManager.m`, `fast_provision_model.c`)

The manager scans for devices, sets the address of each device of the scan in turn, and scans again
until nothing is found.  The devices answer as in `FastProvDev`; their statuses stay on the way, so
that each may arrive late, more than once, or not at all.  The command of a status calls back once
for each source. -/

namespace PirMesh.FastProvision

open LowerTransport Register

/-! ### Data -/

structure SigFastProvisionModel where
  macAddress : BitVec 48
  sourceUnicastAddress : BitVec 16
  productId : BitVec 16
  address : BitVec 16
  deriving DecidableEq, Repr

/-- The status of an address-get or an address-set, as it leaves a device. -/
structure AddressStatus where
  isSet : Bool
  source : BitVec 16
  macAddress : BitVec 48
  productId : BitVec 16
  deriving DecidableEq, Repr

def SigFastProvisionModel.isAnsweredBy (model : SigFastProvisionModel) (status : AddressStatus) :
    Bool :=
  model.macAddress = status.macAddress ∧ status.productId = model.productId

/-- An address-set message. -/
structure AddressSet where
  address : BitVec 16
  macAddress : BitVec 48
  destination : BitVec 16
  deriving DecidableEq, Repr

/-- A node that is recorded, with its MAC and its address. -/
structure FastNode where
  macAddress : BitVec 48
  address : BitVec 16
  deriving DecidableEq, Repr

/-- Where the manager is.  `sources` are the sources its command has called back for. -/
inductive Phase where
  | resetNetwork
  | getAddress (sources : List (BitVec 16))
  /-- Nothing was found; the retry is delayed. -/
  | getAddressEmpty
  | setAddress (model : SigFastProvisionModel) (message : AddressSet) (sources : List (BitVec 16))
  | getAddressRetry (sources : List (BitVec 16))
  | setNetworkInfo
  | confirm
  | complete
  | success (nodes : List FastNode)
  | fail
  deriving DecidableEq, Repr

/-- The device of the round, with the message that was sent to it. -/
def Phase.round : Phase → Option (SigFastProvisionModel × AddressSet)
  | .setAddress model message _ => some (model, message)
  | _ => none

/-- The product of each device, and what a run is started with. -/
structure Config where
  pid : BitVec 48 → BitVec 16
  productId : BitVec 16
  elementCount : ℕ

/-- A device has the MAC it is numbered by. -/
def Config.device (cfg : Config) (mac : BitVec 48) : DevConfig := ⟨mac, cfg.pid mac, 0⟩

/-- The manager and the devices, with the statuses on the way, the address-set messages so far, and
the devices that adopted an address. -/
structure State where
  provisionAddress : BitVec 16
  scanMacAddressList : List SigFastProvisionModel
  setAddressList : List SigFastProvisionModel
  phase : Phase
  dev : BitVec 48 → FastProvDev
  flight : List AddressStatus
  sent : List AddressSet
  adopted : List (BitVec 48)

def State.start (provisionAddress : BitVec 16) (dev : BitVec 48 → FastProvDev) : State :=
  ⟨provisionAddress, [], [], .resetNetwork, dev, [], [], []⟩

namespace State

variable (cfg : Config) (s : State)

/-! ### The manager -/

def getAddress : State := { s with phase := .getAddress [], scanMacAddressList := [] }

def getAddressRetry : State := { s with phase := .getAddressRetry [], scanMacAddressList := [] }

def setAddress (model : SigFastProvisionModel) : State :=
  let message := ⟨s.provisionAddress, model.macAddress, model.sourceUnicastAddress⟩
  { s with phase := .setAddress model message [], sent := s.sent ++ [message] }

def checkScanMacAddressList : State :=
  match s.scanMacAddressList with
  | model :: _ => s.setAddress model
  | [] => { s with phase := .getAddressEmpty }

def getAddressRetryFinish : State :=
  match s.scanMacAddressList with
  | model :: _ => s.setAddress model
  | [] => { s with phase := if s.setAddressList.length ≠ 0 then .setNetworkInfo else .fail }

/-- The `resultCallback` of `setAddress`, with `setSingleAddressFinish`. -/
def setAddressResult : State :=
  match s.scanMacAddressList.tail with
  | model :: rest => { s with scanMacAddressList := model :: rest }.setAddress model
  | [] => s.getAddress

/-- `fastProvisionSuccessAction`: a node of the same MAC is replaced. -/
def nodes : List FastNode :=
  enterAll FastNode.macAddress [] (s.setAddressList.map fun model =>
    ⟨model.macAddress, model.address⟩)

/-- The delayed selector of the phase runs, or the result of its command is called back. -/
def proceed (hasResponse : Bool) : State :=
  match s.phase with
  | .resetNetwork => s.getAddress
  | .getAddress _ => s.checkScanMacAddressList
  | .getAddressEmpty => s.getAddressRetry
  | .setAddress _ _ _ => s.setAddressResult
  | .getAddressRetry _ => s.getAddressRetryFinish
  | .setNetworkInfo => { s with phase := .confirm }
  | .confirm => { s with phase := if hasResponse then .setNetworkInfo else .complete }
  | .complete => { s with phase := .success s.nodes }
  | .success _ | .fail => s

/-- The command of the phase is found for the status, by opcode and destination, and calls back for
a source that is new. -/
def callsBack (status : AddressStatus) : Bool :=
  match s.phase with
  | .getAddress sources | .getAddressRetry sources =>
    status.isSet = false ∧ sources.contains status.source = false
  | .setAddress _ message sources =>
    status.isSet = true ∧ sources.contains status.source = false ∧
      (isUnicastAddress message.destination = false ∨ message.destination = status.source)
  | _ => false

/-- The `successCallback` of a scan; a retry takes no source. -/
def scanned (status : AddressStatus) (source : BitVec 16) : State :=
  let model := ⟨status.macAddress, source, status.productId, 0⟩
  { s with scanMacAddressList := s.scanMacAddressList ++ [model] }

/-- The `successCallback` of `setAddress`. -/
def addressSet (model : SigFastProvisionModel) (status : AddressStatus) : State :=
  if model.isAnsweredBy status then
    { s with
      setAddressList := s.setAddressList ++ [{ model with address := s.provisionAddress }]
      provisionAddress := s.provisionAddress + BitVec.ofNat 16 cfg.elementCount }
  else s

def deliver (status : AddressStatus) : State :=
  if s.callsBack status then
    match s.phase with
    | .getAddress sources =>
      { s with phase := .getAddress (sources ++ [status.source]) }.scanned status status.source
    | .getAddressRetry sources =>
      { s with phase := .getAddressRetry (sources ++ [status.source]) }.scanned status 0
    | .setAddress model message sources =>
      { s with phase := .setAddress model message (sources ++ [status.source]) }.addressSet cfg
        model status
    | _ => s
  else s

/-! ### The devices -/

/-- The address of one of the elements of a device. -/
def isOwnAddress (mac : BitVec 48) (address : BitVec 16) : Bool :=
  isUnicastAddress address ∧ (s.dev mac).eleAdrPrimary.toNat ≤ address.toNat ∧
    address.toNat < (s.dev mac).eleAdrPrimary.toNat + cfg.elementCount

/-- An address-get reaches a device, which answers from the address it has then. -/
def handleGet (mac : BitVec 48) (clock : BitVec 32) (eleAddr : Option (BitVec 16)) : State :=
  let dev := (s.dev mac).cbVdMeshGetAddr (cfg.device mac) cfg.productId eleAddr clock
  { s with
    dev := Function.update s.dev mac dev
    flight := s.flight ++
      if ((s.dev mac).notNeedProv ∨ !(s.dev mac).getMacEn) ∨
          ¬ (cfg.productId = cfg.pid mac ∨ cfg.productId = 0xffff) then []
      else [⟨false, dev.eleAdrPrimary, mac, cfg.pid mac⟩] }

/-- An address-set reaches a device, which answers from the address it had. -/
def handleSet (mac : BitVec 48) (message : AddressSet) : State :=
  if (s.dev mac).notNeedProv ∨ message.macAddress ≠ mac then s
  else
    { s with
      dev := Function.update s.dev mac
        ((s.dev mac).cbVdMeshSetAddr (cfg.device mac) message.macAddress message.address)
      flight := s.flight ++ [⟨true, (s.dev mac).eleAdrPrimary, mac, cfg.pid mac⟩]
      adopted := s.adopted ++
        if message.address ≠ 0 ∧ FastProvDev.isUnicast message.address then [mac] else [] }

/-- The message of the phase, or one of its repeats, reaches a device. -/
def handle (mac : BitVec 48) (clock : BitVec 32) : State :=
  match s.phase with
  | .getAddress _ => s.handleGet cfg mac clock none
  | .getAddressRetry _ => s.handleGet cfg mac clock (some s.provisionAddress)
  | .setAddress _ message _ =>
    if s.isOwnAddress cfg mac message.destination then s.handleSet cfg mac message else s
  | _ => s

end State

inductive Event where
  | proceed (hasResponse : Bool)
  | handle (mac : BitVec 48) (clock : BitVec 32)
  | deliver (status : AddressStatus)
  deriving DecidableEq, Repr

def State.next (cfg : Config) (s : State) : Event → State
  | .proceed hasResponse => s.proceed hasResponse
  | .handle mac clock => s.handle cfg mac clock
  | .deliver status => if status ∈ s.flight then s.deliver cfg status else s

end PirMesh.FastProvision

import PirMesh.Library.Run
import PirMesh.Phone.Provisioner

/-! # Phone — Provisioning manager (`SigProvisioningManager.m`)

`provisionResponseBlock` is the step whose handler it is.  A handler is called with a response, or
with nil by the timer of any step.  The calls are numbered, so that a callback tells whose it is.
The cancel of a timer is queued, so a timer may still fire after it. -/

namespace PirMesh.Provisioner

open Nor (Byte)
open LowerTransport

inductive Step where
  | getCapabilities | startAndPublicKey | confirmation | random | encryptedData
  deriving DecidableEq, Repr

/-- The type that the handler of a step takes. -/
def Step.awaited : Step → SigProvisioningPduType
  | getCapabilities => .capabilities
  | startAndPublicKey => .publicKey
  | confirmation => .confirmation
  | random => .random
  | encryptedData => .complete

/-- `setState:` leaves `ProvisionigState_fail` at once. -/
inductive ProvisionigState where
  | ready | requestingCapabilities | capabilitiesReceived | provisioning
  deriving DecidableEq, Repr

structure SigProvisioningManager where
  state : ProvisionigState
  provisioningData : Option SessionData
  provisioningCapabilities : ProvisioningCapabilities
  provisionResponseBlock : Option Step
  staticOobData : Option (List Byte)
  unicastAddress : BitVec 16
  networkKey : Option SigIndexedNetkeyModel
  isProvisionning : Bool
  /-- The call whose `provisionSuccessBlock` and `failBlock` are set. -/
  blocks : Option ℕ
  /-- The call whose fail callback the disconnect callback holds. -/
  disconnectCallback : Option ℕ
  /-- The calls of `stopMeshConnectWithComplete:` that are not complete. -/
  stops : ℕ
  /-- The timers that are scheduled. -/
  timers : List Step
  calls : ℕ

/-- What is read at an event: `isOpen` of the bearer, the data source and its setting, and fresh
random octets. -/
structure Surroundings where
  isOpen : Bool
  addStaticOOBDevcieByNoOOBEnable : Bool
  source : ProvisioningSource
  random : List Byte

/-- `generateProvisionerRandomAndProvisionerPublicKey`, the authentication value of static data and
`prepareWithNetwork:networkKey:unicastAddress:`. -/
def SessionData.generated (cr : ProvisioningCrypto) (env : Surroundings)
    (networkKey : SigIndexedNetkeyModel) (unicastAddress : BitVec 16)
    (oobData : Option (List Byte)) (d : SessionData) : SessionData :=
  { d with
    provisionerRandom := env.random
    provisionerPublicKey := cr.publicKeyData
    authValue := oobData.getD d.authValue
    prepared := some (.prepareWithNetwork env.source networkKey unicastAddress) }

/-- What an attempt sees and does. -/
inductive Entry where
  | sent (pduData : List Byte)
  | received (response : SigProvisioningResponse)
  | nodeAdded (address : BitVec 16) (elements : Byte) (deviceKey : List Byte)
  | success (call : ℕ)
  | fail (call : ℕ)
  deriving DecidableEq, Repr

namespace SigProvisioningManager

/-- After `init`. -/
def initial : SigProvisioningManager where
  state := .ready
  provisioningData := none
  provisioningCapabilities := ⟨0, false⟩
  provisionResponseBlock := none
  staticOobData := none
  unicastAddress := 0
  networkKey := none
  isProvisionning := false
  blocks := none
  disconnectCallback := none
  stops := 0
  timers := []
  calls := 0

variable (cr : ProvisioningCrypto) (env : Surroundings) (m : SigProvisioningManager)

def reset : SigProvisioningManager :=
  { m with provisioningCapabilities := ⟨0, false⟩, provisioningData := none, state := .ready }

/-- `self.state = ProvisionigState_fail`. -/
def setStateFail : SigProvisioningManager := { m.reset with stops := m.stops + 1 }

def cancel (step : Step) : SigProvisioningManager :=
  { m with timers := m.timers.filter (· ≠ step) }

/-- A step begins: the timer of the one before is cancelled, its own starts. -/
def await (step : Step) : SigProvisioningManager :=
  { m with provisionResponseBlock := some step, timers := step :: m.timers.filter (· ≠ step) }

/-- What a message to the provisioning data makes of it. -/
def onData (f : SessionData → SessionData) : SigProvisioningManager :=
  { m with provisioningData := m.provisioningData.map f }

/-- A value of the provisioning data, no octets where that is nil. -/
def ofData (f : SessionData → List Byte) : List Byte := (m.provisioningData.map f).getD []

/-! ### The steps -/

/-- `sendPdu:andAccumulateToData:`. -/
def sendPduAndAccumulate (pdu : List Byte) : SigProvisioningManager × List Entry :=
  (m.onData (·.accumulatePduData pdu.tail), [.sent pdu])

def identifyWithAttentionTimer (attentionTimer : Byte) : SigProvisioningManager × List Entry :=
  if m.state ≠ .ready then (m, [])
  else
    sendPduAndAccumulate
      { m with provisioningData := some .alloc, state := .requestingCapabilities }
      (invitePdu attentionTimer)

def getCapabilities : SigProvisioningManager × List Entry :=
  (m.await .getCapabilities).identifyWithAttentionTimer 0

/-- `sentStartNoOobProvisionPduAndPublicKeyPduWithTimeout:callback:`, and with static data
`sentStartStaticOobProvisionPduAndPublicKeyPduWithStaticOobData:timeout:callback:`. -/
def sentStartProvisionPduAndPublicKeyPdu (oobData : Option (List Byte)) :
    SigProvisioningManager × List Entry :=
  match m.networkKey with
  | none => (m, [])
  | some networkKey =>
    if m.state ≠ .capabilitiesReceived ∨ env.isOpen = false then (m, [])
    else
      let generated := onData { m with state := .provisioning }
        (·.generated cr env networkKey m.unicastAddress oobData)
      let (started, start) := generated.sendPduAndAccumulate
        (startPdu (if oobData.isSome then .staticOob else .noOob))
      let (keySent, publicKey) := started.sendPduAndAccumulate
        (publicKeyPdu (started.ofData (·.provisionerPublicKey)))
      ((keySent.cancel .getCapabilities).await .startAndPublicKey, start ++ publicKey)

def sentProvisionConfirmationPdu : SigProvisioningManager × List Entry :=
  let authValue := m.staticOobData.getD (List.replicate 16 0)
  let m := m.onData fun d => { d with authValue := authValue }
  ((m.cancel .startAndPublicKey).await .confirmation,
    [.sent (confirmationPdu (m.ofData (·.provisionerConfirmation cr)))])

def sentProvisionRandomPdu : SigProvisioningManager × List Entry :=
  ((m.cancel .confirmation).await .random, [.sent (randomPdu (m.ofData (·.provisionerRandom)))])

def sentProvisionEncryptedDataWithMicPdu : SigProvisioningManager × List Entry :=
  let m := m.onData fun d => { d with deviceKey := d.deviceKeyOfCalculateKeys cr }
  ((m.cancel .random).await .encryptedData,
    [.sent (encryptedDataWithMicPdu
      (m.ofData (·.encryptedProvisioningDataWithMic cr env.source)))])

/-! ### The handlers -/

/-- What a step does with the PDU it takes. -/
abbrev ResponseHandler : Type :=
  SigProvisioningResponse → SigProvisioningManager → SigProvisioningManager × List Entry

/-- Nil and a failed PDU fail the attempt, a PDU of another type is not handled. -/
def onResponse (step : Step)
    (handled : ResponseHandler)
    (response : Option SigProvisioningResponse) : SigProvisioningManager × List Entry :=
  let m := m.cancel step
  match response with
  | none => (m.setStateFail, [])
  | some response =>
    if response.type = step.awaited then handled response m
    else if response.type = .failed then (m.setStateFail, [])
    else (m, [])

/-- The bearer permitting, the key exchange starts, with the static data where both have them. -/
def onCapabilities (response : SigProvisioningResponse) (m : SigProvisioningManager) :
    SigProvisioningManager × List Entry :=
  let m := onData { m with
      provisioningCapabilities := response.capabilities, state := .capabilitiesReceived }
    (·.accumulatePduData response.octets)
  if m.unicastAddress = 0 then (m.setStateFail, [])
  else if response.capabilities.staticOobInformationAvailable then
    match m.staticOobData with
    | some oobData => m.sentStartProvisionPduAndPublicKeyPdu cr env (some oobData)
    | none =>
      if env.addStaticOOBDevcieByNoOOBEnable then
        m.sentStartProvisionPduAndPublicKeyPdu cr env none
      else (m.setStateFail, [])
  else m.sentStartProvisionPduAndPublicKeyPdu cr env none

def getCapabilitiesResult (response : Option SigProvisioningResponse) :
    SigProvisioningManager × List Entry :=
  m.onResponse .getCapabilities (onCapabilities cr env) response

def onPublicKey (response : SigProvisioningResponse) (m : SigProvisioningManager) :
    SigProvisioningManager × List Entry :=
  let m := m.onData fun d =>
    (d.accumulatePduData response.octets).provisionerDidObtainWithDevicePublicKey cr response.octets
  if m.ofData (·.sharedSecret) ≠ [] then m.sentProvisionConfirmationPdu cr
  else (m.setStateFail, [])

def sentStartProvisionPduAndPublicKeyPduWithResponse (response : Option SigProvisioningResponse) :
    SigProvisioningManager × List Entry :=
  m.onResponse .startAndPublicKey (onPublicKey cr) response

def onConfirmation (response : SigProvisioningResponse) (m : SigProvisioningManager) :
    SigProvisioningManager × List Entry :=
  (m.onData fun d => { d with deviceConfirmation := some response.octets }).sentProvisionRandomPdu

def sentProvisionConfirmationPduWithResponse (response : Option SigProvisioningResponse) :
    SigProvisioningManager × List Entry :=
  m.onResponse .confirmation onConfirmation response

def onRandom (response : SigProvisioningResponse) (m : SigProvisioningManager) :
    SigProvisioningManager × List Entry :=
  let m := m.onData fun d => { d with deviceRandom := response.octets }
  if ∃ d ∈ m.provisioningData, d.validateConfirmation cr then
    m.sentProvisionEncryptedDataWithMicPdu cr env
  else (m.setStateFail, [])

def sentProvisionRandomPduWithResponse (response : Option SigProvisioningResponse) :
    SigProvisioningManager × List Entry :=
  m.onResponse .random (onRandom cr env) response

/-- `provisionSuccess` and the success callback. -/
def provisionSuccess : List Entry :=
  .nodeAdded (((m.provisioningData.bind (·.prepared)).map (·.unicastAddress)).getD 0)
      m.provisioningCapabilities.numberOfElements (m.ofData (·.deviceKey)) ::
    m.blocks.toList.map .success

def onComplete (_ : SigProvisioningResponse) (m : SigProvisioningManager) :
    SigProvisioningManager × List Entry :=
  (m, m.provisionSuccess)

def sentProvisionEncryptedDataWithMicPduWithResponse (response : Option SigProvisioningResponse) :
    SigProvisioningManager × List Entry :=
  let (m, entries) := m.onResponse .encryptedData onComplete response
  ({ m with provisionResponseBlock := none }, entries)

/-- The handler of a step. -/
def respond : Step → Option SigProvisioningResponse → SigProvisioningManager × List Entry
  | .getCapabilities => m.getCapabilitiesResult cr env
  | .startAndPublicKey => m.sentStartProvisionPduAndPublicKeyPduWithResponse cr
  | .confirmation => m.sentProvisionConfirmationPduWithResponse
  | .random => m.sentProvisionRandomPduWithResponse cr env
  | .encryptedData => m.sentProvisionEncryptedDataWithMicPduWithResponse

/-- `provisionResponseBlock(response)`, where it is set. -/
def callResponseBlock (response : Option SigProvisioningResponse) :
    SigProvisioningManager × List Entry :=
  match m.provisionResponseBlock with
  | none => (m, [])
  | some step => m.respond cr env step response

/-- `bearer:didDeliverData:ofType:`. -/
def didDeliverData (data : List Byte) : SigProvisioningManager × List Entry :=
  match (SigProvisioningResponse.initWithData data).filter (·.isValid) with
  | none => (m, [])
  | some response =>
    let (m, entries) := m.callResponseBlock cr env (some response)
    (m, .received response :: entries)

/-- The timer of a step fires. -/
def stepTimeout (step : Step) : SigProvisioningManager × List Entry :=
  (m.cancel step).callResponseBlock cr env none

/-- The callback that `provisionWithUnicastAddress:` sets for a disconnect. -/
def disconnected (isCurrent : Bool) : SigProvisioningManager × List Entry :=
  match m.disconnectCallback with
  | none => (m, [])
  | some call =>
    if isCurrent ∧ m.isProvisionning then ({ m with isProvisionning := false }, [.fail call])
    else (m, [])

/-- The complete block of `setState:`. -/
def stopMeshConnectComplete : SigProvisioningManager × List Entry :=
  if m.stops = 0 then (m, [])
  else ({ m with stops := m.stops - 1 }, m.blocks.toList.map .fail)

end SigProvisioningManager

/-! ### Events -/

/-- The arguments of `provisionWithUnicastAddress:networkKey:netkeyIndex:staticOobData:…`. -/
structure ProvisionCall where
  unicastAddress : BitVec 16
  networkKey : List Byte
  netkeyIndex : BitVec 16
  staticOobData : Option (List Byte)

/-- The new state and whether an attempt was started. -/
def SigProvisioningManager.provision (source : ProvisioningSource) (call : ProvisionCall)
    (m : SigProvisioningManager) : SigProvisioningManager × Option (List Entry) :=
  let m := { m with
    staticOobData := call.staticOobData
    unicastAddress := call.unicastAddress
    blocks := some m.calls
    calls := m.calls + 1 }
  match source.provisionNet call.networkKey call.netkeyIndex with
  | none => (m, none)
  | some net =>
    let (m, entries) := getCapabilities { m.reset with
      networkKey := some net, isProvisionning := true, disconnectCallback := m.blocks }
    (m, some entries)

/-- What happens to an attempt. -/
inductive Occurrence where
  | deliver (data : List Byte) (env : Surroundings)
  | timeout (step : Step) (env : Surroundings)
  | disconnect (isCurrent : Bool)
  | stopMeshConnectComplete

def SigProvisioningManager.occur (cr : ProvisioningCrypto) (m : SigProvisioningManager) :
    Occurrence → SigProvisioningManager × List Entry
  | .deliver data env => m.didDeliverData cr env data
  | .timeout step env => m.stepTimeout cr env step
  | .disconnect isCurrent => m.disconnected isCurrent
  | .stopMeshConnectComplete => m.stopMeshConnectComplete

inductive Event where
  | provision (source : ProvisioningSource) (call : ProvisionCall)
  | occurs (o : Occurrence)

/-- The manager, with what the current attempt saw and did. -/
structure Provisioning where
  manager : SigProvisioningManager
  attempt : List Entry

namespace Provisioning

def initial : Provisioning := ⟨.initial, []⟩

def occur (cr : ProvisioningCrypto) (p : Provisioning) (o : Occurrence) : Provisioning :=
  ⟨(p.manager.occur cr o).1, p.attempt ++ (p.manager.occur cr o).2⟩

/-- An attempt that starts has a list of its own. -/
def start (source : ProvisioningSource) (call : ProvisionCall) (p : Provisioning) : Provisioning :=
  ⟨(p.manager.provision source call).1, (p.manager.provision source call).2.getD p.attempt⟩

def next (cr : ProvisioningCrypto) (p : Provisioning) : Event → Provisioning
  | .provision source call => p.start source call
  | .occurs o => p.occur cr o

end Provisioning

end PirMesh.Provisioner

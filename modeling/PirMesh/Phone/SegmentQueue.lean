import PirMesh.Phone.LowerTransport

/-! # Phone — Sending segments (`SigUpperTransportLayer.m`, `SigLowerTransportLayer.m`)

A message of several segments waits in the queue of its destination.  The head of a queue has its
segments under its SeqZero, until they are all acknowledged or given up; the callback that starts
the next one names the destination only. -/

namespace PirMesh

open Nor (Byte)

namespace LowerTransport

/-! ### Encryption in the upper transport layer (`SigUpperTransportPdu.m`) -/

/-- `calculateCCM`: the ciphertext and its MIC. -/
structure OpenSSLHelper where
  calculateCCM (data key nonce : List Byte) (micSize : Nat) (additionalData : List Byte) : List Byte
  length_calculateCCM : ∀ data key nonce micSize additionalData,
    (calculateCCM data key nonce micSize additionalData).length = data.length + micSize

/-- What sending reads of an access PDU and its key set. -/
structure OutgoingAccessPdu where
  opCode : BitVec 32
  source : BitVec 16
  destination : BitVec 16
  virtualLabel : List Byte
  accessPdu : List Byte
  /-- `SigMeshMessageSecurityHigh`. -/
  securityHigh : Bool
  isSegmented : Bool
  keySet : SigKeySet
  accessKey : List Byte
  deriving DecidableEq, Repr

namespace OutgoingAccessPdu

variable (pdu : OutgoingAccessPdu)

def aszmic : Byte :=
  if pdu.securityHigh ∧ (11 < pdu.accessPdu.length ∨ pdu.isSegmented) then 1 else 0

def nonce (ivIndex sequence : BitVec 32) : List Byte :=
  [(if pdu.keySet.aid ≠ 0 then 1 else 2 : Byte), pdu.aszmic <<< 7] ++
    [(sequence >>> 16).setWidth 8, (sequence >>> 8).setWidth 8, sequence.setWidth 8] ++
    [(pdu.source >>> 8).setWidth 8, pdu.source.setWidth 8] ++
    [(pdu.destination >>> 8).setWidth 8, pdu.destination.setWidth 8] ++
    [(ivIndex >>> 24).setWidth 8, (ivIndex >>> 16).setWidth 8, (ivIndex >>> 8).setWidth 8,
      ivIndex.setWidth 8]

def transportMicSize : Byte := if pdu.aszmic = 0 then 4 else 8

/-- `initFromAccessPdu:usingKeySet:ivIndex:sequence:`. -/
def upperTransportPdu (ssl : OpenSSLHelper) (ivIndex sequence : BitVec 32) :
    SigUpperTransportPdu where
  opCode := pdu.opCode
  source := pdu.source
  destination := pdu.destination
  aid := pdu.keySet.aid
  sequence := sequence
  transportMicSize := pdu.transportMicSize
  transportPdu := ssl.calculateCCM pdu.accessPdu pdu.accessKey (pdu.nonce ivIndex sequence)
    pdu.transportMicSize.toNat pdu.virtualLabel

end OutgoingAccessPdu

/-! ### The state of the sender -/

/-- An entry of `_queues`; the number stands for the object. -/
structure SigUpperTransportModel where
  number : Nat
  pdu : SigUpperTransportPdu
  deriving DecidableEq, Repr

/-- A segment, with the object it is of. -/
structure OutgoingSegment where
  number : Nat
  segment : SigSegmentedMessage
  deriving DecidableEq, Repr

/-- What the network layer is given. -/
inductive LowerPdu where
  | access (pdu : SigUpperTransportPdu)
  | segment (segment : OutgoingSegment)
  | acknowledgment (ack : SigSegmentAcknowledgmentMessage)
  deriving DecidableEq, Repr

structure SigMessageHandle where
  opCode : BitVec 32
  source : BitVec 16
  destination : BitVec 16
  deriving DecidableEq, Repr

/-- What happens to messages of several segments, in order. -/
inductive Output where
  | enqueued (model : SigUpperTransportModel)
  | started (model : SigUpperTransportModel)
  /-- The segments that one round gives to the network layer. -/
  | round (segments : List OutgoingSegment)
  | acknowledged (ack : SigSegmentAcknowledgmentMessage)
  /-- `notifyAboutDeliveringMessage`. -/
  | delivered (number : Nat)
  /-- A handle matches. -/
  | cancelled (model : SigUpperTransportModel)
  deriving DecidableEq, Repr

structure Sender where
  /-- The local sequence number. -/
  sno : BitVec 32
  isOpen : Bool
  /-- By destination. -/
  queues : BitVec 16 → List SigUpperTransportModel
  /-- By SeqZero. -/
  outgoingSegments : BitVec 16 → Option (List (Option OutgoingSegment))
  /-- The limit of the next round, where a timer runs. -/
  segmentTransmissionTimers : BitVec 16 → Option Nat
  /-- The keys with a TX timeout. -/
  incompleteTimers : List (BitVec 32)
  lastNeedSendAckMessage : Option SigSegmentAcknowledgmentMessage
  /-- The objects created so far. -/
  models : Nat
  log : List Output
  /-- The network PDUs that left, with their sequences. -/
  network : List (BitVec 32 × LowerPdu)
  /-- The access PDUs encrypted. -/
  encrypted : List SigUpperTransportPdu

def isUnicastAddress (address : BitVec 16) : Bool :=
  decide (address &&& 0x8000#16 = 0 ∧ address ≠ 0)

def segmentsArrayHasMore (array : List (Option OutgoingSegment)) : Bool := array.any Option.isSome

def firstNotAcknowledgedFrom (array : List (Option OutgoingSegment)) : Option OutgoingSegment :=
  (array.filterMap id).head?

def SigUpperTransportModel.segments (model : SigUpperTransportModel) : List OutgoingSegment :=
  model.pdu.segments.map (OutgoingSegment.mk model.number)

namespace Sender

variable (s : Sender)

def write (output : Output) : Sender := { s with log := s.log ++ [output] }

def setQueue (destination : BitVec 16) (queue : List SigUpperTransportModel) : Sender :=
  { s with queues := Function.update s.queues destination queue }

def setOutgoing (sequenceZero : BitVec 16) (array : Option (List (Option OutgoingSegment))) :
    Sender :=
  { s with outgoingSegments := Function.update s.outgoingSegments sequenceZero array }

def setTransmissionTimer (sequenceZero : BitVec 16) (limit : Option Nat) : Sender :=
  { s with
    segmentTransmissionTimers := Function.update s.segmentTransmissionTimers sequenceZero limit }

def removeIncompleteTimer (key : BitVec 32) : Sender :=
  { s with incompleteTimers := s.incompleteTimers.filter (· ≠ key) }

/-- The segments under a SeqZero; nil has none. -/
def outgoing (sequenceZero : BitVec 16) : List (Option OutgoingSegment) :=
  (s.outgoingSegments sequenceZero).getD []

end Sender

/-- The queued PDUs that a handle is for. -/
def SigMessageHandle.isOf (handle : SigMessageHandle) (model : SigUpperTransportModel) : Bool :=
  decide (model.pdu.opCode = handle.opCode ∧ model.pdu.source = handle.source ∧
    model.pdu.destination = handle.destination)

/-- The network manager: the app's limit, the IV index, and the addresses of the local node. -/
structure SigNetworkManager where
  ssl : OpenSSLHelper
  ivIndex : BitVec 32
  managerLimit : Nat
  address : BitVec 16
  lastUnicastAddress : BitVec 16

namespace SigNetworkManager

variable (manager : SigNetworkManager)

def retransmissionLimit : Nat := max manager.managerLimit 2

def isLocalUnicastAddress (addr : BitVec 16) : Bool :=
  decide (manager.address ≤ addr ∧ addr ≤ manager.lastUnicastAddress)

end SigNetworkManager

def LowerPdu.destination : LowerPdu → BitVec 16
  | .access pdu => pdu.destination
  | .segment seg => seg.segment.destination
  | .acknowledgment ack => ack.destination

namespace Sender

variable (manager : SigNetworkManager)

/-! ### The network layer (`SigNetworkLayer.m`) -/

/-- `sendLowerTransportPdu:ofType:withTtl:ivIndex:`; a PDU for the local node stays. -/
def sendLowerTransportPdu (pdu : LowerPdu) (s : Sender) : Sender :=
  if s.isOpen then
    let s' := { s with sno := updateSequenceNumber s.sno (s.sno + 1) }
    if manager.isLocalUnicastAddress pdu.destination then s'
    else { s' with network := s'.network ++ [(s.sno, pdu)] }
  else s

/-- `sendLowerTransportPdu:ofType:withTtl:` of an acknowledgment. -/
def sendAck (ack : SigSegmentAcknowledgmentMessage) (isSending : Bool) (s : Sender) : Sender :=
  if s.isOpen then
    if isSending then { s with lastNeedSendAckMessage := some ack }
    else
      let s := { s with lastNeedSendAckMessage := none }
      sendLowerTransportPdu manager (.acknowledgment ack) s
  else s

/-- The same of another PDU: an acknowledgment that was put off goes behind it. -/
def sendOther (pdu : LowerPdu) (isSending : Bool) (s : Sender) : Sender :=
  let s' := sendLowerTransportPdu manager pdu s
  match s.lastNeedSendAckMessage with
  | none => s'
  | some ack =>
    if manager.isLocalUnicastAddress pdu.destination then s' else sendAck manager ack isSending s'

/-- A predicate that the network layer keeps: it holds after a PDU, and with another acknowledgment
put off. -/
structure NetworkKeeps (P : Sender → Prop) : Prop where
  send : ∀ s pdu, P s → P (sendLowerTransportPdu manager pdu s)
  putOff : ∀ s ack, P s → P { s with lastNeedSendAckMessage := ack }

namespace NetworkKeeps

variable {manager} {P : Sender → Prop} {s : Sender}

theorem ack (hP : NetworkKeeps manager P) (h : P s) (ack : SigSegmentAcknowledgmentMessage)
    (isSending : Bool) : P (sendAck manager ack isSending s) := by
  unfold sendAck
  dsimp only
  split_ifs
  · exact hP.putOff s (some ack) h
  · exact hP.send _ _ (hP.putOff s none h)
  · exact h

theorem other (hP : NetworkKeeps manager P) (h : P s) (pdu : LowerPdu) (isSending : Bool) :
    P (sendOther manager pdu isSending s) := by
  have hsent := hP.send s pdu h
  unfold sendOther
  dsimp only
  split
  · exact hsent
  · split_ifs
    · exact hsent
    · exact hP.ack hsent _ _

end NetworkKeeps

/-! ### Segments (`SigLowerTransportLayer.m`) -/

/-- `startTXTimeoutWithAddress:sequenceZero:`. -/
def startTXTimeout (address sequenceZero : BitVec 16) (s : Sender) : Sender :=
  let key := getKey address sequenceZero
  { s with incompleteTimers := key :: s.incompleteTimers.filter (· ≠ key) }

/-- The loop of a round: each segment goes to the network layer. -/
def sendRound (segments : List OutgoingSegment) (s : Sender) : Sender :=
  segments.foldl (fun s seg => sendLowerTransportPdu manager (.segment seg) s)
    (s.write (.round segments))

/-- The first destination that is not 0. -/
def roundDestination (segments : List OutgoingSegment) : BitVec 16 :=
  ((segments.map (·.segment.destination)).find? (· ≠ 0)).getD 0

/-- An acknowledgment is expected from a unicast address; the last segment decides. -/
def roundAckExpected (segments : List OutgoingSegment) : Bool :=
  (segments.getLast?.map (isUnicastAddress ·.segment.destination)).getD false

/-- What follows the loop: the timer of the next round, the end at the limit, or that of a message
to a group. -/
def afterRound (didSend : BitVec 16 → Sender → Sender) (sequenceZero : BitVec 16) (limit : Nat)
    (ackExpected : Bool) (array : List (Option OutgoingSegment)) (s : Sender) : Sender :=
  if ackExpected ∧ segmentsArrayHasMore (s.outgoing sequenceZero) then
    if 0 < limit then s.setTransmissionTimer sequenceZero (some (limit - 1))
    else
      -- The segments under the SeqZero go after the callback, whatever it has put there.
      let s := match firstNotAcknowledgedFrom (s.outgoing sequenceZero) with
        | some segment => didSend segment.segment.destination s
        | none => s
      s.setOutgoing sequenceZero none
  else
    let s := match firstNotAcknowledgedFrom array with
      | some segment => s.write (.delivered segment.number)
      | none => s
    s.setOutgoing sequenceZero none

/-- `sendSegmentsForSequenceZero:limit:`; `didSend` is the callback of the upper transport layer,
`lowerTransportLayerDidSendSegmentedUpperTransportPduToDestination:`. -/
def sendSegments (didSend : BitVec 16 → Sender → Sender) (sequenceZero : BitVec 16) (limit : Nat)
    (s : Sender) : Sender :=
  let array := s.outgoing sequenceZero
  if array = [] then s
  else
    let segments := array.filterMap id
    let s := sendRound manager segments s
    let s := if roundAckExpected segments = false ∧ roundDestination segments ≠ 0 then
      didSend (roundDestination segments) s else s
    afterRound didSend sequenceZero limit (roundAckExpected segments) array
      (s.setTransmissionTimer sequenceZero none)

/-- `sendSegmentedUpperTransportPdu:withTtl:usingNetworkKey:ivIndex:`. -/
def sendSegmentedUpperTransportPdu (didSend : BitVec 16 → Sender → Sender)
    (model : SigUpperTransportModel) (s : Sender) : Sender :=
  let sequenceZero := model.pdu.sequenceZero
  let s := startTXTimeout model.pdu.destination sequenceZero (s.write (.started model))
  let s := s.setOutgoing sequenceZero (some (model.segments.map some))
  sendSegments manager didSend sequenceZero manager.retransmissionLimit s

/-- `cancelSendingSegmentedUpperTransportPdu:`. -/
def cancelSending (pdu : SigUpperTransportPdu) (s : Sender) : Sender :=
  (s.setOutgoing pdu.sequenceZero none).setTransmissionTimer pdu.sequenceZero none

/-! ### Queues (`SigUpperTransportLayer.m`) -/

/-- `sendNextToDestination:`.  A callback inside is for the head of this queue. -/
def sendNext (destination : BitVec 16) : List SigUpperTransportModel → Sender → Sender
  | [], s => s
  | model :: queue, s =>
    sendSegmentedUpperTransportPdu manager
      (fun _ s => sendNext destination queue (s.setQueue destination queue)) model s

/-- `lowerTransportLayerDidSendSegmentedUpperTransportPduToDestination:`. -/
def didSend (destination : BitVec 16) (s : Sender) : Sender :=
  match s.queues destination with
  | [] => s
  | _ :: queue => sendNext manager destination queue (s.setQueue destination queue)

/-- `enqueueSigUpperTransportPdu`. -/
def enqueue (pdu : SigUpperTransportPdu) (s : Sender) : Sender :=
  let model : SigUpperTransportModel := ⟨s.models, pdu⟩
  let queue := s.queues pdu.destination ++ [model]
  let s := { s with models := s.models + 1 }.write (.enqueued model)
  let s := s.setQueue pdu.destination queue
  if queue.length = 1 then sendNext manager pdu.destination queue s else s

/-- `sendAccessPdu:withTtl:usingKeySet:command:`, and the one without a command. -/
def sendAccessPdu (accessPdu : OutgoingAccessPdu) (command isSending : Bool) (s : Sender) :
    Sender :=
  let pdu := accessPdu.upperTransportPdu manager.ssl manager.ivIndex s.sno
  let s := { s with encrypted := s.encrypted ++ [pdu] }
  if 15 < pdu.transportPdu.length ∨ accessPdu.isSegmented then enqueue manager pdu s
  else if command then sendLowerTransportPdu manager (.access pdu) s
  else sendOther manager (.access pdu) isSending s

/-- `cancelHandleSigMessageHandle:`. -/
def cancelHandle (handle : SigMessageHandle) (s : Sender) : Sender :=
  match s.queues handle.destination with
  | [] => s
  | model :: queue =>
    let shouldSendNext :=
      decide (model.pdu.opCode = handle.opCode ∧ model.pdu.source = handle.source)
    let s := ((model :: queue).filter handle.isOf).foldl (fun s m => s.write (.cancelled m)) s
    let s := if shouldSendNext then cancelSending model.pdu s else s
    let s := s.setQueue handle.destination ((model :: queue).filter fun m => !handle.isOf m)
    if shouldSendNext then didSend manager handle.destination s else s

/-! ### Acknowledgments and timers (`SigLowerTransportLayer.m`) -/

/-- `handleSegmentAcknowledgmentMessage:`. -/
def handleSegmentAcknowledgment (ack : SigSegmentAcknowledgmentMessage) (s : Sender) : Sender :=
  let s := s.write (.acknowledged ack)
  match firstNotAcknowledgedFrom (s.outgoing ack.sequenceZero) with
  | none => s
  | some segment =>
    let s := s.setTransmissionTimer ack.sequenceZero none
    if ack.isBusy then s.setOutgoing ack.sequenceZero none
    else
      let array := (s.outgoing ack.sequenceZero).mapIdx fun index segment =>
        if ack.isSegmentReceived index then none else segment
      let s := s.setOutgoing ack.sequenceZero (some array)
      if segmentsArrayHasMore array then
        sendSegments manager (didSend manager) ack.sequenceZero manager.retransmissionLimit s
      else
        let s := s.removeIncompleteTimer (getKey ack.source ack.sequenceZero)
        let s := (s.setOutgoing ack.sequenceZero none).write (.delivered segment.number)
        didSend manager segment.segment.destination s

/-- The segment transmission timer fires. -/
def transmissionTimer (sequenceZero : BitVec 16) (s : Sender) : Sender :=
  match s.segmentTransmissionTimers sequenceZero with
  | none => s
  | some limit =>
    sendSegments manager (didSend manager) sequenceZero limit
      (s.setTransmissionTimer sequenceZero none)

/-- The TX timeout fires. -/
def txTimeout (address sequenceZero : BitVec 16) (s : Sender) : Sender :=
  let key := getKey address sequenceZero
  if key ∈ s.incompleteTimers then
    let s := s.removeIncompleteTimer key
    let s := match firstNotAcknowledgedFrom (s.outgoing sequenceZero) with
      | some segment => didSend manager segment.segment.destination s
      | none => s
    s.setOutgoing sequenceZero none
  else s

/-! ### Runs -/

inductive Event where
  | sendAccessPdu (pdu : OutgoingAccessPdu) (command isSending : Bool)
  | acknowledgment (ack : SigSegmentAcknowledgmentMessage)
  | transmissionTimer (sequenceZero : BitVec 16)
  | txTimeout (address sequenceZero : BitVec 16)
  | cancel (handle : SigMessageHandle)
  | sendAck (ack : SigSegmentAcknowledgmentMessage) (isSending : Bool)
  /-- The replay check of a received PDU. -/
  | received (sequence : BitVec 24)
  /-- The bearer opens or closes. -/
  | bearer (isOpen : Bool)
  deriving DecidableEq, Repr

def next (s : Sender) : Event → Sender
  | .sendAccessPdu pdu command isSending => sendAccessPdu manager pdu command isSending s
  | .acknowledgment ack => handleSegmentAcknowledgment manager ack s
  | .transmissionTimer sequenceZero => transmissionTimer manager sequenceZero s
  | .txTimeout address sequenceZero => txTimeout manager address sequenceZero s
  | .cancel handle => cancelHandle manager handle s
  | .sendAck ack isSending => sendAck manager ack isSending s
  | .received sequence => { s with sno := updateSequenceNumber s.sno (sequence.setWidth 32) }
  | .bearer isOpen => { s with isOpen }

/-- Nothing sent yet. -/
def init (sno : BitVec 32) : Sender where
  sno := sno
  isOpen := true
  queues := fun _ => []
  outgoingSegments := fun _ => none
  segmentTransmissionTimers := fun _ => none
  incompleteTimers := []
  lastNeedSendAckMessage := none
  models := 0
  log := []
  network := []
  encrypted := []

end Sender

/-! ### Samples -/

/-- A cipher that only puts zeros behind the plaintext. -/
def plainSsl : OpenSSLHelper where
  calculateCCM := fun data _ _ micSize _ => data ++ List.replicate micSize 0
  length_calculateCCM := by simp

def sampleManager : SigNetworkManager := ⟨plainSsl, 0, 20, 1, 1⟩

/-- An access PDU of two segments from the local node. -/
def longPdu (destination : BitVec 16) : OutgoingAccessPdu where
  opCode := 0x8202
  source := 1
  destination := destination
  virtualLabel := []
  accessPdu := List.replicate 16 7
  securityHigh := false
  isSegmented := false
  keySet := .device
  accessKey := []

end LowerTransport

end PirMesh

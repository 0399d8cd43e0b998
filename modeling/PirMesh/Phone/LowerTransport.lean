import PirMesh.Phone.Segments

/-! # Phone — Reception in the lower transport layer (`SigLowerTransportLayer.m`)

A network PDU passes the replay check and is delivered at once, or goes to the reassembly of its
source and SeqZero.  The check reads the last sequence of the source from the user defaults, where
no routine stores one. -/

namespace PirMesh

open Nor (Byte)

namespace LowerTransport

/-- The segments by source and SeqZero, the last acknowledgment by source. -/
structure SigLowerTransportLayer where
  incompleteSegments : BitVec 32 → Option (List (Option SigSegmentedMessage))
  acknowledgments : BitVec 16 → Option SigSegmentAcknowledgmentMessage
  /-- `_defaults`, by the address of a node. -/
  defaults : BitVec 16 → Option (BitVec 32)
  /-- The local sequence number. -/
  sno : BitVec 32
  /-- The acknowledgments sent so far. -/
  sent : List SigSegmentAcknowledgmentMessage
  /-- The app has died of an exception. -/
  terminated : Bool

/-- `initWithNetworkManager:`, with nothing in the user defaults. -/
def SigLowerTransportLayer.init : SigLowerTransportLayer where
  incompleteSegments := fun _ => none
  acknowledgments := fun _ => none
  defaults := fun _ => none
  sno := 0
  sent := []
  terminated := false

/-- `getKeyForAddress:sequenceZero:`. -/
def getKey (address sequenceZero : BitVec 16) : BitVec 32 :=
  address.setWidth 32 <<< 16 ||| (sequenceZero &&& 0x1FFF#16).setWidth 32

def seqAuth (ivIndex sequence : BitVec 32) : BitVec 64 :=
  ivIndex.setWidth 64 <<< 24 ||| sequence.setWidth 64

/-- `updateCurrentProvisionerIntSequenceNumber:`, of the local number. -/
def updateSequenceNumber (sno sequenceNumber : BitVec 32) : BitVec 32 :=
  if sequenceNumber.slt sno then sno else sequenceNumber

namespace SigLowerTransportLayer

variable (layer : SigLowerTransportLayer)

def setIncomplete (key : BitVec 32) (segments : Option (List (Option SigSegmentedMessage))) :
    SigLowerTransportLayer :=
  { layer with incompleteSegments := Function.update layer.incompleteSegments key segments }

def setAcknowledgment (source : BitVec 16) (ack : Option SigSegmentAcknowledgmentMessage) :
    SigLowerTransportLayer :=
  { layer with acknowledgments := Function.update layer.acknowledgments source ack }

@[simp] theorem setIncomplete_self (key : BitVec 32)
    (segments : Option (List (Option SigSegmentedMessage))) :
    (layer.setIncomplete key segments).incompleteSegments key = segments :=
  Function.update_self ..

theorem setIncomplete_of_ne {key key' : BitVec 32} (h : key' ≠ key)
    (segments : Option (List (Option SigSegmentedMessage))) :
    (layer.setIncomplete key segments).incompleteSegments key' = layer.incompleteSegments key' :=
  Function.update_of_ne h ..

def sendAck (ack : SigSegmentAcknowledgmentMessage) : SigLowerTransportLayer :=
  { layer with sent := layer.sent ++ [ack] }

/-- `sendAckForSegments:`: the acknowledgment of a complete message is kept. -/
def sendAckForSegments (segments : List (Option SigSegmentedMessage)) : SigLowerTransportLayer :=
  match SigSegmentAcknowledgmentMessage.initForSegments segments with
  | none => layer
  | some ack =>
    if segments.all Option.isSome then
      (layer.setAcknowledgment ack.destination (some ack)).sendAck ack
    else layer.sendAck ack

/-- A local node, at its unicast address, sends an acknowledgment. -/
def acknowledge (node : Option (BitVec 16)) (destination : BitVec 16)
    (segments : List (Option SigSegmentedMessage)) : SigLowerTransportLayer :=
  if node = some destination then layer.sendAckForSegments segments else layer

/-- The part of `assembleSegmentedMessage:createdFrom:` for a message of several segments. -/
def collect (node : Option (BitVec 16)) (segment : SigSegmentedMessage)
    (networkPdu : SigNetworkPdu) : SigLowerTransportLayer × Option SigLowerTransportPdu :=
  let key := getKey networkPdu.source segment.sequenceZero
  let array := (layer.incompleteSegments key).getD (List.replicate segment.count none)
  if array.length ≤ segment.index then (layer.setIncomplete key (some array), none)
  else
    let array := array.set segment.index (some segment)
    if array.all Option.isSome then
      let layer := layer.setIncomplete key none
      match node with
      | none => (layer, none)
      | some _ =>
        (layer.acknowledge node networkPdu.destination array,
          initFromSegments (array.filterMap id))
    else (layer.setIncomplete key (some array), none)

/-- `assembleSegmentedMessage:createdFrom:`. -/
def assembleSegmentedMessage (node : Option (BitVec 16)) (segment : SigSegmentedMessage)
    (networkPdu : SigNetworkPdu) : SigLowerTransportLayer × Option SigLowerTransportPdu :=
  let lastAck := layer.acknowledgments segment.source
  if lastAck.map (·.sequenceZero) = some segment.sequenceZero then
    match node, lastAck with
    | some _, some ack => (layer.sendAck ack, none)
    | _, _ => (layer.setAcknowledgment segment.source none, none)
  else
    let layer := layer.setAcknowledgment segment.source none
    if segment.isSingleSegment then
      match node with
      | none => (layer, none)
      | some _ =>
        (layer.acknowledge node networkPdu.destination [some segment], initFromSegments [segment])
    else layer.collect node segment networkPdu

/-- The same for nil, whose source, SeqZero, offset and count are 0: an array of an earlier segment
gets nil, which is an exception. -/
def assembleNil (node : Option (BitVec 16)) (networkPdu : SigNetworkPdu) :
    SigLowerTransportLayer :=
  let lastAck := layer.acknowledgments 0
  if lastAck.map (·.sequenceZero) = some 0 then
    match node, lastAck with
    | some _, some ack => layer.sendAck ack
    | _, _ => layer.setAcknowledgment 0 none
  else
    let layer := layer.setAcknowledgment 0 none
    let key := getKey networkPdu.source 0
    match (layer.incompleteSegments key).getD [] with
    | [] => layer.setIncomplete key (some [])
    | _ :: _ => { layer with terminated := true }

/-- `checkAgainstReplayAttackWithNetworkPdu:`; `none` where the PDU is discarded.  A nil
acknowledgment has SeqZero 0. -/
def checkAgainstReplayAttack (ivIndex : BitVec 32) (networkPdu : SigNetworkPdu) :
    Option SigLowerTransportLayer :=
  let sequence := networkPdu.messageSequence
  let sequenceZero := sequenceZeroOf sequence
  let key := getKey networkPdu.source sequenceZero
  let msg := layer.acknowledgments networkPdu.source
  let reassemblyInProgress := networkPdu.isSegmented &&
    ((layer.incompleteSegments key).isSome ||
      decide ((msg.map (·.sequenceZero)).getD 0 = sequenceZero))
  let accepted := match layer.defaults networkPdu.source with
    | none => true
    | some lastSequence =>
      decide (seqAuth ivIndex lastSequence < seqAuth ivIndex sequence) ||
        (reassemblyInProgress && decide (seqAuth ivIndex sequence = seqAuth ivIndex lastSequence))
  if accepted then some { layer with sno := updateSequenceNumber layer.sno sequence } else none

/-- `handleNetworkPdu:`, with what is delivered to the upper transport layer.  A segment
acknowledgment goes to the sender's side. -/
def handleNetworkPdu (node : Option (BitVec 16)) (ivIndex : BitVec 32)
    (networkPdu : SigNetworkPdu) : SigLowerTransportLayer × Option SigLowerTransportPdu :=
  if layer.terminated ∨ networkPdu.transportPdu.length ≤ 1 then (layer, none)
  else
    match layer.checkAgainstReplayAttack ivIndex networkPdu with
    | none => (layer, none)
    | some layer =>
      if networkPdu.isSegmented then
        match networkPdu.segment with
        | some segment => layer.assembleSegmentedMessage node segment networkPdu
        | none => (layer.assembleNil node networkPdu, none)
      else if networkPdu.type = .controlMessage ∧ networkPdu.octet 0 &&& 0x7F#8 = 0 then
        (layer, none)
      else (layer, networkPdu.unsegmented)

end SigLowerTransportLayer

end LowerTransport

end PirMesh

import Mathlib.Algebra.GroupWithZero.Nat
import Mathlib.Data.BitVec
import Mathlib.Logic.Function.Basic
import PirMesh.Library.Nor

/-! # Phone — Segments (`SigSegmentedAccessMessage.m`, `SigAccessMessage.m`, `SigPdu.m`)

A transport PDU is cut into segments of 12 octets.  A segment has the last 13 bits of the
sequence number of its message; the receiver takes the other 11 bits from the sequence number of
the network PDU that the segment came in. -/

namespace PirMesh

open Nor (Byte)

namespace LowerTransport

/-- A message is signed with an application key, or with a device key, which has no AID. -/
inductive SigKeySet where
  | access (aid : BitVec 6)
  | device
  deriving DecidableEq, Repr

def SigKeySet.aid : SigKeySet → Byte
  | access aid => aid.setWidth 8
  | device => 0

structure SigUpperTransportPdu where
  /-- That of the message. -/
  opCode : BitVec 32
  source : BitVec 16
  destination : BitVec 16
  aid : Byte
  sequence : BitVec 32
  transportMicSize : Byte
  transportPdu : List Byte
  deriving DecidableEq, Repr

inductive SigLowerTransportPduType where
  | accessMessage
  | controlMessage
  deriving DecidableEq, Repr

/-- A network PDU behind its decryption. -/
structure SigNetworkPdu where
  type : SigLowerTransportPduType
  sequence : BitVec 32
  source : BitVec 16
  destination : BitVec 16
  transportPdu : List Byte
  deriving DecidableEq, Repr

/-- What an access message and a control message do not share. -/
inductive Kind where
  | access (aid transportMicSize : Byte)
  | control (opCode : Byte)
  deriving DecidableEq, Repr

/-- `SigSegmentedAccessMessage` or `SigSegmentedControlMessage`; the code keeps the sequence of an
access message only. -/
structure SigSegmentedMessage where
  kind : Kind
  source : BitVec 16
  destination : BitVec 16
  sequence : BitVec 32
  sequenceZero : BitVec 16
  segmentOffset : Byte
  lastSegmentNumber : Byte
  upperTransportPdu : List Byte
  deriving DecidableEq, Repr

/-- `SigAccessMessage` or `SigControlMessage`. -/
structure SigLowerTransportPdu where
  kind : Kind
  source : BitVec 16
  destination : BitVec 16
  sequence : BitVec 32
  upperTransportPdu : List Byte
  deriving DecidableEq, Repr

/-! ### Sending -/

/-- The last 13 bits. -/
def sequenceZeroOf (sequence : BitVec 32) : BitVec 16 := (sequence &&& 0x1FFF#32).setWidth 16

namespace SigUpperTransportPdu

variable (pdu : SigUpperTransportPdu)

def sequenceZero : BitVec 16 := sequenceZeroOf pdu.sequence

/-- The number of segments. -/
def count : Nat := (pdu.transportPdu.length + 11) / 12

/-- `initFromUpperTransportPdu` of an access segment. -/
def segment (offset : Nat) : SigSegmentedMessage where
  kind := .access pdu.aid pdu.transportMicSize
  source := pdu.source
  destination := pdu.destination
  sequence := pdu.sequence
  sequenceZero := pdu.sequenceZero
  segmentOffset := BitVec.ofNat 8 offset
  lastSegmentNumber := BitVec.ofNat 8 pdu.count - 1
  upperTransportPdu :=
    let lowerBound := offset * 12
    let upperBound := min pdu.transportPdu.length ((offset + 1) * 12)
    (pdu.transportPdu.drop lowerBound).take (upperBound - lowerBound)

/-- The segments that `sendSegmentedUpperTransportPdu` creates. -/
def segments : List SigSegmentedMessage := (List.range pdu.count).map pdu.segment

end SigUpperTransportPdu

namespace SigSegmentedMessage

variable (segment : SigSegmentedMessage)

def octet0 : Byte :=
  match segment.kind with
  | .access aid _ => if aid ≠ 0 then 0x80#8 ||| 0x40#8 ||| aid else 0x80
  | .control opCode => 0x80#8 ||| (opCode &&& 0x7F#8)

/-- A control segment is never sent. -/
def octet1 : Byte :=
  match segment.kind with
  | .access _ transportMicSize =>
    (transportMicSize <<< 4 &&& 0x80#8) ||| (segment.sequenceZero >>> 6).setWidth 8
  | .control _ => (segment.sequenceZero >>> 5).setWidth 8

def octet2 : Byte :=
  ((segment.sequenceZero &&& 0x3F#16) <<< 2).setWidth 8 ||| segment.segmentOffset >>> 3

def octet3 : Byte :=
  (segment.segmentOffset &&& 0x07#8) <<< 5 ||| (segment.lastSegmentNumber &&& 0x1F#8)

def transportPdu : List Byte :=
  [segment.octet0, segment.octet1, segment.octet2, segment.octet3] ++ segment.upperTransportPdu

def isSingleSegment : Bool := decide (segment.lastSegmentNumber = 0)

def index : Nat := segment.segmentOffset.toNat

def count : Nat := segment.lastSegmentNumber.toNat + 1

end SigSegmentedMessage

/-! ### Receiving -/

/-- The 13 bits of two octets. -/
def sequenceZeroFrom (tem1 tem2 : Byte) : BitVec 16 :=
  (tem1 &&& 0x7F#8).setWidth 16 <<< 6 ||| (tem2 >>> 2).setWidth 16

/-- The 11 bits of a network PDU and the 13 bits of a segment. -/
def sequenceFrom (sequence : BitVec 32) (sequenceZero : BitVec 16) : BitVec 32 :=
  sequence &&& 0xFFE000#32 ||| sequenceZero.setWidth 32

/-- The AID, which is 0 where the AKF bit is not set. -/
def aidFrom (tem : Byte) : Byte := if tem &&& 0x40#8 ≠ 0 then tem &&& 0x3F#8 else 0

namespace SigNetworkPdu

variable (networkPdu : SigNetworkPdu)

def octet (i : Nat) : Byte := networkPdu.transportPdu.getD i 0

def isSegmented : Bool := decide (networkPdu.octet 0 &&& 0x80#8 ≠ 0)

def messageSequence : BitVec 32 :=
  if networkPdu.isSegmented then
    sequenceFrom networkPdu.sequence (sequenceZeroFrom (networkPdu.octet 1) (networkPdu.octet 2))
  else networkPdu.sequence

/-- `initFromSegmentedPdu`, of an access or of a control segment; `none` for nil. -/
def segment : Option SigSegmentedMessage :=
  let tem := networkPdu.octet 0
  let tem1 := networkPdu.octet 1
  let tem2 := networkPdu.octet 2
  let tem3 := networkPdu.octet 3
  let sequenceZero := sequenceZeroFrom tem1 tem2
  let segmentOffset := (tem2 &&& 0x03#8) <<< 3 ||| (tem3 &&& 0xE0#8) >>> 5
  let lastSegmentNumber := tem3 &&& 0x1F#8
  if networkPdu.transportPdu.length < 5 ∨ tem &&& 0x80#8 = 0 then none
  else if networkPdu.type = .controlMessage ∧ tem &&& 0x7F#8 = 0 then none
  else if lastSegmentNumber < segmentOffset then none
  else some
    { kind :=
        match networkPdu.type with
        | .accessMessage => .access (aidFrom tem) (if tem1 >>> 7 = 0 then 4 else 8)
        | .controlMessage => .control (tem &&& 0x7F#8)
      source := networkPdu.source
      destination := networkPdu.destination
      sequence := sequenceFrom networkPdu.sequence sequenceZero
      sequenceZero
      segmentOffset
      lastSegmentNumber
      upperTransportPdu := networkPdu.transportPdu.drop 4 }

/-- `initFromUnsegmentedPdu`, or `initFromNetworkPdu` of a control message; `none` for nil. -/
def unsegmented : Option SigLowerTransportPdu :=
  let tem := networkPdu.octet 0
  let message (kind : Kind) : SigLowerTransportPdu :=
    { kind
      source := networkPdu.source
      destination := networkPdu.destination
      sequence := networkPdu.sequence
      upperTransportPdu := networkPdu.transportPdu.drop 1 }
  match networkPdu.type with
  | .accessMessage =>
    if networkPdu.transportPdu.length < 6 ∨ tem &&& 0x80#8 ≠ 0 then none
    else some (message (.access (aidFrom tem) 4))
  | .controlMessage =>
    if networkPdu.transportPdu.length < 1 ∨ tem &&& 0x80#8 ≠ 0 then none
    else some (message (.control (tem &&& 0x7F#8)))

end SigNetworkPdu

/-- `initFromSegments`: the first segment stands for all. -/
def initFromSegments : List SigSegmentedMessage → Option SigLowerTransportPdu
  | [] => none
  | segment :: rest => some
    { kind := segment.kind
      source := segment.source
      destination := segment.destination
      sequence := segment.sequence
      upperTransportPdu := (segment :: rest).flatMap (·.upperTransportPdu) }

/-! ### Segment acknowledgments (`SigSegmentAcknowledgmentMessage.m`) -/

structure SigSegmentAcknowledgmentMessage where
  source : BitVec 16
  destination : BitVec 16
  sequenceZero : BitVec 16
  blockAck : BitVec 32
  deriving DecidableEq, Repr

namespace SigSegmentAcknowledgmentMessage

/-- `initForSegments`: the bits of the segments that are there; `none` where none is. -/
def initForSegments (segments : List (Option SigSegmentedMessage)) :
    Option SigSegmentAcknowledgmentMessage :=
  (segments.filterMap id).head?.map fun segment =>
    { source := segment.destination
      destination := segment.source
      sequenceZero := segment.sequenceZero
      blockAck := (segments.filterMap id).foldl
        (fun ack seg => ack ||| 1#32 <<< seg.segmentOffset.toNat) 0 }

def isSegmentReceived (ack : SigSegmentAcknowledgmentMessage) (m : Nat) : Bool :=
  decide (ack.blockAck &&& 1#32 <<< m ≠ 0)

def isBusy (ack : SigSegmentAcknowledgmentMessage) : Bool := decide (ack.blockAck = 0)

end SigSegmentAcknowledgmentMessage

end LowerTransport

end PirMesh

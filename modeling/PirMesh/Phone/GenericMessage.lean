import Mathlib.Data.BitVec
import PirMesh.Library.Format
import PirMesh.Phone.ConfigMessage
import PirMesh.Phone.SchedulerMessage

/-! # Phone — Generic, sensor, time and lightness messages (`SigGenericMessage.m`)

The classes of these messages come in a few shapes: which lengths their parameters may have,
and which fields stand in them.  A class is its shape at its own opcode and fields, and keeps
its own body where it does something else. -/

namespace PirMesh.GenericMessage

open Nor (Byte toLE ofLE)
open ConfigMessage (SigStepResolution)

/-! ### Octets -/

/-- An absent `NSData` has none. -/
def octets (data : Option (List Byte)) : List Byte := data.getD []

def u8 : Format Byte := .word 8 1

def u16 : Format (BitVec 16) := .word 16 2

/-- Three octets of a `UInt32`. -/
def u24 : Format (BitVec 32) := .word 32 3

/-- Five octets of a `UInt64`, which the mask `0xFFFFFFFFFF` keeps. -/
def u40 : Format (BitVec 64) := .word 64 5

/-! ### Values (`SigModel.m`) -/

structure SigTransitionTime where
  steps : Byte
  stepResolution : SigStepResolution
  deriving DecidableEq, Repr

namespace SigTransitionTime

def initWithRawValue (rawValue : Byte) : SigTransitionTime :=
  ⟨rawValue &&& 0x3F, .ofRaw (rawValue >>> 6)⟩

def rawValue (t : SigTransitionTime) : Byte :=
  (t.steps &&& (0x3F : Byte)) ||| (t.stepResolution.rawValue <<< 6)

def format : Format SigTransitionTime := u8.record initWithRawValue rawValue

end SigTransitionTime

structure SigTimeModel where
  TAISeconds : BitVec 64
  subSeconds : Byte
  uncertainty : Byte
  timeAuthority : Byte
  taiUTCDelta : BitVec 16
  timeZoneOffset : Byte
  deriving DecidableEq, Repr

namespace SigTimeModel

/-- Of the ten octets that the classes ask for. -/
def initWithParameters (parameters : List Byte) : SigTimeModel :=
  let tem16 := u16.get ((parameters.drop 7).take 2)
  { TAISeconds := u40.get (parameters.take 5)
    subSeconds := parameters.getD 5 0
    uncertainty := parameters.getD 6 0
    timeAuthority := ((tem16 >>> 15) &&& 0b1).setWidth 8
    taiUTCDelta := tem16 &&& 0x7FFF
    timeZoneOffset := parameters.getD 9 0 }

/-- The seconds lose their fifth octet, and the sub-seconds stand for the delta. -/
def getTimeParameters (t : SigTimeModel) : List Byte :=
  let tem16 : BitVec 16 := (t.timeAuthority.setWidth 16 <<< 15) ||| t.subSeconds.setWidth 16
  u40.put (t.TAISeconds &&& 0xFFFFFFFF) ++ [t.subSeconds, t.uncertainty] ++ u16.put tem16 ++
    [t.timeZoneOffset]

def format : Format SigTimeModel := ⟨10, getTimeParameters, initWithParameters⟩

end SigTimeModel

structure SigSensorDescriptorModel where
  propertyID : BitVec 16
  positiveTolerance : BitVec 16
  negativeTolerance : BitVec 16
  samplingFunction : Byte
  measurementPeriod : Byte
  updateInterval : Byte
  deriving DecidableEq, Repr

namespace SigSensorDescriptorModel

/-- The tolerances are two octets each, and the sampling function is the last of them. -/
def initWithDescriptorParameters (parameters : List Byte) : Option SigSensorDescriptorModel :=
  if parameters.length ≠ 2 ∧ parameters.length ≠ 8 then none
  else
    let propertyID := u16.get (parameters.take 2)
    if parameters.length > 2 then
      some
        { propertyID := propertyID
          positiveTolerance := u16.get ((parameters.drop 2).take 2)
          negativeTolerance := u16.get ((parameters.drop 4).take 2)
          samplingFunction := parameters.getD 5 0
          measurementPeriod := parameters.getD 6 0
          updateInterval := parameters.getD 7 0 }
    else some ⟨propertyID, 0, 0, 0, 0, 0⟩

def getDescriptorParameters (d : SigSensorDescriptorModel) : List Byte :=
  u16.put d.propertyID ++
    if d.positiveTolerance ≠ 0 then
      u16.put d.positiveTolerance ++ u16.put d.negativeTolerance ++
        [d.samplingFunction, d.measurementPeriod, d.updateInterval]
    else []

end SigSensorDescriptorModel

/-! ### Fields -/

structure Range where
  rangeMin : BitVec 16
  rangeMax : BitVec 16
  deriving DecidableEq, Repr

structure RangeStatus extends Range where
  status : Byte
  deriving DecidableEq, Repr

structure BatteryStatus where
  batteryLevel : Byte
  timeToDischarge : BitVec 32
  timeToCharge : BitVec 32
  flags : Byte
  deriving DecidableEq, Repr

structure ZoneChange where
  timeZoneOffsetNew : Byte
  TAIOfZoneChange : BitVec 64
  deriving DecidableEq, Repr

structure ZoneStatus extends ZoneChange where
  timeZoneOffsetCurrent : Byte
  deriving DecidableEq, Repr

/-- A difference between TAI and UTC, with the bit under it. -/
structure Delta where
  delta : BitVec 16
  padding : Byte
  deriving DecidableEq, Repr

structure DeltaChange where
  taiUTCDeltaNew : Delta
  TAIOfDeltaChange : BitVec 64
  deriving DecidableEq, Repr

structure DeltaStatus extends DeltaChange where
  taiUTCDeltaCurrent : Delta
  deriving DecidableEq, Repr

def Delta.ofWord (tem16 : BitVec 16) : Delta :=
  ⟨(tem16 >>> 1) &&& 0x7FFF, (tem16 &&& 0b1).setWidth 8⟩

def Delta.word (d : Delta) : BitVec 16 :=
  ((d.delta &&& (0x7FFF : BitVec 16)) <<< 1) ||| (d.padding &&& (0b1 : Byte)).setWidth 16

def range : Format Range :=
  (u16.pair u16).record (fun p => ⟨p.1, p.2⟩) (fun r => (r.rangeMin, r.rangeMax))

def rangeStatus : Format RangeStatus :=
  (u8.pair range).record (fun p => ⟨p.2, p.1⟩) (fun r => (r.status, r.toRange))

def batteryStatus : Format BatteryStatus :=
  (u8.pair (u24.pair (u24.pair u8))).record (fun p => ⟨p.1, p.2.1, p.2.2.1, p.2.2.2⟩)
    (fun b => (b.batteryLevel, b.timeToDischarge, b.timeToCharge, b.flags))

def zoneChange : Format ZoneChange :=
  (u8.pair u40).record (fun p => ⟨p.1, p.2⟩) (fun z => (z.timeZoneOffsetNew, z.TAIOfZoneChange))

def zoneStatus : Format ZoneStatus :=
  (u8.pair zoneChange).record (fun p => ⟨p.2, p.1⟩)
    (fun z => (z.timeZoneOffsetCurrent, z.toZoneChange))

def delta : Format Delta := u16.record .ofWord Delta.word

def deltaChange : Format DeltaChange :=
  (delta.pair u40).record (fun p => ⟨p.1, p.2⟩) (fun d => (d.taiUTCDeltaNew, d.TAIOfDeltaChange))

def deltaStatus : Format DeltaStatus :=
  (delta.pair deltaChange).record (fun p => ⟨p.2, p.1⟩)
    (fun d => (d.taiUTCDeltaCurrent, d.toDeltaChange))

end PirMesh.GenericMessage

import PirMesh.Phone.GenericMessage

/-! # Phone — The classes of an opcode (`SigGenericMessage.m`, `SigAccessLayer.m`)

`getMeshMessageWithOpCode:` gives each opcode its class, and `decodeSigAccessPdu:` hands the
parameters to the initialiser of that class.  An initialiser that reads two octets of an
`NSData` without any reads what is behind it. -/

namespace PirMesh.GenericMessage

open Nor (Byte)

/-- The `SigOpCode` of these messages. -/
inductive SigOpCode
  | genericPowerLevelGet
  | genericPowerLevelSet
  | genericPowerLevelSetUnacknowledged
  | genericPowerLevelStatus
  | genericPowerLastGet
  | genericPowerLastStatus
  | genericPowerDefaultGet
  | genericPowerDefaultStatus
  | genericPowerRangeGet
  | genericPowerRangeStatus
  | genericPowerDefaultSet
  | genericPowerDefaultSetUnacknowledged
  | genericPowerRangeSet
  | genericPowerRangeSetUnacknowledged
  | genericBatteryGet
  | genericBatteryStatus
  | sensorDescriptorGet
  | sensorDescriptorStatus
  | sensorGet
  | sensorStatus
  | sensorColumnGet
  | sensorColumnStatus
  | sensorSeriesGet
  | sensorSeriesStatus
  | sensorCadenceGet
  | sensorCadenceSet
  | sensorCadenceSetUnacknowledged
  | sensorCadenceStatus
  | sensorSettingsGet
  | sensorSettingsStatus
  | sensorSettingGet
  | sensorSettingSet
  | sensorSettingSetUnacknowledged
  | sensorSettingStatus
  | timeGet
  | timeSet
  | timeStatus
  | timeRoleGet
  | timeRoleSet
  | timeRoleStatus
  | timeZoneGet
  | timeZoneSet
  | timeZoneStatus
  | taiUTCDeltaGet
  | taiUTCDeltaSet
  | taiUTCDeltaStatus
  | schedulerActionGet
  | schedulerActionStatus
  | schedulerGet
  | schedulerStatus
  | schedulerActionSet
  | schedulerActionSetUnacknowledged
  | lightLightnessGet
  | lightLightnessSet
  | lightLightnessSetUnacknowledged
  | lightLightnessStatus
  | lightLightnessLinearGet
  | lightLightnessLinearSet
  | lightLightnessLinearSetUnacknowledged
  | lightLightnessLinearStatus
  | lightLightnessLastGet
  | lightLightnessLastStatus
  | lightLightnessDefaultGet
  | lightLightnessDefaultStatus
  | lightLightnessRangeGet
  | lightLightnessRangeStatus
  | lightLightnessDefaultSet
  | lightLightnessDefaultSetUnacknowledged
  | lightLightnessRangeSet
  | lightLightnessRangeSetUnacknowledged

/-- A message class: its fields, what its own initialisers take, and the two opcodes that the
initialisers set. -/
structure MessageClass where
  Fields : Type
  Args : Type
  opCode : SigOpCode
  /-- `initWithParameters:` -/
  opCodeOfParameters : SigOpCode
  initWith : Args → Fields
  /-- The first argument is behind an `NSData` without octets. -/
  initWithParameters : BitVec 16 → Option (List Byte) → Option Fields
  parameters : Fields → Option (List Byte)

/-! ### Shapes -/

/-- No parameters. -/
def getMessage (opCode : SigOpCode) : MessageClass where
  Fields := Unit
  Args := Unit
  opCode := opCode
  opCodeOfParameters := opCode
  initWith _ := ()
  initWithParameters _ parameters := if (octets parameters).length = 0 then some () else none
  parameters _ := none

/-- Parameters of one length. -/
def fixedMessage {Fields Args : Type} (opCode : SigOpCode) (format : Format Fields)
    (initWith : Args → Fields) : MessageClass where
  Fields := Fields
  Args := Args
  opCode := opCode
  opCodeOfParameters := opCode
  initWith := initWith
  initWithParameters _ parameters :=
    parameters.bind fun data =>
      if data.length = format.size then some (format.get data) else none
  parameters fields := some (format.put fields)

/-- The value and the transaction of a message that sets, and how it is to change. -/
structure TimedSet where
  value : BitVec 16
  tid : Byte
  transitionTime : Option SigTransitionTime
  delay : Byte
  deriving DecidableEq, Repr

/-- The time and the delay come together or not at all. -/
def TimedSet.ofParts (p : (BitVec 16 × Byte) × Option (SigTransitionTime × Byte)) : TimedSet :=
  ⟨p.1.1, p.1.2, p.2.map Prod.fst, (p.2.map Prod.snd).getD 0⟩

def TimedSet.parts (m : TimedSet) : (BitVec 16 × Byte) × Option (SigTransitionTime × Byte) :=
  ((m.value, m.tid), m.transitionTime.map fun time => (time, m.delay))

/-- A value that is set, at once or over a time.  A delay without a time is not sent. -/
def timedSet (opCode : SigOpCode) : MessageClass where
  Fields := TimedSet
  Args := BitVec 16 × Option SigTransitionTime × Byte
  opCode := opCode
  opCodeOfParameters := opCode
  initWith a := ⟨a.1, 0, a.2.1, a.2.2⟩
  initWithParameters _ parameters :=
    parameters.bind fun data =>
      ((u16.pair u8).getTail (SigTransitionTime.format.pair u8) data).map TimedSet.ofParts
  parameters fields :=
    some ((u16.pair u8).putTail (SigTransitionTime.format.pair u8) fields.parts)

/-- The present and the target value of a status. -/
structure TimedStatus where
  present : BitVec 16
  target : BitVec 16
  remainingTime : Option SigTransitionTime
  deriving DecidableEq, Repr

def TimedStatus.ofParts (p : BitVec 16 × Option (BitVec 16 × SigTransitionTime)) : TimedStatus :=
  ⟨p.1, (p.2.map Prod.fst).getD 0, p.2.map Prod.snd⟩

def TimedStatus.parts (m : TimedStatus) : BitVec 16 × Option (BitVec 16 × SigTransitionTime) :=
  (m.present, m.remainingTime.map fun time => (m.target, time))

/-- A target without a time is not sent. -/
def timedStatus (opCode : SigOpCode) : MessageClass where
  Fields := TimedStatus
  Args := BitVec 16 × BitVec 16 × Option SigTransitionTime
  opCode := opCode
  opCodeOfParameters := opCode
  initWith a := ⟨a.1, a.2.1, a.2.2⟩
  initWithParameters _ parameters :=
    parameters.bind fun data =>
      (u16.getTail (u16.pair SigTransitionTime.format) data).map TimedStatus.ofParts
  parameters fields := some (u16.putTail (u16.pair SigTransitionTime.format) fields.parts)

/-- Parameters that are kept as they are; no other initialiser. -/
def dataMessage (opCode : SigOpCode) : MessageClass where
  Fields := Option (List Byte)
  Args := Empty
  opCode := opCode
  opCodeOfParameters := opCode
  initWith := Empty.elim
  initWithParameters _ parameters := some parameters
  parameters fields := fields

structure PropertyData where
  propertyID : BitVec 16
  data : Option (List Byte)
  deriving DecidableEq, Repr

/-- The same, with a property ID read from them. -/
def propertyData (opCode : SigOpCode) : MessageClass where
  Fields := PropertyData
  Args := Empty
  opCode := opCode
  opCodeOfParameters := opCode
  initWith := Empty.elim
  initWithParameters _ parameters :=
    parameters.bind fun data =>
      if 2 ≤ data.length then some ⟨u16.get (data.take 2), some data⟩ else none
  parameters fields := fields.data

/-- A property ID or nothing; the ID 0 stands for nothing. -/
def optionalProperty (opCode : SigOpCode) : MessageClass where
  Fields := BitVec 16
  Args := BitVec 16
  opCode := opCode
  opCodeOfParameters := opCode
  initWith propertyID := propertyID
  initWithParameters behind parameters :=
    match parameters with
    | none => some 0
    | some data =>
      if data.length = 0 then some behind
      else if data.length = 2 then some (u16.get data)
      else none
  parameters propertyID := if propertyID ≠ 0 then some (u16.put propertyID) else none

/-- What `initWithParameters:` finds of a property ID in front of octets it does not read. -/
def leadingProperty (parameters : Option (List Byte)) : Option (BitVec 16) :=
  parameters.bind fun data => if 2 ≤ data.length then some (u16.get (data.take 2)) else none

/-- A property ID; what follows it is dropped. -/
def requiredProperty (opCode : SigOpCode) : MessageClass where
  Fields := BitVec 16
  Args := BitVec 16
  opCode := opCode
  opCodeOfParameters := opCode
  initWith propertyID := propertyID
  initWithParameters _ := leadingProperty
  parameters propertyID := if propertyID ≠ 0 then some (u16.put propertyID) else none

/-- Fields of a fixed size in front of a raw value; `propertyID` is the first of them. -/
def rawMessage {Head : Type} (opCode : SigOpCode) (head : Format Head)
    (propertyID : Head → BitVec 16) : MessageClass where
  Fields := Head × List Byte
  Args := Head × List Byte
  opCode := opCode
  opCodeOfParameters := opCode
  initWith a := a
  initWithParameters _ parameters :=
    parameters.bind fun data =>
      if head.size ≤ data.length then some (head.get (data.take head.size), data.drop head.size)
      else none
  parameters fields :=
    if propertyID fields.1 ≠ 0 then some (head.put fields.1 ++ fields.2) else none

/-! ### Power level and battery -/

def sigGenericPowerLevelGet : MessageClass := getMessage .genericPowerLevelGet

/-- `initWithPower:` is the longer initialiser without a time. -/
def sigGenericPowerLevelSet : MessageClass := timedSet .genericPowerLevelSet

def sigGenericPowerLevelSetUnacknowledged : MessageClass :=
  timedSet .genericPowerLevelSetUnacknowledged

/-- `initWithPower:` is the longer initialiser without a target. -/
def sigGenericPowerLevelStatus : MessageClass := timedStatus .genericPowerLevelStatus

def sigGenericPowerLastGet : MessageClass := getMessage .genericPowerLastGet

def sigGenericPowerLastStatus : MessageClass := fixedMessage .genericPowerLastStatus u16 id

def sigGenericPowerDefaultGet : MessageClass := getMessage .genericPowerDefaultGet

def sigGenericPowerDefaultStatus : MessageClass := fixedMessage .genericPowerDefaultStatus u16 id

def sigGenericPowerRangeGet : MessageClass := getMessage .genericPowerRangeGet

/-- `initWithParameters:` sets the opcode of another status.  The initialiser without a status
leaves 0. -/
def sigGenericPowerRangeStatus : MessageClass :=
  { fixedMessage .genericPowerRangeStatus rangeStatus id with
    opCodeOfParameters := .genericPowerDefaultStatus }

def sigGenericPowerDefaultSet : MessageClass := fixedMessage .genericPowerDefaultSet u16 id

def sigGenericPowerDefaultSetUnacknowledged : MessageClass :=
  fixedMessage .genericPowerDefaultSetUnacknowledged u16 id

def sigGenericPowerRangeSet : MessageClass := fixedMessage .genericPowerRangeSet range id

def sigGenericPowerRangeSetUnacknowledged : MessageClass :=
  fixedMessage .genericPowerRangeSetUnacknowledged range id

def sigGenericBatteryGet : MessageClass := getMessage .genericBatteryGet

structure BatteryArgs where
  batteryLevel : Byte
  timeToDischarge : BitVec 32
  timeToCharge : BitVec 32
  batteryPresence : Byte
  batteryIndicator : Byte
  batteryChargingState : Byte
  batteryServiceability : Byte

/-- A level in percent and times in minutes, or the value for unknown. -/
def BatteryArgs.status (a : BatteryArgs) : BatteryStatus where
  batteryLevel := if a.batteryLevel ≠ 0xFF then
    if a.batteryLevel.toNat < 100 then a.batteryLevel else 100 else 0xFF
  timeToDischarge := if a.timeToDischarge ≠ 0xFFFFFF then
    if a.timeToDischarge.toNat < 0xFFFFFE then a.timeToDischarge else 0xFFFFFE else 0xFFFFFF
  timeToCharge := if a.timeToCharge ≠ 0xFFFFFF then
    if a.timeToCharge.toNat < 0xFFFFFE then a.timeToCharge else 0xFFFFFE else 0xFFFFFF
  flags := (a.batteryServiceability <<< 6) ||| (a.batteryChargingState <<< 4) |||
    (a.batteryIndicator <<< 2) ||| a.batteryPresence

def sigGenericBatteryStatus : MessageClass :=
  fixedMessage .genericBatteryStatus batteryStatus BatteryArgs.status

/-! ### Sensor -/

def sigSensorDescriptorGet : MessageClass := optionalProperty .sensorDescriptorGet

/-- One descriptor of two octets, or any number of eight. -/
def descriptorModels (data : List Byte) : List SigSensorDescriptorModel :=
  (List.range (data.length / 8)).filterMap fun i =>
    SigSensorDescriptorModel.initWithDescriptorParameters ((data.drop (i * 8)).take 8)

def sigSensorDescriptorStatus : MessageClass where
  Fields := List SigSensorDescriptorModel
  Args := Empty
  opCode := .sensorDescriptorStatus
  opCodeOfParameters := .sensorDescriptorStatus
  initWith := Empty.elim
  initWithParameters _ parameters :=
    parameters.bind fun data =>
      if data.length = 2 then
        some (SigSensorDescriptorModel.initWithDescriptorParameters data).toList
      else if data.length % 8 = 0 then some (descriptorModels data)
      else none
  parameters models := some (models.flatMap SigSensorDescriptorModel.getDescriptorParameters)

def sigSensorGet : MessageClass := optionalProperty .sensorGet

def sigSensorStatus : MessageClass := dataMessage .sensorStatus

structure ColumnGet where
  propertyID : BitVec 16
  rawValueX : Option (List Byte)
  deriving DecidableEq, Repr

/-- `initWithParameters:` sets the opcode of another request.  Its range for the raw value does
not exist in an `NSData` without octets, which raises. -/
def sigSensorColumnGet : MessageClass where
  Fields := ColumnGet
  Args := BitVec 16 × List Byte
  opCode := .sensorColumnGet
  opCodeOfParameters := .sensorCadenceGet
  initWith a := ⟨a.1, some a.2⟩
  initWithParameters _ parameters :=
    match parameters with
    | none => some ⟨0, none⟩
    | some data =>
      if 2 < data.length then some ⟨u16.get (data.take 2), some (data.drop 2)⟩ else none
  parameters fields :=
    if fields.propertyID ≠ 0 then some (u16.put fields.propertyID ++ octets fields.rawValueX)
    else none

def sigSensorColumnStatus : MessageClass := dataMessage .sensorColumnStatus

structure SeriesGet where
  propertyID : BitVec 16
  rawValueX1Data : Option (List Byte)
  rawValueX2Data : Option (List Byte)
  seriesData : Option (List Byte)
  deriving DecidableEq, Repr

/-- The parameters are those that were received. -/
def sigSensorSeriesGet : MessageClass where
  Fields := SeriesGet
  Args := BitVec 16 × List Byte × List Byte
  opCode := .sensorSeriesGet
  opCodeOfParameters := .sensorSeriesGet
  initWith a := ⟨a.1, some a.2.1, some a.2.2, none⟩
  initWithParameters _ parameters :=
    (leadingProperty parameters).map fun propertyID => ⟨propertyID, none, none, parameters⟩
  parameters fields := fields.seriesData

def sigSensorSeriesStatus : MessageClass := dataMessage .sensorSeriesStatus

/-- Every initialiser sets the opcode of another message. -/
def sigSensorCadenceGet : MessageClass := requiredProperty .sensorCadenceSet

def sigSensorCadenceSet : MessageClass := propertyData .sensorCadenceSet

def sigSensorCadenceSetUnacknowledged : MessageClass := propertyData .sensorCadenceSetUnacknowledged

def sigSensorCadenceStatus : MessageClass := propertyData .sensorCadenceStatus

def sigSensorSettingsGet : MessageClass := requiredProperty .sensorSettingsGet

def sigSensorSettingsStatus : MessageClass := propertyData .sensorSettingsStatus

structure SettingGet where
  propertyID : BitVec 16
  settingPropertyID : BitVec 16
  deriving DecidableEq, Repr

/-- The setting is neither read nor written. -/
def sigSensorSettingGet : MessageClass where
  Fields := SettingGet
  Args := SettingGet
  opCode := .sensorSettingGet
  opCodeOfParameters := .sensorSettingGet
  initWith a := a
  initWithParameters _ parameters :=
    (leadingProperty parameters).map fun propertyID => ⟨propertyID, 0⟩
  parameters fields :=
    if fields.propertyID ≠ 0 then some (u16.put fields.propertyID) else none

def sigSensorSettingSet : MessageClass := rawMessage .sensorSettingSet (u16.pair u16) Prod.fst

def sigSensorSettingSetUnacknowledged : MessageClass :=
  rawMessage .sensorSettingSetUnacknowledged (u16.pair u16) Prod.fst

def sigSensorSettingStatus : MessageClass :=
  rawMessage .sensorSettingStatus (u16.pair (u16.pair u8)) Prod.fst

/-! ### Time -/

def sigTimeGet : MessageClass := getMessage .timeGet

def sigTimeSet : MessageClass := fixedMessage .timeSet SigTimeModel.format id

def sigTimeStatus : MessageClass := fixedMessage .timeStatus SigTimeModel.format Empty.elim

def sigTimeRoleGet : MessageClass := getMessage .timeRoleGet

def sigTimeRoleSet : MessageClass := fixedMessage .timeRoleSet u8 id

def sigTimeRoleStatus : MessageClass := fixedMessage .timeRoleStatus u8 Empty.elim

def sigTimeZoneGet : MessageClass := getMessage .timeZoneGet

def sigTimeZoneSet : MessageClass := fixedMessage .timeZoneSet zoneChange id

def sigTimeZoneStatus : MessageClass := fixedMessage .timeZoneStatus zoneStatus Empty.elim

def sigTaiUTCDeltaGet : MessageClass := getMessage .taiUTCDeltaGet

def sigTaiUTCDeltaSet : MessageClass := fixedMessage .taiUTCDeltaSet deltaChange id

def sigTaiUTCDeltaStatus : MessageClass := fixedMessage .taiUTCDeltaStatus deltaStatus Empty.elim

/-! ### Scheduler -/

/-- An entry of the schedule register. -/
def schedulerAction (opCode : SigOpCode) : MessageClass where
  Fields := SchedulerModel
  Args := SchedulerModel
  opCode := opCode
  opCodeOfParameters := opCode
  initWith model := model
  initWithParameters _ parameters := parameters.bind SigSchedulerActionStatus.initWithParameters
  parameters model := some (SigSchedulerActionSet.parameters model)

def sigSchedulerActionGet : MessageClass := fixedMessage .schedulerActionGet u8 id

def sigSchedulerActionStatus : MessageClass := schedulerAction .schedulerActionStatus

def sigSchedulerGet : MessageClass := getMessage .schedulerGet

def sigSchedulerStatus : MessageClass where
  Fields := List ℕ
  Args := List ℕ
  opCode := .schedulerStatus
  opCodeOfParameters := .schedulerStatus
  initWith schedulers := schedulers
  initWithParameters _ parameters := parameters.bind SigSchedulerStatus.initWithParameters
  parameters schedulers := some (SigSchedulerStatus.parameters schedulers)

def sigSchedulerActionSet : MessageClass := schedulerAction .schedulerActionSet

def sigSchedulerActionSetUnacknowledged : MessageClass :=
  schedulerAction .schedulerActionSetUnacknowledged

/-! ### Lightness -/

def sigLightLightnessGet : MessageClass := getMessage .lightLightnessGet

def sigLightLightnessSet : MessageClass := timedSet .lightLightnessSet

def sigLightLightnessSetUnacknowledged : MessageClass := timedSet .lightLightnessSetUnacknowledged

def sigLightLightnessStatus : MessageClass := timedStatus .lightLightnessStatus

def sigLightLightnessLinearGet : MessageClass := getMessage .lightLightnessLinearGet

def sigLightLightnessLinearSet : MessageClass := timedSet .lightLightnessLinearSet

def sigLightLightnessLinearSetUnacknowledged : MessageClass :=
  timedSet .lightLightnessLinearSetUnacknowledged

def sigLightLightnessLinearStatus : MessageClass := timedStatus .lightLightnessLinearStatus

def sigLightLightnessLastGet : MessageClass := getMessage .lightLightnessLastGet

def sigLightLightnessLastStatus : MessageClass := fixedMessage .lightLightnessLastStatus u16 id

def sigLightLightnessDefaultGet : MessageClass := getMessage .lightLightnessDefaultGet

def sigLightLightnessDefaultStatus : MessageClass :=
  fixedMessage .lightLightnessDefaultStatus u16 id

def sigLightLightnessRangeGet : MessageClass := getMessage .lightLightnessRangeGet

def sigLightLightnessRangeStatus : MessageClass :=
  fixedMessage .lightLightnessRangeStatus rangeStatus fun r => ⟨r, 0⟩

def sigLightLightnessDefaultSet : MessageClass := fixedMessage .lightLightnessDefaultSet u16 id

def sigLightLightnessDefaultSetUnacknowledged : MessageClass :=
  fixedMessage .lightLightnessDefaultSetUnacknowledged u16 id

def sigLightLightnessRangeSet : MessageClass := fixedMessage .lightLightnessRangeSet range id

def sigLightLightnessRangeSetUnacknowledged : MessageClass :=
  fixedMessage .lightLightnessRangeSetUnacknowledged range id

/-! ### The switch (`SigAccessLayer.m`) -/

inductive SigMessageClass
  | genericPowerLevelGet
  | genericPowerLevelSet
  | genericPowerLevelSetUnacknowledged
  | genericPowerLevelStatus
  | genericPowerLastGet
  | genericPowerLastStatus
  | genericPowerDefaultGet
  | genericPowerDefaultStatus
  | genericPowerRangeGet
  | genericPowerRangeStatus
  | genericPowerDefaultSet
  | genericPowerDefaultSetUnacknowledged
  | genericPowerRangeSet
  | genericPowerRangeSetUnacknowledged
  | genericBatteryGet
  | genericBatteryStatus
  | sensorDescriptorGet
  | sensorDescriptorStatus
  | sensorGet
  | sensorStatus
  | sensorColumnGet
  | sensorColumnStatus
  | sensorSeriesGet
  | sensorSeriesStatus
  | sensorCadenceGet
  | sensorCadenceSet
  | sensorCadenceSetUnacknowledged
  | sensorCadenceStatus
  | sensorSettingsGet
  | sensorSettingsStatus
  | sensorSettingGet
  | sensorSettingSet
  | sensorSettingSetUnacknowledged
  | sensorSettingStatus
  | timeGet
  | timeSet
  | timeStatus
  | timeRoleGet
  | timeRoleSet
  | timeRoleStatus
  | timeZoneGet
  | timeZoneSet
  | timeZoneStatus
  | taiUTCDeltaGet
  | taiUTCDeltaSet
  | taiUTCDeltaStatus
  | schedulerActionGet
  | schedulerActionStatus
  | schedulerGet
  | schedulerStatus
  | schedulerActionSet
  | schedulerActionSetUnacknowledged
  | lightLightnessGet
  | lightLightnessSet
  | lightLightnessSetUnacknowledged
  | lightLightnessStatus
  | lightLightnessLinearGet
  | lightLightnessLinearSet
  | lightLightnessLinearSetUnacknowledged
  | lightLightnessLinearStatus
  | lightLightnessLastGet
  | lightLightnessLastStatus
  | lightLightnessDefaultGet
  | lightLightnessDefaultStatus
  | lightLightnessRangeGet
  | lightLightnessRangeStatus
  | lightLightnessDefaultSet
  | lightLightnessDefaultSetUnacknowledged
  | lightLightnessRangeSet
  | lightLightnessRangeSetUnacknowledged

/-- The class under its name. -/
def codec : SigMessageClass → MessageClass
  | .genericPowerLevelGet => sigGenericPowerLevelGet
  | .genericPowerLevelSet => sigGenericPowerLevelSet
  | .genericPowerLevelSetUnacknowledged => sigGenericPowerLevelSetUnacknowledged
  | .genericPowerLevelStatus => sigGenericPowerLevelStatus
  | .genericPowerLastGet => sigGenericPowerLastGet
  | .genericPowerLastStatus => sigGenericPowerLastStatus
  | .genericPowerDefaultGet => sigGenericPowerDefaultGet
  | .genericPowerDefaultStatus => sigGenericPowerDefaultStatus
  | .genericPowerRangeGet => sigGenericPowerRangeGet
  | .genericPowerRangeStatus => sigGenericPowerRangeStatus
  | .genericPowerDefaultSet => sigGenericPowerDefaultSet
  | .genericPowerDefaultSetUnacknowledged => sigGenericPowerDefaultSetUnacknowledged
  | .genericPowerRangeSet => sigGenericPowerRangeSet
  | .genericPowerRangeSetUnacknowledged => sigGenericPowerRangeSetUnacknowledged
  | .genericBatteryGet => sigGenericBatteryGet
  | .genericBatteryStatus => sigGenericBatteryStatus
  | .sensorDescriptorGet => sigSensorDescriptorGet
  | .sensorDescriptorStatus => sigSensorDescriptorStatus
  | .sensorGet => sigSensorGet
  | .sensorStatus => sigSensorStatus
  | .sensorColumnGet => sigSensorColumnGet
  | .sensorColumnStatus => sigSensorColumnStatus
  | .sensorSeriesGet => sigSensorSeriesGet
  | .sensorSeriesStatus => sigSensorSeriesStatus
  | .sensorCadenceGet => sigSensorCadenceGet
  | .sensorCadenceSet => sigSensorCadenceSet
  | .sensorCadenceSetUnacknowledged => sigSensorCadenceSetUnacknowledged
  | .sensorCadenceStatus => sigSensorCadenceStatus
  | .sensorSettingsGet => sigSensorSettingsGet
  | .sensorSettingsStatus => sigSensorSettingsStatus
  | .sensorSettingGet => sigSensorSettingGet
  | .sensorSettingSet => sigSensorSettingSet
  | .sensorSettingSetUnacknowledged => sigSensorSettingSetUnacknowledged
  | .sensorSettingStatus => sigSensorSettingStatus
  | .timeGet => sigTimeGet
  | .timeSet => sigTimeSet
  | .timeStatus => sigTimeStatus
  | .timeRoleGet => sigTimeRoleGet
  | .timeRoleSet => sigTimeRoleSet
  | .timeRoleStatus => sigTimeRoleStatus
  | .timeZoneGet => sigTimeZoneGet
  | .timeZoneSet => sigTimeZoneSet
  | .timeZoneStatus => sigTimeZoneStatus
  | .taiUTCDeltaGet => sigTaiUTCDeltaGet
  | .taiUTCDeltaSet => sigTaiUTCDeltaSet
  | .taiUTCDeltaStatus => sigTaiUTCDeltaStatus
  | .schedulerActionGet => sigSchedulerActionGet
  | .schedulerActionStatus => sigSchedulerActionStatus
  | .schedulerGet => sigSchedulerGet
  | .schedulerStatus => sigSchedulerStatus
  | .schedulerActionSet => sigSchedulerActionSet
  | .schedulerActionSetUnacknowledged => sigSchedulerActionSetUnacknowledged
  | .lightLightnessGet => sigLightLightnessGet
  | .lightLightnessSet => sigLightLightnessSet
  | .lightLightnessSetUnacknowledged => sigLightLightnessSetUnacknowledged
  | .lightLightnessStatus => sigLightLightnessStatus
  | .lightLightnessLinearGet => sigLightLightnessLinearGet
  | .lightLightnessLinearSet => sigLightLightnessLinearSet
  | .lightLightnessLinearSetUnacknowledged => sigLightLightnessLinearSetUnacknowledged
  | .lightLightnessLinearStatus => sigLightLightnessLinearStatus
  | .lightLightnessLastGet => sigLightLightnessLastGet
  | .lightLightnessLastStatus => sigLightLightnessLastStatus
  | .lightLightnessDefaultGet => sigLightLightnessDefaultGet
  | .lightLightnessDefaultStatus => sigLightLightnessDefaultStatus
  | .lightLightnessRangeGet => sigLightLightnessRangeGet
  | .lightLightnessRangeStatus => sigLightLightnessRangeStatus
  | .lightLightnessDefaultSet => sigLightLightnessDefaultSet
  | .lightLightnessDefaultSetUnacknowledged => sigLightLightnessDefaultSetUnacknowledged
  | .lightLightnessRangeSet => sigLightLightnessRangeSet
  | .lightLightnessRangeSetUnacknowledged => sigLightLightnessRangeSetUnacknowledged

def getMeshMessageWithOpCode : SigOpCode → SigMessageClass
  | .genericPowerLevelGet => .genericPowerLevelGet
  | .genericPowerLevelSet => .genericPowerLevelSet
  | .genericPowerLevelSetUnacknowledged => .genericPowerLevelSetUnacknowledged
  | .genericPowerLevelStatus => .genericPowerLevelStatus
  | .genericPowerLastGet => .genericPowerLastGet
  | .genericPowerLastStatus => .genericPowerLastStatus
  | .genericPowerDefaultGet => .genericPowerDefaultGet
  | .genericPowerDefaultStatus => .genericPowerDefaultStatus
  | .genericPowerRangeGet => .genericPowerRangeGet
  | .genericPowerRangeStatus => .genericPowerRangeStatus
  | .genericPowerDefaultSet => .genericPowerDefaultSet
  | .genericPowerDefaultSetUnacknowledged => .genericPowerDefaultSetUnacknowledged
  | .genericPowerRangeSet => .genericPowerRangeSet
  | .genericPowerRangeSetUnacknowledged => .genericPowerRangeSetUnacknowledged
  | .genericBatteryGet => .genericBatteryGet
  | .genericBatteryStatus => .genericBatteryStatus
  | .sensorDescriptorGet => .sensorDescriptorGet
  | .sensorDescriptorStatus => .sensorDescriptorStatus
  | .sensorGet => .sensorGet
  | .sensorStatus => .sensorStatus
  | .sensorColumnGet => .sensorColumnGet
  | .sensorColumnStatus => .sensorColumnStatus
  | .sensorSeriesGet => .sensorSeriesGet
  | .sensorSeriesStatus => .sensorSeriesStatus
  | .sensorCadenceGet => .sensorCadenceGet
  | .sensorCadenceSet => .sensorCadenceSet
  | .sensorCadenceSetUnacknowledged => .sensorCadenceSetUnacknowledged
  | .sensorCadenceStatus => .sensorCadenceStatus
  | .sensorSettingsGet => .sensorSettingsGet
  | .sensorSettingsStatus => .sensorSettingsStatus
  | .sensorSettingGet => .sensorSettingGet
  | .sensorSettingSet => .sensorSettingSet
  | .sensorSettingSetUnacknowledged => .sensorSettingSetUnacknowledged
  | .sensorSettingStatus => .sensorSettingStatus
  | .timeGet => .timeGet
  | .timeSet => .timeSet
  | .timeStatus => .timeStatus
  | .timeRoleGet => .timeRoleGet
  | .timeRoleSet => .timeRoleSet
  | .timeRoleStatus => .timeRoleStatus
  | .timeZoneGet => .timeZoneGet
  | .timeZoneSet => .timeZoneSet
  | .timeZoneStatus => .timeZoneStatus
  | .taiUTCDeltaGet => .taiUTCDeltaGet
  | .taiUTCDeltaSet => .taiUTCDeltaSet
  | .taiUTCDeltaStatus => .taiUTCDeltaStatus
  | .schedulerActionGet => .schedulerActionGet
  | .schedulerActionStatus => .schedulerActionStatus
  | .schedulerGet => .schedulerGet
  | .schedulerStatus => .schedulerStatus
  | .schedulerActionSet => .schedulerActionSet
  | .schedulerActionSetUnacknowledged => .schedulerActionSetUnacknowledged
  | .lightLightnessGet => .lightLightnessGet
  | .lightLightnessSet => .lightLightnessSet
  | .lightLightnessSetUnacknowledged => .lightLightnessSetUnacknowledged
  | .lightLightnessStatus => .lightLightnessStatus
  | .lightLightnessLinearGet => .lightLightnessLinearGet
  | .lightLightnessLinearSet => .lightLightnessLinearSet
  | .lightLightnessLinearSetUnacknowledged => .lightLightnessLinearSetUnacknowledged
  | .lightLightnessLinearStatus => .lightLightnessLinearStatus
  | .lightLightnessLastGet => .lightLightnessLastGet
  | .lightLightnessLastStatus => .lightLightnessLastStatus
  | .lightLightnessDefaultGet => .lightLightnessDefaultGet
  | .lightLightnessDefaultStatus => .lightLightnessDefaultStatus
  | .lightLightnessRangeGet => .lightLightnessRangeGet
  | .lightLightnessRangeStatus => .lightLightnessRangeStatus
  | .lightLightnessDefaultSet => .lightLightnessDefaultSet
  | .lightLightnessDefaultSetUnacknowledged => .lightLightnessDefaultSetUnacknowledged
  | .lightLightnessRangeSet => .lightLightnessRangeSet
  | .lightLightnessRangeSetUnacknowledged => .lightLightnessRangeSetUnacknowledged

structure SigMeshMessage where
  messageType : SigMessageClass
  opCode : SigOpCode
  fields : (codec messageType).Fields

def SigMeshMessage.parameters (m : SigMeshMessage) : Option (List Byte) :=
  (codec m.messageType).parameters m.fields

/-- A message that was built from its fields. -/
def SigMeshMessage.built (messageType : SigMessageClass) (a : (codec messageType).Args) :
    SigMeshMessage :=
  ⟨messageType, (codec messageType).opCode, (codec messageType).initWith a⟩

def decodeSigAccessPdu (behind : BitVec 16) (opCode : SigOpCode)
    (parameters : Option (List Byte)) : Option SigMeshMessage :=
  let messageType := getMeshMessageWithOpCode opCode
  ((codec messageType).initWithParameters behind parameters).map fun fields =>
    ⟨messageType, (codec messageType).opCodeOfParameters, fields⟩

end PirMesh.GenericMessage

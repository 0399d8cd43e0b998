import PirMesh.Library.Accesses
import PirMesh.Library.Format
import PirMesh.Library.Reassembly
import PirMesh.Node.Ticks

/-! # Sensor — The sensor server model (`sensors_model.c`)

The handlers of the descriptor, sensor, cadence, settings and setting messages, with what they
access: the octets of the message, the states of the sensors and their descriptors.  A property
that is not found has one of two indexes that are none.

`states` is memory: the sensors are its first `SENSOR_NUMS` cells, and an index past them is what
lies behind.  A message is memory from its first octet on, and `parLen` is how many octets came. -/

namespace PirMesh.SensorModel

open Accesses Accesses.Traced Reassembly
open Nor (Byte toLE ofLE)

def sensorNums : ℕ := 1

def sensorSettingsNums : ℕ := 1

def idUnknown : BitVec 32 := 0xFFFFFFFE

def idProhibited : BitVec 32 := 0xFFFFFFFF

def prohibited : BitVec 16 := 0

def readWrite : Byte := 3

def propIdPhotometryPresentAmbientLightLevel : BitVec 16 := 0x004E

def statusNone : BitVec 32 := 0xFFFFFFFF

/-! ### State -/

/-- `cadence_unit_t` -/
structure CadenceUnit where
  deltaDown : BitVec 32
  deltaUp : BitVec 32
  minInterval : Byte
  cadenceLow : BitVec 32
  cadenceHight : BitVec 32

/-- `sensor_cadence_t`; the union is always a `cadence_unit`. -/
structure SensorCadence where
  fastPeriodDiv : BitVec 7
  trigType : Bool
  cadenceUnit : CadenceUnit

/-- `sensor_setting_t` -/
structure SensorSetting where
  settingId : BitVec 16
  settingAccess : Byte
  settingRaw : BitVec 16

/-- `sensor_states_t`, less the series. -/
structure SensorStates where
  propId : BitVec 16
  cadence : SensorCadence
  setting : ℕ → SensorSetting
  sensorData : BitVec 32

structure SensorNode where
  states : ℕ → SensorStates
  sensorMeasureMs : BitVec 32

/-- `mesh_cmd_sensor_descript_st_t` -/
structure SensorDescript where
  propId : BitVec 16
  positiveTolerance : BitVec 12
  negativeTolerance : BitVec 12
  samplingFunc : BitVec 8
  measurePeriod : Byte
  updateInterval : Byte

def SensorDescript.bytes (d : SensorDescript) : List Byte :=
  toLE 2 d.propId.toNat ++
    toLE 4 (d.positiveTolerance.toNat + 2 ^ 12 * d.negativeTolerance.toNat +
      2 ^ 24 * d.samplingFunc.toNat) ++ [d.measurePeriod, d.updateInterval]

/-- `sensor_descrip` -/
def sensorDescrip : ℕ → SensorDescript := fun _ =>
  ⟨propIdPhotometryPresentAmbientLightLevel, 0x347, 0x256, 0x02, 0x40, 0x4B⟩

/-- What `mesh_global_var_init_sensor_descrip` makes of sensor `i`. -/
def meshGlobalVarInitSensorDescrip (i : ℕ) (s : SensorStates) : SensorStates :=
  { s with
    propId := (sensorDescrip i).propId
    cadence := ⟨2, true, ⟨0, 0, 4, 0, 1⟩⟩
    setting := fun j =>
      if j < sensorSettingsNums then
        { s.setting j with settingId := BitVec.ofNat 16 (i + 1), settingAccess := readWrite }
      else s.setting j }

/-! ### Accesses -/

inductive Access
  /-- `n` octets of the message from `p` on -/
  | par (p n : ℕ)
  /-- `sensor_states[i]` -/
  | states (i : ℕ)
  /-- `sensor_descrip[i]` -/
  | descrip (i : ℕ)
  deriving DecidableEq, Repr

/-- The access is inside its object; `parLen` octets came. -/
def Access.Ok (parLen : ℕ) : Access → Prop
  | par p n => p + n ≤ parLen
  | states i => i < sensorNums
  | descrip i => i < sensorNums

abbrev Handler := Traced Access

def readPar (par : ℕ → Byte) (p n : ℕ) : Handler (List Byte) := look (.par p n) (read par p n)

def readU16 (par : ℕ → Byte) (p : ℕ) : Handler (BitVec 16) :=
  look (.par p 2) (BitVec.ofNat 16 (ofLE (read par p 2)))

/-- `memcpy` of `n` octets to a `u32` that is 0. -/
def readWord (par : ℕ → Byte) (p n : ℕ) : Handler (BitVec 32) :=
  look (.par p n) (BitVec.ofNat 32 (ofLE (read par p n)))

/-- What a handler is called with. -/
structure CbPar where
  opRsp : BitVec 32
  eleAdr : BitVec 16
  adrSrc : BitVec 16
  clockTimeMs : BitVec 32

/-- How a handler ends. -/
inductive Reply
  | ret (r : ℤ)
  | rsp (op : BitVec 32) (src dst : BitVec 16) (data : List Byte)
  deriving DecidableEq, Repr

/-- `mesh_tx_cmd_rsp` to where the message came from. -/
def CbPar.rsp (cb : CbPar) (data : List Byte) : Reply := .rsp cb.opRsp cb.eleAdr cb.adrSrc data

/-- What a handler leaves: whether it stores the model, and asks for a publication. -/
structure Done where
  node : SensorNode
  stored : Bool
  published : Bool
  reply : Reply

/-- The end of a handler that only tells. -/
def SensorNode.tell (node : SensorNode) (reply : Reply) : Done := ⟨node, false, false, reply⟩

/-! ### Properties -/

section

variable (states : ℕ → SensorStates) (propId : BitVec 16)

def findPropId : List ℕ → Handler (BitVec 32)
  | [] => pure idUnknown
  | i :: is => do
    touch (.states i)
    if propId = (states i).propId then pure (BitVec.ofNat 32 i) else findPropId is

def getPropIdIndex : Handler (BitVec 32) :=
  if propId = prohibited then pure idProhibited
  else findPropId states propId (List.range sensorNums)

end

/-- `get_prop_id_format_type`, a length. -/
def getPropIdFormatType (propId : BitVec 16) : ℕ := if propId = 0x004E then 3 else 0

/-! ### Descriptors and values -/

def descripBytes (buf : List Byte) (i : ℕ) : Handler (List Byte) := do
  touch (.descrip i)
  pure (buf ++ (sensorDescrip i).bytes)

/-- The descriptors asked for, if any. -/
def descriptData (states : ℕ → SensorStates) (propId : BitVec 16) (parLen : ℕ) :
    Handler (Option (List Byte)) :=
  if parLen ≠ 0 then do
    let index ← getPropIdIndex states propId
    if index = idProhibited then pure none
    else if index ≠ idUnknown then some <$> descripBytes [] index.toNat
    else pure (some (toLE 2 propId.toNat))
  else some <$> (List.range sensorNums).foldlM descripBytes []

def meshCmdSigSensorDescriptGet (node : SensorNode) (par : ℕ → Byte) (parLen : ℕ)
    (cbPar : CbPar) : Handler Done := do
  let propId ← readU16 par 0
  let data ← descriptData node.states propId parLen
  match data with
  | none => pure (node.tell (.ret (-1)))
  | some data =>
    if cbPar.opRsp ≠ statusNone then pure (node.tell (cbPar.rsp data))
    else pure (node.tell (.ret 0))

/-- `sensor_mpid_B_t` of four octets of raw value. -/
def mpidB (propId : BitVec 16) (sensorData : BitVec 32) : List Byte :=
  0x07 :: toLE 2 propId.toNat ++ toLE 4 sensorData.toNat

def mpidBytes (states : ℕ → SensorStates) (buf : List Byte) (i : ℕ) : Handler (List Byte) := do
  touch (.states i)
  pure (buf ++ mpidB (states i).propId (states i).sensorData)

/-- The values asked for, if any. -/
def sensorData (states : ℕ → SensorStates) (propId : BitVec 16) (parLen : ℕ) :
    Handler (Option (List Byte)) :=
  if parLen ≠ 0 then do
    let index ← getPropIdIndex states propId
    if index = idProhibited then pure none
    else if index ≠ idUnknown then do
      touch (.states index.toNat)
      pure (some (mpidB propId (states index.toNat).sensorData))
    else pure (some (List.replicate 3 0xFF))
  else some <$> (List.range sensorNums).foldlM (mpidBytes states) []

/-- `mesh_tx_sensor_st_rsp` -/
def meshTxSensorStRsp (node : SensorNode) (cbPar : CbPar) (propId : BitVec 16) (parLen : ℕ) :
    Handler Done := do
  let data ← sensorData node.states propId parLen
  match data with
  | none => pure (node.tell (.ret (-1)))
  | some data =>
    pure (SensorNode.tell { node with sensorMeasureMs := cbPar.clockTimeMs } (cbPar.rsp data))

def meshCmdSigSensorGet (node : SensorNode) (par : ℕ → Byte) (parLen : ℕ) (cbPar : CbPar) :
    Handler Done :=
  if parLen ≠ 0 then do
    let propId ← readU16 par 0
    meshTxSensorStRsp node cbPar propId parLen
  else meshTxSensorStRsp node cbPar 0 parLen

/-! ### Cadences -/

/-- The octet of `fast_period_div` and `trig_type`. -/
def SensorCadence.first (c : SensorCadence) : Byte := BitVec.cons c.trigType c.fastPeriodDiv

/-- How many octets a delta has. -/
def deltaLen (cadenceLen : ℕ) (trigType : Bool) : ℕ := if trigType then 2 else cadenceLen

/-- A cadence, behind the property, in a status. -/
def SensorCadence.bytes (c : SensorCadence) (cadenceLen : ℕ) : List Byte :=
  c.first :: toLE (deltaLen cadenceLen c.trigType) c.cadenceUnit.deltaDown.toNat ++
    toLE (deltaLen cadenceLen c.trigType) c.cadenceUnit.deltaUp.toNat ++
      c.cadenceUnit.minInterval :: toLE cadenceLen c.cadenceUnit.cadenceLow.toNat ++
        toLE cadenceLen c.cadenceUnit.cadenceHight.toNat

/-- `mesh_tx_cadence_st_rsp`, as far as its octets; there are none for a prohibited property. -/
def meshTxCadenceStRsp (states : ℕ → SensorStates) (propId : BitVec 16) :
    Handler (Option (List Byte)) := do
  let index ← getPropIdIndex states propId
  if index = idProhibited then pure none
  else if index ≠ idUnknown then do
    touch (.states index.toNat)
    pure (some (toLE 2 propId.toNat ++
      (states index.toNat).cadence.bytes (getPropIdFormatType propId)))
  else pure (some (toLE 2 propId.toNat))

/-- The answer with these octets. -/
def CbPar.answer (cb : CbPar) : Option (List Byte) → Reply
  | none => .ret (-1)
  | some data => cb.rsp data

def meshCmdSigSensorCadenceGet (node : SensorNode) (par : ℕ → Byte) (cbPar : CbPar) :
    Handler Done := do
  let propId ← readU16 par 0
  let data ← meshTxCadenceStRsp node.states propId
  pure (node.tell (cbPar.answer data))

/-- `mesh_cadence_para_check`: whether there is an error. -/
def meshCadenceParaCheck (par : ℕ → Byte) (parLen : ℕ) : Handler Bool := do
  let propId ← readU16 par 0
  let first ← readPar par 2 1
  let varLen := getPropIdFormatType propId
  let err := decide (15 ≤ ((first.headD 0).setWidth 7).toNat)
  if (first.headD 0).msb then
    if parLen ≠ varLen * 2 + 7 + 1 then pure true
    else do
      let minInterval ← readPar par 7 1
      pure (err || decide (26 ≤ (minInterval.headD 0).toNat))
  else
    if parLen ≠ 4 + varLen * 4 then pure true
    else do
      let minInterval ← readPar par (3 + varLen * 2) 1
      pure (err || decide (26 ≤ (minInterval.headD 0).toNat))

/-- The cadence of a set message. -/
def readCadence (par : ℕ → Byte) (cadenceLen : ℕ) : Handler SensorCadence := do
  let first ← readPar par 2 1
  let trigType := (first.headD 0).msb
  let n := deltaLen cadenceLen trigType
  let deltaDown ← readWord par 3 n
  let deltaUp ← readWord par (3 + n) n
  let minInterval ← readPar par (3 + 2 * n) 1
  let cadenceLow ← readWord par (3 + 2 * n + 1) cadenceLen
  let cadenceHight ← readWord par (3 + 2 * n + cadenceLen + 1) cadenceLen
  pure ⟨(first.headD 0).setWidth 7, trigType,
    ⟨deltaDown, deltaUp, minInterval.headD 0, cadenceLow, cadenceHight⟩⟩

def SensorNode.setCadence (node : SensorNode) (i : ℕ) (c : SensorCadence) : SensorNode :=
  { node with states := Function.update node.states i { node.states i with cadence := c } }

/-- The store of a cadence set; the lengths fit the fields. -/
def storeCadence (node : SensorNode) (par : ℕ → Byte) (propId : BitVec 16) (i : ℕ) :
    Handler (SensorNode × Bool) :=
  if getPropIdFormatType propId ≤ 4 then do
    let c ← readCadence par (getPropIdFormatType propId)
    touch (.states i)
    pure (node.setCadence i c, true)
  else pure (node, false)

/-- The end of a cadence set: the status, of a property that may be another by now. -/
def cadenceSetRsp (node : SensorNode) (cbPar : CbPar) (propId : BitVec 16) (stored : Bool) :
    Handler Done :=
  if cbPar.opRsp ≠ statusNone then do
    let data ← meshTxCadenceStRsp node.states propId
    pure ⟨node, stored, true, cbPar.answer data⟩
  else pure ⟨node, stored, true, .ret 0⟩

def meshCmdSigSensorCadenceSet (node : SensorNode) (par : ℕ → Byte) (parLen : ℕ)
    (cbPar : CbPar) : Handler Done := do
  let propId ← readU16 par 0
  let index ← getPropIdIndex node.states propId
  let parErr ← meshCadenceParaCheck par parLen
  if index = idUnknown then cadenceSetRsp node cbPar propId false
  else if parErr then cadenceSetRsp node cbPar prohibited false
  else if index < idUnknown then do
    let done ← storeCadence node par propId index.toNat
    cadenceSetRsp done.1 cbPar propId done.2
  else cadenceSetRsp node cbPar propId false

/-! ### Settings -/

/-- `mesh_tx_settings_st_rsp`, as far as its octets. -/
def meshTxSettingsStRsp (states : ℕ → SensorStates) (propId : BitVec 16) :
    Handler (Option (List Byte)) := do
  let index ← getPropIdIndex states propId
  if index = idProhibited then pure none
  else if index ≠ idUnknown then do
    touch (.states index.toNat)
    pure (some (toLE 2 propId.toNat ++ (List.range sensorSettingsNums).flatMap fun j =>
      toLE 2 ((states index.toNat).setting j).settingId.toNat))
  else pure (some (toLE 2 propId.toNat))

def meshCmdSigSensorSettingsGet (node : SensorNode) (par : ℕ → Byte) (cbPar : CbPar) :
    Handler Done := do
  let propId ← readU16 par 0
  let data ← meshTxSettingsStRsp node.states propId
  pure (node.tell (cbPar.answer data))

/-- The place of a setting; the last one counts. -/
def findSetting (s : SensorStates) (settingId : BitVec 16) : Option ℕ :=
  (List.range sensorSettingsNums).foldl
    (fun found j => if (s.setting j).settingId = settingId then some j else found) none

def SensorSetting.bytes (x : SensorSetting) : List Byte :=
  toLE 2 x.settingId.toNat ++ x.settingAccess :: toLE 2 x.settingRaw.toNat

/-- `mesh_tx_setting_st_rsp`, as far as its octets. -/
def meshTxSettingStRsp (states : ℕ → SensorStates) (propId settingId : BitVec 16) :
    Handler (Option (List Byte)) := do
  let index ← getPropIdIndex states propId
  if index = idProhibited then pure none
  else if index ≠ idUnknown then do
    touch (.states index.toNat)
    match findSetting (states index.toNat) settingId with
    | some j => pure (some (toLE 2 propId.toNat ++ ((states index.toNat).setting j).bytes))
    | none => pure (some (toLE 2 propId.toNat ++ toLE 2 settingId.toNat))
  else pure (some (toLE 2 propId.toNat ++ toLE 2 settingId.toNat))

def meshCmdSigSensorSettingGet (node : SensorNode) (par : ℕ → Byte) (cbPar : CbPar) :
    Handler Done := do
  let propId ← readU16 par 0
  let settingId ← readU16 par 2
  let data ← meshTxSettingStRsp node.states propId settingId
  pure (node.tell (cbPar.answer data))

def SensorStates.setRaw (s : SensorStates) (j : ℕ) (raw : BitVec 16) : SensorStates :=
  { s with setting := Function.update s.setting j { s.setting j with settingRaw := raw } }

def SensorNode.setSettingRaw (node : SensorNode) (i j : ℕ) (raw : BitVec 16) : SensorNode :=
  { node with states := Function.update node.states i ((node.states i).setRaw j raw) }

/-- The store of a setting set, at an index that is not `ID_PROHIBITED`. -/
def storeSetting (node : SensorNode) (par : ℕ → Byte) (settingId : BitVec 16) (i : ℕ) :
    Handler (SensorNode × Bool) := do
  touch (.states i)
  match findSetting (node.states i) settingId with
  | some j =>
    if ((node.states i).setting j).settingAccess = readWrite then do
      let raw ← readU16 par 4
      pure (node.setSettingRaw i j raw, true)
    else pure (node, false)
  | none => pure (node, false)

/-- The end of a setting set. -/
def settingSetRsp (node : SensorNode) (cbPar : CbPar) (propId settingId : BitVec 16)
    (stored : Bool) : Handler Done :=
  if cbPar.opRsp ≠ statusNone then do
    let data ← meshTxSettingStRsp node.states propId settingId
    pure ⟨node, stored, true, cbPar.answer data⟩
  else pure ⟨node, stored, true, .ret 0⟩

def meshCmdSigSensorSettingSet (node : SensorNode) (par : ℕ → Byte) (cbPar : CbPar) :
    Handler Done := do
  let propId ← readU16 par 0
  let settingId ← readU16 par 2
  let index ← getPropIdIndex node.states propId
  if index < idProhibited then do
    let done ← storeSetting node par settingId index.toNat
    settingSetRsp done.1 cbPar propId settingId done.2
  else settingSetRsp node cbPar propId settingId false

/-! ### Measuring -/

/-- The node behind a measurement. -/
def SensorNode.measured (node : SensorNode) (clockTimeMs quantity : BitVec 32) : SensorNode where
  sensorMeasureMs := clockTimeMs
  states := Function.update node.states 0 { node.states 0 with sensorData := quantity }

/-- `pub_flag`: the value is beyond a delta from the one before. -/
def SensorStates.pubFlag (s : SensorStates) (quantity : BitVec 32) : Bool :=
  if quantity < s.sensorData then
    decide (s.sensorData - quantity > s.cadence.cadenceUnit.deltaDown)
  else decide (quantity - s.sensorData > s.cadence.cadenceUnit.deltaUp)

/-- It is time for a measurement. -/
def SensorNode.measures (node : SensorNode) (clockTimeMs : BitVec 32) : Bool :=
  clockTimeExceedMs clockTimeMs node.sensorMeasureMs
    (1 <<< (node.states 0).cadence.cadenceUnit.minInterval.toNat)

/-- `sensor_measure_proc` on the value of `sensure_measure_quantity`, and whether it publishes. -/
def sensorMeasureProc (node : SensorNode) (clockTimeMs quantity : BitVec 32) :
    SensorNode × Bool :=
  if node.measures clockTimeMs then
    (node.measured clockTimeMs quantity, (node.states 0).pubFlag quantity)
  else (node, false)

end PirMesh.SensorModel

import PirMesh.Phone.SensorDescriptor
import PirMesh.Phone.TimeMessage

/-! # Phone — The classes of an opcode: what they keep (`SigGenericMessage.m`, `SigAccessLayer.m`)

Parameters that are decoded and given back, and fields that are written and decoded, class by
class. -/

namespace PirMesh.GenericMessage

open Nor (Byte)

/-! ### Conditions -/

/-- The classes with a property ID in front. -/
def HasPropertyID : SigMessageClass → Bool
  | .sensorDescriptorGet | .sensorDescriptorStatus | .sensorGet | .sensorColumnGet
  | .sensorSeriesGet | .sensorCadenceGet | .sensorCadenceSet | .sensorCadenceSetUnacknowledged
  | .sensorCadenceStatus | .sensorSettingsGet | .sensorSettingsStatus | .sensorSettingGet
  | .sensorSettingSet | .sensorSettingSetUnacknowledged | .sensorSettingStatus => true
  | _ => false

/-- The property ID, where there is one, is not 0. -/
def ValidProperty (c : SigMessageClass) (p : Option (List Byte)) : Prop :=
  HasPropertyID c = true → PropertyNonzero p

/-- Parameters that come back under their opcode. -/
def KeepsParameters : SigMessageClass → BitVec 16 → Option (List Byte) → Prop
  | .genericPowerRangeStatus, _, _ | .sensorColumnGet, _, _ | .sensorCadenceGet, _, _ => False
  | .sensorDescriptorGet, behind, p | .sensorGet, behind, p => p = some [] → behind = 0
  | .sensorDescriptorStatus, _, p => (octets p).length < 8
  | .sensorSettingsGet, _, p | .sensorSettingGet, _, p => (octets p).length = 2
  | .timeSet, _, p | .timeStatus, _, p => TimeKept (octets p)
  | .schedulerStatus, _, p => (u16.get (octets p)).getLsbD 15 = false
  | _, _, _ => True

/-- Six bits of steps. -/
def StepsFit (time : Option SigTransitionTime) : Prop :=
  ∀ t, time = some t → t.steps.toNat < 64

/-- The widths of the values on the wire, where a type of the fields is wider. -/
def InWidths : (c : SigMessageClass) → (codec c).Args → Prop
  | .genericPowerLevelSet, a | .genericPowerLevelSetUnacknowledged, a | .lightLightnessSet, a
  | .lightLightnessSetUnacknowledged, a | .lightLightnessLinearSet, a
  | .lightLightnessLinearSetUnacknowledged, a => StepsFit a.2.1
  | .genericPowerLevelStatus, a | .lightLightnessStatus, a | .lightLightnessLinearStatus, a =>
      StepsFit a.2.2
  | .timeSet, a => SigTimeModel.InWidths a
  | .timeZoneSet, a => (a : ZoneChange).TAIOfZoneChange.toNat < 2 ^ 40
  | .taiUTCDeltaSet, a => DeltaChange.InWidths a
  | .schedulerActionStatus, a | .schedulerActionSet, a | .schedulerActionSetUnacknowledged, a =>
      (a : SchedulerModel).sceneId.toNat < 2 ^ 16
  | .schedulerStatus, a => SchedulersFit a
  | _, _ => True

/-- Fields that are read back. -/
def KeepsFields : (c : SigMessageClass) → (codec c).Args → Prop
  | .genericPowerLevelSet, a | .genericPowerLevelSetUnacknowledged, a | .lightLightnessSet, a
  | .lightLightnessSetUnacknowledged, a | .lightLightnessLinearSet, a
  | .lightLightnessLinearSetUnacknowledged, a =>
      a.2.1 = none → a.2.2 = (0 : Byte)
  | .genericPowerLevelStatus, a | .lightLightnessStatus, a | .lightLightnessLinearStatus, a =>
      a.2.2 = none → a.2.1 = (0 : BitVec 16)
  | .sensorColumnGet, a => a.1 ≠ (0 : BitVec 16) ∧ a.2 ≠ []
  | .sensorSeriesGet, _ | .sensorCadenceGet, _ => False
  | .sensorSettingsGet, a => a ≠ (0 : BitVec 16)
  | .sensorSettingGet, a =>
      (a : SettingGet).propertyID ≠ 0 ∧ (a : SettingGet).settingPropertyID = 0
  | .sensorSettingSet, a | .sensorSettingSetUnacknowledged, a | .sensorSettingStatus, a =>
      a.1.1 ≠ (0 : BitVec 16)
  | .timeSet, a =>
      (a : SigTimeModel).TAISeconds.toNat < 2 ^ 32 ∧
        (a : SigTimeModel).taiUTCDelta = (a : SigTimeModel).subSeconds.setWidth 16
  | .schedulerStatus, a => SchedulersKept a
  | _, _ => True

/-! ### The table -/

/-- The opcode that the switch has for a class. -/
def registered : SigMessageClass → SigOpCode
  | .genericPowerLevelGet => .genericPowerLevelGet
  | .genericPowerLevelSet => .genericPowerLevelSet
  | .genericPowerLevelSetUnacknowledged => .genericPowerLevelSetUnacknowledged
  | .genericPowerLevelStatus => .genericPowerLevelStatus
  | .genericPowerLastGet => .genericPowerLastGet
  | .genericPowerLastStatus => .genericPowerLastStatus
  | .genericPowerDefaultGet => .genericPowerDefaultGet
  | .genericPowerDefaultStatus => .genericPowerDefaultStatus
  | .genericPowerRangeGet => .genericPowerRangeGet
  | .genericPowerRangeStatus => .genericPowerRangeStatus
  | .genericPowerDefaultSet => .genericPowerDefaultSet
  | .genericPowerDefaultSetUnacknowledged => .genericPowerDefaultSetUnacknowledged
  | .genericPowerRangeSet => .genericPowerRangeSet
  | .genericPowerRangeSetUnacknowledged => .genericPowerRangeSetUnacknowledged
  | .genericBatteryGet => .genericBatteryGet
  | .genericBatteryStatus => .genericBatteryStatus
  | .sensorDescriptorGet => .sensorDescriptorGet
  | .sensorDescriptorStatus => .sensorDescriptorStatus
  | .sensorGet => .sensorGet
  | .sensorStatus => .sensorStatus
  | .sensorColumnGet => .sensorColumnGet
  | .sensorColumnStatus => .sensorColumnStatus
  | .sensorSeriesGet => .sensorSeriesGet
  | .sensorSeriesStatus => .sensorSeriesStatus
  | .sensorCadenceGet => .sensorCadenceGet
  | .sensorCadenceSet => .sensorCadenceSet
  | .sensorCadenceSetUnacknowledged => .sensorCadenceSetUnacknowledged
  | .sensorCadenceStatus => .sensorCadenceStatus
  | .sensorSettingsGet => .sensorSettingsGet
  | .sensorSettingsStatus => .sensorSettingsStatus
  | .sensorSettingGet => .sensorSettingGet
  | .sensorSettingSet => .sensorSettingSet
  | .sensorSettingSetUnacknowledged => .sensorSettingSetUnacknowledged
  | .sensorSettingStatus => .sensorSettingStatus
  | .timeGet => .timeGet
  | .timeSet => .timeSet
  | .timeStatus => .timeStatus
  | .timeRoleGet => .timeRoleGet
  | .timeRoleSet => .timeRoleSet
  | .timeRoleStatus => .timeRoleStatus
  | .timeZoneGet => .timeZoneGet
  | .timeZoneSet => .timeZoneSet
  | .timeZoneStatus => .timeZoneStatus
  | .taiUTCDeltaGet => .taiUTCDeltaGet
  | .taiUTCDeltaSet => .taiUTCDeltaSet
  | .taiUTCDeltaStatus => .taiUTCDeltaStatus
  | .schedulerActionGet => .schedulerActionGet
  | .schedulerActionStatus => .schedulerActionStatus
  | .schedulerGet => .schedulerGet
  | .schedulerStatus => .schedulerStatus
  | .schedulerActionSet => .schedulerActionSet
  | .schedulerActionSetUnacknowledged => .schedulerActionSetUnacknowledged
  | .lightLightnessGet => .lightLightnessGet
  | .lightLightnessSet => .lightLightnessSet
  | .lightLightnessSetUnacknowledged => .lightLightnessSetUnacknowledged
  | .lightLightnessStatus => .lightLightnessStatus
  | .lightLightnessLinearGet => .lightLightnessLinearGet
  | .lightLightnessLinearSet => .lightLightnessLinearSet
  | .lightLightnessLinearSetUnacknowledged => .lightLightnessLinearSetUnacknowledged
  | .lightLightnessLinearStatus => .lightLightnessLinearStatus
  | .lightLightnessLastGet => .lightLightnessLastGet
  | .lightLightnessLastStatus => .lightLightnessLastStatus
  | .lightLightnessDefaultGet => .lightLightnessDefaultGet
  | .lightLightnessDefaultStatus => .lightLightnessDefaultStatus
  | .lightLightnessRangeGet => .lightLightnessRangeGet
  | .lightLightnessRangeStatus => .lightLightnessRangeStatus
  | .lightLightnessDefaultSet => .lightLightnessDefaultSet
  | .lightLightnessDefaultSetUnacknowledged => .lightLightnessDefaultSetUnacknowledged
  | .lightLightnessRangeSet => .lightLightnessRangeSet
  | .lightLightnessRangeSetUnacknowledged => .lightLightnessRangeSetUnacknowledged

theorem getMeshMessageWithOpCode_registered (c : SigMessageClass) :
    getMeshMessageWithOpCode (registered c) = c := by
  cases c <;> rfl

theorem registered_getMeshMessageWithOpCode (opCode : SigOpCode) :
    registered (getMeshMessageWithOpCode opCode) = opCode := by
  cases opCode <;> rfl

/-- A property ID that a format starts with. -/
theorem head_ne_zero {β : Type} {G : Format β} {p : Option (List Byte)} (h : PropertyNonzero p)
    (hlen : (u16.pair G).size ≤ (octets p).length) :
    ((u16.pair G).get ((octets p).take (u16.pair G).size)).1 ≠ 0 := by
  have hsize : 2 ≤ (u16.pair G).size := Nat.le_add_right 2 G.size
  show u16.get (((octets p).take (u16.pair G).size).take 2) ≠ 0
  rw [List.take_take, Nat.min_eq_left hsize]
  exact h (hsize.trans hlen)

theorem settles : ∀ c : SigMessageClass, Settles (codec c) (registered c) (ValidProperty c)
    (KeepsParameters c) (InWidths c) (KeepsFields c)
  | .genericPowerLevelGet | .genericPowerLastGet | .genericPowerDefaultGet
  | .genericPowerRangeGet | .genericBatteryGet | .timeGet | .timeRoleGet | .timeZoneGet
  | .taiUTCDeltaGet | .schedulerGet | .lightLightnessGet | .lightLightnessLinearGet
  | .lightLightnessLastGet | .lightLightnessDefaultGet | .lightLightnessRangeGet =>
      getMessage_settles
  | .genericPowerLevelSet | .genericPowerLevelSetUnacknowledged | .lightLightnessSet
  | .lightLightnessSetUnacknowledged | .lightLightnessLinearSet
  | .lightLightnessLinearSetUnacknowledged => timedSet_settles
  | .genericPowerLevelStatus | .lightLightnessStatus | .lightLightnessLinearStatus =>
      timedStatus_settles
  | .genericPowerLastStatus | .genericPowerDefaultStatus | .genericPowerDefaultSet
  | .genericPowerDefaultSetUnacknowledged | .lightLightnessLastStatus
  | .lightLightnessDefaultStatus | .lightLightnessDefaultSet
  | .lightLightnessDefaultSetUnacknowledged =>
      fixedMessage_settles u16_exact fun a _ => u16_fits a
  | .genericPowerRangeSet | .genericPowerRangeSetUnacknowledged | .lightLightnessRangeSet
  | .lightLightnessRangeSetUnacknowledged =>
      fixedMessage_settles range_exact fun a _ => range_fits a
  | .timeRoleSet | .schedulerActionGet => fixedMessage_settles u8_exact fun a _ => u8_fits a
  | .sensorStatus | .sensorColumnStatus | .sensorSeriesStatus => dataMessage_settles
  | .sensorCadenceSet | .sensorCadenceSetUnacknowledged | .sensorCadenceStatus
  | .sensorSettingsStatus => propertyData_settles
  | .sensorDescriptorGet | .sensorGet => optionalProperty_settles.of_valid fun _ h => h rfl
  | .sensorDescriptorStatus => sensorDescriptorStatus_settles
  | .sensorColumnGet => sensorColumnGet_settles
  | .sensorSeriesGet => sensorSeriesGet_settles
  | .sensorCadenceGet => sensorCadenceGet_settles
  | .sensorSettingsGet => requiredProperty_settles.of_valid fun _ h => h rfl
  | .sensorSettingGet => sensorSettingGet_settles.of_valid fun _ h => h rfl
  | .sensorSettingSet | .sensorSettingSetUnacknowledged =>
      rawMessage_settles (u16_exact.pair u16_exact)
        (fun _ => Format.fits_pair u16_exact (u16_fits _) (u16_fits _))
        fun _ h => head_ne_zero (h rfl)
  | .sensorSettingStatus =>
      rawMessage_settles (u16_exact.pair (u16_exact.pair u8_exact))
        (fun _ => Format.fits_pair u16_exact (u16_fits _)
          (Format.fits_pair u16_exact (u16_fits _) (u8_fits _)))
        fun _ h => head_ne_zero (h rfl)
  | .genericPowerRangeStatus => genericPowerRangeStatus_settles
  | .genericBatteryStatus =>
    fixedMessage_settles batteryStatus_exact fun a _ => batteryStatus_fits a
  | .timeSet => time_settles
  | .timeStatus => ⟨time_settles.octets_iff, fun _ _ a => a.elim⟩
  | .timeRoleStatus => fixedMessage_settles u8_exact fun a _ => a.elim
  | .timeZoneSet => fixedMessage_settles zoneChange_exact fun _ h => zoneChange_fits h
  | .timeZoneStatus => fixedMessage_settles zoneStatus_exact fun a _ => a.elim
  | .taiUTCDeltaSet => fixedMessage_settles deltaChange_exact fun _ h => deltaChange_fits h
  | .taiUTCDeltaStatus => fixedMessage_settles deltaStatus_exact fun a _ => a.elim
  | .schedulerActionStatus | .schedulerActionSet | .schedulerActionSetUnacknowledged =>
      schedulerAction_settles
  | .schedulerStatus => schedulerStatus_settles
  | .lightLightnessRangeStatus =>
      fixedMessage_settles rangeStatus_exact fun _ _ => rangeStatus_fits _

/-! ### The classes -/

/-- A message has the opcode and the parameters that were received. -/
def GivenBack (m : SigMeshMessage) (opCode : SigOpCode) (p : Option (List Byte)) : Prop :=
  m.opCode = opCode ∧ octets m.parameters = octets p

/-- A message that was built from fields is decoded to its class and fields. -/
def ReadsBack (behind : BitVec 16) (c : SigMessageClass) (a : (codec c).Args) : Prop :=
  let m := SigMeshMessage.built c a
  ∃ opCode, decodeSigAccessPdu behind m.opCode m.parameters = some { m with opCode := opCode }

theorem givenBack_iff {behind : BitVec 16} {opCode : SigOpCode} {p : Option (List Byte)}
    {m : SigMeshMessage} (h : decodeSigAccessPdu behind opCode p = some m)
    (hp : ValidProperty m.messageType p) :
    GivenBack m opCode p ↔ KeepsParameters m.messageType behind p := by
  obtain ⟨fields, hget, rfl⟩ := Option.map_eq_some_iff.mp h
  have hiff := (settles (getMeshMessageWithOpCode opCode)).octets_iff behind p fields hp hget
  rwa [registered_getMeshMessageWithOpCode] at hiff

theorem decode_registered (behind : BitVec 16) (c : SigMessageClass) (p : Option (List Byte)) :
    decodeSigAccessPdu behind (registered c) p =
      ((codec c).initWithParameters behind p).map fun fields =>
        ⟨c, (codec c).opCodeOfParameters, fields⟩ := by
  unfold decodeSigAccessPdu
  rw [getMeshMessageWithOpCode_registered]

/-- One class builds its messages under the opcode of another. -/
theorem opCode_eq_registered (c : SigMessageClass) :
    (codec c).opCode = registered c ∨ c = .sensorCadenceGet := by
  cases c <;> first | exact .inl rfl | exact .inr rfl

theorem readsBack_iff (behind : BitVec 16) {c : SigMessageClass} {a : (codec c).Args}
    (ha : InWidths c a) : ReadsBack behind c a ↔ KeepsFields c a := by
  rcases opCode_eq_registered c with hop | rfl
  · rw [← (settles c).fields_iff hop behind a ha]
    show (∃ opCode, decodeSigAccessPdu behind (codec c).opCode
      ((codec c).parameters ((codec c).initWith a)) = some ⟨c, opCode, (codec c).initWith a⟩) ↔ _
    rw [hop, decode_registered]
    constructor
    · intro h
      obtain ⟨opCode, h⟩ := h
      obtain ⟨fields, hget, heq⟩ := Option.map_eq_some_iff.mp h
      cases heq
      exact hget
    · intro h
      rw [h]
      exact ⟨_, rfl⟩
  · refine iff_of_false (fun h => ?_) id
    obtain ⟨opCode, h⟩ := h
    obtain ⟨fields, -, heq⟩ := Option.map_eq_some_iff.mp h
    exact SigMessageClass.noConfusion (congrArg SigMeshMessage.messageType heq)

theorem genericMessage_codecs (behind : BitVec 16) :
    (∀ opCode p m, decodeSigAccessPdu behind opCode p = some m →
      ValidProperty m.messageType p →
        (GivenBack m opCode p ↔ KeepsParameters m.messageType behind p)) ∧
    ∀ c a, InWidths c a → (ReadsBack behind c a ↔ KeepsFields c a) :=
  ⟨fun _ _ _ h hp => givenBack_iff h hp, fun _ _ ha => readsBack_iff behind ha⟩

theorem genericMessage_codecs_sample :
    (∃ m, decodeSigAccessPdu 0 .sensorSettingsGet (some [1, 0]) = some m ∧
      GivenBack m .sensorSettingsGet (some [1, 0])) ∧
    ReadsBack 0 .timeZoneSet (⟨4, 5⟩ : ZoneChange) := by
  refine ⟨⟨_, rfl, ((genericMessage_codecs 0).1 .sensorSettingsGet (some [1, 0]) _ rfl ?_).mpr rfl⟩,
    ((genericMessage_codecs 0).2 .timeZoneSet (⟨4, 5⟩ : ZoneChange) ?_).mpr trivial⟩
  · exact fun _ _ => by decide
  · show (5#64).toNat < 2 ^ 40
    decide

/-- A request for a column comes back under another opcode. -/
theorem genericMessage_codecs_refuted :
    ¬ ((∀ behind opCode p m, decodeSigAccessPdu behind opCode p = some m →
        ValidProperty m.messageType p → GivenBack m opCode p) ∧
      ∀ behind c a, InWidths c a → ReadsBack behind c a) := by
  intro h
  have hgiven := h.1 0 .sensorColumnGet (some [1, 0, 2]) _ rfl fun _ _ => by decide
  exact SigOpCode.noConfusion hgiven.1

end PirMesh.GenericMessage

import PirMesh.Sensor.SensorsModel

/-! # Sensor — Bounds of the sensor messages (`sensors_model.c`)

`getPropIdIndex_index` says what the lookup of a property finds: an index below `SENSOR_NUMS`, or
one of the two that are none.  All handlers but one leave both of them alone, and what else they
read of a message is octets, so each handler has its least length.  A setting set takes `ID_UNKNOWN`
for an index. -/

namespace PirMesh.SensorModel

open Accesses Accesses.Traced Reassembly
open Nor (Byte toLE ofLE)

section

variable {states : ℕ → SensorStates} {node : SensorNode} {par : ℕ → Byte} {parLen p n : ℕ}
  {propId settingId : BitVec 16} {cbPar : CbPar}

@[simp] theorem val_readPar : (readPar par p n).val = read par p n := rfl

@[simp] theorem within_readPar :
    (readPar par p n).Within (Access.Ok parLen) ↔ p + n ≤ parLen := within_look _ _

@[simp] theorem within_readU16 :
    (readU16 par p).Within (Access.Ok parLen) ↔ p + 2 ≤ parLen := within_look _ _

@[simp] theorem within_readWord :
    (readWord par p n).Within (Access.Ok parLen) ↔ p + n ≤ parLen := within_look _ _

@[simp] theorem ok_states {i : ℕ} : Access.Ok parLen (.states i) ↔ i < sensorNums := Iff.rfl

@[simp] theorem ok_descrip {i : ℕ} : Access.Ok parLen (.descrip i) ↔ i < sensorNums := Iff.rfl

/-! ### The lookup -/

/-- No sensor has the property. -/
def Unknown (states : ℕ → SensorStates) (propId : BitVec 16) : Prop :=
  propId ≠ prohibited ∧ ∀ i < sensorNums, (states i).propId ≠ propId

/-- Sensor `i` is the one with the property. -/
structure SensorOf (states : ℕ → SensorStates) (propId : BitVec 16) (i : ℕ) : Prop where
  allowed : propId ≠ prohibited
  lt : i < sensorNums
  same : (states i).propId = propId
  first : ∀ k < i, (states k).propId ≠ propId

/-- What the lookup finds. -/
inductive PropIndex (states : ℕ → SensorStates) (propId : BitVec 16) : BitVec 32 → Prop
  | none (h : propId = prohibited) : PropIndex states propId idProhibited
  | unknown (h : Unknown states propId) : PropIndex states propId idUnknown
  | found {index : BitVec 32} (h : SensorOf states propId index.toNat) :
      PropIndex states propId index

variable (parLen) in
theorem findPropId_range' {k m : ℕ} (hkm : k + m = sensorNums) (hprop : propId ≠ prohibited)
    (hbefore : ∀ i < k, (states i).propId ≠ propId) :
    PropIndex states propId (findPropId states propId (List.range' k m)).val ∧
      (findPropId states propId (List.range' k m)).Within (Access.Ok parLen) := by
  induction m generalizing k with
  | zero =>
    refine ⟨.unknown ⟨hprop, fun i hi => hbefore i ?_⟩, within_pure _⟩
    omega
  | succ m ih =>
    have hlt : k < sensorNums := by omega
    have hnat : (BitVec.ofNat 32 k).toNat = k := Nat.mod_eq_of_lt (hlt.trans (by decide))
    rw [List.range'_succ, findPropId, val_bind, val_ite, within_bind, within_touch, within_ite]
    split_ifs with hsame
    · refine ⟨.found ?_, hlt, within_pure _⟩
      show SensorOf states propId (BitVec.ofNat 32 k).toNat
      rw [hnat]
      exact ⟨hprop, hlt, hsame.symm, hbefore⟩
    · have hnext := ih (k := k + 1) (by omega) fun i hi => ?_
      · exact ⟨hnext.1, hlt, hnext.2⟩
      · rcases Nat.lt_succ_iff_lt_or_eq.mp hi with hlt' | rfl
        · exact hbefore i hlt'
        · exact Ne.symm hsame

theorem getPropIdIndex_index (states : ℕ → SensorStates) (propId : BitVec 16) :
    PropIndex states propId (getPropIdIndex states propId).val := by
  unfold getPropIdIndex
  rw [val_ite]
  split_ifs with hprop
  · exact .none hprop
  · rw [List.range_eq_range']
    exact (findPropId_range' 0 (Nat.zero_add _) hprop fun i hi =>
      absurd hi (Nat.not_lt_zero i)).1

@[simp] theorem getPropIdIndex_within :
    (getPropIdIndex states propId).Within (Access.Ok parLen) := by
  unfold getPropIdIndex
  rw [within_ite]
  split_ifs with hprop
  · exact within_pure _
  · rw [List.range_eq_range']
    exact (findPropId_range' parLen (Nat.zero_add _) hprop fun i hi =>
      absurd hi (Nat.not_lt_zero i)).2

/-- An index that is neither of the two is a sensor. -/
theorem PropIndex.sensorOf {index : BitVec 32} (h : PropIndex states propId index)
    (hne : index ≠ idProhibited) (hne' : index ≠ idUnknown) :
    SensorOf states propId index.toNat := by
  cases h with
  | none => exact absurd rfl hne
  | unknown => exact absurd rfl hne'
  | found h => exact h

/-! ### What the statuses read -/

/-- A tail that uses the index of a lookup, which is a sensor unless it is one of the two. -/
theorem within_of_index {α : Type} {none unknown : Handler α} {known : BitVec 32 → Handler α}
    (hnone : none.Within (Access.Ok parLen)) (hunknown : unknown.Within (Access.Ok parLen))
    (hknown : ∀ index, SensorOf states propId index.toNat →
      (known index).Within (Access.Ok parLen)) :
    (getPropIdIndex states propId >>= fun index =>
      if index = idProhibited then none
      else if index ≠ idUnknown then known index else unknown).Within (Access.Ok parLen) := by
  rw [within_bind, within_ite, within_ite]
  refine ⟨getPropIdIndex_within, ?_⟩
  split_ifs with hprohibited hne
  · exact hnone
  · exact hknown _ ((getPropIdIndex_index states propId).sensorOf hprohibited hne)
  · exact hunknown

theorem descriptData_within : (descriptData states propId parLen).Within (Access.Ok parLen) := by
  have hone : ∀ buf i, (descripBytes buf i).Within (Access.Ok parLen) ↔ i < sensorNums := by
    intro buf i
    unfold descripBytes
    rw [within_bind, within_touch]
    exact and_iff_left (within_pure _)
  unfold descriptData
  rw [within_ite]
  split_ifs
  · refine within_of_index (within_pure _) (within_pure _) fun index h => ?_
    exact (within_bind _ _).mpr ⟨(hone _ _).mpr h.lt, within_pure _⟩
  · refine (within_bind _ _).mpr ⟨(within_foldlM_iff hone _ _).mpr fun i hi => ?_, within_pure _⟩
    exact List.mem_range.mp hi

theorem sensorData_within : (sensorData states propId parLen).Within (Access.Ok parLen) := by
  have hone : ∀ buf i, (mpidBytes states buf i).Within (Access.Ok parLen) ↔ i < sensorNums := by
    intro buf i
    unfold mpidBytes
    rw [within_bind, within_touch]
    exact and_iff_left (within_pure _)
  unfold sensorData
  rw [within_ite]
  split_ifs
  · refine within_of_index (within_pure _) (within_pure _) fun index h => ?_
    exact (within_bind _ _).mpr ⟨(within_touch _).mpr h.lt, within_pure _⟩
  · refine (within_bind _ _).mpr ⟨(within_foldlM_iff hone _ _).mpr fun i hi => ?_, within_pure _⟩
    exact List.mem_range.mp hi

theorem meshTxSensorStRsp_within :
    (meshTxSensorStRsp node cbPar propId parLen).Within (Access.Ok parLen) := by
  unfold meshTxSensorStRsp
  rw [within_bind]
  refine ⟨sensorData_within, ?_⟩
  cases (sensorData node.states propId parLen).val with
  | none => exact within_pure _
  | some data => exact within_pure _

theorem meshTxCadenceStRsp_within :
    (meshTxCadenceStRsp states propId).Within (Access.Ok parLen) := by
  refine within_of_index (within_pure _) (within_pure _) fun index h => ?_
  exact (within_bind _ _).mpr ⟨(within_touch _).mpr h.lt, within_pure _⟩

theorem meshTxSettingsStRsp_within :
    (meshTxSettingsStRsp states propId).Within (Access.Ok parLen) := by
  refine within_of_index (within_pure _) (within_pure _) fun index h => ?_
  exact (within_bind _ _).mpr ⟨(within_touch _).mpr h.lt, within_pure _⟩

theorem meshTxSettingStRsp_within :
    (meshTxSettingStRsp states propId settingId).Within (Access.Ok parLen) := by
  refine within_of_index (within_pure _) (within_pure _) fun index h => ?_
  rw [within_bind]
  refine ⟨(within_touch _).mpr h.lt, ?_⟩
  cases findSetting (states index.toNat) settingId with
  | none => exact within_pure _
  | some j => exact within_pure _

/-! ### What a cadence set reads -/

/-- The length that the check asks for is that of what the store reads. -/
theorem length_of_check (h : (meshCadenceParaCheck par parLen).val = false) :
    parLen = 3 + 2 * deltaLen (getPropIdFormatType (readU16 par 0).val)
      ((read par 2 1).headD 0).msb + 1 + 2 * getPropIdFormatType (readU16 par 0).val := by
  unfold meshCadenceParaCheck at h
  rw [val_bind, val_bind, val_readPar, val_ite, val_ite, val_ite] at h
  unfold deltaLen
  split_ifs at h ⊢ with htrig hlen
  · omega
  · omega

theorem meshCadenceParaCheck_within :
    (meshCadenceParaCheck par parLen).Within (Access.Ok parLen) ↔ 3 ≤ parLen := by
  unfold meshCadenceParaCheck
  rw [within_bind, within_bind, within_readU16, within_readPar, within_ite, within_ite, within_ite,
    within_bind, within_readPar, within_bind, within_readPar]
  constructor
  · rintro ⟨-, hlen, -⟩
    exact hlen
  · intro hlen
    refine ⟨by omega, hlen, ?_⟩
    split_ifs with htrig hne hne
    · exact within_pure _
    · exact ⟨by omega, within_pure _⟩
    · exact within_pure _
    · exact ⟨by omega, within_pure _⟩

theorem storeCadence_within {index : BitVec 32} (h : SensorOf node.states propId index.toNat)
    (hlen : parLen = 3 + 2 * deltaLen (getPropIdFormatType propId)
      ((read par 2 1).headD 0).msb + 1 + 2 * getPropIdFormatType propId) :
    (storeCadence node par propId index.toNat).Within (Access.Ok parLen) := by
  unfold storeCadence readCadence
  rw [within_ite]
  split_ifs
  · simp only [within_bind, within_readPar, within_readWord, within_touch, within_pure, and_true,
      ok_states, val_readPar]
    refine ⟨⟨by omega, by omega, by omega, by omega, by omega, by omega⟩, h.lt⟩
  · exact within_pure _

theorem cadenceSetRsp_within {stored : Bool} :
    (cadenceSetRsp node cbPar propId stored).Within (Access.Ok parLen) := by
  unfold cadenceSetRsp
  rw [within_ite, within_bind]
  split_ifs
  · exact ⟨meshTxCadenceStRsp_within, within_pure _⟩
  · exact within_pure _

theorem meshCmdSigSensorCadenceSet_within :
    (meshCmdSigSensorCadenceSet node par parLen cbPar).Within (Access.Ok parLen) ↔
      3 ≤ parLen := by
  unfold meshCmdSigSensorCadenceSet
  rw [within_bind, within_bind, within_bind, within_readU16, meshCadenceParaCheck_within]
  constructor
  · rintro ⟨-, -, hlen, -⟩
    exact hlen
  · intro hlen
    refine ⟨by omega, getPropIdIndex_within, hlen, ?_⟩
    rw [within_ite, within_ite, within_ite, within_bind]
    have hindex := getPropIdIndex_index node.states (readU16 par 0).val
    split_ifs with hunknown herr hlt
    · exact cadenceSetRsp_within
    · exact cadenceSetRsp_within
    · have hne : (getPropIdIndex node.states (readU16 par 0).val).val ≠ idProhibited := by
        intro heq
        rw [heq] at hlt
        exact absurd hlt (by decide)
      have hcheck := length_of_check (Bool.not_eq_true _ ▸ herr)
      exact ⟨storeCadence_within (hindex.sensorOf hne hunknown) hcheck, cadenceSetRsp_within⟩
    · exact cadenceSetRsp_within

/-! ### What a setting set reads -/

/-- The setting is one that can be written, of a sensor that there is. -/
def Writable (states : ℕ → SensorStates) (propId settingId : BitVec 16) : Prop :=
  ∃ i j, SensorOf states propId i ∧ findSetting (states i) settingId = some j ∧
    ((states i).setting j).settingAccess = readWrite

theorem SensorOf.unique {i k : ℕ} (h : SensorOf states propId i) (h' : SensorOf states propId k) :
    i = k := by
  rcases Nat.lt_trichotomy i k with hlt | heq | hgt
  · exact absurd h.same (h'.first i hlt)
  · exact heq
  · exact absurd h'.same (h.first k hgt)

theorem SensorOf.not_unknown {i : ℕ} (h : SensorOf states propId i) : ¬ Unknown states propId :=
  fun hunknown => hunknown.2 i h.lt h.same

theorem storeSetting_within {i : ℕ} (h : SensorOf node.states propId i) :
    (storeSetting node par settingId i).Within (Access.Ok parLen) ↔
      (Writable node.states propId settingId → 6 ≤ parLen) := by
  unfold storeSetting
  rw [within_bind, within_touch]
  refine (and_iff_right h.lt).trans ?_
  cases hfind : findSetting (node.states i) settingId with
  | none =>
    refine iff_of_true (within_pure _) ?_
    rintro ⟨k, j, hk, hj, -⟩
    cases h.unique hk
    exact absurd (hfind.symm.trans hj).symm (Option.some_ne_none j)
  | some j =>
    rw [within_ite]
    by_cases haccess : ((node.states i).setting j).settingAccess = readWrite
    · rw [if_pos haccess, within_bind, within_readU16]
      refine (and_iff_left (within_pure _)).trans ⟨fun hlen _ => hlen, fun hlen => ?_⟩
      exact hlen ⟨i, j, h, hfind, haccess⟩
    · rw [if_neg haccess]
      refine iff_of_true (within_pure _) ?_
      rintro ⟨k, j', hk, hj', hwrite⟩
      cases h.unique hk
      cases Option.some.inj (hfind.symm.trans hj')
      exact absurd hwrite haccess

theorem settingSetRsp_within {stored : Bool} :
    (settingSetRsp node cbPar propId settingId stored).Within (Access.Ok parLen) := by
  unfold settingSetRsp
  rw [within_ite, within_bind]
  split_ifs
  · exact ⟨meshTxSettingStRsp_within, within_pure _⟩
  · exact within_pure _

theorem meshCmdSigSensorSettingSet_within :
    (meshCmdSigSensorSettingSet node par cbPar).Within (Access.Ok parLen) ↔
      4 ≤ parLen ∧ ¬ Unknown node.states (readU16 par 0).val ∧
        (Writable node.states (readU16 par 0).val (readU16 par 2).val → 6 ≤ parLen) := by
  unfold meshCmdSigSensorSettingSet
  rw [within_bind, within_bind, within_bind, within_readU16, within_readU16, within_ite,
    within_bind]
  have hindex := getPropIdIndex_index node.states (readU16 par 0).val
  have hfour : 0 + 2 ≤ parLen ∧ 2 + 2 ≤ parLen ↔ 4 ≤ parLen := by omega
  rw [← and_assoc, hfour]
  refine and_congr_right fun _ => (and_iff_right getPropIdIndex_within).trans ?_
  generalize (getPropIdIndex node.states (readU16 par 0).val).val = index at hindex ⊢
  cases hindex with
  | none hprop =>
    rw [if_neg (by decide)]
    refine iff_of_true settingSetRsp_within ⟨fun h => h.1 hprop, ?_⟩
    rintro ⟨k, j, hk, -⟩
    exact absurd hprop hk.allowed
  | unknown hunknown =>
    rw [if_pos (by decide)]
    refine iff_of_false (fun h => ?_) fun h => h.1 hunknown
    have hsensor : idUnknown.toNat < sensorNums :=
      ok_states.mp ((within_touch _).mp ((within_bind _ _).mp h.1).1)
    exact absurd hsensor (by decide)
  | found hsensor =>
    have hlt : index < idProhibited := BitVec.lt_def.mpr (hsensor.lt.trans (by decide))
    rw [if_pos hlt]
    refine (and_iff_left settingSetRsp_within).trans ((storeSetting_within hsensor).trans ?_)
    exact (and_iff_right hsensor.not_unknown).symm

/-! ### What no sensor makes of a message -/

/-- The states of the sensors are what they were. -/
def Keeps (node : SensorNode) (done : Done) : Prop :=
  ∀ i < sensorNums, done.node.states i = node.states i

theorem Keeps.tell {reply : Reply} : Keeps node (node.tell reply) := fun _ _ => rfl

theorem meshTxSensorStRsp_keeps : Keeps node (meshTxSensorStRsp node cbPar propId parLen).val := by
  unfold meshTxSensorStRsp
  rw [val_bind]
  cases (sensorData node.states propId parLen).val with
  | none => exact Keeps.tell
  | some data => exact fun _ _ => rfl

theorem cadenceSetRsp_states {stored : Bool} :
    (cadenceSetRsp node cbPar propId stored).val.node = node := by
  unfold cadenceSetRsp
  rw [val_ite, val_bind]
  split_ifs
  · rfl
  · rfl

theorem settingSetRsp_states {stored : Bool} :
    (settingSetRsp node cbPar propId settingId stored).val.node = node := by
  unfold settingSetRsp
  rw [val_ite, val_bind]
  split_ifs
  · rfl
  · rfl

/-- The property of a message is none that a sensor has. -/
def NoSensor (states : ℕ → SensorStates) (propId : BitVec 16) : Prop :=
  propId = prohibited ∨ Unknown states propId

theorem NoSensor.not_sensorOf {i : ℕ} (h : NoSensor states propId) :
    ¬ SensorOf states propId i := by
  intro hsensor
  rcases h with hprop | hunknown
  · exact hsensor.allowed hprop
  · exact hsensor.not_unknown hunknown

theorem meshCmdSigSensorCadenceSet_keeps (h : NoSensor node.states (readU16 par 0).val) :
    Keeps node (meshCmdSigSensorCadenceSet node par parLen cbPar).val := by
  intro i _
  unfold meshCmdSigSensorCadenceSet
  rw [val_bind, val_bind, val_bind, val_ite, val_ite, val_ite, val_bind]
  have hindex := getPropIdIndex_index node.states (readU16 par 0).val
  generalize (getPropIdIndex node.states (readU16 par 0).val).val = index at hindex ⊢
  split_ifs with hunknown herr hlt
  · rw [cadenceSetRsp_states]
  · rw [cadenceSetRsp_states]
  · cases hindex with
    | none => exact absurd hlt (by decide)
    | unknown => exact absurd rfl hunknown
    | found hsensor => exact absurd hsensor h.not_sensorOf
  · rw [cadenceSetRsp_states]

/-- A setting set may write behind the sensors, never to one. -/
theorem storeSetting_keeps {i k : ℕ} (h : k ≠ i) :
    (storeSetting node par settingId i).val.1.states k = node.states k := by
  unfold storeSetting
  rw [val_bind]
  cases hfind : findSetting (node.states i) settingId with
  | none => rfl
  | some j =>
    dsimp only
    rw [val_ite, val_bind]
    split_ifs
    · exact Function.update_of_ne h _ _
    · rfl

theorem meshCmdSigSensorSettingSet_keeps (h : NoSensor node.states (readU16 par 0).val) :
    Keeps node (meshCmdSigSensorSettingSet node par cbPar).val := by
  intro i hi
  unfold meshCmdSigSensorSettingSet
  rw [val_bind, val_bind, val_bind, val_ite, val_bind]
  have hindex := getPropIdIndex_index node.states (readU16 par 0).val
  generalize (getPropIdIndex node.states (readU16 par 0).val).val = index at hindex ⊢
  split_ifs with hlt
  · rw [settingSetRsp_states]
    cases hindex with
    | none => exact absurd hlt (by decide)
    | unknown =>
      refine storeSetting_keeps fun heq => ?_
      rw [heq] at hi
      exact absurd hi (by decide)
    | found hsensor => exact absurd hsensor h.not_sensorOf
  · rw [settingSetRsp_states]

end

/-! ### All messages -/

inductive SensorMsg
  | descriptGet
  | get
  | cadenceGet
  | cadenceSet
  | settingsGet
  | settingGet
  | settingSet

namespace SensorMsg

def handle (node : SensorNode) (par : ℕ → Byte) (parLen : ℕ) (cbPar : CbPar) :
    SensorMsg → Handler Done
  | descriptGet => meshCmdSigSensorDescriptGet node par parLen cbPar
  | get => meshCmdSigSensorGet node par parLen cbPar
  | cadenceGet => meshCmdSigSensorCadenceGet node par cbPar
  | cadenceSet => meshCmdSigSensorCadenceSet node par parLen cbPar
  | settingsGet => meshCmdSigSensorSettingsGet node par cbPar
  | settingGet => meshCmdSigSensorSettingGet node par cbPar
  | settingSet => meshCmdSigSensorSettingSet node par cbPar

/-- The messages that are long enough; a setting set also has to name a sensor, or none at all. -/
def LongEnough (states : ℕ → SensorStates) (par : ℕ → Byte) (parLen : ℕ) : SensorMsg → Prop
  | get => parLen = 0 ∨ 2 ≤ parLen
  | descriptGet | cadenceGet | settingsGet => 2 ≤ parLen
  | cadenceSet => 3 ≤ parLen
  | settingGet => 4 ≤ parLen
  | settingSet => 4 ≤ parLen ∧ ¬ Unknown states (readU16 par 0).val ∧
      (Writable states (readU16 par 0).val (readU16 par 2).val → 6 ≤ parLen)

end SensorMsg

/-- A message is handled within bounds, and leaves the sensors when it names none. -/
structure SafeMsg (node : SensorNode) (par : ℕ → Byte) (parLen : ℕ) (cbPar : CbPar)
    (msg : SensorMsg) : Prop where
  within : (msg.handle node par parLen cbPar).Within (Access.Ok parLen)
  keeps : NoSensor node.states (readU16 par 0).val →
    Keeps node (msg.handle node par parLen cbPar).val

section

variable {node : SensorNode} {par : ℕ → Byte} {parLen : ℕ} {cbPar : CbPar}

theorem handle_within (msg : SensorMsg) :
    (msg.handle node par parLen cbPar).Within (Access.Ok parLen) ↔
      msg.LongEnough node.states par parLen := by
  cases msg with
  | descriptGet =>
    refine (within_bind _ _).trans ((and_iff_left ?_).trans within_readU16)
    rw [within_bind]
    refine ⟨descriptData_within, ?_⟩
    cases (descriptData node.states (readU16 par 0).val parLen).val with
    | none => exact within_pure _
    | some data =>
      dsimp only
      rw [within_ite]
      split_ifs
      · exact within_pure _
      · exact within_pure _
  | get =>
    show (meshCmdSigSensorGet node par parLen cbPar).Within _ ↔ parLen = 0 ∨ 2 ≤ parLen
    unfold meshCmdSigSensorGet
    rw [within_ite, within_bind, within_readU16]
    split_ifs with hlen
    · rw [and_iff_left meshTxSensorStRsp_within, or_iff_right hlen]
    · exact iff_of_true meshTxSensorStRsp_within (.inl (not_not.mp hlen))
  | cadenceGet =>
    refine (within_bind _ _).trans ((and_iff_left ?_).trans within_readU16)
    exact (within_bind _ _).mpr ⟨meshTxCadenceStRsp_within, within_pure _⟩
  | cadenceSet => exact meshCmdSigSensorCadenceSet_within
  | settingsGet =>
    refine (within_bind _ _).trans ((and_iff_left ?_).trans within_readU16)
    exact (within_bind _ _).mpr ⟨meshTxSettingsStRsp_within, within_pure _⟩
  | settingGet =>
    show (meshCmdSigSensorSettingGet node par cbPar).Within _ ↔ 4 ≤ parLen
    unfold meshCmdSigSensorSettingGet
    rw [within_bind, within_bind, within_bind, within_readU16, within_readU16,
      and_iff_left (within_pure _), and_iff_left meshTxSettingStRsp_within]
    omega
  | settingSet => exact meshCmdSigSensorSettingSet_within

theorem handle_keeps (msg : SensorMsg) (h : NoSensor node.states (readU16 par 0).val) :
    Keeps node (msg.handle node par parLen cbPar).val := by
  cases msg with
  | descriptGet =>
    show Keeps node (meshCmdSigSensorDescriptGet node par parLen cbPar).val
    unfold meshCmdSigSensorDescriptGet
    rw [val_bind, val_bind]
    cases (descriptData node.states (readU16 par 0).val parLen).val with
    | none => exact Keeps.tell
    | some data =>
      dsimp only
      rw [val_ite]
      split_ifs
      · exact Keeps.tell
      · exact Keeps.tell
  | get =>
    show Keeps node (meshCmdSigSensorGet node par parLen cbPar).val
    unfold meshCmdSigSensorGet
    rw [val_ite, val_bind]
    split_ifs
    · exact meshTxSensorStRsp_keeps
    · exact meshTxSensorStRsp_keeps
  | cadenceGet => exact Keeps.tell
  | cadenceSet => exact meshCmdSigSensorCadenceSet_keeps h
  | settingsGet => exact Keeps.tell
  | settingGet => exact Keeps.tell
  | settingSet => exact meshCmdSigSensorSettingSet_keeps h

end

/-- **Sensor messages**: exactly which are handled within bounds.  None changes a sensor that it
does not name. -/
theorem sensorMessages_safe (msg : SensorMsg) (node : SensorNode) (par : ℕ → Byte) (parLen : ℕ)
    (cbPar : CbPar) :
    SafeMsg node par parLen cbPar msg ↔ msg.LongEnough node.states par parLen :=
  ⟨fun h => (handle_within msg).mp h.within,
    fun h => ⟨(handle_within msg).mpr h, fun hnone => handle_keeps msg hnone⟩⟩

/-- The states that a node starts with. -/
def startNode : SensorNode where
  states i := meshGlobalVarInitSensorDescrip i
    ⟨0, ⟨0, false, ⟨0, 0, 0, 0, 0⟩⟩, fun _ => ⟨0, 0, 0⟩, 0⟩
  sensorMeasureMs := 0

/-- A setting set of the property 1, which no sensor has. -/
theorem sensorMessages_safe_refuted :
    ¬ ∀ (msg : SensorMsg) (node : SensorNode) (par : ℕ → Byte) (parLen : ℕ) (cbPar : CbPar),
      SafeMsg node par parLen cbPar msg := by
  intro h
  let par : ℕ → Byte := fun p => if p = 0 then 1 else 0
  have hsafe := h .settingSet startNode par 6 ⟨statusNone, 1, 2, 0⟩
  have hlong := (handle_within .settingSet).mp hsafe.within
  refine hlong.2.1 ⟨by decide, fun i _ => ?_⟩
  show propIdPhotometryPresentAmbientLightLevel ≠ (readU16 par 0).val
  decide

end PirMesh.SensorModel

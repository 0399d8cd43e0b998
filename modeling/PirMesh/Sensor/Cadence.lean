import PirMesh.Sensor.SensorSafety
import PirMesh.Sensor.SensorsModel

/-! # Sensor — Cadences (`sensors_model.c`)

The check, the store and the status of a cadence each have their own arithmetic of a message whose
layout depends on the property and on the trigger type.  `readCadence_bytes` is where they meet: a
cadence that is read is written as the octets that it was read from, whatever the two lengths are.

A measurement is compared with the one before it, not with what was published last.  The small
changes between two publications add up unseen: the present value stays within the deltas of the
published one exactly if their sum does (`drift_iff`). -/

namespace PirMesh.SensorModel

open Accesses Accesses.Traced Reassembly
open Nor (Byte toLE ofLE)

section

variable {states : ℕ → SensorStates} {node : SensorNode} {par : ℕ → Byte} {parLen i : ℕ}
  {propId : BitVec 16} {cbPar : CbPar}

/-! ### The octets of a cadence -/

/-- A word of up to four octets is written as it was read. -/
theorem toLE_readWord (par : ℕ → Byte) (p : ℕ) {n : ℕ} (h : n ≤ 4) :
    toLE n (readWord par p n).val.toNat = read par p n :=
  (Format.Exact.word (w := 32) (by omega)).put_get (read par p n) (length_read par p n)

theorem toLE_readU16 (par : ℕ → Byte) (p : ℕ) :
    toLE 2 (readU16 par p).val.toNat = read par p 2 :=
  (Format.Exact.word (w := 16) (by omega)).put_get (read par p 2) (length_read par p 2)

theorem getPropIdFormatType_le (propId : BitVec 16) : getPropIdFormatType propId ≤ 4 := by
  unfold getPropIdFormatType
  split_ifs
  · decide
  · decide

theorem deltaLen_le {n : ℕ} (h : n ≤ 4) (trigType : Bool) : deltaLen n trigType ≤ 4 := by
  unfold deltaLen
  split_ifs
  · decide
  · exact h

theorem readCadence_bytes {n : ℕ} (h : n ≤ 4) : (readCadence par n).val.bytes n =
    read par 2 (1 + 2 * deltaLen n ((read par 2 1).headD 0).msb + 1 + 2 * n) := by
  have hfirst : (readCadence par n).val.first = (read par 2 1).headD 0 :=
    BitVec.cons_msb_setWidth _
  have hhead : ∀ p, read par p 1 = [(read par p 1).headD 0] := fun _ => rfl
  obtain ⟨d, hd⟩ : ∃ d, d = deltaLen n ((read par 2 1).headD 0).msb := ⟨_, rfl⟩
  have hd4 : d ≤ 4 := hd ▸ deltaLen_le h _
  have hlen : 1 + 2 * d + 1 + 2 * n = 1 + (d + (d + (1 + (n + n)))) := by omega
  have htrig : deltaLen n (readCadence par n).val.trigType = d := hd.symm
  rw [← hd, hlen, read_add, read_add, read_add, read_add, read_add]
  unfold SensorCadence.bytes
  rw [htrig, hfirst]
  simp only [readCadence, val_bind, val_pure, val_readPar, ← hd]
  rw [toLE_readWord par _ hd4, toLE_readWord par _ hd4, toLE_readWord par _ h,
    toLE_readWord par _ h]
  rw [show 2 + 1 + d + d = 3 + 2 * d by omega, show 3 + 2 * d + n + 1 = 3 + 2 * d + 1 + n by omega,
    hhead 2, hhead (3 + 2 * d)]
  simp only [List.append_assoc, List.cons_append, List.nil_append, List.headD_cons]

/-- An accepted message is a property and a cadence that is read to its end. -/
theorem read_of_check (h : (meshCadenceParaCheck par parLen).val = false) :
    read par 0 parLen = toLE 2 (readU16 par 0).val.toNat ++
      (readCadence par (getPropIdFormatType (readU16 par 0).val)).val.bytes
        (getPropIdFormatType (readU16 par 0).val) := by
  obtain ⟨n, hn⟩ : ∃ n, n = getPropIdFormatType (readU16 par 0).val := ⟨_, rfl⟩
  have hlen := length_of_check h
  rw [← hn] at hlen ⊢
  rw [toLE_readU16, readCadence_bytes (hn ▸ getPropIdFormatType_le _), hlen,
    show 3 + 2 * deltaLen n ((read par 2 1).headD 0).msb + 1 + 2 * n =
      2 + (1 + 2 * deltaLen n ((read par 2 1).headD 0).msb + 1 + 2 * n) by omega, read_add]

/-! ### The set and its status -/

/-- The property of a sensor is looked up as this sensor. -/
theorem SensorOf.lookup (h : SensorOf states propId i) :
    ∃ index : BitVec 32, (getPropIdIndex states propId).val = index ∧ index.toNat = i ∧
      index ≠ idUnknown ∧ index ≠ idProhibited ∧ index < idUnknown := by
  have hindex := getPropIdIndex_index states propId
  refine ⟨_, rfl, ?_⟩
  generalize (getPropIdIndex states propId).val = index at hindex ⊢
  cases hindex with
  | none hprop => exact absurd hprop h.allowed
  | unknown hunknown => exact absurd hunknown h.not_unknown
  | found hsensor =>
    have hlt := hsensor.lt
    refine ⟨hsensor.unique h, ?_, ?_, BitVec.lt_def.mpr (hlt.trans (by decide))⟩
    · rintro rfl
      exact absurd hlt (by decide)
    · rintro rfl
      exact absurd hlt (by decide)

theorem meshTxCadenceStRsp_of_sensorOf (h : SensorOf states propId i) :
    (meshTxCadenceStRsp states propId).val =
      some (toLE 2 propId.toNat ++ (states i).cadence.bytes (getPropIdFormatType propId)) := by
  obtain ⟨index, heq, rfl, hunknown, hprohibited, -⟩ := h.lookup
  unfold meshTxCadenceStRsp
  rw [val_bind, heq, val_ite, if_neg hprohibited, val_ite, if_pos hunknown]
  rfl

theorem setCadence_self (node : SensorNode) (i : ℕ) (c : SensorCadence) :
    (node.setCadence i c).states i = { node.states i with cadence := c } :=
  Function.update_self i _ _

theorem setCadence_ne (node : SensorNode) {i k : ℕ} (h : k ≠ i) (c : SensorCadence) :
    (node.setCadence i c).states k = node.states k := Function.update_of_ne h _ _

theorem setCadence_propId (node : SensorNode) (i : ℕ) (c : SensorCadence) (k : ℕ) :
    ((node.setCadence i c).states k).propId = (node.states k).propId := by
  by_cases hk : k = i
  · rw [hk, setCadence_self]
  · rw [setCadence_ne node hk]

theorem SensorOf.setCadence (h : SensorOf node.states propId i) (c : SensorCadence) :
    SensorOf (node.setCadence i c).states propId i where
  allowed := h.allowed
  lt := h.lt
  same := (setCadence_propId node i c i).trans h.same
  first k hk := by
    rw [setCadence_propId]
    exact h.first k hk

variable (cbPar) in
/-- The node behind an accepted set. -/
theorem meshCmdSigSensorCadenceSet_of_check (h : SensorOf node.states (readU16 par 0).val i)
    (hcheck : (meshCadenceParaCheck par parLen).val = false) :
    (meshCmdSigSensorCadenceSet node par parLen cbPar).val =
      (cadenceSetRsp (node.setCadence i
        (readCadence par (getPropIdFormatType (readU16 par 0).val)).val) cbPar
          (readU16 par 0).val true).val := by
  obtain ⟨index, heq, hi, hunknown, -, hlt⟩ := h.lookup
  unfold meshCmdSigSensorCadenceSet
  rw [val_bind, val_bind, val_bind, heq, hcheck, val_ite, if_neg hunknown, val_ite,
    if_neg Bool.false_ne_true, val_ite, if_pos hlt, val_bind, hi]
  unfold storeCadence
  rw [val_ite, if_pos (getPropIdFormatType_le _)]
  rfl

theorem cadenceSetRsp_reply {stored : Bool} : (cadenceSetRsp node cbPar propId stored).val.reply =
    if cbPar.opRsp ≠ statusNone then cbPar.answer (meshTxCadenceStRsp node.states propId).val
    else .ret 0 := by
  unfold cadenceSetRsp
  rw [val_ite, val_bind]
  split_ifs
  · rfl
  · rfl

/-- A message that is rejected stores nothing. -/
theorem meshCmdSigSensorCadenceSet_of_error
    (hcheck : (meshCadenceParaCheck par parLen).val = true) :
    (meshCmdSigSensorCadenceSet node par parLen cbPar).val.node = node := by
  unfold meshCmdSigSensorCadenceSet
  rw [val_bind, val_bind, val_bind, val_ite, hcheck, val_ite, if_pos rfl]
  split_ifs
  · exact cadenceSetRsp_states
  · exact cadenceSetRsp_states

end

/-- **Cadence round trip**: the status of an accepted set carries the octets of the set, and a
rejected one leaves every cadence. -/
theorem cadenceSet_roundTrip (node : SensorNode) (par : ℕ → Byte) (parLen : ℕ) (cbPar : CbPar)
    {i : ℕ} (h : SensorOf node.states (readU16 par 0).val i) :
    ((meshCadenceParaCheck par parLen).val = false →
      (meshTxCadenceStRsp (meshCmdSigSensorCadenceSet node par parLen cbPar).val.node.states
          (readU16 par 0).val).val = some (read par 0 parLen) ∧
        (cbPar.opRsp ≠ statusNone →
          (meshCmdSigSensorCadenceSet node par parLen cbPar).val.reply =
            cbPar.rsp (read par 0 parLen))) ∧
    ((meshCadenceParaCheck par parLen).val = true →
      ∀ k, ((meshCmdSigSensorCadenceSet node par parLen cbPar).val.node.states k).cadence =
        (node.states k).cadence) := by
  refine ⟨fun hcheck => ?_, fun hcheck k => ?_⟩
  · have hset := meshCmdSigSensorCadenceSet_of_check cbPar h hcheck
    have hstatus := meshTxCadenceStRsp_of_sensorOf (h.setCadence
      (readCadence par (getPropIdFormatType (readU16 par 0).val)).val)
    rw [setCadence_self, ← read_of_check hcheck] at hstatus
    rw [hset, cadenceSetRsp_states, cadenceSetRsp_reply, hstatus]
    exact ⟨rfl, fun hop => if_pos hop⟩
  · rw [meshCmdSigSensorCadenceSet_of_error hcheck]

/-- A set of property `0x004E` with triggers in percent. -/
def cadenceSetPar : ℕ → Byte := fun p =>
  ([0x4E, 0x00, 0x82, 0x0A, 0x00, 0x0B, 0x00, 0x04, 0x01, 0x00, 0x00, 0x02, 0x00, 0x00] :
    List Byte).getD p 0

theorem cadenceSet_roundTrip_sample :
    (meshCmdSigSensorCadenceSet startNode cadenceSetPar 14 ⟨0x57, 1, 2, 0⟩).val.reply =
      .rsp 0x57 1 2 (read cadenceSetPar 0 14) := by
  have hsensor : SensorOf startNode.states (readU16 cadenceSetPar 0).val 0 :=
    ⟨by decide, by decide, rfl, fun k hk => absurd hk (Nat.not_lt_zero k)⟩
  exact ((cadenceSet_roundTrip startNode cadenceSetPar 14 ⟨0x57, 1, 2, 0⟩ hsensor).1
    (by decide)).2 (by decide)

/-! ### Publications of a sensor that drifts -/

open Run

/-- The node, and the value it published last. -/
structure Watched where
  node : SensorNode
  published : BitVec 32

/-- A call of `sensor_measure_proc`: `clock_time_ms()` and the value that would be measured. -/
structure MeasureCall where
  clockTimeMs : BitVec 32
  quantity : BitVec 32

def Watched.start (node : SensorNode) : Watched := ⟨node, (node.states 0).sensorData⟩

def Watched.call (w : Watched) (e : MeasureCall) : Watched :=
  let done := sensorMeasureProc w.node e.clockTimeMs e.quantity
  ⟨done.1, if done.2 then e.quantity else w.published⟩

/-- Value `v` is within the deltas from `p` on. -/
def Near (c : CadenceUnit) (p v : BitVec 32) : Prop :=
  (v < p → p - v ≤ c.deltaDown) ∧ (p < v → v - p ≤ c.deltaUp)

instance (c : CadenceUnit) (p v : BitVec 32) : Decidable (Near c p v) :=
  inferInstanceAs (Decidable (_ ∧ _))

def SensorNode.cadence (node : SensorNode) : CadenceUnit := (node.states 0).cadence.cadenceUnit

/-- The present value is within the deltas from the published one on. -/
def Watched.Followed (w : Watched) : Prop :=
  Near w.node.cadence w.published (w.node.states 0).sensorData

instance (w : Watched) : Decidable w.Followed := inferInstanceAs (Decidable (Near _ _ _))

/-! ### The drift -/

/-- The values that are measured in a run. -/
def measured : SensorNode → List MeasureCall → List (BitVec 32)
  | _, [] => []
  | node, e :: es =>
    if node.measures e.clockTimeMs then
      e.quantity :: measured (node.measured e.clockTimeMs e.quantity) es
    else measured node es

/-- The value is not a small change, and published. -/
def Jumps (c : CadenceUnit) (before v : BitVec 32) : Prop := ¬ Near c before v

instance (c : CadenceUnit) (before v : BitVec 32) : Decidable (Jumps c before v) :=
  inferInstanceAs (Decidable (¬ _))

/-- The small changes since the last jump, which add up to `drift`, never exceed a delta. -/
def SmallDrift (c : CadenceUnit) : ℤ → BitVec 32 → List (BitVec 32) → Prop
  | _, _, [] => True
  | drift, before, v :: vs =>
    if Jumps c before v then SmallDrift c 0 v vs
    else
      (-(c.deltaDown.toNat : ℤ) ≤ drift + (v.toNat - before.toNat) ∧
        drift + (v.toNat - before.toNat) ≤ c.deltaUp.toNat) ∧
          SmallDrift c (drift + (v.toNat - before.toNat)) v vs

section

variable {c : CadenceUnit} {node : SensorNode} {w : Watched} {e : MeasureCall}

theorem near_iff (p v : BitVec 32) : Near c p v ↔
    -(c.deltaDown.toNat : ℤ) ≤ v.toNat - p.toNat ∧ (v.toNat : ℤ) - p.toNat ≤ c.deltaUp.toNat := by
  unfold Near
  rw [BitVec.lt_def, BitVec.lt_def, BitVec.le_def, BitVec.le_def]
  have hp := p.isLt
  have hv := v.isLt
  rw [BitVec.toNat_sub, BitVec.toNat_sub]
  constructor
  · rintro ⟨hdown, hup⟩
    omega
  · rintro ⟨hdown, hup⟩
    omega

theorem near_self (c : CadenceUnit) (p : BitVec 32) : Near c p p :=
  ⟨fun h => absurd h (BitVec.lt_irrefl p), fun h => absurd h (BitVec.lt_irrefl p)⟩

theorem pubFlag_iff (node : SensorNode) (quantity : BitVec 32) :
    (node.states 0).pubFlag quantity = true ↔
      Jumps node.cadence (node.states 0).sensorData quantity := by
  unfold SensorStates.pubFlag Jumps SensorNode.cadence
  rw [near_iff]
  have hd := (node.states 0).sensorData.isLt
  have hq := quantity.isLt
  split_ifs with hlt
  · rw [decide_eq_true_iff, gt_iff_lt, BitVec.lt_def, BitVec.toNat_sub]
    rw [BitVec.lt_def] at hlt
    omega
  · rw [decide_eq_true_iff, gt_iff_lt, BitVec.lt_def, BitVec.toNat_sub]
    rw [BitVec.lt_def] at hlt
    omega

theorem measured_states (node : SensorNode) (clockTimeMs quantity : BitVec 32) :
    (node.measured clockTimeMs quantity).states 0 =
      { node.states 0 with sensorData := quantity } := by
  unfold SensorNode.measured
  exact Function.update_self (0 : ℕ) _ node.states

theorem measured_data (node : SensorNode) (clockTimeMs quantity : BitVec 32) :
    ((node.measured clockTimeMs quantity).states 0).sensorData = quantity := by
  rw [measured_states]

theorem measured_cadence (node : SensorNode) (clockTimeMs quantity : BitVec 32) :
    (node.measured clockTimeMs quantity).cadence = node.cadence := by
  unfold SensorNode.cadence
  rw [measured_states]

theorem call_of_not_measures (h : w.node.measures e.clockTimeMs = false) : w.call e = w := by
  unfold Watched.call sensorMeasureProc
  rw [h]
  rfl

theorem call_of_measures (h : w.node.measures e.clockTimeMs = true) :
    w.call e = ⟨w.node.measured e.clockTimeMs e.quantity,
      if Jumps w.node.cadence (w.node.states 0).sensorData e.quantity then e.quantity
      else w.published⟩ := by
  have hpub := pubFlag_iff w.node e.quantity
  unfold Watched.call sensorMeasureProc
  rw [h]
  simp only [if_true, hpub]

/-- A run follows the value exactly if the drift stays small. -/
theorem drift_iff (es : List MeasureCall) (w : Watched) (drift : ℤ)
    (hdrift : drift = (w.node.states 0).sensorData.toNat - w.published.toNat)
    (hnear : w.Followed) :
    GoodRun Watched.call (fun w e => (w.call e).Followed) w es ↔
      SmallDrift w.node.cadence drift (w.node.states 0).sensorData (measured w.node es) := by
  induction es generalizing w drift with
  | nil => exact Iff.rfl
  | cons e es ih =>
    unfold measured
    cases hmeasures : w.node.measures e.clockTimeMs with
    | false =>
      have hsame := call_of_not_measures hmeasures
      rw [if_neg Bool.false_ne_true, ← ih w drift hdrift hnear]
      show (w.call e).Followed ∧ GoodRun _ _ (w.call e) es ↔ _
      rw [hsame]
      exact and_iff_right hnear
    | true =>
      have hcall := call_of_measures hmeasures
      rw [if_pos rfl]
      show (w.call e).Followed ∧ GoodRun _ _ (w.call e) es ↔ _
      rw [hcall, SmallDrift]
      split_ifs with hjump
      · -- the drift begins anew
        have hfollowed : Watched.Followed
            ⟨w.node.measured e.clockTimeMs e.quantity, e.quantity⟩ := by
          unfold Watched.Followed
          rw [measured_data]
          exact near_self _ _
        have hrest := ih ⟨w.node.measured e.clockTimeMs e.quantity, e.quantity⟩ 0
          (by rw [measured_data]; exact (Int.sub_self _).symm) hfollowed
        rw [measured_data, measured_cadence] at hrest
        exact (and_iff_right hfollowed).trans hrest
      · have hsum : drift + (e.quantity.toNat - (w.node.states 0).sensorData.toNat) =
            (e.quantity.toNat : ℤ) - w.published.toNat := by
          rw [hdrift]
          omega
        have hfollowed : Watched.Followed
            ⟨w.node.measured e.clockTimeMs e.quantity, w.published⟩ ↔
              Near w.node.cadence w.published e.quantity := by
          unfold Watched.Followed
          rw [measured_data, measured_cadence]
        rw [hsum, ← near_iff, ← hfollowed]
        refine and_congr_right fun h => ?_
        have hrest := ih ⟨w.node.measured e.clockTimeMs e.quantity, w.published⟩
          (e.quantity.toNat - w.published.toNat) (by rw [measured_data]) h
        rwa [measured_data, measured_cadence] at hrest

end

/-- **Drifts of a sensor**: a run keeps the present value within the deltas of the published one
exactly if the small changes between two publications never add up to more. -/
theorem sensorMeasure_follows (node : SensorNode) (es : List MeasureCall) :
    (∀ p, p <+: es → (p.foldl Watched.call (.start node)).Followed) ↔
      SmallDrift node.cadence 0 (node.states 0).sensorData (measured node es) := by
  have hstart : (Watched.start node).Followed := near_self _ _
  refine (forall_prefix_iff_goodRun hstart fun _ _ _ _ => Iff.rfl).trans ?_
  exact drift_iff es (.start node) 0 (Int.sub_self _).symm hstart

/-- Two steps of 1, with a delta of 1. -/
theorem sensorMeasure_follows_refuted :
    ¬ ∀ (node : SensorNode) (es : List MeasureCall) (p : List MeasureCall), p <+: es →
      (p.foldl Watched.call (.start node)).Followed := by
  intro h
  let node : SensorNode :=
    ⟨fun _ => ⟨0x004E, ⟨2, false, ⟨1, 1, 0, 0, 0⟩⟩, fun _ => ⟨0, 0, 0⟩, 0⟩, 0⟩
  have hfollowed := h node [⟨2, 1⟩, ⟨4, 2⟩] _ List.prefix_rfl
  exact absurd hfollowed (by decide)

end PirMesh.SensorModel

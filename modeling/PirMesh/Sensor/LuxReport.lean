import Mathlib.Data.BitVec
import PirMesh.Library.Run
import PirMesh.Sensor.PulseWindow

/-! # Sensor — Light reports (`RD_Light_Sensor.c`)

A wake reports the light when it has changed by the threshold since the last report.
What was reported is retained in 16 bits, while `CalculateLux` goes up to some two
million: a report of more than 65535 lux leaves a value in the registers that was
never measured.  Equal readings are never reported, not even for a threshold of zero.

As long as neither happens (`LuxInTurn`) the registers hold what was last reported,
and the next wake decides right under the same condition (`luxReport_exact`). -/

namespace PirMesh

open Run

/-- The light for a raw reading of the sensor, 4 bits of exponent above 12 bits of mantissa.  The
floating point numbers of the source are exact here, and truncated where it truncates them. -/
def calculateLux (rspLux : BitVec 16) : BitVec 32 :=
  let luxLSB := (rspLux.extractLsb' 0 12).toNat
  let luxMSB := (rspLux.extractLsb' 12 4).toNat
  let luxValue := 2 ^ luxMSB * luxLSB / 100
  .ofNat 32 (if luxValue > 60 then (17339 * luxValue - 398680) / 10000 else luxValue)

/-! ### One detection -/

variable {inp : Inputs} {d : Dev} {lux old threshold : BitVec 32}

/-- What `lightgetLuxReg` returns. -/
def retainedLux (d : Dev) : BitVec 32 :=
  (d.analog luxSaveReg0 ++ d.analog luxSaveReg1).setWidth 32

theorem retainedLux_of {a : Nat → Reg} {hi lo : Reg} (h : d.analog =
    Function.update (Function.update a luxSaveReg0 hi) luxSaveReg1 lo) :
    retainedLux d = (hi ++ lo).setWidth 32 := by
  rw [retainedLux, h, Function.update_self, Function.update_of_ne (by decide),
    Function.update_self]

/-- The device behind `lightSetLuxReg`. -/
def Dev.setLux (d : Dev) (lux : BitVec 32) : Dev :=
  { d with
    luxOld := lux
    analog := Function.update (Function.update d.analog luxSaveReg0 ((lux >>> 8).setWidth 8))
      luxSaveReg1 (lux.setWidth 8) }

/-- The difference of two readings, in unsigned arithmetic. -/
def luxDiff (old lux : BitVec 32) : BitVec 32 := if old ≥ lux then old - lux else lux - old

theorem toNat_luxDiff (old lux : BitVec 32) : (luxDiff old lux).toNat =
    max old.toNat lux.toNat - min old.toNat lux.toNat := by
  have hold := old.isLt
  have hlux := lux.isLt
  rw [luxDiff]
  split
  · have hle : lux.toNat ≤ old.toNat := ‹_›
    rw [BitVec.toNat_sub]
    omega
  · have hlt : ¬ lux.toNat ≤ old.toNat := ‹_›
    rw [BitVec.toNat_sub]
    omega

/-- The comparison that is made with the retained light. -/
def LuxChanged (old lux threshold : BitVec 32) : Prop := old ≠ lux ∧ threshold ≤ luxDiff old lux

instance (old lux threshold : BitVec 32) : Decidable (LuxChanged old lux threshold) :=
  inferInstanceAs (Decidable (old ≠ lux ∧ threshold ≤ luxDiff old lux))

theorem luxChanged_iff : LuxChanged old lux threshold ↔ old.toNat ≠ lux.toNat ∧
    threshold.toNat ≤ max old.toNat lux.toNat - min old.toNat lux.toNat := by
  rw [LuxChanged, BitVec.le_def, toNat_luxDiff, Ne, ← BitVec.toNat_inj]

theorem luxDetect_run (d : Dev) : (luxDetect inp threshold).run d =
    if LuxChanged (retainedLux d) inp.lux threshold then (true, d.setLux inp.lux)
    else (false, { d with luxOld := retainedLux d }) := by
  have hread : (luxDetect inp threshold).run d = (if retainedLux d ≠ inp.lux then
      if retainedLux d ≥ inp.lux then
        if retainedLux d - inp.lux ≥ threshold then luxChanged inp.lux else return false
      else if inp.lux - retainedLux d ≥ threshold then luxChanged inp.lux else return false
    else return false : Sensor Bool).run { d with luxOld := retainedLux d } := rfl
  have hboth : (if retainedLux d ≥ inp.lux then
        if retainedLux d - inp.lux ≥ threshold then luxChanged inp.lux else return false
      else if inp.lux - retainedLux d ≥ threshold then luxChanged inp.lux else return false :
      Sensor Bool) =
      if luxDiff (retainedLux d) inp.lux ≥ threshold then luxChanged inp.lux else return false := by
    rw [luxDiff]
    split <;> rfl
  rw [hread, hboth, run_ite, run_ite]
  by_cases hne : retainedLux d ≠ inp.lux
  · rw [if_pos hne]
    by_cases hle : luxDiff (retainedLux d) inp.lux ≥ threshold
    · rw [if_pos hle, if_pos (show LuxChanged _ _ _ from ⟨hne, hle⟩)]
      rfl
    · rw [if_neg hle, if_neg (show ¬ LuxChanged _ _ _ from fun h => hle h.2)]
      rfl
  · rw [if_neg hne, if_neg (show ¬ LuxChanged _ _ _ from fun h => hne h.1)]
    rfl

theorem luxDetect_report : ((luxDetect inp threshold).run d).1 = true ↔
    LuxChanged (retainedLux d) inp.lux threshold := by
  rw [luxDetect_run]
  split
  · exact iff_of_true rfl ‹_›
  · exact iff_of_false Bool.false_ne_true ‹_›

/-- The registers hold 16 bits of what they were set to. -/
theorem retainedLux_setLux (d : Dev) (lux : BitVec 32) :
    (retainedLux (d.setLux lux)).toNat = lux.toNat % 65536 := by
  rw [retainedLux_of (d := d.setLux lux) rfl, BitVec.toNat_setWidth, toNat_append_bytes]
  omega

/-! ### Runs -/

/-- What is left of the last wake. -/
structure LuxState where
  hi : Reg
  lo : Reg
  /-- Not in the code: the light last reported. -/
  last : BitVec 32
  deriving DecidableEq, Repr

/-- A detection of the light, with whatever else is in the device at that time. -/
structure LuxWake where
  ram : Dev
  inputs : Inputs
  rspLux : BitVec 16
  threshold : BitVec 32

namespace LuxWake

variable (s : LuxState) (w : LuxWake)

def reading : BitVec 32 := calculateLux w.rspLux

/-- The device with the registers of the last wake. -/
def dev : Dev := { w.ram with
  analog := Function.update (Function.update w.ram.analog luxSaveReg0 s.hi) luxSaveReg1 s.lo }

/-- The detection: whether the light is reported, and the device it leaves. -/
def detected : Bool × Dev :=
  (luxDetect { w.inputs with lux := w.reading } w.threshold).run (w.dev s)

/-- The detection once more, with the same reading. -/
def repeated : Bool :=
  ((luxDetect { w.inputs with lux := w.reading } w.threshold).run (w.detected s).2).1

/-- The decision is right, and a report is not repeated. -/
def Right : Prop :=
  ((w.detected s).1 = true ↔ w.threshold ≤ luxDiff s.last w.reading) ∧
    ((w.detected s).1 = true → w.repeated s = false)

/-- The condition on a wake: a threshold of zero does not meet the reading last reported, and a
reading of more than 16 bits is not far enough from it, or the threshold exceeds what the 16 bits
leave out. -/
def Meets : Prop :=
  (w.threshold ≠ 0 ∨ w.reading ≠ s.last) ∧ (w.reading.toNat < 65536 ∨
    luxDiff s.last w.reading < w.threshold ∨
      w.reading.toNat - w.reading.toNat % 65536 < w.threshold.toNat)

/-- The same for the wakes before: what was reported fits the registers. -/
def InTurn : Prop :=
  (w.threshold ≠ 0 ∨ w.reading ≠ s.last) ∧
    (w.reading.toNat < 65536 ∨ luxDiff s.last w.reading < w.threshold)

end LuxWake

def luxNext (s : LuxState) (w : LuxWake) : LuxState where
  hi := (w.detected s).2.analog luxSaveReg0
  lo := (w.detected s).2.analog luxSaveReg1
  last := if (w.detected s).1 then w.reading else s.last

/-- The registers hold what was last reported. -/
def LuxKept (s : LuxState) : Prop := s.last = (s.hi ++ s.lo).setWidth 32

variable {s : LuxState} {w : LuxWake}

theorem LuxKept.lt (h : LuxKept s) : s.last.toNat < 65536 := by
  rw [h, BitVec.toNat_setWidth]
  exact (Nat.mod_le _ _).trans_lt (s.hi ++ s.lo).isLt

theorem LuxKept.retained (h : LuxKept s) (w : LuxWake) : retainedLux (w.dev s) = s.last := by
  exact (retainedLux_of (d := w.dev s) rfl).trans (Eq.symm h)

/-- With the registers right the decision is by the reading last reported. -/
theorem LuxKept.report_iff (h : LuxKept s) :
    (w.detected s).1 = true ↔ LuxChanged s.last w.reading w.threshold := by
  rw [LuxWake.detected, luxDetect_report, h.retained]

theorem detected_report (hrep : (w.detected s).1 = true) :
    w.detected s = (true, (w.dev s).setLux w.reading) := by
  rw [LuxWake.detected, luxDetect_report] at hrep
  rw [LuxWake.detected, luxDetect_run, if_pos hrep]

/-- A report retains the low bits of the reading, and those are what the next detection sees. -/
theorem repeated_iff (hrep : (w.detected s).1 = true) :
    w.repeated s = true ↔ 65536 ≤ w.reading.toNat ∧
      w.threshold.toNat ≤ w.reading.toNat - w.reading.toNat % 65536 := by
  rw [LuxWake.repeated, detected_report hrep, luxDetect_report, luxChanged_iff, retainedLux_setLux]
  have hmod := Nat.mod_le w.reading.toNat 65536
  show w.reading.toNat % 65536 ≠ w.reading.toNat ∧ w.threshold.toNat ≤
    max (w.reading.toNat % 65536) w.reading.toNat - min (w.reading.toNat % 65536)
      w.reading.toNat ↔ _
  rw [max_eq_right hmod, min_eq_left hmod]
  omega

/-- **One wake**, of registers that hold what was last reported. -/
theorem LuxKept.right_iff (h : LuxKept s) : w.Right s ↔ w.Meets s := by
  have hrep := h.report_iff (w := w)
  have hlast := h.lt
  rw [luxChanged_iff] at hrep
  rw [LuxWake.Right, LuxWake.Meets, BitVec.le_def, BitVec.lt_def, toNat_luxDiff, Ne, Ne,
    ← BitVec.toNat_inj, ← BitVec.toNat_inj, show (0 : BitVec 32).toNat = 0 from rfl]
  by_cases hr : (w.detected s).1 = true
  · have hagain := repeated_iff hr
    rw [← Bool.not_eq_true, hagain]
    have hchanged := hrep.mp hr
    simp only [hr, true_iff, true_implies]
    omega
  · have hsame := mt hrep.mpr hr
    simp only [Bool.eq_false_iff.mpr hr, Bool.false_eq_true, false_iff, false_implies, and_true]
    omega

theorem LuxKept.next (h : LuxKept s) (hgood : w.InTurn s) : LuxKept (luxNext s w) := by
  by_cases hr : (w.detected s).1 = true
  · have hchanged := (luxChanged_iff.mp (h.report_iff.mp hr)).2
    have hlux : w.reading.toNat < 65536 := hgood.2.resolve_right fun hlt => by
      rw [BitVec.lt_def, toNat_luxDiff] at hlt
      omega
    have hkept : LuxKept (luxNext s w) ↔
        w.reading = retainedLux ((w.dev s).setLux w.reading) := by
      rw [LuxKept, luxNext, detected_report hr]
      rfl
    rw [hkept, ← BitVec.toNat_inj, retainedLux_setLux]
    exact (Nat.mod_eq_of_lt hlux).symm
  · have hrun : (w.detected s) = (false, { w.dev s with luxOld := s.last }) := by
      rw [LuxWake.detected, luxDetect_report] at hr
      rw [LuxWake.detected, luxDetect_run, if_neg hr, h.retained]
    rw [LuxKept, luxNext, hrun]
    exact (h.retained w).symm

/-- **Light reports.**  After a run of wakes that meet the condition, the next wake reports exactly
when the light has changed by the threshold since the last report, and not once more with the same
reading, iff it meets the condition too. -/
theorem luxReport_exact {s : LuxState} (h0 : LuxKept s) {ws : List LuxWake}
    (hgood : GoodRun luxNext (fun s w => w.InTurn s) s ws) (w : LuxWake) :
    w.Right (ws.foldl luxNext s) ↔ w.Meets (ws.foldl luxNext s) :=
  (hgood.inv (P := LuxKept) h0 fun _ _ h hg => h.next hg).right_iff

/-- A wake with nothing else in the device. -/
def plainWake (rspLux : BitVec 16) (threshold : BitVec 32) : LuxWake :=
  ⟨⟨fun _ => 0, ⟨false, false, .ofData 0, 0⟩, 0, 0, false, 0, [], 0, 0⟩, quietInputs 0, rspLux,
    threshold⟩

/-- The power-up state. -/
def firstLux : LuxState := ⟨0, 0, 0⟩

/-- 40 lux after 20: with a threshold of 30 there is no report. -/
theorem luxReport_exact_sample :
    (plainWake 4000 30).Right ([plainWake 2000 30].foldl luxNext firstLux) := by
  have hgood : GoodRun luxNext (fun s w => w.InTurn s) firstLux [plainWake 2000 30] :=
    ⟨⟨.inl (by decide), .inl (by decide +kernel)⟩, trivial⟩
  refine (luxReport_exact (show LuxKept firstLux from rfl) hgood _).mpr ?_
  · exact ⟨.inl (by decide), .inl (by decide +kernel)⟩

/-- The sensor at full scale: the light is reported, and again with the same reading. -/
theorem luxReport_refuted : ¬ ∀ (s : LuxState), LuxKept s → ∀ (ws : List LuxWake) (w : LuxWake),
    w.Right (ws.foldl luxNext s) := by
  intro h
  have hright := h firstLux rfl [] (plainWake 0xbfff 30)
  exact absurd (hright.2 (by decide +kernel)) (by decide +kernel)

end PirMesh

import Mathlib.Data.BitVec
import PirMesh.Sensor.Reports

/-! # Sensor — The reported battery (`RD_power_read`, `powerUpdate`)

The percentage `(2p - 2200) / 10` of a reading of `p` millivolts goes through an
`unsigned char` before it is cut at 100: 256 percent, at 2380 mV, is reported as none.
The register of the saved power is not used, so a wake's report depends on its own
reading only (`sent_power`).  The higher one of two readings reports the higher
percentage iff their bytes say so (`PowerInOrder`, `power_exact`); readings from
1096 mV, where the scale begins, to 2379 mV always do (`powerInOrder_of_range`). -/

namespace PirMesh

open StateProg

section

-- what the target makes of a number that is no `unsigned int`
variable (outside : ℤ → BitVec 32)

def toUnsigned (x : ℤ) : BitVec 32 :=
  if 0 ≤ x ∧ x < 2 ^ 32 then .ofInt 32 x else outside x

/-- `powerRead` is the result of the ADC.  The scale is exact, and truncated at the end. -/
def rdPowerRead (powerRead : BitVec 32) : BitVec 32 :=
  toUnsigned outside ((2 * powerRead.toNat - 2200 : ℤ).tdiv 10)

/-- The byte of the percentage. -/
def powerByte (powerRead : BitVec 32) : ℕ := ((rdPowerRead outside powerRead).setWidth 8).toNat

/-- The percentage of the lower reading is not reported, or the other one is cut at 100, or their
bytes are in order. -/
def PowerInOrder (p q : BitVec 32) : Prop :=
  powerByte outside p < 5 ∨ 100 ≤ powerByte outside q ∨ powerByte outside p ≤ powerByte outside q

end

variable {outside : ℤ → BitVec 32} {inp : Inputs} {d : Dev} {p q : BitVec 32} {pw : Reg}

/-! ### The report of one reading -/

/-- What `powerUpdate` makes of the byte. -/
def reportedPower (b : ℕ) : ℕ := if 5 ≤ b then min b 100 else 0

theorem powerUpdate_run (d : Dev) : (powerUpdate inp).run d =
    (.ofNat 8 (reportedPower (inp.power.setWidth 8).toNat), d) := by
  set b := (inp.power.setWidth 8).toNat
  have hrun : (powerUpdate inp).run d = (if getPowerSaveReg > b ∧ getPowerSaveReg - b ≥ 5 then
      return .ofNat 8 b
    else if getPowerSaveReg < b ∧ b - getPowerSaveReg ≥ 5 then
      return .ofNat 8 (if b > 100 then 100 else b)
    else return .ofNat 8 getPowerSaveReg : Sensor Reg).run d := rfl
  -- the saved power is zero, so the first branch is never taken
  have hsave : getPowerSaveReg = 0 := rfl
  rw [hrun, hsave, if_neg (fun h => absurd h.1 (Nat.not_lt_zero _)), reportedPower]
  by_cases h5 : 5 ≤ b
  · have hcut : (if b > 100 then 100 else b) = min b 100 := by
      split <;> omega
    rw [if_pos ⟨by omega, by omega⟩, if_pos h5, hcut]
    rfl
  · rw [if_neg (fun h => h5 h.2), if_neg h5]
    rfl

theorem reportedPower_le (b : ℕ) : reportedPower b ≤ 100 := by
  rw [reportedPower]
  split
  · exact min_le_right _ _
  · exact Nat.zero_le _

theorem reportedPower_le_iff {b c : ℕ} : reportedPower b ≤ reportedPower c ↔
    b < 5 ∨ 100 ≤ c ∨ b ≤ c := by
  rw [reportedPower, reportedPower]
  split <;> split <;> omega

/-! ### What a wake sends -/

/-- Every payload ends with the power `pw`. -/
def EndsWith (pw : Reg) (sent : List (List Reg)) : Prop := ∀ par ∈ sent, par.getLast? = some pw

/-- The payloads have `S`. -/
def Sent (S : List (List Reg) → Prop) (d : Dev) : Prop := S d.sent

variable {S : List (List Reg) → Prop}

theorem meshTxCmd2normal_power {par : List Reg} (h : par.getLast? = some pw) :
    Keeps (Sent (EndsWith pw)) (meshTxCmd2normal par) := by
  intro d hd a ha
  rcases List.mem_append.mp ha with ha | ha
  · exact hd a ha
  · rw [List.mem_singleton.mp ha]
    exact h

theorem sensorSendData_power (motion old lux : Bool) (inp : Inputs) :
    Keeps (Sent (EndsWith (.ofNat 8 (reportedPower (inp.power.setWidth 8).toNat))))
      (sensorSendData inp motion old lux) := by
  set pw : Reg := .ofNat 8 (reportedPower (inp.power.setWidth 8).toNat)
  have hpower : Triple (Sent (EndsWith pw)) (powerUpdate inp)
      fun power d => power = pw ∧ Sent (EndsWith pw) d := by
    intro d hd
    rw [powerUpdate_run]
    exact ⟨rfl, hd⟩
  refine Triple.bind (R := fun _ => Sent (EndsWith pw)) hpower fun power => ?_
  intro d hd
  obtain ⟨rfl, hd⟩ := hd
  have hsend : Keeps (Sent (EndsWith pw)) (do
      (if old ≠ motion then pirSendData motion pw else pure ())
      (if lux then lightSendData pw else pure ())) :=
    .bind (.ite (meshTxCmd2normal_power rfl) (.pure _)) fun _ =>
      .ite (.bind .get fun _ => meshTxCmd2normal_power rfl) (.pure _)
  exact hsend d hd

theorem keeps_sent_settleMotion : Keeps (Sent S) (settleMotion inp) := by
  have hflag (g : PirFlag → PirFlag) : Keeps (Sent S) (setFlag g) := fun _ h => h
  have hsave : Keeps (Sent S) saveRdPirFlag := fun _ h => h
  refine .bind (.bind .get fun _ => .ite ?_ (.pure _)) fun _ =>
    .bind .get fun _ => .ite ?_ (.pure _)
  · exact .bind (hflag _) fun _ => .bind (hflag _) fun _ => .bind hsave fun _ => fun _ h => h
  · exact .bind (hflag _) fun _ => hsave

theorem keeps_sent_cpuSleepWakeup (ms : Nat) : Keeps (Sent S) (cpuSleepWakeup ms) := by
  refine .step fun d h => ?_
  cases d.refused <;> exact h

theorem keeps_sent_sleepLoop (n : Nat) : Keeps (Sent S) (sleepLoop inp n) := by
  induction n with
  | zero => exact .pure _
  | succ n ih =>
    exact .bind (.bind keeps_sent_settleMotion fun _ => keeps_sent_cpuSleepWakeup _) fun _ =>
      .ite (.pure _) ih

/-- The reports of a wake carry the power of its own reading. -/
theorem sent_power (inp : Inputs) (analog : Nat → Reg) :
    EndsWith (.ofNat 8 (reportedPower (inp.power.setWidth 8).toNat)) (wake inp analog).sent := by
  set pw : Reg := .ofNat 8 (reportedPower (inp.power.setWidth 8).toNat)
  have hsleep : Keeps (Sent (EndsWith pw)) (sleepAfterSend inp) :=
    .bind keeps_sent_settleMotion fun _ => keeps_sent_cpuSleepWakeup _
  have hreport (resetFlag : Bool) (d : Dev) : Keeps (Sent (EndsWith pw)) (report inp resetFlag d) :=
    .bind (.ite (.pure _) (sensorSendData_power _ _ _ inp)) fun _ => hsleep
  have hawake (resetFlag : Bool) (d : Dev) :
      Keeps (Sent (EndsWith pw)) (mainAwake inp resetFlag d) :=
    .bind (.ite (hreport _ _) (.pure _)) fun _ => .ite (.pure _)
      (.bind .get fun _ => keeps_sent_sleepLoop _)
  have hmain (resetFlag : Bool) (d : Dev) :
      Keeps (Sent (EndsWith pw)) (mainDetected inp resetFlag d) :=
    .bind (.ite (.ite (keeps_sent_cpuSleepWakeup _) (keeps_sent_cpuSleepWakeup _)) (.pure _))
      fun _ => .ite (.pure _) (hawake _ _)
  -- nothing is sent before the decision what to report
  have hdet : ((detect inp).run (wakeUp inp analog)).2.sent = [] := by
    have hspec := detect_spec (o := oldOf (analog pirFlagSaveReg)) inp (wakeUp inp analog)
      ⟨rfl, rfl, rfl⟩
    cases hr : ((detect inp).run (wakeUp inp analog)).1 with
    | true =>
      rw [hr] at hspec
      exact hspec.2.2
    | false =>
      rw [hr] at hspec
      exact hspec.2.2
  have hsent : Sent (EndsWith pw) ((detect inp).run (wakeUp inp analog)).2 := by
    rw [Sent, hdet]
    exact fun _ h => absurd h List.not_mem_nil
  exact hmain _ _ _ hsent

/-- **The battery.**  The powers that two wakes report, whatever the registers they start with, are
at most 100, and in the order of the readings iff the bytes of the readings say so. -/
theorem power_exact (outside : ℤ → BitVec 32) (p q : BitVec 32) (inp inp' : Inputs)
    (analog analog' : Nat → Reg) (hp : inp.power = rdPowerRead outside p)
    (hq : inp'.power = rdPowerRead outside q) (par par' : List Reg)
    (hpar : par ∈ (wake inp analog).sent) (hpar' : par' ∈ (wake inp' analog').sent) :
    ((par.getLastD 0).toNat ≤ 100 ∧ (par'.getLastD 0).toNat ≤ 100 ∧
      (par.getLastD 0).toNat ≤ (par'.getLastD 0).toNat) ↔ PowerInOrder outside p q := by
  have hlast {inp : Inputs} {analog : Nat → Reg} {par : List Reg} {p : BitVec 32}
      (hp : inp.power = rdPowerRead outside p) (hpar : par ∈ (wake inp analog).sent) :
      (par.getLastD 0).toNat = reportedPower (powerByte outside p) := by
    rw [List.getLastD_eq_getLast?, sent_power inp analog par hpar, Option.getD_some,
      BitVec.toNat_ofNat, hp, powerByte]
    exact Nat.mod_eq_of_lt ((reportedPower_le _).trans_lt (by decide))
  rw [hlast hp hpar, hlast hq hpar', PowerInOrder, ← reportedPower_le_iff]
  exact ⟨fun h => h.2.2, fun h => ⟨reportedPower_le _, reportedPower_le _, h⟩⟩

/-- From where the scale begins up to 255 percent the byte is the percentage. -/
theorem powerByte_of_range (hp : 1096 ≤ p.toNat) (hp' : p.toNat < 2380) :
    powerByte outside p = (2 * p.toNat - 2200) / 10 := by
  have hscale : (2 * p.toNat - 2200 : ℤ).tdiv 10 = ((2 * p.toNat - 2200) / 10 : ℕ) := by
    rw [Int.tdiv_eq_ediv, show (10 : ℤ).sign = 1 from rfl]
    split <;> omega
  have hlt : (2 * p.toNat - 2200) / 10 < 256 := by
    omega
  rw [powerByte, rdPowerRead, hscale, toUnsigned, if_pos ⟨by omega, by omega⟩,
    BitVec.toNat_setWidth, BitVec.ofInt_natCast, BitVec.toNat_ofNat]
  omega

theorem powerInOrder_of_range (h : p ≤ q) (hp : 1096 ≤ p.toNat) (hq : q.toNat < 2380) :
    PowerInOrder outside p q := by
  have hle : p.toNat ≤ q.toNat := h
  refine .inr (.inr ?_)
  rw [powerByte_of_range hp (hle.trans_lt hq), powerByte_of_range (hp.trans hle) hq]
  omega

/-- A wake that reports motion, with the ADC at `p`. -/
def powerInputs (p : BitVec 32) : Inputs :=
  { motionInputs true with power := rdPowerRead (fun _ => 0) p }

theorem power_exact_sample : (80 : Reg).toNat ≤ 100 ∧ (100 : Reg).toNat ≤ 100 ∧
    (80 : Reg).toNat ≤ (100 : Reg).toNat :=
  (power_exact (fun _ => 0) 1500 1600 (powerInputs 1500) (powerInputs 1600) (fun _ => 0)
    (fun _ => 0) rfl rfl [0x0c, 1, 80] [0x0c, 1, 100] (by decide +kernel) (by decide +kernel)).mpr
    (powerInOrder_of_range (by decide) (by decide) (by decide))

/-- 2379 mV are 255 percent, reported as 100; one millivolt more is reported as nothing. -/
theorem power_refuted : ¬ ∀ (outside : ℤ → BitVec 32) (p q : BitVec 32), p ≤ q →
    ∀ (inp inp' : Inputs) (analog analog' : Nat → Reg), inp.power = rdPowerRead outside p →
    inp'.power = rdPowerRead outside q → ∀ par par' : List Reg, par ∈ (wake inp analog).sent →
    par' ∈ (wake inp' analog').sent → (par.getLastD 0).toNat ≤ 100 ∧
      (par'.getLastD 0).toNat ≤ 100 ∧ (par.getLastD 0).toNat ≤ (par'.getLastD 0).toNat := by
  intro h
  exact absurd (h (fun _ => 0) 2379 2380 (by decide) (powerInputs 2379) (powerInputs 2380)
    (fun _ => 0) (fun _ => 0) rfl rfl [0x0c, 1, 100] [0x0c, 1, 0] (by decide +kernel)
    (by decide +kernel)).2.2 (by decide)

end PirMesh

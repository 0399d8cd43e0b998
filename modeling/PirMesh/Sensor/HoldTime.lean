import Mathlib.Data.BitVec
import PirMesh.Sensor.Stamps

/-! # Sensor — The hold time of the motion flag (`pirMotionCOntrol`)

The instant of the last motion is retained in units of 15 seconds, in one byte, while
the check reads the units of a 32-bit timer.  So the byte tells the units only for the
first 256 of them, and the branch for a timer that wrapped mixes units and seconds:
`HoldRight` says of every two instants whether the check decides as the time that
passed demands (`holdTime_exact`).

`holdTime_follows` takes a whole wake along the run of stamps the result is about. -/

namespace PirMesh

open StateProg CoarseClock

/-! ### The units -/

/-- The 32 kHz timer is 32 bits wide. -/
def tickWrap : ℕ := 2 ^ 32

/-- `32767*15` -/
def tick15 : ℕ := 32767 * 15

/-- The 15-second units the timer shows at `n`. -/
def motionUnits (n : ℕ) : ℕ := units tickWrap tick15 n

/-- The 15-second units that begin between `r` and `n`. -/
def motionPassed (r n : ℕ) : ℕ := passed tickWrap tick15 r n

/-- What `setMotionTime` retains at `n`. -/
def motionStamp (n : ℕ) : List Reg := [.ofNat 8 (motionUnits n)]

/-- The stamps of the motion, with the retained byte. -/
def motionStamps : Run.Sys (Stamped Dev) (StampEvent Dev) :=
  stampSys (fun d => [motionTimeReg].map d.analog) motionStamp

/-! ### The condition -/

/-- Whether the check at `n2`, behind a first read at `n1`, decides as the time since `r` demands.
While the timer has not wrapped, it does for a stamp of less than 256 units, and when the time has
passed anyway.  After a wrap the units start over, and the byte is right by coincidence only. -/
def HoldRight (r n1 n2 pirTime : ℕ) : Prop :=
  if onward tickWrap r n2 < tickWrap then
    motionUnits r < 256 ∨ pirTime / 15 ≤ motionPassed r n2
  else if motionUnits r % 256 ≤ motionUnits n1 then
    pirTime / 15 ≤ motionPassed r n2 ↔
      motionUnits n2 < motionUnits r % 256 ∨
        motionUnits r % 256 + pirTime / 15 ≤ motionUnits n2
  else
    pirTime / 15 ≤ motionPassed r n2 ↔
      motionUnits r % 256 + pirTime ≤ 255 + motionUnits n2 % 256

/-! ### One check -/

variable {inp : Inputs} {d : Dev} {pirTime : Reg} {r n1 n2 : ℕ}

/-- The comparison that is made with the retained byte and the two reads of the units. -/
def HoldOver (line : Reg) (t1 t2 : BitVec 32) (pirTime : Reg) : Prop :=
  if line.setWidth 32 ≤ t1 then t2 - line.setWidth 32 ≥ (pirTime / 15).setWidth 32
  else 0xff - line.toNat + (t2.setWidth 8).toNat ≥ pirTime.toNat

instance (line : Reg) (t1 t2 : BitVec 32) (pirTime : Reg) :
    Decidable (HoldOver line t1 t2 pirTime) :=
  inferInstanceAs (Decidable (if line.setWidth 32 ≤ t1 then
    t2 - line.setWidth 32 ≥ (pirTime / 15).setWidth 32
    else 0xff - line.toNat + (t2.setWidth 8).toNat ≥ pirTime.toNat))

/-- A check of a raised flag, by its two reads. -/
theorem pirMotionCOntrol_run (h : d.rdPir.flag.motionFlag = true) :
    (pirMotionCOntrol inp pirTime).run d =
      if HoldOver (d.analog motionTimeReg) (inp.tick d.now / (32767 * 15))
          (inp.tick (d.now + 1) / (32767 * 15)) pirTime then
        (motionTimeOver inp).run
          { d with motionTimeLine := d.analog motionTimeReg, now := d.now + 2 }
      else ((), { d with motionTimeLine := d.analog motionTimeReg, now := d.now + 2 }) := by
  show StateT.run (if d.rdPir.flag.motionFlag then _ else _ : Sensor Unit) _ = _
  rw [if_pos h]
  show StateT.run (if (d.analog motionTimeReg).setWidth 32 ≤ inp.tick d.now / (32767 * 15) then _
    else _ : Sensor Unit) _ = _
  by_cases h1 : (d.analog motionTimeReg).setWidth 32 ≤ inp.tick d.now / (32767 * 15)
  · rw [if_pos h1]
    simp only [HoldOver, if_pos h1]
    show StateT.run (if inp.tick (d.now + 1) / (32767 * 15) - (d.analog motionTimeReg).setWidth 32 ≥
      (pirTime / 15).setWidth 32 then _ else _ : Sensor Unit) _ = _
    split <;> rfl
  · rw [if_neg h1]
    simp only [HoldOver, if_neg h1]
    show StateT.run (if 0xff - (d.analog motionTimeReg).toNat +
      ((inp.tick (d.now + 1) / (32767 * 15)).setWidth 8).toNat ≥ pirTime.toNat then _
      else _ : Sensor Unit) _ = _
    split <;> rfl

theorem pirMotionCOntrol_flag (h : d.rdPir.flag.motionFlag = true) :
    ((pirMotionCOntrol inp pirTime).run d).2.rdPir.flag.motionFlag = false ↔
      HoldOver (d.analog motionTimeReg) (inp.tick d.now / (32767 * 15))
        (inp.tick (d.now + 1) / (32767 * 15)) pirTime := by
  rw [pirMotionCOntrol_run h]
  split
  · exact iff_of_true rfl ‹_›
  · exact iff_of_false (fun hc => Bool.noConfusion (h.symm.trans hc)) ‹_›

/-- The units of a tick. -/
theorem toNat_tick15 (n : ℕ) :
    (BitVec.ofNat 32 n / (32767 * 15) : BitVec 32).toNat = motionUnits n := by
  rw [BitVec.toNat_udiv, BitVec.toNat_ofNat]
  rfl

/-- The comparison, in numbers: a difference below zero is a large one. -/
theorem holdOver_iff {line : Reg} {t1 t2 : BitVec 32} : HoldOver line t1 t2 pirTime ↔
    if line.toNat ≤ t1.toNat then
      t2.toNat < line.toNat ∨ line.toNat + pirTime.toNat / 15 ≤ t2.toNat
    else line.toNat + pirTime.toNat ≤ 255 + t2.toNat % 256 := by
  have hline : (line.setWidth 32).toNat = line.toNat :=
    BitVec.toNat_setWidth .. |>.trans (Nat.mod_eq_of_lt (line.isLt.trans (by decide)))
  have htime : ((pirTime / 15).setWidth 32).toNat = pirTime.toNat / 15 := by
    rw [BitVec.toNat_setWidth, BitVec.toNat_udiv]
    exact Nat.mod_eq_of_lt ((Nat.div_le_self _ _).trans_lt (pirTime.isLt.trans (by decide)))
  have hlt := line.isLt
  have htime_lt := pirTime.isLt
  have ht2 := t2.isLt
  have hle : line.setWidth 32 ≤ t1 ↔ line.toNat ≤ t1.toNat := by
    rw [BitVec.le_def, hline]
  unfold HoldOver
  by_cases h1 : line.toNat ≤ t1.toNat
  · rw [if_pos (hle.mpr h1), if_pos h1, ge_iff_le, BitVec.le_def, htime, BitVec.toNat_sub, hline]
    omega
  · rw [if_neg (mt hle.mp h1), if_neg h1, BitVec.toNat_setWidth]
    omega

/-- **One check**, of a register that holds the stamp of `r`. -/
theorem holdOver_right (h : r ≤ n1) (h' : n1 ≤ n2) :
    (HoldOver (.ofNat 8 (motionUnits r)) (.ofNat 32 n1 / (32767 * 15))
        (.ofNat 32 n2 / (32767 * 15)) pirTime ↔
      pirTime.toNat / 15 ≤ motionPassed r n2) ↔ HoldRight r n1 n2 pirTime.toNat := by
  rw [holdOver_iff, toNat_tick15, toNat_tick15, BitVec.toNat_ofNat, HoldRight]
  by_cases hw : onward tickWrap r n2 < tickWrap
  · -- no wrap: the byte is at most the units, and short by a multiple of 256
    have hw1 : onward tickWrap r n1 < tickWrap := (onward_mono h').trans_lt hw
    have hle : motionUnits r % 2 ^ 8 ≤ motionUnits n1 := stamp_le h hw1
    have hle2 : motionUnits r % 2 ^ 8 ≤ motionUnits n2 := stamp_le (h.trans h') hw
    have hsub : motionUnits n2 - motionUnits r % 2 ^ 8 =
      motionPassed r n2 + 2 ^ 8 * (motionUnits r / 2 ^ 8) := units_sub_stamp (h.trans h') hw
    have htime := pirTime.isLt
    rw [if_pos hle, if_pos hw]
    omega
  · rw [if_neg hw]
    by_cases hle : motionUnits r % 256 ≤ motionUnits n1
    · rw [if_pos hle, if_pos hle]
      exact iff_comm
    · rw [if_neg hle, if_neg hle]
      exact iff_comm

/-! ### Runs -/

/-- Raised, with everything else zero. -/
def heldDev : Dev := ⟨fun _ => 0, ⟨false, false, .ofData 0x80, 0⟩, 0, 0, false, 0, [], 0, 0⟩

/-- A 32 kHz timer that stands still at `n`. -/
def standingInputs (n : ℕ) : Inputs :=
  ⟨fun _ => .ofNat 32 n, fun _ _ => false, 0, 0, true, true, 0⟩

section

variable {clk : ℕ → ℕ}

theorem follows_startMotionTime (hclk : Monotone clk)
    (htick : ∀ k, inp.tick k = .ofNat 32 (clk k)) :
    Follows [motionTimeReg] motionStamp clk (startMotionTime inp) := by
  refine Traced.save hclk (fun d => ?_) fun d => Nat.le_succ _
  show [Function.update d.analog motionTimeReg
    ((inp.tick d.now / (32767 * 15)).setWidth 8) motionTimeReg] = _
  rw [Function.update_self, htick, motionStamp]
  refine congrArg (fun x => [x]) (BitVec.eq_of_toNat_eq ?_)
  rw [BitVec.toNat_setWidth, toNat_tick15, BitVec.toNat_ofNat]

theorem follows_pirMotionCOntrol (hclk : Monotone clk)
    (htick : ∀ k, inp.tick k = .ofNat 32 (clk k)) (pirTime : Reg) :
    Follows [motionTimeReg] motionStamp clk (pirMotionCOntrol inp pirTime) := by
  have hover : Follows [motionTimeReg] motionStamp clk (motionTimeOver inp) :=
    Traced.bind (.keep hclk fun _ _ => holds_setFlag _) fun _ => follows_startMotionTime hclk htick
  have hread : Follows [motionTimeReg] motionStamp clk (sys32kTick15S inp) :=
    .keep hclk fun _ _ => holds_sys32kTick15S
  have hpure : Follows [motionTimeReg] motionStamp clk (pure () : Sensor Unit) :=
    .keep hclk fun _ _ => .pure _
  refine Traced.bind (.keep hclk fun _ _ => holds_analogRead _) fun line =>
    Traced.bind (.keep hclk fun _ _ => .update fun _ h => h) fun _ =>
    Traced.bind (.keep hclk fun _ _ => .get) fun d => Traced.ite ?_ hpure
  refine Traced.bind hread fun t => Traced.ite ?_ ?_
  · exact Traced.bind hread fun _ => Traced.ite hover hpure
  · exact Traced.bind hread fun _ => Traced.ite hover hpure

section

variable {v : List Reg} {n : ℕ}

theorem holds_saveRdPirTimeOut : Keeps (Holding [motionTimeReg] v n) saveRdPirTimeOut :=
  .bind .get fun _ => .bind (holds_analogWrite _ (by decide)) fun _ =>
    holds_analogWrite _ (by decide)

theorem holds_pirTimeout : Keeps (Holding [motionTimeReg] v n) (pirTimeout inp) := by
  have hover : Keeps (Holding [motionTimeReg] v n) (pirFlagsOver inp) :=
    .bind holds_sys32kTickS fun _ => .bind (holds_setTimeOut _) fun _ =>
      .bind holds_saveRdPirTimeOut fun _ => .bind (holds_setFlag _) fun _ =>
        holds_saveRdPirFlag (by decide)
  refine .bind .get fun d => .bind holds_sys32kTickS fun t => .ite ?_ ?_
  · exact .bind holds_sys32kTickS fun _ => .ite hover (.pure _)
  · exact .bind holds_sys32kTickS fun _ => .ite hover (.pure _)

/-- The induction is on the reads left. -/
theorem holds_pirCheckPin (pin : PirPin) (i : Nat) :
    ∀ k, Keeps (Holding [motionTimeReg] v n) (pirCheckPin inp pin i k) := by
  induction i with
  | zero => exact fun _ => .pure _
  | succ i ih =>
    intro k
    refine .bind (holds_gpioRead _) fun active => .ite (.ite ?_ (ih _)) ?_
    · exact .bind (holds_setFlag _) fun _ => .bind holds_sys32kTickS fun _ =>
        .bind (holds_setTimeOut _) fun _ => .bind (holds_saveRdPirFlag (by decide)) fun _ =>
          holds_saveRdPirTimeOut
    · exact .bind (holds_setFlag _) fun _ => holds_saveRdPirFlag (by decide)

/-- The detection leaves the byte of the motion time as it is. -/
theorem holds_pirDetect : Keeps (Holding [motionTimeReg] v n) (pirDetect inp) :=
  .bind holds_pirTimeout fun _ => .bind .get fun _ =>
    .bind (.ite (holds_pirCheckPin _ _ _) (.pure _)) fun _ => .bind .get fun _ =>
      .bind (.ite (holds_pirCheckPin _ _ _) (.pure _)) fun _ => holds_pirMotion

theorem holds_rdFactoryReset : Keeps (Holding [motionTimeReg] v n) (rdFactoryReset inp) :=
  .ite (.pure _) (.bind holds_sys32kTickS fun _ => .bind (holds_setTimeOut _) fun _ =>
    .bind holds_saveRdPirTimeOut fun _ => .pure _)

end

/-- **A wake is a run of stamps**: it saves an instant where it calls `startMotionTime`, and leaves
the byte as it is otherwise. -/
theorem holdTime_follows (hclk : Monotone clk) (htick : ∀ k, inp.tick k = .ofNat 32 (clk k)) :
    Follows [motionTimeReg] motionStamp clk (sensorMain inp) := by
  refine follows_sensorMain hclk ?_ ?_
  · have hmotion : Follows [motionTimeReg] motionStamp clk (detectMotion inp) := by
      refine Traced.bind (.keep hclk fun _ _ => holds_pirDCInit) fun _ =>
        Traced.bind (follows_pirMotionCOntrol hclk htick _) fun _ => .keep hclk fun _ _ => ?_
      exact .bind holds_pirDetect fun _ =>
        .bind (holds_luxDetect (by decide) (by decide) _) fun _ => .update fun _ h => h
    refine Traced.bind (.keep hclk fun _ _ => holds_gpioRead _) fun _ =>
      Traced.bind (.keep hclk fun _ _ => holds_gpioRead _) fun _ =>
      Traced.bind (.keep hclk fun _ _ => .update fun _ h => h) fun _ =>
      Traced.bind (.keep hclk fun _ _ => holds_rdFactoryReset) fun resetFlag => ?_
    exact Traced.bind (Traced.ite (.keep hclk fun _ _ => .pure _) hmotion) fun _ =>
      .keep hclk fun _ _ => .pure _
  · refine Traced.bind ?_ fun _ => .keep hclk fun _ _ => holds_settleOld (by decide)
    refine Traced.bind (.keep hclk fun _ _ => .get) fun d =>
      Traced.ite ?_ (.keep hclk fun _ _ => .pure _)
    refine Traced.bind (.keep hclk fun _ _ => holds_setFlag _) fun _ =>
      Traced.bind (.keep hclk fun _ _ => holds_setFlag _) fun _ =>
      Traced.bind (.keep hclk fun _ _ => holds_saveRdPirFlag (by decide)) fun _ => ?_
    exact follows_startMotionTime hclk htick

end

end PirMesh

import PirMesh.Library.CoarseClock
import PirMesh.Sensor.Wake

/-! # Sensor — Instants in the retained registers

Some of the retained registers hold the stamp of an instant.  The parts of a wake that
write none of `regs` are collected here (`keeps_…`), for whatever registers those are;
`Follows` is a program that takes the registers along a run of stamps. -/

namespace PirMesh

open StateProg CoarseClock

variable {regs : List Nat} {v : List Reg} {n : ℕ} {inp : Inputs}

/-- The registers hold `v`, and at least `n` reads were made. -/
def Holding (regs : List Nat) (v : List Reg) (n : ℕ) (d : Dev) : Prop :=
  regs.map d.analog = v ∧ n ≤ d.now

/-! ### What leaves the registers as they are -/

theorem holds_sys32kTickS : Keeps (Holding regs v n) (sys32kTickS inp) :=
  fun _ h => ⟨h.1, Nat.le_succ_of_le h.2⟩

theorem holds_sys32kTick15S : Keeps (Holding regs v n) (sys32kTick15S inp) :=
  fun _ h => ⟨h.1, Nat.le_succ_of_le h.2⟩

theorem holds_gpioRead (pin : PirPin) : Keeps (Holding regs v n) (gpioRead inp pin) :=
  fun _ h => ⟨h.1, Nat.le_succ_of_le h.2⟩

theorem holds_analogRead (reg : Nat) : Keeps (Holding regs v n) (analogRead reg) := fun _ h => h

theorem holds_analogWrite {reg : Nat} (w : Reg) (hreg : reg ∉ regs) :
    Keeps (Holding regs v n) (analogWrite reg w) := by
  intro d h
  refine ⟨?_, h.2⟩
  rw [← h.1]
  refine List.map_congr_left fun a ha => ?_
  show Function.update d.analog reg w a = d.analog a
  exact Function.update_of_ne (fun he : a = reg => hreg (he ▸ ha)) _ _

theorem holds_setFlag (g : PirFlag → PirFlag) : Keeps (Holding regs v n) (setFlag g) := fun _ h => h

theorem holds_setTimeOut (t : BitVec 32) : Keeps (Holding regs v n) (setTimeOut t) := fun _ h => h

theorem holds_saveRdPirFlag (hreg : pirFlagSaveReg ∉ regs) :
    Keeps (Holding regs v n) saveRdPirFlag :=
  .bind .get fun _ => holds_analogWrite _ hreg

theorem holds_pirDCInit : Keeps (Holding regs v n) pirDCInit :=
  .bind (.bind (holds_analogRead _) fun _ => .bind (holds_analogRead _) fun _ => .pure _) fun _ =>
    .bind (holds_setTimeOut _) fun _ => .bind (holds_analogRead _) fun _ => holds_setFlag _

theorem holds_pirMotion : Keeps (Holding regs v n) pirMotion :=
  .bind .get fun _ => .bind (.ite (holds_setFlag _) (.pure _)) fun _ => .bind .get fun _ => .pure _

theorem holds_luxDetect (h0 : luxSaveReg0 ∉ regs) (h1 : luxSaveReg1 ∉ regs)
    (threshold : BitVec 32) : Keeps (Holding regs v n) (luxDetect inp threshold) := by
  have hchanged (lux : BitVec 32) : Keeps (Holding regs v n) (luxChanged lux) :=
    .bind (.update fun _ h => h) fun _ => .bind (.bind (holds_analogWrite _ h0) fun _ =>
      holds_analogWrite _ h1) fun _ => .pure _
  refine .bind (.bind (holds_analogRead _) fun _ => .bind (holds_analogRead _) fun _ => .pure _)
    fun luxOld => .bind (.update fun _ h => h) fun _ => ?_
  exact .ite (.ite (.ite (hchanged _) (.pure _)) (.ite (hchanged _) (.pure _))) (.pure _)

theorem holds_cpuSleepWakeup (ms : Nat) : Keeps (Holding regs v n) (cpuSleepWakeup ms) := by
  refine .step fun d h => ?_
  cases d.refused <;> exact h

theorem holds_sleepBeforSend (motion old lux : Bool) :
    Keeps (Holding regs v n) (sleepBeforSend motion old lux) :=
  .ite (.ite (holds_cpuSleepWakeup _) (holds_cpuSleepWakeup _)) (.pure _)

theorem holds_powerUpdate : Keeps (Holding regs v n) (powerUpdate inp) := by
  show Keeps (Holding regs v n) (if _ then _ else if _ then _ else _)
  exact .ite (.pure _) (.ite (.pure _) (.pure _))

theorem holds_sensorSendData (motion old lux : Bool) :
    Keeps (Holding regs v n) (sensorSendData inp motion old lux) :=
  .bind holds_powerUpdate fun _ => .bind (.ite (.update fun _ h => h) (.pure _)) fun _ =>
    .ite (.bind .get fun _ => .update fun _ h => h) (.pure _)

theorem holds_settleOld (hreg : pirFlagSaveReg ∉ regs) : Keeps (Holding regs v n) settleOld :=
  .bind .get fun _ => .ite (.bind (holds_setFlag _) fun _ => holds_saveRdPirFlag hreg) (.pure _)

/-! ### Programs along a run of stamps -/

section

variable {stored : ℕ → List Reg} {clk : ℕ → ℕ} {α : Type} {m : Sensor α}

/-- The program takes `regs` along a run of stamps; the 32 kHz timer is at `clk k` when the wake
makes its `k`-th read. -/
def Follows (regs : List Nat) (stored : ℕ → List Reg) (clk : ℕ → ℕ) (m : Sensor α) : Prop :=
  Traced (fun d : Dev => regs.map d.analog) stored Dev.now clk m

theorem Follows.keep (hclk : Monotone clk) (h : ∀ v n, Keeps (Holding regs v n) m) :
    Follows regs stored clk m := Traced.keep hclk h

/-- The main loop, when its bookkeeping follows. -/
theorem follows_sleepLoop (hclk : Monotone clk) (h : Follows regs stored clk (settleMotion inp))
    (k : Nat) :
    Follows regs stored clk (sleepLoop inp k) := by
  induction k with
  | zero => exact .keep hclk fun _ _ => .pure _
  | succ k ih =>
    refine Traced.bind (Traced.bind h fun _ => .keep hclk fun _ _ => holds_cpuSleepWakeup _)
      fun asleep => ?_
    exact Traced.ite (.keep hclk fun _ _ => .pure _) ih

/-- A wake, when its detection and its bookkeeping follow. -/
theorem follows_sensorMain (hclk : Monotone clk) (hdetect : Follows regs stored clk (detect inp))
    (h : Follows regs stored clk (settleMotion inp)) :
    Follows regs stored clk (sensorMain inp) := by
  have hreport (resetFlag : Bool) (d : Dev) : Follows regs stored clk (report inp resetFlag d) := by
    refine Traced.bind (Traced.ite (.keep hclk fun _ _ => .pure _)
      (.keep hclk fun _ _ => holds_sensorSendData _ _ _)) fun _ => ?_
    exact Traced.bind h fun _ => .keep hclk fun _ _ => holds_cpuSleepWakeup _
  have hawake (resetFlag : Bool) (d : Dev) :
      Follows regs stored clk (mainAwake inp resetFlag d) := by
    refine Traced.bind (Traced.ite (hreport _ _) (.keep hclk fun _ _ => .pure _)) fun asleep => ?_
    refine Traced.ite (.keep hclk fun _ _ => .pure _) ?_
    exact Traced.bind (.keep hclk fun _ _ => .get) fun _ => follows_sleepLoop hclk h _
  refine Traced.bind hdetect fun resetFlag => Traced.bind (.keep hclk fun _ _ => .get) fun d => ?_
  refine Traced.bind (.keep hclk fun _ _ => holds_sleepBeforSend _ _ _) fun asleep => ?_
  exact Traced.ite (.keep hclk fun _ _ => .pure _) (hawake _ _)

end

end PirMesh

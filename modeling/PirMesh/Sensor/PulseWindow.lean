import Mathlib.Data.BitVec
import PirMesh.Sensor.Stamps

/-! # Sensor — The window of two pulses (`pirDetect`)

The seconds of the last pin change are retained in 16 bits, while the check reads all
of them, and its branch for a timer that wrapped measures from `0xffffffff` seconds,
which the timer never shows.  `WindowRight` says of every two instants whether the
check decides as the five seconds demand (`pulseWindow_exact`).

A save is whatever writes the two registers: a pin change, the timeout itself, and a
wake by the button.  `pulseWindow_follows` takes a whole wake along the run of stamps. -/

namespace PirMesh

open StateProg CoarseClock

/-! ### The seconds -/

/-- The seconds the timer shows at `n`. -/
def pirSecs (n : ℕ) : ℕ := units (2 ^ 32) 32767 n

/-- The seconds that begin between `r` and `n`. -/
def pirPassed (r n : ℕ) : ℕ := passed (2 ^ 32) 32767 r n

/-- The 16 bits that are retained at `n`. -/
def pulseTime (n : ℕ) : BitVec 16 := .ofNat 16 (pirSecs n)

def pulseStamp (n : ℕ) : List Reg := [(pulseTime n >>> 8).setWidth 8, (pulseTime n).setWidth 8]

def timeoutRegs : List Nat := [pirTimeoutReg0, pirTimeoutReg1]

/-- The stamps of the pin changes, with the retained registers. -/
def pulseStamps : Run.Sys (Stamped Dev) (StampEvent Dev) :=
  stampSys (fun d => timeoutRegs.map d.analog) pulseStamp

/-- `PIR_DC_FLAG_TIMEOUT`, in ticks. -/
def windowTicks : ℕ := 5 * 32767

/-! ### The condition -/

/-- Whether the check at `n2`, behind a first read at `n1`, decides as the five seconds since `r`
demand.  While the timer has not wrapped, it does when they have passed, and when fewer than five
seconds begin in between and the stamp is of less than 65536. -/
def WindowRight (r n1 n2 : ℕ) : Prop :=
  if onward (2 ^ 32) r n2 < 2 ^ 32 then
    windowTicks ≤ n2 - r ∨ pirSecs r < 65536 ∧ pirPassed r n2 < 5
  else if pirSecs r % 65536 ≤ pirSecs n1 then
    windowTicks ≤ n2 - r ↔
      pirSecs n2 < pirSecs r % 65536 ∨ pirSecs r % 65536 + 5 ≤ pirSecs n2
  else
    windowTicks ≤ n2 - r ↔
      pirSecs n2 ≤ pirSecs r % 65536 ∨ pirSecs r % 65536 + 6 ≤ pirSecs n2

/-! ### One check -/

variable {inp : Inputs} {d : Dev} {r n1 n2 : ℕ}

/-- What `pirDCInit` loads into RAM. -/
def loadedTimeOut (d : Dev) : BitVec 32 :=
  (d.analog pirTimeoutReg0 ++ d.analog pirTimeoutReg1).setWidth 32

/-- The comparison that is made with the loaded seconds and the two reads. -/
def WindowOver (timeOut t1 t2 : BitVec 32) : Prop :=
  if timeOut ≤ t1 then t2 - timeOut ≥ pirDcFlagTimeout
  else 0xffffffff - timeOut + t2 ≥ pirDcFlagTimeout

instance (timeOut t1 t2 : BitVec 32) : Decidable (WindowOver timeOut t1 t2) :=
  inferInstanceAs (Decidable (if timeOut ≤ t1 then t2 - timeOut ≥ pirDcFlagTimeout
    else 0xffffffff - timeOut + t2 ≥ pirDcFlagTimeout))

theorem run_sys32kTickS_bind {α : Type} (f : BitVec 32 → Sensor α) (d : Dev) :
    (sys32kTickS inp >>= f).run d =
      (f (inp.tick d.now / 32767)).run { d with now := d.now + 1 } := rfl

theorem run_ite {α : Type} {c : Prop} [Decidable c] (m m' : Sensor α) (d : Dev) :
    (if c then m else m').run d = if c then m.run d else m'.run d := by
  split <;> rfl

theorem pirTimeout_run (d : Dev) : (pirTimeout inp).run d =
    if WindowOver d.rdPir.timeOut (inp.tick d.now / 32767) (inp.tick (d.now + 1) / 32767) then
      (pirFlagsOver inp).run { d with now := d.now + 2 }
    else ((), { d with now := d.now + 2 }) := by
  have hread : (pirTimeout inp).run d = (if d.rdPir.timeOut ≤ inp.tick d.now / 32767 then do
      let t ← sys32kTickS inp
      if t - d.rdPir.timeOut ≥ pirDcFlagTimeout then pirFlagsOver inp else return
    else do
      let t ← sys32kTickS inp
      if 0xffffffff - d.rdPir.timeOut + t ≥ pirDcFlagTimeout then pirFlagsOver inp
      else return : Sensor Unit).run { d with now := d.now + 1 } := rfl
  rw [hread, run_ite, run_sys32kTickS_bind, run_sys32kTickS_bind, run_ite, run_ite]
  unfold WindowOver
  by_cases h1 : d.rdPir.timeOut ≤ inp.tick d.now / 32767
  · simp only [if_pos h1]
    rfl
  · simp only [if_neg h1]
    rfl

/-- A pulse is pending. -/
def PirFlag.Pulse (f : PirFlag) : Prop := f.pirHighFlag = true ∨ f.pirLowFlag = true

theorem pirTimeout_flag (h : d.rdPir.flag.Pulse) :
    ¬ ((pirTimeout inp).run d).2.rdPir.flag.Pulse ↔
      WindowOver d.rdPir.timeOut (inp.tick d.now / 32767) (inp.tick (d.now + 1) / 32767) := by
  rw [pirTimeout_run]
  split
  · exact iff_of_true (fun hc => hc.elim (fun h => Bool.noConfusion h) fun h =>
      Bool.noConfusion h) ‹_›
  · exact iff_of_false (fun hc => hc h) ‹_›

theorem toNat_secs (n : ℕ) : (BitVec.ofNat 32 n / 32767 : BitVec 32).toNat = pirSecs n := by
  rw [BitVec.toNat_udiv, BitVec.toNat_ofNat]
  rfl

/-- The comparison, in numbers, for seconds that were retained. -/
theorem windowOver_iff {timeOut t1 t2 : BitVec 32} (h : timeOut.toNat < 65536) :
    WindowOver timeOut t1 t2 ↔
      if timeOut.toNat ≤ t1.toNat then
        t2.toNat < timeOut.toNat ∨ timeOut.toNat + 5 ≤ t2.toNat
      else t2.toNat ≤ timeOut.toNat ∨ timeOut.toNat + 6 ≤ t2.toNat := by
  have ht2 := t2.isLt
  have htime : pirDcFlagTimeout.toNat = 5 := rfl
  unfold WindowOver
  by_cases h1 : timeOut.toNat ≤ t1.toNat
  · rw [if_pos (BitVec.le_def.mpr h1), if_pos h1, ge_iff_le, BitVec.le_def, htime,
      BitVec.toNat_sub]
    omega
  · rw [if_neg (mt BitVec.le_def.mp h1), if_neg h1, ge_iff_le, BitVec.le_def, htime,
      BitVec.toNat_add, BitVec.toNat_sub]
    have hmax : (0xffffffff : BitVec 32).toNat = 2 ^ 32 - 1 := rfl
    rw [hmax]
    omega

/-- **One check**, of the seconds that were retained at `r`. -/
theorem windowOver_right {timeOut : BitVec 32} (htime : timeOut.toNat = pirSecs r % 65536)
    (h : r ≤ n1) (h' : n1 ≤ n2) :
    (WindowOver timeOut (.ofNat 32 n1 / 32767) (.ofNat 32 n2 / 32767) ↔ windowTicks ≤ n2 - r) ↔
      WindowRight r n1 n2 := by
  have hlt : timeOut.toNat < 65536 := htime ▸ Nat.mod_lt _ (by decide)
  rw [windowOver_iff hlt, toNat_secs, toNat_secs, htime, WindowRight]
  by_cases hw : onward (2 ^ 32) r n2 < 2 ^ 32
  · -- no wrap: the seconds are at most those of the reads, and short by a multiple of 65536
    have hw1 : onward (2 ^ 32) r n1 < 2 ^ 32 := (onward_mono h').trans_lt hw
    have hle : pirSecs r % 65536 ≤ pirSecs n1 := stamp_le h hw1
    have hle2 : pirSecs r % 65536 ≤ pirSecs n2 := stamp_le (h.trans h') hw
    have hsub : pirSecs n2 - pirSecs r % 65536 =
      pirPassed r n2 + 65536 * (pirSecs r / 65536) := units_sub_stamp (h.trans h') hw
    have hpassed : windowTicks ≤ n2 - r → 5 ≤ pirPassed r n2 := le_passed (by decide)
    rw [if_pos hle, if_pos hw]
    omega
  · rw [if_neg hw]
    by_cases hle : pirSecs r % 65536 ≤ pirSecs n1
    · rw [if_pos hle, if_pos hle]
      exact iff_comm
    · rw [if_neg hle, if_neg hle]
      exact iff_comm

/-! ### Runs -/

/-- The two bytes that are retained hold 16 bits. -/
theorem toNat_append_bytes {w : ℕ} (x : BitVec w) :
    ((x >>> 8).setWidth 8 ++ x.setWidth 8 : BitVec (8 + 8)).toNat = x.toNat % 65536 := by
  have hlow : (x.setWidth 8).toNat < 2 ^ 8 := (x.setWidth 8).isLt
  rw [BitVec.toNat_append, ← Nat.shiftLeft_add_eq_or_of_lt hlow, BitVec.toNat_setWidth,
    BitVec.toNat_setWidth, BitVec.toNat_ushiftRight, Nat.shiftLeft_eq, Nat.shiftRight_eq_div_pow]
  omega

/-- The loaded seconds are those that were retained. -/
theorem toNat_loadedTimeOut {n : ℕ} (h : timeoutRegs.map d.analog = pulseStamp n) :
    (loadedTimeOut d).toNat = pirSecs n % 65536 := by
  obtain ⟨h0, h1⟩ := List.cons.inj h
  have htime : (pulseTime n).toNat = pirSecs n % 65536 := BitVec.toNat_ofNat ..
  rw [loadedTimeOut, h0, (List.cons.inj h1).1, BitVec.toNat_setWidth, toNat_append_bytes, htime]
  omega

/-- What a wake does before it looks at the pulses loads the retained seconds. -/
theorem pirDetect_loaded (inp : Inputs) (pirTime : Reg) :
    Triple (fun _ => True) (do
      pirDCInit
      pirMotionCOntrol inp pirTime) fun _ d => d.rdPir.timeOut = loadedTimeOut d := by
  have hkeep {m : Sensor Unit} (h : ∀ d, (m.run d).2.rdPir.timeOut = d.rdPir.timeOut)
      (h' : ∀ d, loadedTimeOut (m.run d).2 = loadedTimeOut d) :
      Keeps (fun d => d.rdPir.timeOut = loadedTimeOut d) m := fun d hd =>
    (h d).trans (hd.trans (h' d).symm)
  have htick : Keeps (fun d => d.rdPir.timeOut = loadedTimeOut d) (sys32kTick15S inp) :=
    fun _ h => h
  have hwrite (w : Reg) : Keeps (fun d => d.rdPir.timeOut = loadedTimeOut d) (setMotionTime w) :=
    hkeep (fun _ => rfl) fun d => by
      show BitVec.setWidth 32 (Function.update d.analog motionTimeReg w pirTimeoutReg0 ++
        Function.update d.analog motionTimeReg w pirTimeoutReg1) = _
      rw [Function.update_of_ne (by decide), Function.update_of_ne (by decide)]
      rfl
  have hover : Keeps (fun d => d.rdPir.timeOut = loadedTimeOut d) (motionTimeOver inp) :=
    .bind (hkeep (fun _ => rfl) fun _ => rfl) fun _ => .bind htick fun _ =>
      .bind (.update fun _ h => h) fun _ => hwrite _
  refine Triple.bind (Q := fun _ d => d.rdPir.timeOut = loadedTimeOut d) (fun _ _ => rfl)
    fun _ => ?_
  refine Keeps.bind (fun _ h => h) fun line => .bind (.update fun _ h => h) fun _ =>
    .bind .get fun d => .ite (.bind htick fun t => ?_) (.pure _)
  exact .ite (.bind htick fun _ => .ite hover (.pure _)) (.bind htick fun _ => .ite hover (.pure _))

/-- A pulse of the high pin, with everything else zero. -/
def pulseDev : Dev := ⟨fun _ => 0, ⟨false, false, .ofData 8, 0⟩, 0, 0, false, 0, [], 0, 0⟩

/-- The 32 kHz timer stands still at `n`, and no pin is active. -/
def quietInputs (n : ℕ) : Inputs :=
  ⟨fun _ => .ofNat 32 n, fun _ _ => false, 0, 0, true, true, 0⟩

/-- 65536 seconds, some 18 hours. -/
def lateTick : ℕ := 65536 * 32767

section

variable {clk : ℕ → ℕ}

theorem map_timeoutRegs (a : Nat → Reg) (hi lo : Reg) : timeoutRegs.map
    (Function.update (Function.update a pirTimeoutReg0 hi) pirTimeoutReg1 lo) = [hi, lo] := by
  simp only [timeoutRegs, List.map_cons, List.map_nil, Function.update_self]
  rw [Function.update_of_ne (by decide), Function.update_self]

theorem saveRdPirTimeOut_regs (d : Dev) : timeoutRegs.map (saveRdPirTimeOut.run d).2.analog =
    [((d.rdPir.timeOut.setWidth 16) >>> 8).setWidth 8,
      (d.rdPir.timeOut.setWidth 16).setWidth 8] := map_timeoutRegs d.analog _ _

/-- What is saved right behind a read. -/
theorem pulseStamp_eq (n : ℕ) :
    (BitVec.ofNat 32 n / 32767 : BitVec 32).setWidth 16 = pulseTime n := by
  apply BitVec.eq_of_toNat_eq
  rw [BitVec.toNat_setWidth, toNat_secs, pulseTime, BitVec.toNat_ofNat]

/-- The seconds are read and saved; what is done in between leaves RAM's seconds. -/
theorem follows_save (hclk : Monotone clk) (htick : ∀ k, inp.tick k = .ofNat 32 (clk k))
    {m : Sensor Unit} (hm : ∀ d, (m.run d).2.rdPir.timeOut = d.rdPir.timeOut)
    (hnow : ∀ d, (m.run d).2.now = d.now) :
    Follows timeoutRegs pulseStamp clk (do
      let t ← sys32kTickS inp
      setTimeOut t
      m
      saveRdPirTimeOut) := by
  have hread (d : Dev) : ((do
      let t ← sys32kTickS inp
      setTimeOut t
      m
      saveRdPirTimeOut : Sensor Unit).run d).2 =
      (saveRdPirTimeOut.run (m.run { d with
        now := d.now + 1, rdPir := { d.rdPir with timeOut := inp.tick d.now / 32767 } }).2).2 := rfl
  refine Traced.save hclk (fun d => ?_) fun d => ?_
  · rw [hread, saveRdPirTimeOut_regs, hm, htick, pulseStamp_eq]
    rfl
  · rw [hread]
    exact (Nat.le_succ d.now).trans (hnow { d with
      now := d.now + 1, rdPir := { d.rdPir with timeOut := inp.tick d.now / 32767 } }).ge

section

variable {v : List Reg} {n : ℕ}

theorem holds_startMotionTime : Keeps (Holding timeoutRegs v n) (startMotionTime inp) :=
  .bind holds_sys32kTick15S fun _ => .bind (.update fun _ h => h) fun _ =>
    holds_analogWrite _ (by decide)

/-- The check of the hold time leaves the registers of the pulses as they are. -/
theorem holds_pirMotionCOntrol {pirTime : Reg} :
    Keeps (Holding timeoutRegs v n) (pirMotionCOntrol inp pirTime) := by
  have hover : Keeps (Holding timeoutRegs v n) (motionTimeOver inp) :=
    .bind (holds_setFlag _) fun _ => holds_startMotionTime
  refine .bind (holds_analogRead _) fun line => .bind (.update fun _ h => h) fun _ =>
    .bind .get fun d => .ite (.bind holds_sys32kTick15S fun t => ?_) (.pure _)
  exact .ite (.bind holds_sys32kTick15S fun _ => .ite hover (.pure _))
    (.bind holds_sys32kTick15S fun _ => .ite hover (.pure _))

end

/-! ### The parts of a wake -/

theorem follows_setFlag (hclk : Monotone clk) (g : PirFlag → PirFlag) :
    Follows timeoutRegs pulseStamp clk (setFlag g) := .keep hclk fun _ _ => holds_setFlag _

theorem follows_saveRdPirFlag (hclk : Monotone clk) :
    Follows timeoutRegs pulseStamp clk saveRdPirFlag :=
  .keep hclk fun _ _ => holds_saveRdPirFlag (by decide)

theorem follows_nothing (hclk : Monotone clk) :
    Follows timeoutRegs pulseStamp clk (pure () : Sensor Unit) := .keep hclk fun _ _ => .pure _

theorem follows_pirFlagsOver (hclk : Monotone clk)
    (htick : ∀ k, inp.tick k = .ofNat 32 (clk k)) :
    Follows timeoutRegs pulseStamp clk (pirFlagsOver inp) := by
  have hsave := follows_save hclk htick (m := pure ()) (fun _ => rfl) fun _ => rfl
  have hrest : Follows timeoutRegs pulseStamp clk (do
      setFlag fun f => { f with pirHighFlag := false, pirLowFlag := false }
      saveRdPirFlag) :=
    Traced.bind (follows_setFlag hclk _) fun _ => follows_saveRdPirFlag hclk
  -- the same program, with the save as its first part
  exact (Traced.bind hsave fun _ => hrest : Follows timeoutRegs pulseStamp clk ((do
    let t ← sys32kTickS inp
    setTimeOut t
    pure ()
    saveRdPirTimeOut : Sensor Unit) >>= fun _ => _))

theorem follows_pirTimeout (hclk : Monotone clk) (htick : ∀ k, inp.tick k = .ofNat 32 (clk k)) :
    Follows timeoutRegs pulseStamp clk (pirTimeout inp) := by
  have hread : Follows timeoutRegs pulseStamp clk (sys32kTickS inp) :=
    .keep hclk fun _ _ => holds_sys32kTickS
  have hover := follows_pirFlagsOver hclk htick
  have hnothing := follows_nothing hclk
  refine Traced.bind (.keep hclk fun _ _ => .get) fun d => Traced.bind hread fun t => ?_
  exact Traced.ite (Traced.bind hread fun _ => Traced.ite hover hnothing)
    (Traced.bind hread fun _ => Traced.ite hover hnothing)

theorem follows_pirCheckPin (hclk : Monotone clk) (htick : ∀ k, inp.tick k = .ofNat 32 (clk k))
    (pin : PirPin) (i k : ℕ) : Follows timeoutRegs pulseStamp clk (pirCheckPin inp pin i k) := by
  induction i generalizing k with
  | zero => exact follows_nothing hclk
  | succ i ih =>
    refine Traced.bind (.keep hclk fun _ _ => holds_gpioRead _) fun active =>
      Traced.ite (Traced.ite ?_ (ih _)) ?_
    · exact Traced.bind (follows_setFlag hclk _) fun _ =>
        follows_save hclk htick (fun _ => rfl) fun _ => rfl
    · exact Traced.bind (follows_setFlag hclk _) fun _ => follows_saveRdPirFlag hclk

theorem follows_pirDetect (hclk : Monotone clk) (htick : ∀ k, inp.tick k = .ofNat 32 (clk k)) :
    Follows timeoutRegs pulseStamp clk (pirDetect inp) := by
  have hget : Follows timeoutRegs pulseStamp clk (get : Sensor Dev) := .keep hclk fun _ _ => .get
  have hcheck := follows_pirCheckPin hclk htick
  have hnothing := follows_nothing hclk
  exact Traced.bind (follows_pirTimeout hclk htick) fun _ => Traced.bind hget fun _ =>
    Traced.bind (Traced.ite (hcheck _ _ _) hnothing) fun _ => Traced.bind hget fun _ =>
    Traced.bind (Traced.ite (hcheck _ _ _) hnothing) fun _ => .keep hclk fun _ _ =>
      holds_pirMotion

/-- The button saves the seconds as the pins do. -/
theorem follows_rdFactoryReset (hclk : Monotone clk)
    (htick : ∀ k, inp.tick k = .ofNat 32 (clk k)) :
    Follows timeoutRegs pulseStamp clk (rdFactoryReset inp) := by
  have hsave := follows_save hclk htick (m := pure ()) (fun _ => rfl) fun _ => rfl
  exact Traced.ite (.keep hclk fun _ _ => .pure _)
    (Traced.bind hsave fun _ => .keep hclk fun _ _ => .pure _ : Follows timeoutRegs pulseStamp clk
      ((do
        let t ← sys32kTickS inp
        setTimeOut t
        pure ()
        saveRdPirTimeOut : Sensor Unit) >>= fun _ => (pure true : Sensor Bool)))

theorem follows_detectMotion (hclk : Monotone clk)
    (htick : ∀ k, inp.tick k = .ofNat 32 (clk k)) :
    Follows timeoutRegs pulseStamp clk (detectMotion inp) := by
  have hcontrol : Follows timeoutRegs pulseStamp clk (pirMotionCOntrol inp 45) :=
    .keep hclk fun _ _ => holds_pirMotionCOntrol
  refine Traced.bind (.keep hclk fun _ _ => holds_pirDCInit) fun _ =>
    Traced.bind hcontrol fun _ => Traced.bind (follows_pirDetect hclk htick) fun _ =>
    .keep hclk fun _ _ => ?_
  exact .bind (holds_luxDetect (by decide) (by decide) _) fun _ => .update fun _ h => h

/-- **A wake is a run of stamps**: it saves the seconds where it has read them, and leaves the
registers as they are otherwise. -/
theorem pulseWindow_follows (hclk : Monotone clk) (htick : ∀ k, inp.tick k = .ofNat 32 (clk k)) :
    Follows timeoutRegs pulseStamp clk (sensorMain inp) := by
  have hmotion := follows_detectMotion hclk htick
  refine follows_sensorMain hclk ?_ ?_
  · refine Traced.bind (.keep hclk fun _ _ => holds_gpioRead _) fun _ =>
      Traced.bind (.keep hclk fun _ _ => holds_gpioRead _) fun _ =>
      Traced.bind (.keep hclk fun _ _ => .update fun _ h => h) fun _ =>
      Traced.bind (follows_rdFactoryReset hclk htick) fun resetFlag => ?_
    exact Traced.bind (Traced.ite (.keep hclk fun _ _ => .pure _) hmotion) fun _ =>
      .keep hclk fun _ _ => .pure _
  · refine Traced.bind (.keep hclk fun _ _ => ?_) fun _ =>
      .keep hclk fun _ _ => holds_settleOld (by decide)
    exact .bind .get fun _ => .ite (.bind (holds_setFlag _) fun _ => .bind (holds_setFlag _)
      fun _ => .bind (holds_saveRdPirFlag (by decide)) fun _ => holds_startMotionTime) (.pure _)

end

end PirMesh

import Mathlib.Data.List.Chain
import PirMesh.Device.ResetResume
import PirMesh.Sensor.Wake

/-! # Sensor — Reports across sleep cycles

A wake of a provisioned node sends a motion report exactly when the state it
decides on is not the one last reported, and the register it leaves holds the
state last reported (`wake_spec`); so over a run of wakes the reports alternate
(`motion_reports`).

A node whose joined flag stands while its provisioning is gone is different
(`factoryReset_joined`): it sends nothing, and its loop settles the flags all the
same (`report_skipped`). -/

namespace PirMesh

open StateProg Run Nor

variable {J : Reg → PirFlag → List (List Reg) → Prop} {inp : Inputs} {o m : Bool}
  {analog : Nat → Reg}

/-! ### The end of a wake -/

theorem keeps_sleepAfterSend (hJ : ∀ r f s, J r f s → Settled m f) :
    Keeps (View J) (sleepAfterSend inp) :=
  .bind (keeps_settleMotion hJ) fun _ => keeps_cpuSleepWakeup _

/-- The loop turns with settled flags. -/
theorem keeps_sleepLoop (hJ : ∀ r f s, J r f s → Settled m f) (n : Nat) :
    Keeps (View J) (sleepLoop inp n) := by
  induction n with
  | zero => exact .pure _
  | succ n ih => exact .bind (keeps_sleepAfterSend hJ) fun _ => .ite (.pure _) ih

/-- A provisioned node reports, settles its flags, and goes to sleep with them. -/
theorem mainAwake_spec (hp : inp.provisioned = true) (d : Dev) :
    Triple (View fun r f s => (oldOf r = f.motionFlagOld ∧ f = d.rdPir.flag) ∧ s = [])
      (mainAwake inp false d) fun _ => Told d.rdPir.flag.motionFlag fun s =>
        motionReports s = if d.rdPir.flag.motionFlagOld ≠ d.rdPir.flag.motionFlag then
          [d.rdPir.flag.motionFlag] else [] := by
  have hreport : Triple (View fun r f s => (oldOf r = f.motionFlagOld ∧ f = d.rdPir.flag) ∧ s = [])
      (report inp false d) fun _ => Told d.rdPir.flag.motionFlag fun s =>
        motionReports s = if d.rdPir.flag.motionFlagOld ≠ d.rdPir.flag.motionFlag then
          [d.rdPir.flag.motionFlag] else [] :=
    .bind (sensorSendData_spec
      (J := fun r f _ => oldOf r = f.motionFlagOld ∧ f = d.rdPir.flag) _ _ _)
      fun _ => .bind (settleMotion_spec.pre fun _ h => ⟨⟨h.1.1, congrArg _ h.1.2⟩, h.2⟩) fun _ =>
        keeps_cpuSleepWakeup _
  rw [mainAwake, if_pos hp]
  exact .bind hreport fun _ => Keeps.ite (.pure _) (.bind .get fun _ =>
    keeps_sleepLoop (fun _ _ _ h => h.1) _)

/-- On a button wake the flags stay as they are. -/
theorem keeps_mainAwake (hp : inp.provisioned = true)
    (hJ : ∀ r f s, J r f s → Settled m f) (d : Dev) :
    Keeps (View J) (mainAwake inp true d) := by
  have hreport : Keeps (View J) (report inp true d) :=
    .bind (.pure ()) fun _ => keeps_sleepAfterSend hJ
  rw [mainAwake, if_pos hp]
  exact .bind hreport fun _ => .ite (.pure _) (.bind .get fun _ => keeps_sleepLoop hJ _)

/-- A node that sleeps at once has nothing to report. -/
theorem sleepBeforSend_asleep {motion old lux : Bool} {d : Dev}
    (h : ((sleepBeforSend motion old lux).run d).1 = true) : old = motion := by
  unfold sleepBeforSend at h
  by_cases hc : old = motion ∧ ¬ lux
  · exact hc.1
  · rw [if_neg hc] at h
    exact absurd h Bool.false_ne_true

/-! ### One wake -/

/-- The motion state a wake decides on; a button wake decides on none. -/
def decided (inp : Inputs) (analog : Nat → Reg) : Option Bool :=
  let d := (detect inp).run (wakeUp inp analog)
  if d.1 then none else some d.2.rdPir.flag.motionFlag

/-- The state of the node when the wake is over. -/
def wake (inp : Inputs) (analog : Nat → Reg) : Dev := ((sensorMain inp).run (wakeUp inp analog)).2

/-- The report that a decision makes due. -/
def dueReports (last : Bool) : Option Bool → List Bool
  | none => []
  | some motion => if last ≠ motion then [motion] else []

/-- A button wake leaves the flag register as it is. -/
theorem mainDetected_reset (hp : inp.provisioned = true) (d : Dev) :
    Keeps (Unloaded o) (mainDetected inp true d) :=
  .bind (keeps_sleepBeforSend _ _ _) fun _ => .ite (.pure _) (keeps_mainAwake (m := false) hp
    (fun _ f _ h => by rw [h.2.1]; exact ⟨by decide, by decide, by decide⟩) d)

theorem mainDetected_spec (hp : inp.provisioned = true) {d : Dev} (hd : Loaded o d) :
    View (fun r _ s => oldOf r = d.rdPir.flag.motionFlag ∧
      motionReports s = dueReports o (some d.rdPir.flag.motionFlag))
      ((mainDetected inp false d).run d).2 := by
  obtain ⟨hr, hold, hs⟩ := hd
  have hsleep : Triple (· = d) (sleepBeforSend d.rdPir.flag.motionFlag d.rdPir.flag.motionFlagOld
      d.sendLuxFlag) fun asleep d' =>
        (asleep = true → d.rdPir.flag.motionFlagOld = d.rdPir.flag.motionFlag) ∧
        View (fun r f s => (oldOf r = f.motionFlagOld ∧ f = d.rdPir.flag) ∧ s = []) d' := by
    rintro d' rfl
    exact ⟨sleepBeforSend_asleep, keeps_sleepBeforSend _ _ _ d' ⟨⟨hr.trans hold.symm, rfl⟩, hs⟩⟩
  refine Triple.bind (R := fun _ => View fun r _ s => oldOf r = d.rdPir.flag.motionFlag ∧
    motionReports s = dueReports o (some d.rdPir.flag.motionFlag)) hsleep (fun asleep => ?_) d rfl
  cases asleep with
  | true =>
    -- nothing to report: the state is the one last reported
    rintro d' ⟨hsame, ⟨hr', hf'⟩, hs'⟩
    refine ⟨hr'.trans ((congrArg _ hf').trans (hsame rfl)), ?_⟩
    show motionReports d'.sent = _
    rw [hs', ← hsame rfl, hold, dueReports, if_neg fun h => h rfl]
    rfl
  | false =>
    rintro d' ⟨-, hv⟩
    have htold := mainAwake_spec hp d d' hv
    rw [hold] at htold
    exact htold.2

/-- **One wake** of a provisioned node: its reports, and the register it leaves. -/
theorem wake_spec (hp : inp.provisioned = true) (h : oldOf (analog pirFlagSaveReg) = o) :
    View (fun r _ s => oldOf r = (decided inp analog).getD o ∧
      motionReports s = dueReports o (decided inp analog)) (wake inp analog) := by
  have hdet := detect_spec inp (wakeUp inp analog) ⟨h, rfl, rfl⟩
  show View _ ((mainDetected inp ((detect inp).run (wakeUp inp analog)).1
    ((detect inp).run (wakeUp inp analog)).2).run ((detect inp).run (wakeUp inp analog)).2).2
  unfold decided
  generalize (detect inp).run (wakeUp inp analog) = p at hdet
  obtain ⟨resetFlag, d⟩ := p
  cases resetFlag with
  | true =>
    have hkept := mainDetected_reset hp d d hdet
    exact ⟨hkept.1, by rw [hkept.2.2]; rfl⟩
  | false => exact mainDetected_spec hp hdet

/-! ### Every wake ends in sleep -/

theorem keeps_refused_setFlag (g : PirFlag → PirFlag) (n : Nat) :
    Keeps (fun d => d.refused = n) (setFlag g) := fun _ h => h

theorem keeps_refused_saveRdPirFlag (n : Nat) : Keeps (fun d => d.refused = n) saveRdPirFlag :=
  fun _ h => h

theorem keeps_refused_settleMotion (n : Nat) :
    Keeps (fun d => d.refused = n) (settleMotion inp) := by
  refine .bind (.bind .get fun _ => .ite ?_ (.pure _)) fun _ => .bind .get fun _ =>
    .ite ?_ (.pure _)
  · exact .bind (keeps_refused_setFlag _ n) fun _ => .bind (keeps_refused_setFlag _ n) fun _ =>
      .bind (keeps_refused_saveRdPirFlag n) fun _ => fun _ h => h
  · exact .bind (keeps_refused_setFlag _ n) fun _ => keeps_refused_saveRdPirFlag n

theorem cpuSleepWakeup_refused (ms n : Nat) : Triple (fun d => d.refused = n) (cpuSleepWakeup ms)
    fun asleep d => asleep = true ∨ d.refused + 1 = n := by
  rintro ⟨analog, rdPir, line, lux, sendLux, now, sent, refused, timer⟩ rfl
  cases refused with
  | zero => exact .inl rfl
  | succ k => exact .inr rfl

/-- One sleep is refused, or the node sleeps. -/
theorem sleepAfterSend_refused (n : Nat) : Triple (fun d => d.refused = n) (sleepAfterSend inp)
    fun asleep d => asleep = true ∨ d.refused + 1 = n :=
  .bind (keeps_refused_settleMotion n) fun _ => cpuSleepWakeup_refused _ n

/-- The loop turns once more than sleeps are refused. -/
theorem sleepLoop_asleep (n : Nat) :
    Triple (fun d => d.refused < n) (sleepLoop inp n) fun asleep _ => asleep = true := by
  induction n with
  | zero => exact fun _ h => absurd h (Nat.not_lt_zero _)
  | succ n ih =>
    intro d h
    have hturn : Triple (fun d' => d'.refused = d.refused) (sleepLoop inp (n + 1))
        fun asleep _ => asleep = true := by
      refine Triple.bind (α := Bool) (sleepAfterSend_refused d.refused) fun asleep => ?_
      cases asleep with
      | true => exact fun _ _ => rfl
      | false =>
        intro d' hd'
        have hlt := hd'.resolve_left Bool.false_ne_true
        exact ih d' (by omega)
    exact hturn d rfl

/-- **Every wake ends in sleep.** -/
theorem sensorMain_asleep (inp : Inputs) (analog : Nat → Reg) :
    ((sensorMain inp).run (wakeUp inp analog)).1 = true := by
  have hawake (resetFlag : Bool) (d : Dev) : Triple (fun _ => True) (mainAwake inp resetFlag d)
      fun asleep _ => asleep = true := by
    refine .bind (α := Bool) (Q := fun _ _ => True) (fun _ _ => trivial) fun asleep => ?_
    cases asleep with
    | true => exact fun _ _ => rfl
    | false => exact fun d' _ => sleepLoop_asleep (d'.refused + 1) d' (Nat.lt_succ_self _)
  have hdetected (resetFlag : Bool) (d : Dev) : Triple (fun _ => True)
      (mainDetected inp resetFlag d) fun asleep _ => asleep = true := by
    refine .bind (α := Bool) (Q := fun _ _ => True) (fun _ _ => trivial) fun asleep => ?_
    cases asleep with
    | true => exact fun _ _ => rfl
    | false => exact hawake resetFlag d
  have hmain : Triple (fun _ => True) (sensorMain inp) fun asleep _ => asleep = true :=
    .bind (α := Bool) (Q := fun _ _ => True) (fun _ _ => trivial) fun resetFlag =>
      .bind (α := Dev) (Q := fun _ _ => True) (fun _ _ => trivial) fun d => hdetected resetFlag d
  exact hmain _ trivial

/-! ### Runs -/

structure SensorState where
  analog : Nat → Reg
  /-- Not in the code: the motion state last reported. -/
  last : Bool
  /-- Not in the code: the motion states reported so far. -/
  reports : List Bool

def sensorNext (s : SensorState) (inp : Inputs) : SensorState where
  analog := (wake inp s.analog).analog
  last := (motionReports (wake inp s.analog).sent).getLastD s.last
  reports := s.reports ++ motionReports (wake inp s.analog).sent

/-- Wakes of a joined node, one after another.  The first wake takes the old motion state it finds
retained for the one last reported. -/
def sensorSys : Sys SensorState Inputs :=
  .det (fun s => oldOf (s.analog pirFlagSaveReg) = s.last ∧ s.reports = []) sensorNext

structure ReportInv (s : SensorState) : Prop where
  retained : oldOf (s.analog pirFlagSaveReg) = s.last
  ends : ∀ m ∈ s.reports.getLast?, m = s.last
  alternate : s.reports.IsChain (· ≠ ·)

/-- Nothing is due and the state stays, or the new state is due. -/
theorem dueReports_cases (o : Bool) (m : Option Bool) :
    dueReports o m = [] ∧ m.getD o = o ∨ dueReports o m = [m.getD o] ∧ o ≠ m.getD o := by
  cases m with
  | none => exact .inl ⟨rfl, rfl⟩
  | some m =>
    by_cases h : o ≠ m
    · exact .inr ⟨if_pos h, h⟩
    · exact .inl ⟨if_neg h, (Decidable.not_not.mp h).symm⟩

theorem ReportInv.wake {s : SensorState} (h : ReportInv s) (hp : inp.provisioned = true) :
    ReportInv (sensorNext s inp) := by
  obtain ⟨hr, hs⟩ := wake_spec hp h.retained
  rw [sensorNext]
  simp only [hs]
  rcases dueReports_cases s.last (decided inp s.analog) with ⟨hdue, hm⟩ | ⟨hdue, hm⟩
  · rw [hdue, List.append_nil]
    exact ⟨hr.trans hm, h.ends, h.alternate⟩
  · rw [hdue]
    refine ⟨hr, fun m hlast => ?_, h.alternate.append (.singleton _) fun a ha b hb => ?_⟩
    · rw [List.getLast?_concat] at hlast
      exact (Option.mem_some_iff.mp hlast).symm
    · rw [h.ends a ha, ← Option.mem_some_iff.mp hb]
      exact hm

/-- **Reports across sleep cycles** of a provisioned node.  In every state a run of wakes reaches,
the next wake sends a motion report exactly when the state it decides on differs from the one last
reported, the retained old state is the one last reported, and the reports alternate. -/
theorem motion_reports {s : SensorState}
    (h : (sensorSys.restrict fun _ inp => inp.provisioned = true).Reach s) :
    (∀ inp : Inputs, inp.provisioned = true →
      ((sensorMain inp).run (wakeUp inp s.analog)).1 = true ∧
      motionReports (wake inp s.analog).sent = dueReports s.last (decided inp s.analog)) ∧
    oldOf (s.analog pirFlagSaveReg) = s.last ∧ s.reports.IsChain (· ≠ ·) := by
  have hinv : ReportInv s := by
    refine h.inv (P := ReportInv) (fun s h0 => ⟨h0.1, ?_, ?_⟩) ?_
    · rw [h0.2]
      exact fun m hm => absurd hm (by simp)
    · rw [h0.2]
      exact .nil
    · rintro s inp t hs ⟨hp, rfl⟩
      exact hs.wake hp
  exact ⟨fun inp hp => ⟨sensorMain_asleep inp _, (wake_spec hp hinv.retained).2⟩, hinv.retained,
    hinv.alternate⟩

/-- A wake with both pins high: the motion flag is set. -/
def motionInputs (provisioned : Bool) : Inputs where
  tick := fun _ => 0
  pin := fun _ _ => true
  lux := 0
  power := 50
  button := true
  provisioned := provisioned
  refused := 0

def firstSensor : SensorState := ⟨fun _ => 0, false, []⟩

theorem motion_reports_first : (sensorNext firstSensor (motionInputs true)).reports = [true] ∧
    oldOf ((sensorNext firstSensor (motionInputs true)).analog pirFlagSaveReg) = true :=
  have hreach : (sensorSys.restrict fun _ inp => inp.provisioned = true).Reach
      (sensorNext firstSensor (motionInputs true)) :=
    .step (.init ⟨rfl, rfl⟩) ⟨rfl, rfl⟩
  ⟨by decide +kernel, (motion_reports hreach).2.1.trans (by decide +kernel)⟩

/-! ### Without provisioning -/

/-- A factory reset keeps the joined flag; the node it leaves is joined and not provisioned. -/
theorem factoryReset_joined (f : Flash) (h : f joinFlagAdr = 0) :
    (factoryReset.run f).2 joinFlagAdr = 0 ∧ provisioned (factoryReset.run f).2 = false := by
  rw [factoryReset_run]
  have hout : ∀ b ∈ resetSectors, joinFlagAdr < b ∨ b + flashSectorSize ≤ joinFlagAdr := by decide
  refine ⟨(Flash.eraseList_outside f hout).trans h, ?_⟩
  have hblank : Holds provCfg (f.eraseList flashSectorSize resetSectors) [] :=
    holds_nil fun a ha ha' => Flash.eraseList_inside f (b := flashAdrProvisionCfgS) (by decide)
      ⟨ha, ha'⟩
  have hrun := meshParRetrieve_run hblank
    (List.replicate sizeofProvisionMag 0) flashAdrProvisionCfgS
  have hout : (meshParRetrieve (List.replicate sizeofProvisionMag 0) flashAdrProvisionCfgS
      flashAdrProvisionCfgS sizeofProvisionMag).run _ = _ := hrun
  rw [provisioned, isProvisionSuccess, Prog.run_bind_of hout, Prog.run_pure]
  rfl

/-- Such a node sees motion, sends nothing, and goes to sleep with the motion as the old state. -/
theorem report_skipped : sensorSys.Reach firstSensor ∧
    decided (motionInputs false) firstSensor.analog = some (!firstSensor.last) ∧
    motionReports (wake (motionInputs false) firstSensor.analog).sent = [] ∧
    oldOf ((sensorNext firstSensor (motionInputs false)).analog pirFlagSaveReg) ≠
      (sensorNext firstSensor (motionInputs false)).last :=
  ⟨.init ⟨rfl, rfl⟩, by decide +kernel⟩

end PirMesh

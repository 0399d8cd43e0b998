import PirMesh.Heartbeat.Subscribe

/-! # Heartbeat — The period of a subscription (`app_heartbeat.c`)

A subscription is set for `2 ^ (n - 1)` seconds, and the poll counts them down.  It waits the
whole period for each second that it counts: the period log stays where it was set, and a
longer period than one second goes on behind its end (`heartbeatPeriod_iff`). -/

namespace PirMesh

open Nor Run

/-! ### Runs -/

/-- The subscription with the clock, and what is not in the code: the ticks of 100 ms since
it was set. -/
structure HeartbeatPeriodRun where
  sub : MeshHeartbeatSub
  clock100ms : BitVec 32
  elapsed : ℕ
  deriving DecidableEq, Repr

inductive HeartbeatPeriodEvent
  | message (m : HeartbeatRx)
  /-- So many ticks after the event before it. -/
  | poll (ticks : ℕ)

/-- The seconds of a period log. -/
def heartbeatSeconds (perLog : Byte) : ℕ := (getCntLogToVal perLog).toNat

/-- The code has two ways between logs and seconds, which differ at 0x11. -/
def IsPeriodLog (perLog : Byte) (seconds : ℕ) : Prop :=
  perLog = calHeartbeatCountLog (BitVec.ofNat 16 seconds) ∨ heartbeatSeconds perLog = seconds

namespace HeartbeatPeriodRun

def next (t : HeartbeatPeriodRun) : HeartbeatPeriodEvent → HeartbeatPeriodRun
  | .message m => { t with sub := meshProcessHbSub m t.sub }
  | .poll ticks =>
    let clock100ms := t.clock100ms + BitVec.ofNat 32 ticks
    ⟨meshHeartbeatSubPoll clock100ms t.sub, clock100ms, t.elapsed + ticks⟩

/-- Within the period the heartbeats of the subscription are counted, and the log is that of the
seconds that are left, one that has begun included; behind it none is counted. -/
structure Right (n : Byte) (t : HeartbeatPeriodRun) : Prop where
  counts : t.elapsed < 10 * heartbeatSeconds n →
    ∀ m : HeartbeatRx, m.src = t.sub.adr → m.dst = t.sub.dst →
      meshProcessHbSub m t.sub = t.sub.counted m
  log : t.elapsed < 10 * heartbeatSeconds n →
    IsPeriodLog t.sub.perLog (heartbeatSeconds n - t.elapsed / 10)
  ended : 10 * heartbeatSeconds n < t.elapsed → ∀ m, meshProcessHbSub m t.sub = t.sub

/-- A poll in the first second, or right at the end.  With a period of one second any poll will do
that finds the subscription ended, or the clock not come around. -/
def InTurn (n : Byte) (t : HeartbeatPeriodRun) : HeartbeatPeriodEvent → Prop
  | .message _ => True
  | .poll ticks =>
    t.elapsed + ticks < 10 ∨ t.elapsed + ticks = 10 * heartbeatSeconds n ∨
      n = 1 ∧ (t.sub.perVal = 0 ∨ 10 < (t.elapsed + ticks) % 2 ^ 32)

end HeartbeatPeriodRun

/-! ### Logs -/

theorem calHeartbeatCountLog_toNat_le {val : BitVec 16} {k : ℕ} (hk : k ≤ 15)
    (h : val.toNat < 2 ^ k) : (calHeartbeatCountLog val).toNat ≤ k := by
  have hne : val ≠ 0xffff := by
    rintro rfl
    have hpow : 2 ^ k ≤ 2 ^ 15 := Nat.pow_le_pow_right Nat.two_pos hk
    exact absurd (h.trans_le hpow) (by decide)
  unfold calHeartbeatCountLog
  rw [if_neg hne]
  split_ifs
  · exact Nat.zero_le k
  · unfold getHighBits
    cases hf : (List.range 16).find? fun i => val.toNat < 2 ^ i with
    | none =>
      have hall := List.find?_eq_none.mp hf k (List.mem_range.mpr (by omega))
      exact absurd (decide_eq_true h) hall
    | some i =>
      have hle : i ≤ k := by
        by_contra hgt
        have hbefore := (List.find?_range_eq_some.mp hf).2.2 k (Nat.lt_of_not_le hgt)
        simp [h] at hbefore
      dsimp only
      rw [BitVec.sub_add_cancel, BitVec.toNat_ofNat, Nat.mod_eq_of_lt (by omega)]
      exact hle

theorem calHeartbeatCountLog_toNat_le_sixteen {val : BitVec 16} (hne : val ≠ 0xffff) :
    (calHeartbeatCountLog val).toNat ≤ 16 := by
  by_cases h : val.toNat < 2 ^ 15
  · exact (calHeartbeatCountLog_toNat_le (le_refl 15) h).trans (Nat.le_succ 15)
  · unfold calHeartbeatCountLog
    rw [if_neg hne]
    split_ifs
    · exact Nat.zero_le 16
    · unfold getHighBits
      rw [List.find?_eq_none.mpr]
      · decide
      · intro i hi
        have hpow : 2 ^ i ≤ 2 ^ 15 :=
          Nat.pow_le_pow_right Nat.two_pos (Nat.le_of_lt_succ (List.mem_range.mp hi))
        rw [decide_eq_true_eq]
        omega

section Logs

variable {n : Byte}

/-- The period logs of a subscription. -/
theorem heartbeatSeconds_cases (hn : 1 ≤ n) (hmax : n ≤ 0x11) :
    n = 1 ∧ heartbeatSeconds n = 1 ∨
      2 ≤ n.toNat ∧ 2 ≤ heartbeatSeconds n ∧ heartbeatSeconds n ≤ 2 ^ (n.toNat - 1) ∧
        (n.toNat ≤ 16 ∨ n.toNat = 17 ∧ heartbeatSeconds n = 0xfffe) := by
  have hall : ∀ n : Byte, 1 ≤ n → n ≤ 0x11 → n = 1 ∧ heartbeatSeconds n = 1 ∨
      2 ≤ n.toNat ∧ 2 ≤ heartbeatSeconds n ∧ heartbeatSeconds n ≤ 2 ^ (n.toNat - 1) ∧
        (n.toNat ≤ 16 ∨ n.toNat = 17 ∧ heartbeatSeconds n = 0xfffe) := by
    decide +kernel
  exact hall n hn hmax

theorem heartbeatSeconds_pos (hn : 1 ≤ n) (hmax : n ≤ 0x11) : 1 ≤ heartbeatSeconds n := by
  rcases heartbeatSeconds_cases hn hmax with ⟨-, hone⟩ | ⟨-, htwo, -⟩
  · exact hone.ge
  · exact (Nat.le_succ 1).trans htwo

theorem getCntLogToVal_ne_zero (hn : 1 ≤ n) (hmax : n ≤ 0x11) : getCntLogToVal n ≠ 0 := by
  intro h0
  have hzero : heartbeatSeconds n = 0 := congrArg BitVec.toNat h0
  exact Nat.not_lt_zero _ (hzero ▸ heartbeatSeconds_pos hn hmax)

/-- The log that was set is not that of fewer seconds. -/
theorem not_isPeriodLog_of_lt (hn : 1 ≤ n) (hmax : n ≤ 0x11) {seconds : ℕ}
    (hlt : seconds < heartbeatSeconds n) : ¬ IsPeriodLog n seconds := by
  have hval : (BitVec.ofNat 16 seconds).toNat = seconds :=
    Nat.mod_eq_of_lt (hlt.trans (getCntLogToVal n).isLt)
  rintro (hlog | hsec)
  · have hlog := congrArg BitVec.toNat hlog
    rcases heartbeatSeconds_cases hn hmax with ⟨rfl, hone⟩ | ⟨htwo, -, hpow, hle⟩
    · rw [hone, Nat.lt_one_iff] at hlt
      rw [hlt] at hlog
      exact absurd hlog (by decide)
    · rcases hle with hle | ⟨heq, hfffe⟩
      · have hless := calHeartbeatCountLog_toNat_le (k := n.toNat - 1) (by omega)
          (hval.trans_lt (hlt.trans_le hpow))
        omega
      · have hless : (calHeartbeatCountLog (BitVec.ofNat 16 seconds)).toNat ≤ 16 := by
          refine calHeartbeatCountLog_toNat_le_sixteen fun hmax => ?_
          have hmax := congrArg BitVec.toNat hmax
          rw [hval, show (0xffff : BitVec 16).toNat = 0xffff from rfl] at hmax
          omega
        omega
  · exact absurd hsec hlt.ne'

theorem isPeriodLog_self (n : Byte) : IsPeriodLog n (heartbeatSeconds n) := .inr rfl

/-- The ticks the poll waits for. -/
theorem heartbeatSubPer_some (hn : 1 ≤ n) (hmax : n ≤ 0x11) :
    ∃ per, heartbeatSubPer n = some per ∧ (per * 10).toNat = heartbeatPeriodTicks n := by
  have hne : n ≠ 0 := by
    rintro rfl
    exact absurd hn (by decide)
  obtain ⟨per, hper, hticks⟩ := heartbeatPbPer_some hmax
  refine ⟨per, ?_, hticks⟩
  rw [← hper, heartbeatSubPer, heartbeatPbPer, if_neg hne, if_neg hne]

end Logs

/-! ### One event -/

namespace MeshHeartbeatSub

variable {sub : MeshHeartbeatSub} {m : HeartbeatRx}

theorem counted_ne (sub : MeshHeartbeatSub) (m : HeartbeatRx) : sub.counted m ≠ sub := by
  intro h
  have hval : sub.cntVal + 1 = sub.cntVal := congrArg cntVal h
  exact absurd (add_eq_left.mp hval) (by decide)

theorem process_counted (hadr : sub.adr ≠ 0) (hdst : sub.dst ≠ 0) (hper : sub.perLog ≠ 0)
    (hsrc : m.src = sub.adr) : meshProcessHbSub m sub = sub.counted m := by
  unfold meshProcessHbSub
  rw [if_neg (not_or.mpr ⟨hdst, not_or.mpr ⟨hadr, hper⟩⟩), if_neg (not_not.mpr hsrc.symm)]

theorem process_ended (hper : sub.perLog = 0) : meshProcessHbSub m sub = sub := by
  unfold meshProcessHbSub
  rw [if_pos (.inr (.inr hper))]

/-- A heartbeat changes the statistics only. -/
theorem process_fields (sub : MeshHeartbeatSub) (m : HeartbeatRx) :
    (meshProcessHbSub m sub).adr = sub.adr ∧ (meshProcessHbSub m sub).dst = sub.dst ∧
      (meshProcessHbSub m sub).perLog = sub.perLog ∧
      (meshProcessHbSub m sub).perVal = sub.perVal ∧
      (meshProcessHbSub m sub).hbSub100ms = sub.hbSub100ms := by
  unfold meshProcessHbSub
  split_ifs
  · exact ⟨rfl, rfl, rfl, rfl, rfl⟩
  · exact ⟨rfl, rfl, rfl, rfl, rfl⟩
  · exact ⟨rfl, rfl, rfl, rfl, rfl⟩

end MeshHeartbeatSub

namespace HeartbeatPeriodRun

/-- No second was counted yet. -/
structure Begun (n : Byte) (t : HeartbeatPeriodRun) : Prop where
  perLog : t.sub.perLog = n
  perVal : t.sub.perVal = getCntLogToVal n
  ticks : t.clock100ms - t.sub.hbSub100ms = BitVec.ofNat 32 t.elapsed

/-- The only second was counted. -/
structure Over (n : Byte) (t : HeartbeatPeriodRun) : Prop where
  period : n = 1
  perLog : t.sub.perLog = 0
  perVal : t.sub.perVal = 0
  elapsed : 10 < t.elapsed

/-- What a run keeps as long as its events are in turn. -/
structure Kept (n : Byte) (t : HeartbeatPeriodRun) : Prop where
  adr : t.sub.adr ≠ 0
  dst : t.sub.dst ≠ 0
  count : t.Begun n ∨ t.Over n

section Step

variable {n : Byte} {t : HeartbeatPeriodRun}

/-- As long as the log is not 0, the heartbeats behind the end are counted. -/
theorem not_right_of_late (hadr : t.sub.adr ≠ 0) (hdst : t.sub.dst ≠ 0) (hper : t.sub.perLog ≠ 0)
    (hlate : 10 * heartbeatSeconds n < t.elapsed) : ¬ t.Right n := by
  intro h
  have hcounted := MeshHeartbeatSub.process_counted (m := ⟨t.sub.adr, t.sub.dst, 0, 0⟩)
    hadr hdst hper rfl
  exact MeshHeartbeatSub.counted_ne _ _ (hcounted.symm.trans (h.ended hlate _))

/-- Before a second is counted the log is right in the first one only. -/
theorem right_iff_of_begun (hn : 1 ≤ n) (hmax : n ≤ 0x11) (hadr : t.sub.adr ≠ 0)
    (hdst : t.sub.dst ≠ 0) (h : t.Begun n) :
    t.Right n ↔ t.elapsed < 10 ∨ t.elapsed = 10 * heartbeatSeconds n := by
  have hne : n ≠ 0 := by
    rintro rfl
    exact absurd hn (by decide)
  have hpos := heartbeatSeconds_pos hn hmax
  have hper : t.sub.perLog ≠ 0 := h.perLog ▸ hne
  constructor
  · intro hright
    rcases Nat.lt_trichotomy t.elapsed (10 * heartbeatSeconds n) with hlt | heq | hlate
    · by_contra hnot
      have hlog := hright.log hlt
      rw [h.perLog] at hlog
      exact not_isPeriodLog_of_lt hn hmax (by omega) hlog
    · exact .inr heq
    · exact absurd hright (not_right_of_late hadr hdst hper hlate)
  · intro hfirst
    refine ⟨fun _ m hsrc _ => MeshHeartbeatSub.process_counted hadr hdst hper hsrc, fun hlt => ?_,
      fun hlate => ?_⟩
    · have hzero : t.elapsed / 10 = 0 := by omega
      rw [h.perLog, hzero]
      exact isPeriodLog_self n
    · omega

theorem right_of_over (h : t.Over n) : t.Right n := by
  obtain ⟨rfl, hlog, -, helapsed⟩ := h
  have hone : heartbeatSeconds 1 = 1 := rfl
  refine ⟨fun hlt => ?_, fun hlt => ?_, fun _ m => MeshHeartbeatSub.process_ended hlog⟩
  · omega
  · omega

theorem Begun.ticks_next (h : t.Begun n) (ticks : ℕ) :
    t.clock100ms + BitVec.ofNat 32 ticks - t.sub.hbSub100ms =
      BitVec.ofNat 32 (t.elapsed + ticks) := by
  rw [BitVec.ofNat_add, ← h.ticks]
  exact add_sub_right_comm _ _ _

/-- The poll waits for the whole period. -/
theorem Begun.poll (hn : 1 ≤ n) (hmax : n ≤ 0x11) (h : t.Begun n) (ticks : ℕ) :
    meshHeartbeatSubPoll (t.clock100ms + BitVec.ofNat 32 ticks) t.sub =
      if heartbeatPeriodTicks n < (t.elapsed + ticks) % 2 ^ 32 then
        { t.sub with
          hbSub100ms := t.clock100ms + BitVec.ofNat 32 ticks
          perVal := getCntLogToVal n - 1
          perLog := calHeartbeatCountLog (getCntLogToVal n - 1) }
      else t.sub := by
  obtain ⟨per, hper, hticks⟩ := heartbeatSubPer_some hn hmax
  have hexceed : clockTimeExceed100ms (t.clock100ms + BitVec.ofNat 32 ticks) t.sub.hbSub100ms
      (per * 10) = decide (heartbeatPeriodTicks n < (t.elapsed + ticks) % 2 ^ 32) := by
    unfold clockTimeExceed100ms
    rw [h.ticks_next]
    exact decide_eq_decide.mpr (by rw [BitVec.lt_def, hticks, BitVec.toNat_ofNat])
  unfold meshHeartbeatSubPoll
  rw [h.perVal, h.perLog, if_neg (getCntLogToVal_ne_zero hn hmax), hper]
  dsimp only
  rw [hexceed]
  simp only [decide_eq_true_eq]

theorem Begun.perVal_ne_zero (hn : 1 ≤ n) (hmax : n ≤ 0x11) (h : t.Begun n) :
    t.sub.perVal ≠ 0 := by
  rw [h.perVal]
  exact getCntLogToVal_ne_zero hn hmax

/-- A poll that counts no second. -/
theorem Begun.next_quiet (hn : 1 ≤ n) (hmax : n ≤ 0x11) (h : t.Begun n) {ticks : ℕ}
    (hquiet : ¬ heartbeatPeriodTicks n < (t.elapsed + ticks) % 2 ^ 32) :
    (t.next (.poll ticks)).sub = t.sub ∧ Begun n (t.next (.poll ticks)) := by
  have hsub : (t.next (.poll ticks)).sub = t.sub := (h.poll hn hmax ticks).trans (if_neg hquiet)
  refine ⟨hsub, ?_, ?_, ?_⟩
  · rw [hsub, h.perLog]
  · rw [hsub, h.perVal]
  · rw [hsub]
    exact h.ticks_next ticks

/-- A poll before a second was counted. -/
theorem Begun.right_next_iff (hn : 1 ≤ n) (hmax : n ≤ 0x11) (hadr : t.sub.adr ≠ 0)
    (hdst : t.sub.dst ≠ 0) (h : t.Begun n) (ticks : ℕ) :
    (Right n (t.next (.poll ticks)) ↔ t.InTurn n (.poll ticks)) ∧
      (t.InTurn n (.poll ticks) → Kept n (t.next (.poll ticks))) := by
  have hmod := Nat.mod_le (t.elapsed + ticks) (2 ^ 32)
  by_cases hfires : heartbeatPeriodTicks n < (t.elapsed + ticks) % 2 ^ 32
  · have hpoll := (h.poll hn hmax ticks).trans (if_pos hfires)
    have hadr' : (t.next (.poll ticks)).sub.adr ≠ 0 :=
      fun h0 => hadr ((congrArg MeshHeartbeatSub.adr hpoll).symm.trans h0)
    have hdst' : (t.next (.poll ticks)).sub.dst ≠ 0 :=
      fun h0 => hdst ((congrArg MeshHeartbeatSub.dst hpoll).symm.trans h0)
    rcases heartbeatSeconds_cases hn hmax with ⟨rfl, -⟩ | ⟨htwo, hsec, hpow, -⟩
    · -- the only second is over
      have hten : 10 < (t.elapsed + ticks) % 2 ^ 32 := hfires
      have hover : Over 1 (t.next (.poll ticks)) := by
        refine ⟨rfl, ?_, ?_, hten.trans_le hmod⟩
        · exact congrArg MeshHeartbeatSub.perLog hpoll
        · exact congrArg MeshHeartbeatSub.perVal hpoll
      exact ⟨iff_of_true (right_of_over hover) (.inr (.inr ⟨rfl, .inr hten⟩)),
        fun _ => ⟨hadr', hdst', .inr hover⟩⟩
    · -- one second of more is counted behind the end
      have hlate : 10 * heartbeatSeconds n < t.elapsed + ticks := by
        unfold heartbeatPeriodTicks at hfires
        omega
      have hleft : getCntLogToVal n - 1 ≠ 0 := by
        intro h0
        have hone : heartbeatSeconds n = 1 := congrArg BitVec.toNat (sub_eq_zero.mp h0)
        omega
      have hper : (t.next (.poll ticks)).sub.perLog ≠ 0 := by
        intro h0
        refine hleft (calHeartbeatCountLog_eq_zero ?_)
        exact (congrArg MeshHeartbeatSub.perLog hpoll).symm.trans h0
      have hturn : ¬ t.InTurn n (.poll ticks) := by
        rintro (hfirst | hend | ⟨hone, -⟩)
        · omega
        · omega
        · rw [hone] at htwo
          exact absurd htwo (by decide)
      exact ⟨iff_of_false (not_right_of_late hadr' hdst' hper hlate) hturn,
        fun hc => absurd hc hturn⟩
  · obtain ⟨hsub, hbegun⟩ := h.next_quiet hn hmax hfires
    have hadr' : (t.next (.poll ticks)).sub.adr ≠ 0 := hsub ▸ hadr
    have hdst' : (t.next (.poll ticks)).sub.dst ≠ 0 := hsub ▸ hdst
    refine ⟨(right_iff_of_begun hn hmax hadr' hdst' hbegun).trans ⟨fun hc => hc.imp_right .inl, ?_⟩,
      fun _ => ⟨hadr', hdst', .inl hbegun⟩⟩
    rintro (hfirst | hend | ⟨rfl, hzero | hten⟩)
    · exact .inl hfirst
    · exact .inr hend
    · exact absurd hzero (h.perVal_ne_zero hn hmax)
    · exact absurd hten hfires

/-- A poll behind the only second. -/
theorem Over.next_poll (h : t.Over n) (ticks : ℕ) :
    (t.next (.poll ticks)).sub = t.sub ∧ Over n (t.next (.poll ticks)) := by
  have hsub : (t.next (.poll ticks)).sub = t.sub := if_pos h.perVal
  refine ⟨hsub, h.period, ?_, ?_, h.elapsed.trans_le (Nat.le_add_right _ _)⟩
  · rw [hsub, h.perLog]
  · rw [hsub, h.perVal]

/-- A heartbeat leaves the period alone. -/
theorem Kept.next_message (hn : 1 ≤ n) (hmax : n ≤ 0x11) (h : t.Kept n) (hright : t.Right n)
    (m : HeartbeatRx) : Right n (t.next (.message m)) ∧ Kept n (t.next (.message m)) := by
  obtain ⟨hadr, hdst, hperLog, hperVal, href⟩ := MeshHeartbeatSub.process_fields t.sub m
  have hadr0 : (t.next (.message m)).sub.adr ≠ 0 := fun h0 => h.adr (hadr.symm.trans h0)
  have hdst0 : (t.next (.message m)).sub.dst ≠ 0 := fun h0 => h.dst (hdst.symm.trans h0)
  rcases h.count with hbegun | hover
  · have hbegun' : Begun n (t.next (.message m)) := by
      refine ⟨hperLog.trans hbegun.perLog, hperVal.trans hbegun.perVal, ?_⟩
      exact (congrArg (t.clock100ms - ·) href).trans hbegun.ticks
    have htime := (right_iff_of_begun hn hmax h.adr h.dst hbegun).mp hright
    exact ⟨(right_iff_of_begun hn hmax hadr0 hdst0 hbegun').mpr htime, hadr0, hdst0, .inl hbegun'⟩
  · have hover' : Over n (t.next (.message m)) :=
      ⟨hover.period, hperLog.trans hover.perLog, hperVal.trans hover.perVal, hover.elapsed⟩
    exact ⟨right_of_over hover', hadr0, hdst0, .inr hover'⟩

/-- **One event** keeps the period right exactly when it is in turn. -/
theorem Kept.right_next_iff (hn : 1 ≤ n) (hmax : n ≤ 0x11) (h : t.Kept n) (hright : t.Right n)
    (e : HeartbeatPeriodEvent) :
    ((t.next e).Right n ↔ t.InTurn n e) ∧ (t.InTurn n e → (t.next e).Kept n) := by
  cases e with
  | message m =>
    obtain ⟨hnext, hkept⟩ := h.next_message hn hmax hright m
    exact ⟨iff_of_true hnext trivial, fun _ => hkept⟩
  | poll ticks =>
    rcases h.count with hbegun | hover
    · exact hbegun.right_next_iff hn hmax h.adr h.dst ticks
    · obtain ⟨hsub, hover'⟩ := hover.next_poll ticks
      exact ⟨iff_of_true (right_of_over hover') (.inr (.inr ⟨hover.period, .inl hover.perVal⟩)),
        fun _ => ⟨hsub ▸ h.adr, hsub ▸ h.dst, .inr hover'⟩⟩

end Step

/-! ### From the set on -/

/-- The subscription that was just set. -/
def start (isGroupAdr : BitVec 16 → Bool) (eleAdrPrimary : BitVec 16) (p : HeartbeatSubSet)
    (clock100ms : BitVec 32) (sub : MeshHeartbeatSub) : HeartbeatPeriodRun :=
  ⟨meshCmdSigHeartbeatSubSet isGroupAdr eleAdrPrimary p clock100ms sub, clock100ms, 0⟩

theorem start_kept {isGroupAdr : BitVec 16 → Bool} {eleAdrPrimary : BitVec 16}
    {p : HeartbeatSubSet} (h : p.Subscribes isGroupAdr eleAdrPrimary)
    (hele : isUnicastAdr eleAdrPrimary.toNat = true) (clock100ms : BitVec 32)
    (sub : MeshHeartbeatSub) :
    Begun p.periodLog (start isGroupAdr eleAdrPrimary p clock100ms sub) ∧
      Kept p.periodLog (start isGroupAdr eleAdrPrimary p clock100ms sub) := by
  have hbegun : Begun p.periodLog (start isGroupAdr eleAdrPrimary p clock100ms sub) := by
    unfold start
    rw [HeartbeatSubRun.set_eq h hele]
    exact ⟨rfl, rfl, BitVec.sub_self _⟩
  have hsubscribed := HeartbeatSubRun.start_subscribed h hele clock100ms sub
  exact ⟨hbegun, hsubscribed.adr, hsubscribed.dst, .inl hbegun⟩

end HeartbeatPeriodRun

/-- **The period of a subscription** is right at every moment of a run exactly when every poll is
in turn. -/
theorem heartbeatPeriod_iff (isGroupAdr : BitVec 16 → Bool) (eleAdrPrimary : BitVec 16)
    (p : HeartbeatSubSet) (clock100ms : BitVec 32) (sub : MeshHeartbeatSub)
    (es : List HeartbeatPeriodEvent) (hele : isUnicastAdr eleAdrPrimary.toNat = true)
    (h : p.Subscribes isGroupAdr eleAdrPrimary) (hmax : p.periodLog ≤ 0x11) :
    (∀ q, q <+: es → (q.foldl HeartbeatPeriodRun.next
        (.start isGroupAdr eleAdrPrimary p clock100ms sub)).Right p.periodLog) ↔
      GoodRun HeartbeatPeriodRun.next (HeartbeatPeriodRun.InTurn p.periodLog)
        (.start isGroupAdr eleAdrPrimary p clock100ms sub) es := by
  have hn : 1 ≤ p.periodLog := by
    rw [BitVec.le_def]
    exact Nat.one_le_iff_ne_zero.mpr fun h0 => h.period (BitVec.eq_of_toNat_eq h0)
  obtain ⟨hbegun, hkept⟩ := HeartbeatPeriodRun.start_kept h hele clock100ms sub
  have hright := (HeartbeatPeriodRun.right_iff_of_begun hn hmax hkept.adr hkept.dst hbegun).mpr
    (.inl (show 0 < 10 by decide))
  refine forall_prefix_iff_goodRun_of_kept hkept hright ?_ ?_
  · intro t e _ ht htr
    exact (ht.right_next_iff hn hmax htr e).2
  · intro t e _ ht htr
    exact (ht.right_next_iff hn hmax htr e).1

/-- One second, and polls every half a second. -/
theorem heartbeatPeriod_iff_second :
    ([HeartbeatPeriodEvent.poll 5, .poll 5, .poll 5].foldl HeartbeatPeriodRun.next
      (.start (fun _ => false) 2 ⟨1, 2, 1⟩ 0 ⟨0, 0, 0, 0, 0, 0, 0, 0, 0⟩)).Right 1 :=
  (heartbeatPeriod_iff (fun _ => false) 2 ⟨1, 2, 1⟩ 0 ⟨0, 0, 0, 0, 0, 0, 0, 0, 0⟩
    [.poll 5, .poll 5, .poll 5] (by decide) ⟨by decide, by decide, by decide, by decide⟩
    (by decide)).mpr
    ⟨.inl (by decide), .inr (.inl (by decide)), .inr (.inr ⟨rfl, .inr (by decide)⟩), trivial⟩ _
    (List.prefix_refl _)

/-- Two seconds, and a poll after each of them and one more. -/
theorem heartbeatPeriod_refuted : ¬ ∀ (isGroupAdr : BitVec 16 → Bool) (eleAdrPrimary : BitVec 16)
    (p : HeartbeatSubSet) (clock100ms : BitVec 32) (sub : MeshHeartbeatSub)
    (es : List HeartbeatPeriodEvent), isUnicastAdr eleAdrPrimary.toNat = true →
    p.Subscribes isGroupAdr eleAdrPrimary → p.periodLog ≤ 0x11 →
    (es.foldl HeartbeatPeriodRun.next
      (.start isGroupAdr eleAdrPrimary p clock100ms sub)).Right p.periodLog := by
  intro h
  have hright := h (fun _ => false) 2 ⟨1, 2, 2⟩ 0 ⟨0, 0, 0, 0, 0, 0, 0, 0, 0⟩
    [.poll 10, .poll 11, .poll 9] (by decide) ⟨by decide, by decide, by decide, by decide⟩
    (by decide)
  exact absurd (hright.ended (by decide) ⟨1, 2, 5, 5⟩) (by decide)

end PirMesh

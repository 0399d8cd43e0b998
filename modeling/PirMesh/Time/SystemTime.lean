import Mathlib.Data.BitVec
import Mathlib.Data.List.Infix
import PirMesh.Library.Paced
import PirMesh.Library.Run

/-! # Time — The ticks of `system_time_run` (`system_time.c`)

The main loop derives milliseconds from the hardware counter, 100 ms from the
milliseconds and seconds from those, and calls a handler for each.  The hardware
counter is compared by differences and may wrap, but the remainders are taken of
counters of 32 bits, and `2 ^ 32` is no multiple of 100, nor of 10: when the
milliseconds wrap, after 49 days, the 100 ms lose their phase.

A run delivers the right number of ticks at every call iff at every call the remainder
of the wrapped counter gives as many ticks as that of the time (`SameTicks`,
`systemTime_exact`); before the wrap it always does (`sameTicks_of_lt`). -/

namespace PirMesh

open Run

/-- `system_time_tick`, `system_time_ms`, `system_time_100ms` and `system_time_s` -/
structure SystemTime where
  tick : BitVec 32
  ms : BitVec 32
  ms100 : BitVec 32
  s : BitVec 32
  deriving DecidableEq, Repr

/-- How often the handlers of each unit are called. -/
structure Ticks where
  ms : ℕ
  ms100 : ℕ
  s : ℕ
  deriving DecidableEq, Repr

/-- `CHECK_INTERVAL`: one millisecond of the 16 MHz counter. -/
def checkInterval : BitVec 32 := 16000

/-- `clockTmp` is the hardware counter.  Returns the counters, and how often the call has called
each handler. -/
def systemTimeRun (clockTmp : BitVec 32) (t : SystemTime) : SystemTime × Ticks :=
  let tDelta := clockTmp - t.tick
  if tDelta ≥ checkInterval then
    let intervalCnt := tDelta / checkInterval
    if intervalCnt ≠ 0 then
      let inc100ms := (t.ms % 100 + intervalCnt) / 100
      let t := { t with
        ms := t.ms + intervalCnt
        tick := t.tick + intervalCnt * checkInterval }
      if inc100ms ≠ 0 then
        let incS := (t.ms100 % 10 + inc100ms) / 10
        let t := { t with ms100 := t.ms100 + inc100ms }
        if incS ≠ 0 then
          ({ t with s := t.s + incS }, ⟨intervalCnt.toNat, inc100ms.toNat, incS.toNat⟩)
        else (t, ⟨intervalCnt.toNat, inc100ms.toNat, 0⟩)
      else (t, ⟨intervalCnt.toNat, 0, 0⟩)
    else ({ t with tick := t.tick + intervalCnt * checkInterval }, ⟨0, 0, 0⟩)
  else (t, ⟨0, 0, 0⟩)

/-- What a call adds to each counter. -/
def increments (clockTmp : BitVec 32) (t : SystemTime) : BitVec 32 × BitVec 32 × BitVec 32 :=
  let intervalCnt := (clockTmp - t.tick) / checkInterval
  let inc100ms := (t.ms % 100 + intervalCnt) / 100
  (intervalCnt, inc100ms, (t.ms100 % 10 + inc100ms) / 10)

/-- A remainder alone gives no tick. -/
theorem rem_div_eq_zero (x k : BitVec 32) : (x % k + 0) / k = 0 := by
  apply BitVec.eq_of_toNat_eq
  rw [BitVec.toNat_udiv, add_zero, BitVec.toNat_umod]
  exact Nat.mod_div_self _ _

/-- The branches only leave out what would add zero. -/
theorem systemTimeRun_eq (clockTmp : BitVec 32) (t : SystemTime) : systemTimeRun clockTmp t =
    let inc := increments clockTmp t
    (⟨t.tick + inc.1 * checkInterval, t.ms + inc.1, t.ms100 + inc.2.1, t.s + inc.2.2⟩,
      ⟨inc.1.toNat, inc.2.1.toNat, inc.2.2.toNat⟩) := by
  simp only [systemTimeRun, increments]
  by_cases h : clockTmp - t.tick ≥ checkInterval
  · rw [if_pos h]
    have hcnt : (clockTmp - t.tick) / checkInterval ≠ 0 := by
      intro h0
      have hdiv := congrArg BitVec.toNat h0
      rw [BitVec.toNat_udiv] at hdiv
      exact absurd hdiv (Nat.div_pos h (by decide)).ne'
    rw [if_pos hcnt]
    generalize (clockTmp - t.tick) / checkInterval = cnt
    by_cases h100 : (t.ms % 100 + cnt) / 100 ≠ 0
    · rw [if_pos h100]
      generalize (t.ms % 100 + cnt) / 100 = cnt100
      by_cases hs : (t.ms100 % 10 + cnt100) / 10 ≠ 0
      · rw [if_pos hs]
      · rw [if_neg hs, not_not.mp hs, add_zero]
        rfl
    · rw [if_neg h100, not_not.mp h100, rem_div_eq_zero, add_zero, add_zero]
      rfl
  · -- less than a millisecond
    have hcnt : (clockTmp - t.tick) / checkInterval = 0 := by
      apply BitVec.eq_of_toNat_eq
      rw [BitVec.toNat_udiv]
      exact Nat.div_eq_of_lt (Nat.lt_of_not_le h)
    rw [if_neg h, hcnt, rem_div_eq_zero, rem_div_eq_zero, zero_mul]
    simp only [add_zero]
    rfl

/-! ### Runs -/

structure TimeState where
  sys : SystemTime
  /-- Not in the code: the ticks of the hardware counter since the start. -/
  elapsed : ℕ
  /-- Not in the code: the handlers called since the start. -/
  done : Ticks

/-- A call when the counter has moved on by `d`. -/
def timeNext (start : ℕ) (t : TimeState) (d : ℕ) : TimeState :=
  let r := systemTimeRun (.ofNat 32 (start + (t.elapsed + d))) t.sys
  ⟨r.1, t.elapsed + d,
    ⟨t.done.ms + r.2.ms, t.done.ms100 + r.2.ms100, t.done.s + r.2.s⟩⟩

def timeFirst (start : ℕ) : TimeState := ⟨⟨.ofNat 32 start, 0, 0, 0⟩, 0, ⟨0, 0, 0⟩⟩

/-- As many ticks as units of time have passed. -/
def TicksRight (t : TimeState) : Prop :=
  t.done.ms = t.elapsed / 16000 ∧ t.done.ms100 = t.elapsed / 16000 / 100 ∧
    t.done.s = t.elapsed / 16000 / 100 / 10

/-- With `n` milliseconds behind and `c` more in a call, the remainders of the wrapped counters give
as many ticks as those of the time. -/
def SameTicks (n c : ℕ) : Prop :=
  (n % 2 ^ 32 % 100 + c) / 100 = (n % 100 + c) / 100 ∧
    (n / 100 % 2 ^ 32 % 10 + (n % 100 + c) / 100) / 10 =
      (n / 100 % 10 + (n % 100 + c) / 100) / 10

theorem sameTicks_of_lt {n : ℕ} (h : n < 2 ^ 32) (c : ℕ) : SameTicks n c := by
  refine ⟨?_, ?_⟩
  · rw [Nat.mod_eq_of_lt h]
  · rw [Nat.mod_eq_of_lt ((Nat.div_le_self n 100).trans_lt h)]

/-- The milliseconds that a call adds. -/
def callMs (t : TimeState) (d : ℕ) : ℕ := (t.elapsed + d) / 16000 - t.elapsed / 16000

/-- The condition on a call. -/
def CallRight (t : TimeState) (d : ℕ) : Prop := SameTicks (t.elapsed / 16000) (callMs t d)

/-- The counters are the handlers called, and the milliseconds are right, wrapped or not. -/
structure CountsOk (start : ℕ) (t : TimeState) : Prop where
  tick : t.sys.tick = .ofNat 32 (start + 16000 * t.done.ms)
  ms : t.sys.ms = .ofNat 32 t.done.ms
  ms100 : t.sys.ms100 = .ofNat 32 t.done.ms100
  doneMs : t.done.ms = t.elapsed / 16000

variable {start d : ℕ} {t : TimeState}

theorem CountsOk.first (start : ℕ) : CountsOk start (timeFirst start) :=
  ⟨rfl, rfl, rfl, (Nat.zero_div _).symm⟩

/-- What a call adds, in numbers. -/
theorem CountsOk.increments_eq (h : CountsOk start t) (hd : d < 2 ^ 31) :
    let inc := increments (.ofNat 32 (start + (t.elapsed + d))) t.sys
    inc.1 = .ofNat 32 (callMs t d) ∧ inc.1.toNat = callMs t d ∧
      inc.2.1.toNat = (t.done.ms % 2 ^ 32 % 100 + callMs t d) / 100 ∧
      inc.2.2.toNat =
        (t.done.ms100 % 2 ^ 32 % 10 + (t.done.ms % 2 ^ 32 % 100 + callMs t d) / 100) / 10 := by
  have hms := h.doneMs
  have hlt : callMs t d < 2 ^ 18 := by
    rw [callMs]
    omega
  have hdelta : (BitVec.ofNat 32 (start + (t.elapsed + d)) - t.sys.tick).toNat =
      t.elapsed + d - 16000 * t.done.ms := by
    rw [h.tick, Pacing.toNat_sub_of_lt (by omega) (by omega)]
    omega
  have hcnt : (increments (.ofNat 32 (start + (t.elapsed + d))) t.sys).1.toNat = callMs t d := by
    show BitVec.toNat (_ / checkInterval) = _
    rw [BitVec.toNat_udiv, hdelta, callMs, show checkInterval.toNat = 16000 from rfl]
    omega
  have hcnt100 : (increments (.ofNat 32 (start + (t.elapsed + d))) t.sys).2.1.toNat =
      (t.done.ms % 2 ^ 32 % 100 + callMs t d) / 100 := by
    show BitVec.toNat ((t.sys.ms % 100 + (increments _ t.sys).1) / 100) = _
    rw [BitVec.toNat_udiv, BitVec.toNat_add, BitVec.toNat_umod, hcnt, h.ms, BitVec.toNat_ofNat,
      show (100 : BitVec 32).toNat = 100 from rfl]
    omega
  refine ⟨?_, hcnt, hcnt100, ?_⟩
  · apply BitVec.eq_of_toNat_eq
    rw [hcnt, BitVec.toNat_ofNat, Nat.mod_eq_of_lt (hlt.trans (by decide))]
  · show BitVec.toNat ((t.sys.ms100 % 10 + (increments _ t.sys).2.1) / 10) = _
    rw [BitVec.toNat_udiv, BitVec.toNat_add, BitVec.toNat_umod, hcnt100, h.ms100,
      BitVec.toNat_ofNat, show (10 : BitVec 32).toNat = 10 from rfl]
    omega

/-- A call, by what it adds. -/
theorem timeNext_eq (start : ℕ) (t : TimeState) (d : ℕ) : timeNext start t d =
    let inc := increments (.ofNat 32 (start + (t.elapsed + d))) t.sys
    ⟨⟨t.sys.tick + inc.1 * checkInterval, t.sys.ms + inc.1, t.sys.ms100 + inc.2.1,
        t.sys.s + inc.2.2⟩, t.elapsed + d,
      ⟨t.done.ms + inc.1.toNat, t.done.ms100 + inc.2.1.toNat, t.done.s + inc.2.2.toNat⟩⟩ := by
  rw [timeNext, systemTimeRun_eq]

theorem ofNat_add_toNat (n : ℕ) (x : BitVec 32) :
    BitVec.ofNat 32 (n + x.toNat) = .ofNat 32 n + x := by
  rw [BitVec.ofNat_add, BitVec.ofNat_toNat, BitVec.setWidth_eq]

/-- **One call.** -/
theorem CountsOk.next (h : CountsOk start t) (hd : d < 2 ^ 31) :
    CountsOk start (timeNext start t d) := by
  obtain ⟨hinc, hcnt, -, -⟩ := h.increments_eq hd
  have hms := h.doneMs
  rw [timeNext_eq]
  refine ⟨?_, ?_, ?_, ?_⟩
  · show t.sys.tick + _ * checkInterval = .ofNat 32 (start + 16000 * (t.done.ms + _))
    rw [hcnt, hinc, h.tick, show checkInterval = BitVec.ofNat 32 16000 from rfl, ← BitVec.ofNat_mul,
      ← BitVec.ofNat_add]
    congr 1
    omega
  · show t.sys.ms + _ = .ofNat 32 (t.done.ms + _)
    rw [ofNat_add_toNat, h.ms]
  · show t.sys.ms100 + _ = .ofNat 32 (t.done.ms100 + _)
    rw [ofNat_add_toNat, h.ms100]
  · show t.done.ms + _ = (t.elapsed + d) / 16000
    rw [hcnt, callMs]
    omega

/-- After a call the ticks are right iff the call meets the condition. -/
theorem CountsOk.right_iff (h : CountsOk start t) (hd : d < 2 ^ 31) (hr : TicksRight t) :
    TicksRight (timeNext start t d) ↔ CallRight t d := by
  obtain ⟨-, hcnt, hcnt100, hcntS⟩ := h.increments_eq hd
  obtain ⟨hms, hms100, hs⟩ := hr
  rw [timeNext_eq, TicksRight, CallRight, SameTicks]
  simp only [hcnt, hcnt100, hcntS, hms, hms100, hs]
  have hsum : t.elapsed / 16000 + callMs t d = (t.elapsed + d) / 16000 := by
    rw [callMs]
    omega
  rw [← hsum]
  generalize t.elapsed / 16000 = n, callMs t d = c
  have hcarry : (n + c) / 100 = n / 100 + (n % 100 + c) / 100 := by
    omega
  rw [hcarry]
  refine (and_iff_right rfl).trans ?_
  rw [Nat.add_left_cancel_iff]
  refine and_congr_right fun hrem => ?_
  rw [hrem]
  omega

theorem ticksRight_first (start : ℕ) : TicksRight (timeFirst start) := by
  simp [TicksRight, timeFirst]

theorem CountsOk.foldl (h : CountsOk start t) {ds : List ℕ} (hd : ∀ d ∈ ds, d < 2 ^ 31) :
    CountsOk start (ds.foldl (timeNext start) t) := by
  induction ds generalizing t with
  | nil => exact h
  | cons d ds ih =>
    exact ih (h.next (hd d List.mem_cons_self)) fun x hx => hd x (List.mem_cons_of_mem d hx)

/-- **The ticks.**  A run of calls, each less than half the range of the hardware counter behind the
last, has delivered the ticks of the elapsed time after every call iff every call meets the
condition. -/
theorem systemTime_exact (start : ℕ) (ds : List ℕ) (hd : ∀ d ∈ ds, d < 2 ^ 31) :
    (∀ p, p <+: ds → TicksRight (p.foldl (timeNext start) (timeFirst start))) ↔
      GoodRun (timeNext start) CallRight (timeFirst start) ds := by
  have hrun : (∀ p, p <+: ds → CountsOk start (p.foldl (timeNext start) (timeFirst start)) ∧
      TicksRight (p.foldl (timeNext start) (timeFirst start))) ↔
      GoodRun (timeNext start) CallRight (timeFirst start) ds := forall_prefix_iff_goodRun
    (P := fun t => CountsOk start t ∧ TicksRight t) ⟨.first start, ticksRight_first start⟩
    fun t d hmem ht =>
      (and_iff_right (ht.1.next (hd d hmem))).trans (ht.1.right_iff (hd d hmem) ht.2)
  rw [← hrun]
  refine forall_congr' fun p => ⟨fun h hp => ⟨?_, h hp⟩, fun h hp => (h hp).2⟩
  have hspaced : ∀ d ∈ p, d < 2 ^ 31 := fun d hmem => hd d (hp.subset hmem)
  exact CountsOk.foldl (.first start) hspaced

/-- Two calls, 150 and 2000 milliseconds apart. -/
theorem systemTime_exact_sample :
    TicksRight ([2400000, 32000000].foldl (timeNext 7) (timeFirst 7)) :=
  (systemTime_exact 7 [2400000, 32000000] (by decide)).mpr
    ⟨sameTicks_of_lt (by decide) _, sameTicks_of_lt (by decide) _, trivial⟩ _ (List.prefix_refl _)

/-- The time of calls at one distance, and of one more. -/
theorem elapsed_replicate_append (start n d e : ℕ) (t : TimeState) :
    ((List.replicate n d ++ [e]).foldl (timeNext start) t).elapsed = t.elapsed + n * d + e := by
  induction n generalizing t with
  | zero =>
    rw [Nat.zero_mul, Nat.add_zero]
    rfl
  | succ n ih =>
    have hfirst : (timeNext start t d).elapsed = t.elapsed + d := rfl
    rw [List.replicate_succ, List.cons_append, List.foldl_cons, ih, hfirst, Nat.succ_mul,
      Nat.add_assoc t.elapsed, Nat.add_comm d]

/-- When the milliseconds have wrapped 4 beyond, a tick of 100 milliseconds comes 96 later, which
is too early. -/
theorem ticks_after_wrap {calls : List ℕ} (hcalls : ∀ d ∈ calls, d < 2 ^ 31)
    (helapsed : (calls.foldl (timeNext 0) (timeFirst 0)).elapsed = 4294967300 * 16000)
    (hright : TicksRight (calls.foldl (timeNext 0) (timeFirst 0))) :
    ¬ TicksRight ((calls ++ [1536000]).foldl (timeNext 0) (timeFirst 0)) := by
  intro hnext
  rw [List.foldl_append] at hnext
  have hcall := ((CountsOk.first 0).foldl hcalls).right_iff (d := 1536000) (by decide) hright
  have hsame := (hcall.mp hnext).1
  rw [callMs, helapsed] at hsame
  exact absurd hsame (by decide)

/-- Calls every 100 seconds until the milliseconds are about to wrap, one that takes them 4
milliseconds beyond, and one 96 milliseconds later. -/
theorem systemTime_refuted : ¬ ∀ (start : ℕ) (ds : List ℕ), (∀ d ∈ ds, d < 2 ^ 31) →
    TicksRight (ds.foldl (timeNext start) (timeFirst start)) := by
  intro h
  obtain ⟨calls, hcalls, helapsed⟩ : ∃ calls : List ℕ, (∀ d ∈ calls, d < 2 ^ 31) ∧
      (calls.foldl (timeNext 0) (timeFirst 0)).elapsed = 4294967300 * 16000 := by
    refine ⟨List.replicate 42949 1600000000 ++ [1076800000], fun d hd => ?_, ?_⟩
    · rcases List.mem_append.mp hd with hd | hd
      · rw [List.eq_of_mem_replicate hd]
        decide
      · rw [List.mem_singleton.mp hd]
        decide
    · rw [elapsed_replicate_append]
      rfl
  refine ticks_after_wrap hcalls helapsed (h 0 calls hcalls) (h 0 (calls ++ [1536000]) ?_)
  intro d hd
  rcases List.mem_append.mp hd with hd | hd
  · exact hcalls d hd
  · rw [List.mem_singleton.mp hd]
    decide

end PirMesh

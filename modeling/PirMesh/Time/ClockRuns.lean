import Mathlib.Data.List.Nodup
import PirMesh.Library.Run
import PirMesh.Time.Clock
import PirMesh.Time.SchedulerSearch

/-! # Time — Scheduled actions fire once

What `g_schd_nearest` has to be between two seconds (`CacheOk`) and before a check
(`Ready`), how the check uses it (`schdEventCheck_spec`), and the count of
executions in the current second over all runs (`schd_exactlyOnce`).

Three things break the count: a command that rebuilds the cache in a second whose
entries have been executed already, a new time zone, which does not rebuild it, and
the zero second, from which the search does not start (`schd_firesTwice`). -/

namespace PirMesh

open Run

variable {lightCnt : Nat} {list : SchdList lightCnt} {nearest : SchdNearest lightCnt}
  {c : Clock lightCnt} {t : Nat}

/-! ### The cache -/

/-- The next second of the day of `t`, behind `t`, at which an entry matches. -/
def NextDue (list : SchdList lightCnt) (t u : Nat) : Prop :=
  t < u ∧ u < 2 ^ 32 ∧ u / secondOneDay = t / secondOneDay ∧ (∃ e, schdMatch (list e) u) ∧
    ∀ w, t < w → w < u → ∀ e, ¬ schdMatch (list e) w

/-- What the cache says holds: somebody matches the second it has, and it has all who do. -/
def Sound (list : SchdList lightCnt) (nearest : SchdNearest lightCnt) : Prop :=
  nearest.taiLocal ≠ 0 → (∃ e, schdMatch (list e) nearest.taiLocal) ∧
    ∀ e, nearest.entryBit e = true ↔ schdMatch (list e) nearest.taiLocal

/-- For the rest of the day the cache has the next second at which an entry matches. -/
def Complete (list : SchdList lightCnt) (t : Nat) (nearest : SchdNearest lightCnt) : Prop :=
  ∀ u, t < u → u < 2 ^ 32 → u / secondOneDay = t / secondOneDay →
    (nearest.taiLocal = u ↔ NextDue list t u)

/-- Behind the check of the second `t`. -/
structure CacheOk (list : SchdList lightCnt) (t : Nat) (nearest : SchdNearest lightCnt) : Prop where
  sound : Sound list nearest
  complete : Complete list t nearest

/-- Before the check of the second `t`. -/
structure Ready (list : SchdList lightCnt) (t : Nat) (nearest : SchdNearest lightCnt) : Prop where
  sound : Sound list nearest
  due : nearest.taiLocal = t ↔ ∃ e, schdMatch (list e) t
  complete : (∀ e, ¬ schdMatch (list e) t) → Complete list t nearest

theorem sound_of_search (h0 : t ≠ 0) : Sound list (updateSchdNearestTAIToday list t nearest).2 := by
  intro hne
  rcases updateSchd_spec list h0 nearest with ⟨-, hleast, hbits⟩ | ⟨-, hzero, -⟩
  · obtain ⟨-, e, -, -, hmatch⟩ := hleast.1
    exact ⟨⟨e, hmatch⟩, hbits⟩
  · exact absurd hzero hne

/-- A search from `t` or from the second behind is complete for `t`, if it cannot stop at `t`. -/
theorem complete_of_search {v : Nat} (h0 : v ≠ 0) (htv : t ≤ v) (hvt : v ≤ t + 1)
    (hno : v = t → ∀ e, ¬ schdMatch (list e) t) :
    Complete list t (updateSchdNearestTAIToday list v nearest).2 := by
  intro u htu hu32 hday
  have hvday : v / secondOneDay = t / secondOneDay := by
    have h1 := Nat.div_le_div_right (c := secondOneDay) htv
    have h2 := Nat.div_le_div_right (c := secondOneDay) (Nat.le_trans hvt htu)
    omega
  have hdue : ∀ {w}, w ∈ Due list v ↔
      v ≤ w ∧ w < 2 ^ 32 ∧ w / secondOneDay = t / secondOneDay ∧ ∃ e, schdMatch (list e) w := by
    intro w
    rw [Due, ← hvday]
    constructor
    · rintro ⟨hw, e, hle, hwd, hm⟩
      exact ⟨hle, hw, hwd, e, hm⟩
    · rintro ⟨hle, hw, hwd, e, hm⟩
      exact ⟨hw, e, hle, hwd, hm⟩
  rcases updateSchd_spec list h0 nearest with ⟨-, hleast, -⟩ | ⟨-, hzero, hempty⟩
  · obtain ⟨hmem, hlow⟩ := hleast
    obtain ⟨hvT, hT32, hTday, hTmatch⟩ := hdue.mp hmem
    constructor
    · rintro rfl
      refine ⟨htu, hT32, hTday, hTmatch, fun w htw hwu e hm => ?_⟩
      have hwd : w / secondOneDay = t / secondOneDay := by
        have h1 := Nat.div_le_div_right (c := secondOneDay) htw.le
        have h2 := Nat.div_le_div_right (c := secondOneDay) hwu.le
        omega
      have hle := hlow (hdue.mpr ⟨by omega, by omega, hwd, e, hm⟩)
      omega
    · rintro ⟨-, -, -, hmatch, hbetween⟩
      have hle := hlow (hdue.mpr ⟨by omega, hu32, hday, hmatch⟩)
      obtain ⟨e, hm⟩ := hTmatch
      rcases Nat.lt_or_eq_of_le hle with hlt | heq
      · rcases Nat.lt_or_eq_of_le (Nat.le_trans htv hvT) with htT | rfl
        · exact absurd hm (hbetween _ htT hlt e)
        · exact absurd hm (hno (by omega) e)
      · exact heq
  · refine ⟨fun h => absurd h (by omega), fun h => ?_⟩
    have hmem := hdue.mpr ⟨Nat.le_trans hvt htu, hu32, hday, h.2.2.2.1⟩
    rw [hempty] at hmem
    exact absurd hmem (Set.notMem_empty u)

theorem ready_of_search (h0 : t ≠ 0) (ht : t < 2 ^ 32) :
    Ready list t (updateSchdNearestTAIToday list t nearest).2 := by
  refine ⟨sound_of_search h0, ?_, fun hno =>
    complete_of_search h0 (Nat.le_refl t) (Nat.le_succ t) fun _ => hno⟩
  rcases updateSchd_spec list h0 nearest with ⟨-, ⟨hmem, hlow⟩, -⟩ | ⟨-, hzero, hempty⟩
  · constructor
    · intro heq
      obtain ⟨-, e, -, -, hm⟩ := hmem
      exact ⟨e, heq ▸ hm⟩
    · rintro ⟨e, hm⟩
      obtain ⟨-, e', hle, -⟩ := hmem
      exact Nat.le_antisymm (hlow ⟨ht, e, Nat.le_refl t, rfl, hm⟩) hle
  · refine ⟨fun h => absurd (h.symm.trans hzero) h0, fun ⟨e, hm⟩ => ?_⟩
    have hmem : t ∈ Due list t := ⟨ht, e, Nat.le_refl t, rfl, hm⟩
    rw [hempty] at hmem
    exact absurd hmem (Set.notMem_empty t)

/-- The search that follows a firing. -/
theorem cacheOk_of_fired (hs : Sound list nearest) (ht : t < 2 ^ 32) :
    CacheOk list t (updateSchdNearestTAIToday list ((t + 1) % 2 ^ 32) nearest).2 := by
  rcases Nat.lt_or_eq_of_le (Nat.succ_le_of_lt ht) with hlt | heq
  · rw [Nat.mod_eq_of_lt hlt]
    exact ⟨sound_of_search t.succ_ne_zero, complete_of_search t.succ_ne_zero (Nat.le_succ t)
      (Nat.le_refl _) fun h => absurd h (Nat.succ_ne_self t)⟩
  · -- at the end of the counter nothing is searched, and nothing is left
    have hzero : (t + 1) % 2 ^ 32 = 0 := by omega
    rw [hzero]
    exact ⟨hs, fun u htu hu => absurd hu (by omega)⟩

theorem nodup_schdIdxs : (schdIdxs lightCnt).Nodup :=
  List.Nodup.product (List.nodup_finRange lightCnt) (List.nodup_finRange 16)

theorem count_filter_schdIdxs (p : SchdIdx lightCnt → Bool) (e : SchdIdx lightCnt) :
    ((schdIdxs lightCnt).filter p).count e = if p e = true then 1 else 0 := by
  by_cases h : p e = true
  · rw [if_pos h, List.count_filter h, List.count_eq_one_of_mem nodup_schdIdxs (mem_schdIdxs e)]
  · rw [if_neg h, List.count_eq_zero]
    exact fun hmem => h (List.mem_filter.mp hmem).2

/-- What a check of the second `t` leaves and executes. -/
structure Checked (c : Clock lightCnt) (t : Nat) (r : Clock lightCnt × List (SchdIdx lightCnt)) :
    Prop where
  time : r.1.time = c.time
  list : r.1.schdList = c.schdList
  cache : CacheOk c.schdList t r.1.nearest
  count : ∀ e, r.2.count e = if schdMatch (c.schdList e) t then 1 else 0

/-- **The check of a second** executes who matches it, each once. -/
theorem schdEventCheck_spec (h0 : t ≠ 0) (ht : t < 2 ^ 32) (h : Ready c.schdList t c.nearest) :
    Checked c t (schdEventCheck t c) := by
  by_cases heq : c.nearest.taiLocal = t
  · have hne : c.nearest.taiLocal ≠ 0 := heq ▸ h0
    rw [schdEventCheck, if_neg hne, if_pos heq]
    refine ⟨rfl, rfl, cacheOk_of_fired h.sound ht, fun e => ?_⟩
    rw [count_filter_schdIdxs]
    refine if_congr ?_ rfl rfl
    rw [(h.sound hne).2 e, heq]
  · have hno : ∀ e, ¬ schdMatch (c.schdList e) t := fun e hm => heq (h.due.mpr ⟨e, hm⟩)
    rw [schdEventCheck, if_neg heq, ite_self]
    exact ⟨rfl, rfl, ⟨h.sound, h.complete hno⟩, fun e => (if_neg (hno e)).symm⟩

/-- **A rebuild and a check.** -/
theorem checked_of_rebuild (hrun : c.time.taiSec ≠ 0) (h0 : t ≠ 0) (ht : t < 2 ^ 32) :
    Checked c t (rebulidSchdNearestAndCheckEvent true t c) := by
  rw [rebulidSchdNearestAndCheckEvent, if_neg hrun]
  have hc := schdEventCheck_spec (c := c.research t) h0 ht (ready_of_search h0 ht)
  exact ⟨hc.time, hc.list, hc.cache, hc.count⟩

/-! ### The tick -/

/-- The seconds of a day behind `t`, from the next one. -/
theorem ready_of_cacheOk (h : CacheOk list t nearest) (ht : t + 1 < 2 ^ 32)
    (hday : (t + 1) % secondOneDay ≠ 0) : Ready list (t + 1) nearest := by
  have hsame : (t + 1) / secondOneDay = t / secondOneDay := by
    simp only [secondOneDay] at hday ⊢
    omega
  refine ⟨h.sound, (h.complete (t + 1) (Nat.lt_succ_self t) ht hsame).trans
    ⟨fun hn => hn.2.2.2.1, fun hm => ⟨Nat.lt_succ_self t, ht, hsame, hm, fun w hw hw' => ?_⟩⟩, ?_⟩
  · exact absurd hw' (Nat.not_lt.mpr hw)
  · intro hno u hu hu32 hday'
    refine (h.complete u (by omega) hu32 (hday'.trans hsame)).trans ⟨fun hn => ?_, fun hn => ?_⟩
    · exact ⟨hu, hu32, hday', hn.2.2.2.1, fun w hw => hn.2.2.2.2 w (by omega)⟩
    · refine ⟨by omega, hu32, hday'.trans hsame, hn.2.2.2.1, fun w hw hwu => ?_⟩
      rcases Nat.lt_or_eq_of_le (Nat.succ_le_of_lt hw) with hlt | rfl
      · exact hn.2.2.2.2 w hlt hwu
      · exact hno

theorem schdRandomRebuild_false {which : Scheduler → Bool} {draw : Rand → Scheduler → Scheduler}
    {rand : SchdIdx lightCnt → Rand} (h : (schdRandomRebuild which draw rand list).1 = false) :
    (schdRandomRebuild which draw rand list).2 = list := by
  funext e
  refine if_neg fun hcond => ?_
  have hall := List.any_eq_false.mp h e (mem_schdIdxs e)
  exact hall (Bool.and_eq_true_iff.mpr hcond)

/-- Without a rebuild the entries are as before, and the day goes on. -/
theorem schdRandomRebuildAt_false {rand : SchdIdx lightCnt → Rand}
    (h : (schdRandomRebuildAt t rand list).1 = false) :
    (schdRandomRebuildAt t rand list).2 = list ∧ t % secondOneDay ≠ 0 := by
  unfold schdRandomRebuildAt at h ⊢
  by_cases h60 : t % 60 = 0
  · simp only [if_pos h60] at h ⊢
    by_cases h3600 : t % (60 * 60) = 0
    · simp only [if_pos h3600] at h ⊢
      by_cases hday : t % (60 * 60 * 24) = 0
      · rw [if_pos hday] at h
        exact absurd (show true = false from h) (by decide)
      · rw [if_neg hday] at h ⊢
        obtain ⟨hsec, hmin⟩ := Bool.or_eq_false_iff.mp h
        exact ⟨(schdRandomRebuild_false hmin).trans (schdRandomRebuild_false hsec), hday⟩
    · rw [if_neg h3600] at h ⊢
      exact ⟨show (schdRandomRebuildSec rand list).2 = list from schdRandomRebuild_false h,
        fun hday => h3600 (by simp only [secondOneDay] at hday; omega)⟩
  · rw [if_neg h60]
    exact ⟨rfl, fun hday => h60 (by simp only [secondOneDay] at hday; omega)⟩

/-- The time a tick leads to. -/
def TimeStatus.tick (t : TimeStatus) : TimeStatus := { t with taiSec := t.taiSec + 1 }

/-- The local time ticks with the clock. -/
theorem localTAI_tick {time : TimeStatus} (h : time.tick.localTAI ≠ 0) :
    time.tick.localTAI = time.localTAI + 1 ∧ time.localTAI + 1 < 2 ^ 32 := by
  have hadd : time.tick.localTAI =
      (time.taiSec + BitVec.ofInt 32 (getTimeZoneOffsetMin time.zoneOffset * 60) + 1).toNat :=
    congrArg BitVec.toNat
      (by rw [TimeStatus.tick, BitVec.add_assoc, BitVec.add_comm 1, ← BitVec.add_assoc])
  have hlt : time.localTAI < 2 ^ 32 := BitVec.isLt _
  rw [BitVec.toNat_add] at hadd
  have hone : (1 : BitVec 32).toNat = 1 := rfl
  rw [hone] at hadd
  change _ = (time.localTAI + 1) % 2 ^ 32 at hadd
  omega

theorem meshTimeProc_eq {rand : SchdIdx lightCnt → Rand} (hrun : c.time.taiSec ≠ 0) :
    meshTimeProc rand c = rebulidSchdNearestAndCheckEvent
      (schdRandomRebuildAt c.time.tick.localTAI rand c.schdList).1 c.time.tick.localTAI
      { c with
        time := c.time.tick
        schdList := (schdRandomRebuildAt c.time.tick.localTAI rand c.schdList).2 } := by
  rw [meshTimeProc, if_neg hrun]
  rfl

/-- **The tick** executes who matches the second the clock comes to, each once. -/
theorem meshTimeProc_spec (rand : SchdIdx lightCnt → Rand) (hrun : c.time.taiSec ≠ 0)
    (hrun' : c.time.tick.taiSec ≠ 0) (h0 : c.time.tick.localTAI ≠ 0)
    (h : CacheOk c.schdList (getLocalTAI c) c.nearest) :
    ∃ list, Checked { c with time := c.time.tick, schdList := list } c.time.tick.localTAI
      (meshTimeProc rand c) := by
  obtain ⟨hnext, hlt⟩ := localTAI_tick h0
  rw [meshTimeProc_eq hrun]
  refine ⟨(schdRandomRebuildAt c.time.tick.localTAI rand c.schdList).2, ?_⟩
  generalize hp : schdRandomRebuildAt c.time.tick.localTAI rand c.schdList = p
  obtain ⟨rebuild, list⟩ := p
  cases rebuild with
  | true => exact checked_of_rebuild hrun' h0 (hnext ▸ hlt)
  | false =>
    obtain ⟨hlist, hday⟩ := schdRandomRebuildAt_false (congrArg Prod.fst hp)
    rw [hp] at hlist
    subst hlist
    rw [rebulidSchdNearestAndCheckEvent, if_neg hrun']
    refine schdEventCheck_spec h0 (hnext ▸ hlt) ?_
    rw [hnext] at hday ⊢
    exact ready_of_cacheOk h hlt hday

/-! ### Runs -/

/-- The entry that a command overwrites. -/
def ClockEvent.sets (e : SchdIdx lightCnt) : ClockEvent lightCnt → Prop
  | .actionSet modelIdx p _ => isValidSchdPar p = true ∧ e = (modelIdx, p.idx)
  | _ => False

instance (e : SchdIdx lightCnt) (ev : ClockEvent lightCnt) : Decidable (ev.sets e) := by
  cases ev <;> unfold ClockEvent.sets <;> infer_instance

def ClockEvent.isTick : ClockEvent lightCnt → Bool
  | .tick _ => true
  | _ => false

structure ClockRun (lightCnt : Nat) where
  clock : Clock lightCnt
  /-- Not in the code: how often each entry has been executed in the current local second, since
  it was set. -/
  fired : SchdIdx lightCnt → Nat
  /-- Not in the code: the clock came to the current local second by a tick. -/
  ticked : Bool

/-- The clock runs, and shows the same local second as before. -/
def SameSecond (c c' : Clock lightCnt) : Prop :=
  c.time.taiSec ≠ 0 ∧ getLocalTAI c' = getLocalTAI c

instance (c c' : Clock lightCnt) : Decidable (SameSecond c c') := by
  unfold SameSecond
  infer_instance

def clockNext (s : ClockRun lightCnt) (ev : ClockEvent lightCnt) : ClockRun lightCnt where
  clock := (clockStep s.clock ev).1
  fired := fun e =>
    (if SameSecond s.clock (clockStep s.clock ev).1 ∧ ¬ ev.sets e then s.fired e else 0) +
      (clockStep s.clock ev).2.count e
  ticked := if SameSecond s.clock (clockStep s.clock ev).1 then s.ticked else ev.isTick

/-- A boot with any entries: the clock does not run yet. -/
structure ClockRun.Booted (s : ClockRun lightCnt) : Prop where
  stopped : s.clock.time.taiSec = 0

def clockSys (lightCnt : Nat) : Sys (ClockRun lightCnt) (ClockEvent lightCnt) :=
  .det ClockRun.Booted clockNext

/-- While the clock runs, no entry is executed in a second it does not match, or twice in a second;
and who matches a second the clock ticked to is executed. -/
def ExactlyOnce (s : ClockRun lightCnt) : Prop :=
  s.clock.time.taiSec ≠ 0 → ∀ e,
    (¬ schdMatch (s.clock.schdList e) (getLocalTAI s.clock) → s.fired e = 0) ∧
    (schdMatch (s.clock.schdList e) (getLocalTAI s.clock) →
      s.fired e ≤ 1 ∧ (s.ticked = true → s.fired e = 1))

/-- The steps that keep the count. -/
def Counts (s : ClockRun lightCnt) : ClockEvent lightCnt → Prop
  | .tick _ => s.clock.time.taiSec ≠ 0 → s.clock.time.tick.localTAI ≠ 0
  | .actionSet modelIdx p _ => isValidSchdPar p = true → s.clock.time.taiSec ≠ 0 →
      getLocalTAI s.clock ≠ 0 ∧ ∀ e ≠ (modelIdx, p.idx), s.fired e = 0
  | .timeSet p => (p.taiSecRsv = 0 ∨ p.timeAuth) ∧ isValidTAISecond p.taiSec →
      p.localTAI ≠ 0 ∧ (s.clock.time.taiSec ≠ 0 → p.localTAI = getLocalTAI s.clock →
        ∀ e, s.fired e = 0)
  | .zoneSet zoneOffsetNew => s.clock.time.taiSec ≠ 0 → ∀ u,
      NextDue s.clock.schdList { s.clock.time with zoneOffset := zoneOffsetNew }.localTAI u ↔
        NextDue s.clock.schdList (getLocalTAI s.clock) u
  | .deltaSet _ => True

structure ClockInv (s : ClockRun lightCnt) : Prop where
  cache : s.clock.time.taiSec ≠ 0 → CacheOk s.clock.schdList (getLocalTAI s.clock) s.clock.nearest
  exact : ExactlyOnce s

variable {s : ClockRun lightCnt} {ev : ClockEvent lightCnt}

/-- A stopped clock executes nothing. -/
theorem ClockInv.of_stopped (h : s.clock.time.taiSec = 0) : ClockInv s :=
  ⟨fun hrun => absurd h hrun, fun hrun => absurd h hrun⟩

/-- A check of the current second, when nothing in it has been executed before. -/
theorem ClockInv.of_checked {c : Clock lightCnt}
    (hc : Checked c (getLocalTAI c) (clockStep s.clock ev))
    (hfresh : ∀ e, SameSecond s.clock (clockStep s.clock ev).1 → ¬ ev.sets e → s.fired e = 0) :
    ClockInv (clockNext s ev) := by
  have hlocal : getLocalTAI (clockStep s.clock ev).1 = getLocalTAI c :=
    congrArg TimeStatus.localTAI hc.time
  have hfired : ∀ e, (clockNext s ev).fired e =
      if schdMatch (c.schdList e) (getLocalTAI c) then 1 else 0 := by
    intro e
    rw [← hc.count]
    refine Nat.add_eq_right.mpr ?_
    split
    · exact hfresh e ‹_ ∧ _›.1 ‹_ ∧ _›.2
    · rfl
  refine ⟨fun _ => ?_, fun _ e => ?_⟩
  · show CacheOk (clockStep s.clock ev).1.schdList (getLocalTAI (clockStep s.clock ev).1) _
    rw [hlocal, hc.list]
    exact hc.cache
  · show (¬ schdMatch ((clockStep s.clock ev).1.schdList e)
      (getLocalTAI (clockStep s.clock ev).1) → _) ∧
      (schdMatch ((clockStep s.clock ev).1.schdList e) (getLocalTAI (clockStep s.clock ev).1) → _)
    rw [hlocal, hc.list, hfired]
    exact ⟨fun hno => if_neg hno, fun hm => by rw [if_pos hm]; exact ⟨Nat.le_refl 1, fun _ => rfl⟩⟩

/-- Where something matches later in the day, there is a next second with a match. -/
theorem exists_nextDue {u : Nat} (htu : t < u) (hu : u < 2 ^ 32)
    (hday : u / secondOneDay = t / secondOneDay) (hm : ∃ e, schdMatch (list e) u) :
    ∃ w ≤ u, NextDue list t w := by
  classical
  have hex : ∃ w, t < w ∧ ∃ e, schdMatch (list e) w := ⟨u, htu, hm⟩
  obtain ⟨htw, hmw⟩ := Nat.find_spec hex
  have hle : Nat.find hex ≤ u := Nat.find_min' hex ⟨htu, hm⟩
  refine ⟨Nat.find hex, hle, htw, Nat.lt_of_le_of_lt hle hu, ?_, hmw, fun w hw hwlt e he => ?_⟩
  · have h1 := Nat.div_le_div_right (c := secondOneDay) htw.le
    have h2 := Nat.div_le_div_right (c := secondOneDay) hle
    omega
  · exact Nat.find_min hex hwlt ⟨hw, e, he⟩

/-- The cache serves another second from which the same second is next. -/
theorem CacheOk.move {t' : Nat} (h : CacheOk list t nearest)
    (hdue : ∀ u, NextDue list t' u ↔ NextDue list t u) : CacheOk list t' nearest := by
  refine ⟨h.sound, fun u htu hu hday => ⟨fun heq => ?_, fun hn => ?_⟩⟩
  · have hm := (h.sound (by omega)).1
    rw [heq] at hm
    obtain ⟨w, hwu, hw⟩ := exists_nextDue htu hu hday hm
    have hwt := (hdue w).mp hw
    have hday' : u / secondOneDay = t / secondOneDay :=
      hday.trans (hw.2.2.1.symm.trans hwt.2.2.1)
    exact (hdue u).mpr ((h.complete u (Nat.lt_of_lt_of_le hwt.1 hwu) hu hday').mp heq)
  · have hn' := (hdue u).mp hn
    exact (h.complete u hn'.1 hu hn'.2.2.1).mpr hn'

/-- Nothing is checked, and the entries and the cache stay; the second may be another one. -/
theorem ClockInv.of_kept (h : ClockInv s)
    (hrun : (clockStep s.clock ev).1.time.taiSec = s.clock.time.taiSec)
    (hlist : (clockStep s.clock ev).1.schdList = s.clock.schdList)
    (hnearest : (clockStep s.clock ev).1.nearest = s.clock.nearest)
    (hexec : (clockStep s.clock ev).2 = [])
    (hkeep : SameSecond s.clock (clockStep s.clock ev).1 → ∀ e, ¬ ev.sets e)
    (htick : ¬ SameSecond s.clock (clockStep s.clock ev).1 → ev.isTick = false)
    (hdue : s.clock.time.taiSec ≠ 0 → ∀ u,
      NextDue s.clock.schdList (getLocalTAI (clockStep s.clock ev).1) u ↔
        NextDue s.clock.schdList (getLocalTAI s.clock) u) : ClockInv (clockNext s ev) := by
  have hwas (hr : (clockNext s ev).clock.time.taiSec ≠ 0) : s.clock.time.taiSec ≠ 0 :=
    fun h0 => hr (hrun.trans h0)
  refine ⟨fun hr => ?_, fun hr e => ?_⟩
  · show CacheOk (clockStep s.clock ev).1.schdList (getLocalTAI (clockStep s.clock ev).1)
      (clockStep s.clock ev).1.nearest
    rw [hlist, hnearest]
    exact (h.cache (hwas hr)).move (hdue (hwas hr))
  · simp only [clockNext, hexec, hlist, List.count_nil, Nat.add_zero]
    by_cases hsame : SameSecond s.clock (clockStep s.clock ev).1
    · rw [if_pos ⟨hsame, hkeep hsame e⟩, if_pos hsame, hsame.2]
      exact h.exact (hwas hr) e
    · rw [if_neg fun hc => hsame hc.1, if_neg hsame, htick hsame]
      exact ⟨fun _ => rfl, fun _ => ⟨Nat.zero_le 1, fun ht => absurd ht Bool.false_ne_true⟩⟩

/-- A command that is not accepted. -/
theorem ClockInv.of_ignored (h : ClockInv s) (hstep : clockStep s.clock ev = (s.clock, []))
    (hkeep : ∀ e, ¬ ev.sets e) (htick : ev.isTick = false) : ClockInv (clockNext s ev) := by
  have hc : (clockStep s.clock ev).1 = s.clock := congrArg Prod.fst hstep
  refine h.of_kept (by rw [hc]) (by rw [hc]) (by rw [hc]) (congrArg Prod.snd hstep) (fun _ => hkeep)
    (fun _ => htick) fun _ u => ?_
  rw [hc]

theorem ClockInv.tick {rand : SchdIdx lightCnt → Rand} (h : ClockInv s)
    (hev : Counts s (.tick rand)) : ClockInv (clockNext s (.tick rand)) := by
  by_cases hrun : s.clock.time.taiSec = 0
  · refine .of_stopped ?_
    show (meshTimeProc rand s.clock).1.time.taiSec = 0
    rw [meshTimeProc, if_pos hrun]
    exact hrun
  have h0 : s.clock.time.tick.localTAI ≠ 0 := hev hrun
  by_cases hrun' : s.clock.time.tick.taiSec = 0
  · refine .of_stopped ?_
    show (meshTimeProc rand s.clock).1.time.taiSec = 0
    rw [meshTimeProc_eq hrun, rebulidSchdNearestAndCheckEvent, if_pos hrun']
    exact hrun'
  · obtain ⟨list, hc⟩ := meshTimeProc_spec rand hrun hrun' h0 (h.cache hrun)
    change Checked _ _ (clockStep s.clock (.tick rand)) at hc
    refine .of_checked hc fun e hsame _ => ?_
    have hlocal : getLocalTAI (meshTimeProc rand s.clock).1 = s.clock.time.tick.localTAI :=
      congrArg TimeStatus.localTAI hc.time
    have hnext := (localTAI_tick h0).1
    exact absurd (hlocal.symm.trans hsame.2) (hnext ▸ Nat.succ_ne_self _)

theorem ClockInv.actionSet {modelIdx : Fin lightCnt} {p : Scheduler} {r : Rand} (h : ClockInv s)
    (hev : Counts s (.actionSet modelIdx p r)) : ClockInv
      (clockNext s (.actionSet modelIdx p r)) := by
  by_cases hvalid : isValidSchdPar p = true
  · have hstep : clockStep s.clock (.actionSet modelIdx p r) =
        rebulidSchdNearestAndCheckEvent true (getLocalTAI s.clock) { s.clock with
          schdList := fun e => if e =
            (modelIdx, p.idx) then schdSaved p r else s.clock.schdList e } :=
      if_pos hvalid
    by_cases hrun : s.clock.time.taiSec = 0
    · refine .of_stopped ?_
      rw [clockNext, hstep, rebulidSchdNearestAndCheckEvent, if_pos hrun]
      exact hrun
    · obtain ⟨h0, hfired⟩ := hev hvalid hrun
      have hc := checked_of_rebuild (c := { s.clock with
        schdList := fun e => if e = (modelIdx, p.idx) then schdSaved p r else s.clock.schdList e })
        hrun h0 (BitVec.isLt _)
      refine .of_checked (hstep ▸ hc) fun e _ hsets => hfired e fun he => hsets ⟨hvalid, he⟩
  · exact h.of_ignored (if_neg hvalid) (fun _ hs => hvalid hs.1) rfl

theorem ClockInv.timeSet {p : TimeStatus} (h : ClockInv s) (hev : Counts s (.timeSet p)) :
    ClockInv (clockNext s (.timeSet p)) := by
  by_cases hset : (p.taiSecRsv = 0 ∨ p.timeAuth) ∧ isValidTAISecond p.taiSec
  · have hstep : clockStep s.clock (.timeSet p) =
        rebulidSchdNearestAndCheckEvent true p.localTAI { s.clock with time := p } := if_pos hset
    have hrun : p.taiSec ≠ 0 := (decide_eq_true_iff.mp hset.2).1
    have hc := checked_of_rebuild (c := { s.clock with time := p }) hrun (hev hset).1
      (BitVec.isLt _)
    refine .of_checked (hstep ▸ hc) fun e hsame _ => ?_
    refine (hev hset).2 hsame.1 (Eq.trans ?_ hsame.2) e
    rw [hstep]
    exact (congrArg TimeStatus.localTAI hc.time).symm
  · exact h.of_ignored (if_neg hset) (fun _ => id) rfl

theorem ClockInv.step (h : ClockInv s) (hev : Counts s ev) : ClockInv (clockNext s ev) := by
  cases ev with
  | tick rand => exact h.tick hev
  | actionSet modelIdx p r => exact h.actionSet hev
  | timeSet p => exact h.timeSet hev
  | zoneSet zoneOffsetNew => exact h.of_kept rfl rfl rfl rfl (fun _ _ => id) (fun _ => rfl) hev
  | deltaSet deltaNew =>
    exact h.of_kept rfl rfl rfl rfl (fun _ _ => id) (fun _ => rfl) fun _ _ => .rfl

/-- **Scheduled actions fire exactly once** in every run whose steps keep the count. -/
theorem schd_exactlyOnce (h : ((clockSys lightCnt).restrict Counts).Reach s) : ExactlyOnce s := by
  have hinv : ClockInv s := by
    refine h.inv (P := ClockInv) (fun s h0 => .of_stopped h0.stopped) ?_
    rintro s ev t hs ⟨hev, rfl⟩
    exact hs.step hev
  exact hinv.exact

/-- One light, no entry, no time. -/
def bootedClock : ClockRun 1 where
  clock :=
    { time := ⟨0, 0, false, 0, 0x40⟩
      zoneOffsetNew := 0
      deltaNew := 0
      schdList := fun _ => ⟨0, 0, 0, 0, 0, 0, 0, 0, 0, 0, 0, 0⟩
      nearest := .zero }
  fired := fun _ => 0
  ticked := false

def timeSet1000 : ClockEvent 1 := .timeSet ⟨1000, 0, false, 0, 0x40⟩

instance neZero_oneLight : NeZero 1 := ⟨Nat.one_ne_zero⟩

/-- Entry `idx` is set for every second. -/
def entrySet (idx : BitVec 4) : ClockEvent 1 :=
  .actionSet 0 { everySecond with validFlagOrIdx := idx } ⟨0, 0, 0⟩

def oneTick : ClockEvent 1 := .tick fun _ => ⟨0, 0, 0⟩

def timeIsSet : ClockRun 1 := clockNext bootedClock timeSet1000

def entryIsSet : ClockRun 1 := clockNext timeIsSet (entrySet 0)

def clockTicked : ClockRun 1 := clockNext entryIsSet oneTick

theorem schd_exactlyOnce_ticked : ExactlyOnce clockTicked ∧ clockTicked.fired (0, 0) = 1 :=
  have h1 : ((clockSys 1).restrict Counts).Reach timeIsSet :=
    .step (e := timeSet1000) (.init (s := bootedClock) ⟨rfl⟩)
      ⟨fun _ => ⟨by decide +kernel, fun hrun => absurd rfl hrun⟩, rfl⟩
  have hfired : ∀ i k, timeIsSet.fired (i, k) = 0 := by decide +kernel
  have h2 : ((clockSys 1).restrict Counts).Reach entryIsSet :=
    h1.step (e := entrySet 0) ⟨fun _ _ => ⟨by decide +kernel, fun e _ => hfired e.1 e.2⟩, rfl⟩
  have h0 : entryIsSet.clock.time.tick.localTAI ≠ 0 := by decide +kernel
  have h3 : ((clockSys 1).restrict Counts).Reach clockTicked :=
    h2.step (e := oneTick) ⟨fun _ => h0, rfl⟩
  ⟨schd_exactlyOnce h3, by decide +kernel⟩

/-- **A command in a second that is done**: entry 1 is set in the second in which entry 0 has been
executed, and entry 0 is executed again. -/
theorem schd_firesTwice : (clockSys 1).Reach (clockNext clockTicked (entrySet 1)) ∧
    ¬ ExactlyOnce (clockNext clockTicked (entrySet 1)) := by
  have h0 : (clockSys 1).Reach bootedClock := .init ⟨rfl⟩
  refine ⟨Sys.reach_foldl h0 [timeSet1000, entrySet 0, oneTick, entrySet 1], fun h => ?_⟩
  have hle := ((h (by decide +kernel) (0, 0)).2 (by decide +kernel)).1
  exact absurd hle (by decide +kernel)

end PirMesh

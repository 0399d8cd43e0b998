import PirMesh.Time.Calendar

/-! # Time — The scheduler's search

`scheduler.c`: the entries of the schedule register, when an entry matches, and
the search for the nearest match of the day that `update_schd_nearest_TAI_today`
makes. -/

namespace PirMesh

def schdYearAny : Nat := 0x64

def schdMonthAny : Nat := 0

def schdDayAny : Nat := 0

def schdWeekAny : Nat := 0

def schdHourAny : Nat := 0x18

def schdHourRandom : Nat := 0x19

def schdMinAny : Nat := 0x3c

def schdMinEvery15 : Nat := 0x3d

def schdMinEvery20 : Nat := 0x3e

def schdMinRandom : Nat := 0x3f

/-- The codes of seconds are those of minutes. -/
def schdSecRandom : Nat := 0x3f

def schdActionNone : Nat := 0x0f

def noNearest : Nat := 0xff

instance neZero_hours : NeZero 24 := ⟨Nat.succ_ne_zero 23⟩

instance neZero_minutes : NeZero 60 := ⟨Nat.succ_ne_zero 59⟩

/-- `scheduler_t`.  The last three are what `rand() % 24` and `rand() % 60` gave. -/
structure Scheduler where
  validFlagOrIdx : BitVec 4
  year : BitVec 7
  month : BitVec 12
  day : BitVec 5
  hour : BitVec 5
  minute : BitVec 6
  second : BitVec 6
  week : BitVec 7
  action : BitVec 4
  randHour : Fin 24
  randMin : Fin 60
  randSec : Fin 60
  deriving DecidableEq, Repr

/-! ### Matching -/

def isEvery15Match (val : Nat) : Bool := val = 0 ∨ val = 15 ∨ val = 30 ∨ val = 45

def isEvery20Match (val : Nat) : Bool := val = 0 ∨ val = 20 ∨ val = 40

def isSchdAlive (p : Scheduler) : Bool := p.validFlagOrIdx ≠ 0 ∧ p.action.toNat ≠ schdActionNone

def isSchdMatchSecondOrMin (valNow valSchd valRand : Nat) : Bool :=
  valNow = valSchd ∨ valSchd = schdMinAny ∨ (valSchd = schdMinEvery15 ∧ isEvery15Match valNow) ∨
    (valSchd = schdMinEvery20 ∧ isEvery20Match valNow) ∨
      (valSchd = schdMinRandom ∧ valRand = valNow)

def isSchdMatchHour (valNow valSchd valRand : Nat) : Bool :=
  valNow = valSchd ∨ valSchd = schdHourAny ∨ (valSchd = schdHourRandom ∧ valRand = valNow)

/-- The year, month and day test of the search.  A day the month does not have is its last one;
the weekdays count for an entry of any day. -/
def isSchdMatchToday (p : Scheduler) (now : MeshUTC) : Bool :=
  let daysMax := getDaysOneMonth now.year now.month
  (p.year.toNat = schdYearAny ∨ now.year - yearBase = p.year.toNat) ∧
  (p.month.toNat = schdMonthAny ∨ p.month.getLsbD (now.month - 1)) ∧
  ((p.day.toNat = schdDayAny ∧ (p.week.toNat = schdWeekAny ∨ p.week.getLsbD now.week)) ∨
    now.day = p.day.toNat ∨ (p.day.toNat > daysMax ∧ now.day = daysMax))

/-! ### The nearest value of a field -/

def getMinSecStep (val : Nat) : Nat :=
  if val < 60 then 0
  else if val = schdMinAny then 1
  else if val = schdMinEvery15 then 15
  else if val = schdMinEvery20 then 20
  else 0

def getNearestHour (hourSchd hourNow hourRand : Nat) (firstFlag : Bool) : Nat :=
  if hourSchd < 24 then if firstFlag ∨ hourNow ≤ hourSchd then hourSchd else noNearest
  else if hourSchd = schdHourAny then hourNow
  else if hourSchd = schdHourRandom then
    if firstFlag ∨ hourNow ≤ hourRand then hourRand else noNearest
  else noNearest

/-- The loop over the multiples of `step`: the first that `valNow` does not exceed. -/
def nearestMultiple (step valNow : Nat) : List Nat → Nat
  | [] => noNearest
  | i :: l => if valNow ≤ i * step then i * step else nearestMultiple step valNow l

def getNearestMinOrSec (valSchd valNow valRand : Nat) (firstFlag : Bool) : Nat :=
  if valSchd < 60 then if firstFlag ∨ valNow ≤ valSchd then valSchd else noNearest
  else if valSchd = schdMinAny then if firstFlag then 0 else valNow
  else if valSchd = schdMinRandom then
    if firstFlag ∨ valNow ≤ valRand then valRand else noNearest
  else if valSchd = schdMinEvery15 then
    if firstFlag then 0 else nearestMultiple 15 valNow [0, 1, 2, 3]
  else if valSchd = schdMinEvery20 then
    if firstFlag then 0 else nearestMultiple 20 valNow [0, 1, 2]
  else noNearest

/-! ### The nearest match of an entry -/

section

variable (p : Scheduler) (now : MeshUTC)

/-- Minute and second below the hour `nearstHH`, and `check_next_hour`. -/
def nearestMinSec (nearstHH : Nat) : Nat × Nat × Bool :=
  let bigHour : Bool := nearstHH > now.hour
  let nearstMM := getNearestMinOrSec p.minute.toNat now.minute p.randMin bigHour
  if nearstMM = noNearest then (nearstMM, noNearest, true)
  else
    let bigMin : Bool := bigHour ∨ nearstMM > now.minute
    let nearstSS := getNearestMinOrSec p.second.toNat now.second p.randSec bigMin
    if nearstSS = noNearest then
      if getMinSecStep p.minute.toNat ≠ 0 then
        let nearstMM := nearstMM + getMinSecStep p.minute.toNat
        if nearstMM < 60 then
          (nearstMM, getNearestMinOrSec p.second.toNat 0 p.randSec true, false)
        else (nearstMM, nearstSS, true)
      else (nearstMM, nearstSS, true)
    else (nearstMM, nearstSS, false)

/-- Hour, minute and second; they are not a time of day when there is no match left today. -/
def nearestTime (nearstHH : Nat) : Nat × Nat × Nat :=
  let (nearstMM, nearstSS, checkNextHour) := nearestMinSec p now nearstHH
  if checkNextHour ∧ p.hour.toNat = schdHourAny then
    if nearstHH + 1 < 24 then
      (nearstHH + 1, getNearestMinOrSec p.minute.toNat 0 p.randMin true,
        getNearestMinOrSec p.second.toNat 0 p.randSec true)
    else (nearstHH + 1, nearstMM, nearstSS)
  else (nearstHH, nearstMM, nearstSS)

/-- The second of the day at which the entry matches next, with what the body of the loop
checks before. -/
def nearestOfEntry : Option Nat :=
  if ¬ isSchdAlive p then none
  else if ¬ isSchdMatchToday p now then none
  else
    let nearstHH := getNearestHour p.hour.toNat now.hour p.randHour false
    if nearstHH = noNearest then none
    else
      let (nearstHH, nearstMM, nearstSS) := nearestTime p now nearstHH
      if nearstHH < 24 ∧ nearstMM < 60 ∧ nearstSS < 60 then
        some (nearstHH * 3600 + nearstMM * 60 + nearstSS)
      else none

end

/-! ### The nearest match of all entries -/

variable {lightCnt : Nat}

/-- An index into `g_schd_list[LIGHT_CNT][16]`. -/
abbrev SchdIdx (lightCnt : Nat) := Fin lightCnt × Fin 16

abbrev SchdList (lightCnt : Nat) := SchdIdx lightCnt → Scheduler

/-- The order of the loops. -/
def schdIdxs (lightCnt : Nat) : List (SchdIdx lightCnt) :=
  (List.finRange lightCnt).flatMap fun i => (List.finRange 16).map fun k => (i, k)

/-- `schd_nearest_t`; bit `k` of `entry_bit[i]` is `entryBit (i, k)`. -/
structure SchdNearest (lightCnt : Nat) where
  taiLocal : Nat
  entryBit : SchdIdx lightCnt → Bool

def SchdNearest.zero : SchdNearest lightCnt := ⟨0, fun _ => false⟩

/-- The body of the loop, behind what `nearestOfEntry` is. -/
def nearestLoop (list : SchdList lightCnt) (now : MeshUTC) (acc : Nat × (SchdIdx lightCnt → Bool))
    (e : SchdIdx lightCnt) : Nat × (SchdIdx lightCnt → Bool) :=
  match nearestOfEntry (list e) now with
  | none => acc
  | some temp =>
    if temp < acc.1 then (temp, fun j => j = e)
    else if temp = acc.1 then (acc.1, fun j => acc.2 j || decide (j = e))
    else acc

/-- Returns 0 or -1, and `g_schd_nearest`, which was `nearest`. -/
def updateSchdNearestTAIToday (list : SchdList lightCnt) (taiLocal : Nat)
    (nearest : SchdNearest lightCnt) : Int × SchdNearest lightCnt :=
  if taiLocal = 0 then (-1, nearest)
  else
    let (nearestTAI, entryBit) := (schdIdxs lightCnt).foldl (nearestLoop list (getUTC taiLocal))
      (0xffffffff, fun _ => false)
    if nearestTAI ≠ 0xffffffff then
      let nearestTAI := (nearestTAI + taiLocal / secondOneDay * secondOneDay) % 2 ^ 32
      if taiLocal ≤ nearestTAI then (0, ⟨nearestTAI, entryBit⟩) else (-1, ⟨0, entryBit⟩)
    else (-1, ⟨0, entryBit⟩)

end PirMesh

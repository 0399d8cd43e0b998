import PirMesh.Time.Scheduler

/-! # Time — The clock and the scheduler

`mesh_time` with the messages that set it, the tick of `mesh_time_proc`, and the
firing of the scheduler (`schd_event_check`).  A function returns the state and
the entries whose action it executes, in order. -/

namespace PirMesh

/-- `time_status_t` -/
structure TimeStatus where
  taiSec : BitVec 32
  taiSecRsv : BitVec 8
  timeAuth : Bool
  taiUTCDelta : BitVec 15
  zoneOffset : BitVec 8
  deriving DecidableEq, Repr

/-- What `rand()` gives for an entry. -/
structure Rand where
  hour : Nat
  min : Nat
  sec : Nat

variable {lightCnt : Nat}

/-- `mesh_time`, `g_schd_list` and `g_schd_nearest`. -/
structure Clock (lightCnt : Nat) where
  time : TimeStatus
  zoneOffsetNew : BitVec 8
  deltaNew : BitVec 15
  schdList : SchdList lightCnt
  nearest : SchdNearest lightCnt

def getTimeZoneOffsetMin (zoneOffset : BitVec 8) : Int := ((zoneOffset.toNat : Int) - 64) * 15

def TimeStatus.localTAI (t : TimeStatus) : Nat :=
  (t.taiSec + BitVec.ofInt 32 (getTimeZoneOffsetMin t.zoneOffset * 60)).toNat

def getLocalTAI (c : Clock lightCnt) : Nat := c.time.localTAI

def isValidTAISecond (second : BitVec 32) : Bool := second ≠ 0 ∧ second.toNat < taiSecondMax

/-! ### Random fields -/

def getRandomMinOrSec (rand : Nat) : Fin 60 := Fin.ofNat 60 rand

def getRandomHour (rand : Nat) : Fin 24 := Fin.ofNat 24 rand

def randomHour (p : Scheduler) : Bool := p.hour.toNat = schdHourRandom

def randomMin (p : Scheduler) : Bool := p.minute.toNat = schdMinRandom

def randomSec (p : Scheduler) : Bool := p.second.toNat = schdSecRandom

/-- The three rebuild functions: the entries `which` picks get new random values by `draw`.
Returns whether there is one. -/
def schdRandomRebuild (which : Scheduler → Bool) (draw : Rand → Scheduler → Scheduler)
    (rand : SchdIdx lightCnt → Rand) (list : SchdList lightCnt) : Bool × SchdList lightCnt :=
  ((schdIdxs lightCnt).any fun e => isSchdAlive (list e) && which (list e),
    fun e => if isSchdAlive (list e) ∧ which (list e) then draw (rand e) (list e) else list e)

def drawSec (r : Rand) (p : Scheduler) : Scheduler := { p with randSec := getRandomMinOrSec r.sec }

def drawMin (r : Rand) (p : Scheduler) : Scheduler :=
  { p with
    randMin := getRandomMinOrSec r.min
    randSec := if randomSec p then getRandomMinOrSec r.sec else p.randSec }

def drawHour (r : Rand) (p : Scheduler) : Scheduler :=
  { p with
    randHour := getRandomHour r.hour
    randMin := if randomMin p then getRandomMinOrSec r.min else p.randMin
    randSec := if randomSec p then getRandomMinOrSec r.sec else p.randSec }

def schdRandomRebuildHour : (SchdIdx lightCnt → Rand) → SchdList lightCnt →
    Bool × SchdList lightCnt :=
  schdRandomRebuild randomHour drawHour

def schdRandomRebuildMin : (SchdIdx lightCnt → Rand) → SchdList lightCnt →
    Bool × SchdList lightCnt :=
  schdRandomRebuild (fun p => randomMin p && !randomHour p) drawMin

def schdRandomRebuildSec : (SchdIdx lightCnt → Rand) → SchdList lightCnt →
    Bool × SchdList lightCnt :=
  schdRandomRebuild (fun p => randomSec p && !randomHour p && !randomMin p) drawSec

/-! ### Firing -/

/-- The inner loop stops behind the last bit. -/
def schdEventCheck (taiLocal : Nat) (c : Clock lightCnt) :
    Clock lightCnt × List (SchdIdx lightCnt) :=
  if c.nearest.taiLocal = 0 then (c, [])
  else if c.nearest.taiLocal = taiLocal then
    -- check next second
    ({ c with
        nearest := (updateSchdNearestTAIToday c.schdList ((taiLocal + 1) % 2 ^ 32) c.nearest).2 },
      (schdIdxs lightCnt).filter c.nearest.entryBit)
  else (c, [])

/-- `g_schd_nearest` after `update_schd_nearest_TAI_today`. -/
def Clock.research (c : Clock lightCnt) (taiLocal : Nat) : Clock lightCnt :=
  { c with nearest := (updateSchdNearestTAIToday c.schdList taiLocal c.nearest).2 }

def rebulidSchdNearestAndCheckEvent (rebuild : Bool) (taiLocal : Nat) (c : Clock lightCnt) :
    Clock lightCnt × List (SchdIdx lightCnt) :=
  if c.time.taiSec = 0 then (c, [])
  else schdEventCheck taiLocal (if rebuild then c.research taiLocal else c)

/-- New random values at the start of a minute, an hour, a day; returns `rebuild_nearest`. -/
def schdRandomRebuildAt (taiLocal : Nat) (rand : SchdIdx lightCnt → Rand)
    (list : SchdList lightCnt) :
    Bool × SchdList lightCnt :=
  if taiLocal % 60 = 0 then
    let (rebuild, list) := schdRandomRebuildSec rand list
    if taiLocal % (60 * 60) = 0 then
      let (rebuildMin, list) := schdRandomRebuildMin rand list
      if taiLocal % (60 * 60 * 24) = 0 then (true, (schdRandomRebuildHour rand list).2)
      else (rebuild || rebuildMin, list)
    else (rebuild, list)
  else (false, list)

def meshSchedulerProc (rand : SchdIdx lightCnt → Rand) (c : Clock lightCnt) :
    Clock lightCnt × List (SchdIdx lightCnt) :=
  let taiLocal := getLocalTAI c
  let (rebuildNearest, list) := schdRandomRebuildAt taiLocal rand c.schdList
  rebulidSchdNearestAndCheckEvent rebuildNearest taiLocal { c with schdList := list }

/-! ### What happens -/

/-- `mesh_time_proc` when a second is over: one turn of its loop. -/
def meshTimeProc (rand : SchdIdx lightCnt → Rand) (c : Clock lightCnt) :
    Clock lightCnt × List (SchdIdx lightCnt) :=
  if c.time.taiSec = 0 then (c, [])
  else meshSchedulerProc rand { c with time := { c.time with taiSec := c.time.taiSec + 1 } }

def meshTimeSet (p : TimeStatus) (c : Clock lightCnt) : Clock lightCnt × List (SchdIdx lightCnt) :=
  if (p.taiSecRsv = 0 ∨ p.timeAuth) ∧ isValidTAISecond p.taiSec then
    let c := { c with time := p }
    rebulidSchdNearestAndCheckEvent true (getLocalTAI c) c
  else (c, [])

def meshCmdSigTimeZoneSet (zoneOffsetNew : BitVec 8) (c : Clock lightCnt) :
    Clock lightCnt × List (SchdIdx lightCnt) :=
  ({ c with zoneOffsetNew := zoneOffsetNew, time := { c.time with zoneOffset := zoneOffsetNew } },
    [])

def meshCmdSigTimeTAIUTCDeltaSet (deltaNew : BitVec 15) (c : Clock lightCnt) :
    Clock lightCnt × List (SchdIdx lightCnt) :=
  ({ c with deltaNew := deltaNew, time := { c.time with taiUTCDelta := deltaNew } }, [])

def isValidSchdPar (p : Scheduler) : Bool := ¬ (p.year.toNat > 0x64 ∨ p.hour.toNat > 0x19)

/-- The entry a command saves. -/
def schdSaved (p : Scheduler) (r : Rand) : Scheduler :=
  { p with
    randSec := if randomSec p then getRandomMinOrSec r.sec else 0
    randMin := if randomMin p then getRandomMinOrSec r.min else 0
    randHour := if randomHour p then getRandomHour r.hour else 0
    validFlagOrIdx := 1 }

/-- The index of an action set command is the field that is saved as the valid flag. -/
def Scheduler.idx (p : Scheduler) : Fin 16 := p.validFlagOrIdx.toFin

def meshCmdSigSchdActionSet (modelIdx : Fin lightCnt) (p : Scheduler) (r : Rand)
    (c : Clock lightCnt) :
    Clock lightCnt × List (SchdIdx lightCnt) :=
  if isValidSchdPar p then
    let c := { c with
      schdList := fun e => if e = (modelIdx, p.idx) then schdSaved p r else c.schdList e }
    rebulidSchdNearestAndCheckEvent true (getLocalTAI c) c
  else (c, [])

inductive ClockEvent (lightCnt : Nat)
  | tick (rand : SchdIdx lightCnt → Rand)
  | actionSet (modelIdx : Fin lightCnt) (p : Scheduler) (r : Rand)
  | timeSet (p : TimeStatus)
  | zoneSet (zoneOffsetNew : BitVec 8)
  | deltaSet (deltaNew : BitVec 15)

def clockStep (c : Clock lightCnt) : ClockEvent lightCnt → Clock lightCnt × List (SchdIdx lightCnt)
  | .tick rand => meshTimeProc rand c
  | .actionSet modelIdx p r => meshCmdSigSchdActionSet modelIdx p r c
  | .timeSet p => meshTimeSet p c
  | .zoneSet zoneOffsetNew => meshCmdSigTimeZoneSet zoneOffsetNew c
  | .deltaSet deltaNew => meshCmdSigTimeTAIUTCDeltaSet deltaNew c

end PirMesh

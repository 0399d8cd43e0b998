import Mathlib.Algebra.GroupWithZero.Nat
import Mathlib.Data.BitVec
import Mathlib.Logic.Function.Basic
import Mathlib.Logic.Function.Iterate

/-! # Time — Timed actions of the vendor time model (`user_ali_time.c`)

`ali_mesh_timing_proc` with its three stages: it collects the timings whose time
is up, removes the ones that clash, and executes what is left.  The indexes that
stand for the timing table are recorded (`used`).

`timingInfos` is memory: the table is its first `ALI_TIMING_INFO_NUM` cells, and an
index past them reads what lies behind.  A timing holds one operation group; what
the loops read past it is a parameter (`past`). -/

namespace PirMesh.Ali

def aliTimingInfoNum : Nat := 40

def aliTimingOpGroupMax : Nat := 1

def secPerHour : Int := 3600

def attrOnoff : BitVec 16 := 0x0100

/-- The mark of an entry that is not executed. -/
def noTiming : Nat := 0xFF

/-! ### Data -/

/-- `timing_op_group_t` -/
structure OpGroup where
  attrType : BitVec 16
  attrPara : BitVec 8
  deriving DecidableEq, Repr

inductive TimingType
  | single
  | cycle
  deriving DecidableEq, Repr

/-- `ali_timing_info_t` -/
structure TimingInfo where
  activeTime : BitVec 32
  time : BitVec 32
  type : TimingType
  schedule : BitVec 8
  opGroupNum : BitVec 16
  opGroup : OpGroup
  deriving DecidableEq, Repr

/-- `model_vd_ali_time.timing_infos` and what lies behind it. -/
abbrev TimingInfos := Nat → TimingInfo

/-- What `op_groups[x]` of timing `i` reads for `x` from `ALI_TIMING_OP_GROUP_MAX` on. -/
abbrev Past := TimingInfos → Nat → Nat → OpGroup

/-- `ali_unix_sntp_para_t` -/
structure SntpPara where
  periodTime : BitVec 16
  retryDelay : BitVec 8
  retryTimes : BitVec 8
  timezone : BitVec 8

/-- `ali_unix_sntp_tmp_t` -/
structure SntpTmp where
  busy : Bool
  periodCount : BitVec 16
  retryDelayCount : BitVec 8
  retryTimesCount : BitVec 8

structure AliTime where
  sntpPara : SntpPara
  timingInfos : TimingInfos
  sntpTmp : SntpTmp
  aliUnixTime : BitVec 32
  aliMeshTimeTick : BitVec 32
  saveTimeInfoFlag : Bool

/-- `timezone * SEC_PER_HOUR`; the zone is an `s8`. -/
def SntpPara.zone (p : SntpPara) : BitVec 32 := BitVec.ofInt 32 (p.timezone.toInt * secPerHour)

/-! ### Time -/

def unixTime2minutesOfDay (unixTime : Nat) : Nat := unixTime % 86400 / 60

/-- From Monday on. -/
def getWeekFromUnixTime (unixTime : Nat) : Nat := (unixTime / 86400 + 3) % 7

/-! ### Collecting -/

/-- `active_time > 0 && active_time != U32_MAX` -/
def TimingInfo.active (info : TimingInfo) : Bool :=
  0 < info.activeTime ∧ info.activeTime ≠ BitVec.allOnes 32

/-- Deletes a timing. -/
def delete (t : TimingInfos) (i : Nat) : TimingInfos :=
  Function.update t i { t i with activeTime := 0 }

theorem delete_self (t : TimingInfos) (i : Nat) : delete t i i = { t i with activeTime := 0 } :=
  Function.update_self _ _ _

theorem delete_ne (t : TimingInfos) {i k : Nat} (h : k ≠ i) : delete t i k = t k :=
  Function.update_of_ne h _ _

/-- One turn of the collecting loop on the entries found so far and the table. -/
def collectOne (zone now : BitVec 32) (st : List Nat × TimingInfos) (i : Nat) :
    List Nat × TimingInfos :=
  let info := st.2 i
  if info.active then
    match info.type with
    | .single =>
      let nowTime := now.toNat / 60
      let timing := (info.time + zone).toNat / 60
      if nowTime = timing then (st.1 ++ [i], st.2)
      else if nowTime > timing then (st.1, delete st.2 i)
      else st
    | .cycle =>
      if (info.time &&& 0x0FFF).toNat = unixTime2minutesOfDay now.toNat ∧
          info.schedule.getLsbD (getWeekFromUnixTime now.toNat) then
        (st.1 ++ [i], st.2)
      else st
  else st

def collect (zone now : BitVec 32) (t : TimingInfos) : List Nat × TimingInfos :=
  (List.range aliTimingInfoNum).foldl (collectOne zone now) ([], t)

/-! ### Clashes -/

/-- `timing_infos[i].op_groups[x]` -/
def opGroupAt (past : Past) (t : TimingInfos) (i x : Nat) : OpGroup :=
  if x < aliTimingOpGroupMax then (t i).opGroup else past t i x

/-- The entries left and the indexes used so far.  The array has `0xFF` from `time_up_count`
on, so a mark that lands there changes nothing. -/
structure TimeUp where
  timing : List Nat
  used : List Nat

/-- `time_up_timing[k] = 0xFF` -/
def TimeUp.mark (st : TimeUp) (k : Nat) : TimeUp := { st with timing := st.timing.set k noTiming }

/-- `time_up_timing[k]`, used as an index of the table. -/
def TimeUp.at (st : TimeUp) (k : Nat) : Nat := st.timing.getD k noTiming

def TimeUp.use (st : TimeUp) (i : Nat) : TimeUp := { st with used := st.used ++ [i] }

variable (past : Past) (t : TimingInfos)

/-- Group `x` of `info0 = a` against group `y` of `info1 = b`, the latter from place `j`. -/
def clashGroup (a b j x : Nat) (st : TimeUp) (y : Nat) : TimeUp :=
  if (opGroupAt past t a x).attrType = (opGroupAt past t b y).attrType then
    if (t a).activeTime > (t b).activeTime then st.mark j else st.mark x
  else st

def clashGroups (a b j : Nat) (st : TimeUp) (x : Nat) : TimeUp :=
  (List.range (t b).opGroupNum.toNat).foldl (clashGroup past t a b j x) st

/-- `info0 = a` against the entry at place `j`. -/
def clashWith (a : Nat) (st : TimeUp) (j : Nat) : TimeUp :=
  let b := st.at j
  (List.range (t a).opGroupNum.toNat).foldl (clashGroups past t a b j) (st.use b)

def clashFrom (timeUpCount : Nat) (st : TimeUp) (i : Nat) : TimeUp :=
  let a := st.at i
  (List.range' (i + 1) (timeUpCount - (i + 1))).foldl (clashWith past t a) (st.use a)

def clash (st : TimeUp) : TimeUp :=
  if 1 < st.timing.length then
    (List.range st.timing.length).foldl (clashFrom past t st.timing.length) st
  else st

/-! ### Executing -/

/-- What a pass sends for a timing: the on/off messages to the node itself and the report. -/
inductive Action
  | onoffSet (onoff : BitVec 8)
  | completion (index : Nat)
  deriving DecidableEq, Repr

/-- The actions of timing `i`; other attributes have none. -/
def actions (i : Nat) : List Action :=
  (List.range (t i).opGroupNum.toNat).flatMap (fun j =>
    if (opGroupAt past t i j).attrType = attrOnoff then
      [.onoffSet (opGroupAt past t i j).attrPara]
    else []) ++ [.completion i]

structure Executed where
  timingInfos : TimingInfos
  sent : List Action
  used : List Nat
  save : Bool

def executeOne (st : Executed) (i : Nat) : Executed :=
  if i = noTiming then st
  else
    let sent := st.sent ++ actions past st.timingInfos i
    let used := st.used ++ [i]
    if (st.timingInfos i).type = .single then ⟨delete st.timingInfos i, sent, used, true⟩
    else ⟨st.timingInfos, sent, used, st.save⟩

def execute (st : TimeUp) : Executed :=
  st.timing.foldl (executeOne past) ⟨t, [], st.used, false⟩

/-! ### A second -/

/-- The synchronisation at the end of a pass, and whether it asks for the time. -/
def sntpProc (para : SntpPara) (tmp : SntpTmp) : SntpTmp × Bool :=
  let tmp := { tmp with periodCount := tmp.periodCount + 1 }
  if !tmp.busy then
    if tmp.periodCount ≥ para.periodTime then
      ({ tmp with periodCount := 0, busy := true, retryTimesCount := tmp.retryTimesCount + 1 },
        true)
    else (tmp, false)
  else
    let tmp := { tmp with retryDelayCount := tmp.retryDelayCount + 1 }
    if tmp.retryDelayCount ≥ para.retryDelay then
      let tmp := { tmp with retryDelayCount := 0, retryTimesCount := tmp.retryTimesCount + 1 }
      if tmp.retryTimesCount ≥ para.retryTimes then
        ({ tmp with retryTimesCount := 0, busy := false }, true)
      else (tmp, true)
    else (tmp, false)

/-- The stages of a pass on the timing table at local time `now`. -/
def timingStages (zone now : BitVec 32) : Executed :=
  let timeUp := collect zone now t
  execute past timeUp.2 (clash past timeUp.2 ⟨timeUp.1, List.range aliTimingInfoNum⟩)

/-- `ali_mesh_timing_proc` -/
def aliMeshTimingProc (s : AliTime) (now : BitVec 32) : AliTime :=
  if now.toNat % 60 = 0 then
    let done := timingStages past s.timingInfos s.sntpPara.zone now
    { s with
      timingInfos := done.timingInfos
      saveTimeInfoFlag := s.saveTimeInfoFlag || done.save
      sntpTmp := (sntpProc s.sntpPara s.sntpTmp).1 }
  else s

/-- The local time of the next second. -/
def AliTime.nextLocal (s : AliTime) : BitVec 32 := s.aliUnixTime + 1 + s.sntpPara.zone

/-- One turn of the loop of `user_ali_time_proc`. -/
def second (s : AliTime) : AliTime :=
  aliMeshTimingProc past { s with aliUnixTime := s.aliUnixTime + 1 } s.nextLocal

/-- A call of `user_ali_time_proc`: what it sees of the node. -/
structure ProcCall where
  provisionSuccess : Bool
  clockTime : BitVec 32

/-- The seconds a call handles; `interval` is `ALI_MESH_TIME_CHECK_INTERVAL`. -/
def secondsOf (interval : BitVec 32) (s : AliTime) (e : ProcCall) : Nat :=
  if e.provisionSuccess then ((e.clockTime - s.aliMeshTimeTick) / interval).toNat else 0

/-- `user_ali_time_proc`, less the saving and the reports of the table. -/
def userAliTimeProc (interval : BitVec 32) (s : AliTime) (e : ProcCall) : AliTime :=
  let cnt := secondsOf interval s e
  let s := (second past)^[cnt] s
  { s with aliMeshTimeTick := s.aliMeshTimeTick + BitVec.ofNat 32 cnt * interval }

end PirMesh.Ali

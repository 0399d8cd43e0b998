import PirMesh.Friend.Cache
import PirMesh.Node.Ticks

/-! # Friend — The friendships of a friend node (`mesh_fn.c`)

A friend node has a slot for each low power node it can serve: the state of the
friendship (`fri_ship_proc_fn`), what the low power node asked for, its cache and the
response that waits for its delay.  `meshFriendShipProcFN` is the walk over the slots,
for a received control message or, with none, for the timeouts.  What a slot sends
(offers, clears, confirmations) is left out, except for the response to a poll. -/

namespace PirMesh

open Ring

/-! ### The slot of a low power node -/

/-- `FRI_ST_IDLE` and the others; a friend node has no use for `request` and `update`. -/
inductive FriSt
  | idle
  | request
  | offer
  | poll
  | update
  | timeoutCheck
  deriving DecidableEq, Repr

structure MeshFriShipProcFn where
  offerTick : BitVec 32
  offerDelay : BitVec 32
  pollTick : BitVec 32
  clearByLpnTick : BitVec 32
  clearStartTick : BitVec 32
  clearCmdTick : BitVec 32
  clearInt100ms : BitVec 32
  clearPoll : Bool
  clearDelayCnt : BitVec 8
  status : FriSt
  deriving DecidableEq, Repr

structure MeshCtlFriReq where
  minCacheSizeLog : BitVec 3
  recWinFac : BitVec 2
  rssiFac : BitVec 2
  recDelay : BitVec 8
  pollTimeout : BitVec 24
  preAdr : BitVec 16
  numEle : BitVec 8
  lpnCounter : BitVec 16
  deriving DecidableEq, Repr

inductive DelayType
  | none
  | poll
  | subscList
  | clearConf
  deriving DecidableEq, Repr

structure FnCtlRspDelay where
  tick : BitVec 32
  /-- The cell of the cache `poll_rsp` points at. -/
  pollRsp : Option ℕ
  adrDst : BitVec 16
  parVal : BitVec 16
  delayType : DelayType
  deriving DecidableEq, Repr

/-- Everything `mesh_fn.c` keeps under one `lpn_idx`. -/
structure FriendSlot where
  lpnAdr : BitVec 16
  friAdr : BitVec 16
  subsList : List (BitVec 16)
  nkSelDecFn : BitVec 8
  transNo : BitVec 8
  linkOk : Bool
  cache : FriendCache
  req : MeshCtlFriReq
  fsn : Bool
  delay : FnCtlRspDelay
  proc : MeshFriShipProcFn

/-- The rest of the node, as far as the slots depend on it. -/
structure FriendNode where
  /-- The logarithm of the number of cells of a cache, which is a `u8`. -/
  cacheSizeLog : ℕ
  cacheSizeLog_lt : cacheSizeLog < 8
  eleAdrPrimary : BitVec 16
  isOwnEle : BitVec 16 → Bool
  /-- `RecWin` and `RSSI` of the offers. -/
  recWin : BitVec 8
  rssi : BitVec 8

/-! ### Clearing -/

def meshFriShipProcZero : MeshFriShipProcFn where
  offerTick := 0
  offerDelay := 0
  pollTick := 0
  clearByLpnTick := 0
  clearStartTick := 0
  clearCmdTick := 0
  clearInt100ms := 0
  clearPoll := false
  clearDelayCnt := 0
  status := .idle

def meshFriendShipProcInitFn (s : FriendSlot) : FriendSlot := { s with proc := meshFriShipProcZero }

def subListMaxLpn : ℕ := 5

/-- All but the cells of the cache is cleared. -/
def meshFriendShipClearFN (s : FriendSlot) : FriendSlot where
  lpnAdr := 0
  friAdr := 0
  subsList := List.replicate subListMaxLpn 0
  nkSelDecFn := 0
  transNo := 0
  linkOk := false
  cache := ⟨{ s.cache.fifo with wptr := 0, rptr := 0 }, false⟩
  req := ⟨0, 0, 0, 0, 0, 0, 0, 0⟩
  fsn := false
  delay := ⟨0, none, 0, 0, .none⟩
  proc := meshFriShipProcZero

def friendShipDisconnectFn (s : FriendSlot) : FriendSlot := meshFriendShipClearFN s

def isInMeshFriendStFn (s : FriendSlot) : Bool := s.linkOk ∧ s.lpnAdr ≠ 0

/-! ### Requests -/

def meshFriendRequestIsValid (r : MeshCtlFriReq) : Bool :=
  r.minCacheSizeLog ≠ 0 ∧ 0x0A ≤ r.recDelay ∧ 0x0A ≤ r.pollTimeout ∧ r.pollTimeout ≤ 0x34BBFF ∧
    r.numEle ≠ 0

def meshGetValWithFactor (val : BitVec 32) (fac : BitVec 2) : BitVec 32 :=
  if fac = 1 then val * 3 / 2 else if fac = 2 then val * 2 else if fac = 3 then val * 5 / 2 else val

/-- The difference is an `int`. -/
def meshFriendLocalDelay (node : FriendNode) (r : MeshCtlFriReq) : BitVec 32 :=
  let tDelay := meshGetValWithFactor (node.recWin.setWidth 32) r.recWinFac -
    meshGetValWithFactor (node.rssi.signExtend 32) r.rssiFac
  if tDelay.slt 100 then 100 else tDelay

/-- A request that takes the slot: it is cleared, and waits for the offer. -/
def friendRequestSlot (node : FriendNode) (s : FriendSlot) (src : BitVec 16)
    (netkeySelDec : BitVec 8)
    (r : MeshCtlFriReq) (now : BitVec 32) : FriendSlot :=
  let s := meshFriendShipClearFN s
  { s with
    lpnAdr := src
    friAdr := node.eleAdrPrimary
    nkSelDecFn := netkeySelDec
    transNo := -1
    fsn := true
    req := r
    proc := { s.proc with
      offerTick := now ||| 1, offerDelay := meshFriendLocalDelay node r, status := .offer } }

/-! ### Polls -/

/-- A friend poll and what else the friend takes from its clocks and from the library. -/
structure FriendPoll where
  fsn : Bool
  rfu : BitVec 7
  dst : BitVec 16
  /-- `timeStamp` of the report, or `clock_time()` when that is too old. -/
  timeStamp : BitVec 32
  now100ms : BitVec 32
  /-- The friend update `mesh_tx_cmd_layer_upper_ctl_FN` puts into the cache if it is empty. -/
  update : MeshCmdBear

def meshFriendSetDelayParPoll (s : FriendSlot) (rsp : Option ℕ) (timeStamp : BitVec 32) :
    FriendSlot :=
  { s with delay := { s.delay with delayType := .poll, tick := timeStamp, pollRsp := rsp } }

def meshFriendSetDelayPar (s : FriendSlot) (t : DelayType) (adrDst parVal : BitVec 16)
    (now : BitVec 32) : FriendSlot :=
  { s with delay := { s.delay with delayType := t, tick := now, adrDst, parVal } }

section

variable (lib : FriendLib) (node : FriendNode)

/-- The first poll establishes the friendship. -/
def friendEstablish (s : FriendSlot) : FriendSlot :=
  let t := meshFriendShipProcInitFn { s with linkOk := true }
  if s.req.preAdr ≠ 0 ∧ !node.isOwnEle s.req.preAdr then
    { t with proc := { t.proc with clearDelayCnt := 1 } }
  else t

/-- A new FSN takes the oldest message out, unless the ring overflowed. -/
def friendPollPop (k : ℕ) (c : FriendCache) : FriendCache :=
  if (myFifoGet k c.fifo).isSome then
    if c.cacheOverwrite then { c with cacheOverwrite := false }
    else { c with fifo := myFifoPop c.fifo }
  else c

/-- What a poll does to the cache; one that is empty gets a friend update. -/
def friendPollCache (s : FriendSlot) (p : FriendPoll) : FriendSlot :=
  let k := node.cacheSizeLog
  if s.fsn ≠ p.fsn then
    let c := friendPollPop k s.cache
    { s with
      fsn := p.fsn
      cache := if (myFifoGet k c.fifo).isSome then c else meshFriCmd2cache lib k c p.update }
  else s

/-- The rest of a poll that is accepted. -/
def friendPollRsp (s : FriendSlot) (p : FriendPoll) : FriendSlot :=
  let s := friendPollCache lib node s p
  let s := meshFriendSetDelayParPoll s (myFifoGet node.cacheSizeLog s.cache.fifo) p.timeStamp
  { s with proc := { s.proc with status := .timeoutCheck, pollTick := p.now100ms } }

/-- The branch of a poll, after its checks. -/
def friendPollSlot (s : FriendSlot) (p : FriendPoll) : FriendSlot :=
  if s.proc.offerTick ≠ 0 then friendPollRsp lib node (friendEstablish node s) p
  else if s.proc.clearByLpnTick ≠ 0 then friendShipDisconnectFn s
  else friendPollRsp lib node s p

end

/-! ### Subscription lists -/

def friendSubscListAddAdr (l add : List (BitVec 16)) : List (BitVec 16) :=
  add.foldl (fun l a => if a ∈ l then l else l.set (l.idxOf 0) a) l

def friendSubscListRmvAdr (l rmv : List (BitVec 16)) : List (BitVec 16) :=
  rmv.foldl (fun l a => l.map fun b => if a = b then 0 else b) l

/-! ### The delayed response -/

/-- The slot after the call and the bearer that is sent for a poll. -/
def meshFriendResponseDelayProcFn (s : FriendSlot) (now now100ms : BitVec 32) :
    FriendSlot × Option MeshCmdBear :=
  let d := s.delay
  if d.delayType ≠ .none ∧
    clockTickExceed now d.tick (s.req.recDelay.setWidth 32 * 1000 - 1800) then
    let t := { s with delay := { d with delayType := .none } }
    if d.delayType = .poll then
      let t := if t.proc.clearDelayCnt = 0 then t
        else if t.proc.clearDelayCnt = 1 then
          { t with proc := { t.proc with
            clearDelayCnt := 0, clearCmdTick := now100ms, clearStartTick := now100ms
            clearInt100ms := 10, clearPoll := true } }
        else { t with proc := { t.proc with clearDelayCnt := t.proc.clearDelayCnt - 1 } }
      (t, d.pollRsp.map s.cache.fifo.cell)
    else (t, none)
  else (s, none)

/-! ### The walk over the slots -/

/-- The timeouts of one slot. -/
def friendTimeoutStatus (s : FriendSlot) (now now100ms : BitVec 32) : FriendSlot :=
  match s.proc.status with
  | .idle | .request | .update => s
  | .offer =>
    if clockTickExceed now s.proc.offerTick (s.proc.offerDelay * 1000) then
      { s with proc := { s.proc with offerTick := now ||| 1, status := .poll } }
    else s
  | .poll =>
    if clockTickExceed now s.proc.offerTick ((500 + (1000 + 100)) * 1000) then
      meshFriendShipProcInitFn s
    else s
  | .timeoutCheck =>
    if clockTimeExceed100ms now100ms s.proc.pollTick (s.req.pollTimeout.setWidth 32) then
      friendShipDisconnectFn s
    else s

def friendTimeoutClear (s : FriendSlot) (now100ms : BitVec 32) : FriendSlot :=
  if s.proc.clearPoll then
    if clockTimeExceed100ms now100ms s.proc.clearStartTick (s.req.pollTimeout.setWidth 32 * 2) then
      { s with proc := { s.proc with clearPoll := false } }
    else if clockTimeExceed100ms now100ms s.proc.clearCmdTick s.proc.clearInt100ms then
      { s with proc := { s.proc with
        clearCmdTick := now100ms, clearInt100ms := s.proc.clearInt100ms <<< 1 } }
    else s
  else s

def friendTimeoutLpn (s : FriendSlot) (now : BitVec 32) : FriendSlot :=
  if s.proc.clearByLpnTick ≠ 0 ∧ clockTickExceed now s.proc.clearByLpnTick (5 * 1000 * 1000) then
    friendShipDisconnectFn s
  else s

def friendTimeout (now now100ms : BitVec 32) (s : FriendSlot) : FriendSlot :=
  friendTimeoutLpn (friendTimeoutClear (friendTimeoutStatus s now now100ms) now100ms) now

/-- The control messages of `mesh_friend_ship_proc_FN`. -/
inductive FriendMsg
  | request (netkeySelDec : BitVec 8) (r : MeshCtlFriReq)
  | poll (p : FriendPoll)
  | clear (lpnAdr lpnCounter : BitVec 16)
  | clrConf (lpnAdr : BitVec 16)
  /-- `CMD_CTL_SUBS_LIST_ADD`, or `CMD_CTL_SUBS_LIST_REMOVE` -/
  | subsList (add : Bool) (transNo : BitVec 8) (adr : List (BitVec 16))
  | other

/-- A received message with its source and the clocks. -/
structure FriendRx where
  src : BitVec 16
  msg : FriendMsg
  now : BitVec 32
  now100ms : BitVec 32

/-- The message is one for slots of any source, or the slot is of its source. -/
def friendRxPasses (s : FriendSlot) (rx : FriendRx) : Bool :=
  match rx.msg with
  | .request .. | .clear .. | .clrConf .. => true
  | _ => s.proc.status ≠ .idle ∧ s.lpnAdr = rx.src

section

variable (lib : FriendLib) (node : FriendNode)

/-- The branches of the loop: the slot, and whether the function returns there. -/
def friendRxMsg (rx : FriendRx) (s : FriendSlot) : FriendSlot × Bool :=
  let continue' (s : FriendSlot) := (s, false)
  let return' (s : FriendSlot) := (s, true)
  match rx.msg with
  | .request netkeySelDec r =>
    if !meshFriendRequestIsValid r then return' s
    else if s.proc.status = .idle ∨ rx.src = s.lpnAdr then
      -- idle, or was friend before
      return' (friendRequestSlot node s rx.src netkeySelDec r rx.now)
    else continue' s
  | .poll p =>
    if p.rfu ≠ 0 then return' s
    else if s.friAdr ≠ p.dst then continue' s
    else return' (friendPollSlot lib node s p)
  | .clear lpnAdr lpnCounter =>
    if s.lpnAdr = lpnAdr ∧ (lpnCounter.toNat : ℤ) - s.req.lpnCounter.toNat ≤ 255 then
      if s.lpnAdr = rx.src then
        let t := meshFriendSetDelayPar s .clearConf rx.src lpnCounter rx.now
        return' { t with proc := { t.proc with clearByLpnTick := rx.now ||| 1 } }
      else return' (friendShipDisconnectFn s)
    else continue' s
  | .clrConf lpnAdr =>
    if s.proc.clearPoll ∧ s.lpnAdr = lpnAdr then
      return' { s with proc := { s.proc with clearPoll := false } }
    else continue' s
  | .subsList add transNo adr =>
    let t := { s with
      proc := { s.proc with pollTick := rx.now100ms }
      subsList := if add then friendSubscListAddAdr s.subsList adr
        else friendSubscListRmvAdr s.subsList adr }
    continue' { meshFriendSetDelayPar t .subscList rx.src
      (transNo.setWidth 16) rx.now with transNo }
  | .other => continue' s

def friendRxSlot (rx : FriendRx) (s : FriendSlot) : FriendSlot × Bool :=
  if friendRxPasses s rx then friendRxMsg lib node rx s else (s, false)

/-- The walk of a received message: it ends at the slot that returns. -/
def friendRxWalk (rx : FriendRx) : List FriendSlot → List FriendSlot
  | [] => []
  | s :: l => match friendRxSlot lib node rx s with
    | (t, true) => t :: l
    | (t, false) => t :: friendRxWalk rx l

/-- What a friend node meets. -/
inductive FriendEvent
  | rx (rx : FriendRx)
  /-- The call without a message. -/
  | pass (now now100ms : BitVec 32)
  /-- `mesh_loop_proc_prior` -/
  | response (now now100ms : BitVec 32)

/-- `mesh_friend_ship_proc_FN` and the delayed responses, over the table of slots. -/
def meshFriendShipProcFN (l : List FriendSlot) : FriendEvent → List FriendSlot
  | .rx rx => friendRxWalk lib node rx l
  | .pass now now100ms => l.map (friendTimeout now now100ms)
  | .response now now100ms => l.map fun s => (meshFriendResponseDelayProcFn s now now100ms).1

end

/-- `mesh_friend_ship_init_all` -/
def meshFriendShipInitAll (l : List FriendSlot) : List FriendSlot := l.map meshFriendShipClearFN

/-! ### Two low power nodes -/

def idleBear : MeshCmdBear := ⟨0, 0, 0, 0, false, 0, 0, 0, 0, 0, 0, 0, 0, []⟩

/-- A slot as the reset of the chip leaves it. -/
def idleSlot : FriendSlot where
  lpnAdr := 0
  friAdr := 0
  subsList := List.replicate subListMaxLpn 0
  nkSelDecFn := 0
  transNo := 0
  linkOk := false
  cache := ⟨⟨0, 0, fun _ => idleBear⟩, false⟩
  req := ⟨0, 0, 0, 0, 0, 0, 0, 0⟩
  fsn := false
  delay := ⟨0, none, 0, 0, .none⟩
  proc := meshFriShipProcZero

theorem friendOne_cacheSizeLog_lt : 2 < 8 := by
  decide

/-- The friend with address `1`. -/
def friendOne : FriendNode where
  cacheSizeLog := 2
  cacheSizeLog_lt := friendOne_cacheSizeLog_lt
  eleAdrPrimary := 1
  isOwnEle a := a = 1
  recWin := 200
  rssi := 127

def lpnRequest (src : BitVec 16) : FriendRx :=
  ⟨src, .request 0 ⟨1, 0, 0, 100, 100, 0, 1, 0⟩, 0, 0⟩

def lpnPoll (src : BitVec 16) (fsn : Bool) : FriendRx :=
  ⟨src, .poll ⟨fsn, 0, 1, 0, 0, idleBear⟩, 0, 0⟩

end PirMesh

import PirMesh.Friend.Ship
import PirMesh.Library.FreePlaces
import PirMesh.Library.StopWait

/-! # Friend — The subscriptions of a low power node (`mesh_lpn.c`)

A low power node tells its friend the group addresses it is subscribed to, so that the
friend keeps their messages for it.  A change of the subscriptions of a model sends an
address to add or to remove, under a transaction number and again and again until the
friend confirms it; there is one record of what is to be repeated.  The node keeps a list
of its own: what is removed leaves it at once, what is added enters it with the
confirmation.

`lpnNext` is the node and its slot at the friend (`Ship`) with the messages in flight
between them.  The clocks of the node are given as what they say (`pollDue`, `subscDue`),
and the establishment of a friendship is left out: `restarted` says that one was started. -/

namespace PirMesh

open FreePlaces

/-! ### The node -/

/-- `retry_type`, which is zero before the first change. -/
inductive SubscType
  | none
  | add
  | remove
  deriving DecidableEq, Repr

/-- The addresses of a message, and whether they are added or removed. -/
structure SubscCmd where
  add : Bool
  adr : List (BitVec 16)
  deriving DecidableEq, Repr

/-- `mesh_ctl_fri_subsc_list_t` with its opcode. -/
abbrev SubscMsg := BitVec 8 × SubscCmd

/-- `mesh_subsc_list_retry_t`; `subsc_cnt` is the length of `adr`. -/
structure MeshSubscListRetry where
  retryType : SubscType
  retryCnt : BitVec 8
  transNo : BitVec 8
  adr : List (BitVec 16)
  deriving DecidableEq, Repr

/-- `lpn_subsc_list`, `subsc_list_retry`, and of `fri_ship_proc_lpn` what the procedure looks
at. -/
structure LpnNode where
  transNo : BitVec 8
  adr : List (BitVec 16)
  retry : MeshSubscListRetry
  pollRetry : BitVec 32
  status : FriSt
  deriving DecidableEq, Repr

def subListMaxInOneMsg : ℕ := 5

/-- `FRI_POLL_RETRY_MAX` -/
def lpnGetPollRetryMax : BitVec 8 := 8

/-- What is sent, if anything is. -/
def friendSubscRepeat (n : LpnNode) : Option SubscMsg :=
  match n.retry.retryType with
  | .none => none
  | .add => some (n.retry.transNo, ⟨true, n.retry.adr⟩)
  | .remove => some (n.retry.transNo, ⟨false, n.retry.adr⟩)

def friendSubscStop (n : LpnNode) : LpnNode := { n with retry := { n.retry with retryCnt := 0 } }

def friendSubscListCmdStart (type : SubscType) (adrList : List (BitVec 16)) (n : LpnNode) :
    LpnNode × Option SubscMsg :=
  if subListMaxInOneMsg < adrList.length then (n, none)
  else
    let n := { n with
      retry := ⟨type, lpnGetPollRetryMax, n.transNo, adrList⟩, transNo := n.transNo + 1 }
    (n, friendSubscRepeat n)

def friendSubscAdd (adrList : List (BitVec 16)) (n : LpnNode) : LpnNode × Option SubscMsg :=
  friendSubscListCmdStart .add adrList n

def friendSubscRmv (adrList : List (BitVec 16)) (n : LpnNode) : LpnNode × Option SubscMsg :=
  let (n, msg) := friendSubscListCmdStart .remove adrList n
  ({ n with adr := friendSubscListRmvAdr n.adr adrList }, msg)

/-- The subscription messages of the configuration server. -/
inductive CfgModelSub
  | add
  | virtualAdrAdd
  | del
  | virtualAdrDel
  | overWrite
  | virtualAdrOverWrite
  | delAll
  deriving DecidableEq, Repr

def lpnSubscListUpdateBySubSetCmd (op : CfgModelSub) (subAdr : BitVec 16) (n : LpnNode) :
    LpnNode × Option SubscMsg :=
  match op with
  | .add | .virtualAdrAdd => friendSubscAdd [subAdr] n
  | .del | .virtualAdrDel => friendSubscRmv [subAdr] n
  | .overWrite | .virtualAdrOverWrite | .delAll => (n, none)

/-- `mesh_friend_ship_proc_LPN` without a message. -/
def meshFriendShipProcLPN (pollDue subscDue : Bool) (n : LpnNode) : LpnNode × Option SubscMsg :=
  if n.pollRetry ≠ 0 ∧ pollDue then
    let n := { n with pollRetry := n.pollRetry - 1 }
    if n.pollRetry = 0 ∧ n.status ≠ .update then
      ({ friendSubscStop n with status := .request }, none)
    else (n, none)
  else if n.retry.retryCnt ≠ 0 ∧ subscDue then
    let n := { n with retry := { n.retry with retryCnt := n.retry.retryCnt - 1 } }
    if n.retry.retryCnt = 0 then ({ n with status := .request }, none)
    else (n, friendSubscRepeat n)
  else (n, none)

/-- `mesh_friend_ship_proc_LPN` with a `CMD_CTL_SUBS_LIST_CONF`. -/
def lpnSubsListConf (transNo : BitVec 8) (n : LpnNode) : LpnNode :=
  if n.status = .idle ∧ transNo = n.retry.transNo then
    friendSubscStop { n with
      adr := if n.retry.retryType = .add then friendSubscListAddAdr n.adr n.retry.adr else n.adr }
  else n

/-! ### The subscriptions -/

/-- Group and virtual addresses. -/
abbrev GroupAdr := { a : BitVec 16 // a.msb = true }

/-- The pairs of a model and an address it is subscribed to. -/
abbrev ModelSubs := Finset (ℕ × BitVec 16)

/-- What a subscription message makes of them. -/
def subSet (op : CfgModelSub) (model : ℕ) (adr : BitVec 16) (s : ModelSubs) : ModelSubs :=
  match op with
  | .add | .virtualAdrAdd => insert (model, adr) s
  | .del | .virtualAdrDel => s.erase (model, adr)
  | .overWrite | .virtualAdrOverWrite => insert (model, adr) (s.filter (·.1 ≠ model))
  | .delAll => s.filter (·.1 ≠ model)

/-- The addresses the node is subscribed to. -/
def subscribed (s : ModelSubs) : Finset (BitVec 16) := s.image Prod.snd

/-! ### The node and its friend -/

/-- The confirmation that waits for its delay. -/
def heldConf (s : FriendSlot) : Option (BitVec 8) :=
  if s.delay.delayType = .subscList then some (s.delay.parVal.setWidth 8) else none

/-- What `mesh_friend_response_delay_proc_fn` sends of it. -/
def friendSubscConf (s : FriendSlot) (now : BitVec 32) : Option (BitVec 8) :=
  if clockTickExceed now s.delay.tick (s.req.recDelay.setWidth 32 * 1000 - 1800) then heldConf s
  else none

/-- The messages in flight stand oldest first. -/
structure LpnLink where
  subs : ModelSubs
  lpn : LpnNode
  toFn : List SubscMsg
  fn : FriendSlot
  toLpn : List (BitVec 8)
  restarted : Bool

inductive LpnEvent
  | change (op : CfgModelSub) (model : ℕ) (adr : GroupAdr)
  | pass (pollDue subscDue : Bool)
  /-- `mesh_friend_ship_start_poll` and `mesh_friend_ship_stop_poll` -/
  | pollRetry (cnt : BitVec 32)
  | loseReq (i : ℕ)
  | loseConf (i : ℕ)
  | rxReq (now now100ms : BitVec 32)
  | rxConf
  /-- Any other message for the friend. -/
  | fnRx (rx : FriendRx)
  | fnPass (now now100ms : BitVec 32)
  | fnResponse (now now100ms : BitVec 32)

section

variable (lib : FriendLib) (node : FriendNode) (lpnAdr : BitVec 16)

/-- The friend takes the subscription list messages of the node from `toFn` only. -/
def fnRxOther (rx : FriendRx) (s : FriendSlot) : FriendSlot :=
  match rx.msg with
  | .subsList .. => s
  | _ => (friendRxSlot lib node rx s).1

def fnRxReq (now now100ms : BitVec 32) (m : SubscMsg) (s : FriendSlot) : FriendSlot :=
  (friendRxSlot lib node ⟨lpnAdr, .subsList m.2.add m.1 m.2.adr, now, now100ms⟩ s).1

def lpnStep (k : LpnLink) : LpnEvent → LpnLink
  | .change op model adr =>
    let (lpn, msg) := lpnSubscListUpdateBySubSetCmd op adr k.lpn
    { k with subs := subSet op model adr k.subs, lpn, toFn := k.toFn ++ msg.toList }
  | .pass pollDue subscDue =>
    let (lpn, msg) := meshFriendShipProcLPN pollDue subscDue k.lpn
    { k with lpn, toFn := k.toFn ++ msg.toList }
  | .pollRetry cnt => { k with lpn := { k.lpn with pollRetry := cnt } }
  | .loseReq i => { k with toFn := k.toFn.eraseIdx i }
  | .loseConf i => { k with toLpn := k.toLpn.eraseIdx i }
  | .rxReq now now100ms => match k.toFn with
    | [] => k
    | m :: toFn => { k with toFn, fn := fnRxReq lib node lpnAdr now now100ms m k.fn }
  | .rxConf => match k.toLpn with
    | [] => k
    | c :: toLpn => { k with toLpn, lpn := lpnSubsListConf c k.lpn }
  | .fnRx rx => { k with fn := fnRxOther lib node rx k.fn }
  | .fnPass now now100ms => { k with fn := friendTimeout now now100ms k.fn }
  | .fnResponse now now100ms =>
    { k with
      fn := (meshFriendResponseDelayProcFn k.fn now now100ms).1
      toLpn := k.toLpn ++ (friendSubscConf k.fn now).toList }

/-- A friendship is started again by either side. -/
def lpnMark (k : LpnLink) : LpnLink :=
  { k with restarted := k.restarted || k.lpn.status ≠ .idle || !isInMeshFriendStFn k.fn }

def lpnNext (k : LpnLink) (e : LpnEvent) : LpnLink := lpnMark (lpnStep lib node lpnAdr k e)

end

end PirMesh

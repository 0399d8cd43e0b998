import PirMesh.Friend.Cache
import PirMesh.Library.NumberedQueue

/-! # Node — Advertising (`mesh_common.c`)

The link layer asks for the next packet to advertise.  The packets for a friend's low power nodes
come first; then the mesh commands, each several times with an interval between them; in the
intervals, and when there is none, the relay, the GATT advertising and the beacons, which are
`gattAdv` here.

A command is handed out once for each of its transmissions, and the number left is counted down in
the FIFO.  A low power node hands it out once, and the link layer repeats it (`retryCnt`).

Each FIFO is a queue that gives its packets several times (`Repeats.Serves`): `advCmd_cases` is
what a call of the handler does to the commands, and `advCmd_serves` what they were after any run.
A packet with count `n` is given `n + 1` times before it leaves, as one pass after another or as
one with the rest left to the link layer, and nothing else moves the FIFO. -/

namespace PirMesh

open Ring

/-! ### Packets -/

/-- `mesh_transmit_t` -/
structure MeshTransmit where
  count : BitVec 3
  invlSteps : BitVec 5
  deriving DecidableEq, Repr

/-- `mesh_cmd_bear_unseg_t`, of 32 bytes: the three before the payload are the transmit parameters,
the length of what follows, and the type with its flags. -/
structure AdvBear where
  transmit : MeshTransmit
  type : BitVec 8
  payload : List (BitVec 8)
  fits : payload.length ≤ 29
  deriving DecidableEq

namespace AdvBear

def len (b : AdvBear) : BitVec 8 := BitVec.ofNat 8 (b.payload.length + 1)

def setType (b : AdvBear) (type : BitVec 8) : AdvBear := { b with type }

def setCount (b : AdvBear) (count : BitVec 3) : AdvBear :=
  { b with transmit := { b.transmit with count } }

end AdvBear

/-- `RSP_DELAY_FLAG` -/
def rspDelayFlag : BitVec 8 := 0x80

/-- `MD_PUB_FLAG` -/
def mdPubFlag : BitVec 8 := 0x40

/-- `BEAR_TYPE_FLAG` -/
def bearTypeFlag : BitVec 8 := rspDelayFlag ||| mdPubFlag

/-- `MESH_ADV_TYPE_ONLINE_ST` -/
def meshAdvTypeOnlineSt : BitVec 8 := 0x62

/-- `p->data`, `none` when the packet is too long for it. -/
def meshAdvCmdSet (b : AdvBear) : Option (List (BitVec 8)) :=
  let lenPayload := b.len + 1
  if lenPayload > 31 then none else some ((b.len :: b.type :: b.payload).take lenPayload.toNat)

/-! ### The handler -/

/-- The options of a build; `numLog` and `fnNumLog` are the logarithms of the sizes of the FIFOs. -/
structure AdvCfg where
  featureFriendEn : Bool
  onlineStatusEn : Bool
  /-- `MI_SWITCH_LPN_EN` or `SPIRIT_PRIVATE_LPN_EN` -/
  switchLpnEn : Bool
  numLog : ℕ
  fnNumLog : ℕ
  numLog_lt : numLog < 8
  fnNumLog_lt : fnNumLog < 8

structure AdvNode where
  advCmdFifo : MyFifo AdvBear
  fn2lpnFifo : MyFifo AdvBear
  txCmdBusyCnt : BitVec 8
  rspRandomDelayStep : BitVec 8

/-- What the handler finds outside of the FIFOs. -/
structure PrepareInput where
  /-- `send_gatt_adv_now_flag` -/
  gattNow : Bool
  /-- `soft_timer_send_flag` -/
  softTimerSend : Bool
  /-- The time of the response delay is not over. -/
  rspDelayed : Bool
  /-- `is_lpn_support_and_en`, or `multi_addr_key_flag`. -/
  advRetryFlag : Bool
  /-- What `gatt_adv_prepare_handler` returns. -/
  gattAdv : Bool
  deriving DecidableEq, Repr

/-- What the link layer is given: the data of a packet, and how often to repeat it. -/
inductive Handed
  | nothing
  | gatt
  | friend (data : List (BitVec 8)) (retryCnt : ℕ)
  | cmd (data : List (BitVec 8)) (retryCnt : ℕ)
  deriving DecidableEq, Repr

/-- The type that is sent: without the flags, which an online status has none of. -/
def advType (cfg : AdvCfg) (type : BitVec 8) : BitVec 8 :=
  if cfg.onlineStatusEn ∧ type = meshAdvTypeOnlineSt then type else type &&& ~~~bearTypeFlag

/-- The passes without a command after one of `b`; the interval of a publication is in 50 ms. -/
def txCmdBusyCnt (cfg : AdvCfg) (b : AdvBear) : BitVec 8 :=
  if cfg.switchLpnEn then 0
  else if b.type &&& mdPubFlag ≠ 0 ∧ ¬ (cfg.onlineStatusEn ∧ b.type = meshAdvTypeOnlineSt) then
    (b.transmit.invlSteps.setWidth 8 + 1) * 5 - 1
  else b.transmit.invlSteps.setWidth 8

def gattHanded (i : PrepareInput) : Handed := if i.gattAdv then .gatt else .nothing

/-- The response delay of the packet is over, or it has none. -/
def rspDelayOver (s : AdvNode) (b : AdvBear) (i : PrepareInput) : Bool :=
  b.type &&& rspDelayFlag == 0 || s.rspRandomDelayStep == 0 || !i.rspDelayed

/-- The oldest command, in this cell, is sent. -/
def advCmdSend (cfg : AdvCfg) (s : AdvNode) (i : PrepareInput) (cell : ℕ) : AdvNode × Handed :=
  let b := s.advCmdFifo.cell cell
  let step := if b.type &&& rspDelayFlag = 0 then s.rspRandomDelayStep else 0
  let busy := if i.advRetryFlag then 0 else txCmdBusyCnt cfg b
  let bearType := b.type
  let b := b.setType (advType cfg b.type)
  let data := meshAdvCmdSet b
  let b := b.setType bearType
  let retryCnt := if i.advRetryFlag then b.transmit.count.toNat else 0
  let b := if i.advRetryFlag then b.setCount 0 else b
  let fifo :=
    if b.transmit.count = 0 then myFifoPop (s.advCmdFifo.set cell b)
    else s.advCmdFifo.set cell (b.setCount (b.transmit.count - 1))
  ({ s with advCmdFifo := fifo, txCmdBusyCnt := busy, rspRandomDelayStep := step },
    match data with
    | some data => .cmd data retryCnt
    | none => .nothing)

/-- The commands, when nothing is due before them. -/
def advCmdPrepare (cfg : AdvCfg) (s : AdvNode) (i : PrepareInput) : AdvNode × Handed :=
  if s.txCmdBusyCnt ≠ 0 then ({ s with txCmdBusyCnt := s.txCmdBusyCnt - 1 }, gattHanded i)
  else
    match myFifoGet cfg.numLog s.advCmdFifo with
    | none => (s, if i.softTimerSend then .nothing else gattHanded i)
    | some cell =>
      if rspDelayOver s (s.advCmdFifo.cell cell) i then advCmdSend cfg s i cell
      else (s, gattHanded i)

def appAdvertisePrepareHandler (cfg : AdvCfg) (s : AdvNode) (i : PrepareInput) :
    AdvNode × Handed :=
  if i.gattNow then (s, gattHanded i)
  else
    match if cfg.featureFriendEn then myFifoGet cfg.fnNumLog s.fn2lpnFifo else none with
    | none => advCmdPrepare cfg s i
    | some cell =>
      let b := s.fn2lpnFifo.cell cell
      ({ s with fn2lpnFifo := myFifoPop s.fn2lpnFifo },
        match meshAdvCmdSet b with
        | some data => .friend data b.transmit.count.toNat
        | none => .nothing)

/-! ### Runs -/

/-- A packet is pushed to one of the FIFOs, a response is delayed, or the handler is called. -/
inductive AdvEvent
  | push (b : AdvBear)
  | pushFriend (b : AdvBear)
  | rspDelaySet (step : BitVec 8)
  | prepare (i : PrepareInput)

/-- A node, and what is not in the code: the packets its FIFOs took, and what was handed out. -/
structure AdvRun where
  node : AdvNode
  pushed : List AdvBear
  friendPushed : List AdvBear
  handed : List Handed

/-- `MYFIFO_INIT`, before the first packet. -/
def AdvRun.initial (cell : ℕ → AdvBear) : AdvRun where
  node := ⟨⟨0, 0, cell⟩, ⟨0, 0, cell⟩, 0, 0⟩
  pushed := []
  friendPushed := []
  handed := []

/-- A FIFO that is full takes no packet. -/
def AdvRun.next (cfg : AdvCfg) (r : AdvRun) : AdvEvent → AdvRun
  | .push b =>
    if r.node.advCmdFifo.count < 2 ^ cfg.numLog then
      { r with
        node := { r.node with advCmdFifo := r.node.advCmdFifo.push cfg.numLog b }
        pushed := r.pushed ++ [b] }
    else r
  | .pushFriend b =>
    if r.node.fn2lpnFifo.count < 2 ^ cfg.fnNumLog then
      { r with
        node := { r.node with fn2lpnFifo := r.node.fn2lpnFifo.push cfg.fnNumLog b }
        friendPushed := r.friendPushed ++ [b] }
    else r
  | .rspDelaySet step => { r with node := { r.node with rspRandomDelayStep := step } }
  | .prepare i =>
    let (node, handed) := appAdvertisePrepareHandler cfg r.node i
    { r with node, handed := r.handed ++ [handed] }

/-! ### Every packet is sent as often as it is to be -/

open Repeats

/-! ### Packets -/

namespace AdvBear

/-- A packet and how often to send it again. -/
def split (b : AdvBear) : AdvBear × ℕ := (b.setCount 0, b.transmit.count.toNat)

/-- The data of a packet that is sent with this type. -/
def data (b : AdvBear) (type : BitVec 8) : List (BitVec 8) := b.len :: type :: b.payload

theorem meshAdvCmdSet_eq (b : AdvBear) : meshAdvCmdSet b = some (b.data b.type) := by
  have hfits := b.fits
  have hlen : (b.len + 1).toNat = b.payload.length + 2 := by
    unfold len
    rw [BitVec.toNat_add, BitVec.toNat_ofNat]
    show ((b.payload.length + 1) % 256 + 1) % 256 = _
    omega
  have hshort : ¬ b.len + 1 > 31 := by
    rw [gt_iff_lt, BitVec.lt_def, hlen]
    show ¬ 31 < _
    omega
  unfold meshAdvCmdSet
  dsimp only
  rw [if_neg hshort, hlen]
  refine congrArg some (List.take_of_length_le ?_)
  rw [List.length_cons, List.length_cons]

theorem split_setCount (b : AdvBear) (n : BitVec 3) :
    (b.setCount n).split = (b.split.1, n.toNat) := rfl

end AdvBear

/-! ### FIFOs -/

section

variable {α : Type} {k cell : ℕ} {f : MyFifo α}

/-- The oldest entry. -/
theorem contents_of_get (hk : k < 8) (h : myFifoGet k f = some cell) :
    f.count ≠ 0 ∧ cell = slot k f.rptr ∧ f.contents k = f.cell cell :: (f.contents k).tail := by
  rw [myFifoGet_eq hk] at h
  split_ifs at h with h0
  obtain rfl := (Option.some.inj h).symm
  exact ⟨h0, rfl, (List.cons_head?_tail (Buf.head_contents h0)).symm⟩

theorem contents_set_head (hk : k < 8) (hroom : f.count ≤ 2 ^ k)
    (h : myFifoGet k f = some cell) (x : α) :
    (f.set cell x).contents k = x :: (f.contents k).tail := by
  obtain ⟨h0, rfl, hcons⟩ := contents_of_get hk h
  have hset := Buf.contents_set hk x hroom (Nat.pos_of_ne_zero h0)
  rw [BitVec.add_zero] at hset
  rw [hset, hcons]
  rfl

theorem contents_pop_head (hk : k < 8) (h : myFifoGet k f = some cell) :
    (myFifoPop f).contents k = (f.contents k).tail := Buf.contents_pop (contents_of_get hk h).1

theorem count_pop_le (hk : k < 8) (h : myFifoGet k f = some cell) (hroom : f.count ≤ 2 ^ k) :
    (myFifoPop f).count ≤ 2 ^ k := by
  have hpop : (myFifoPop f).count = f.count - 1 := Buf.count_pop (contents_of_get hk h).1
  rw [hpop]
  exact (Nat.sub_le _ 1).trans hroom

end

/-! ### One call -/

/-- What is sent of a command, with the repetitions. -/
def cmdSent : Handed → List (List (BitVec 8))
  | .cmd data retryCnt => List.replicate (retryCnt + 1) data
  | .nothing | .gatt | .friend .. => []

def friendSent : Handed → List (List (BitVec 8))
  | .friend data retryCnt => List.replicate (retryCnt + 1) data
  | .nothing | .gatt | .cmd .. => []

@[simp] theorem cmdSent_gattHanded (i : PrepareInput) : cmdSent (gattHanded i) = [] := by
  unfold gattHanded
  split_ifs
  all_goals rfl

@[simp] theorem friendSent_gattHanded (i : PrepareInput) : friendSent (gattHanded i) = [] := by
  unfold gattHanded
  split_ifs
  all_goals rfl

/-- What a call does to a FIFO: nothing, it sends the oldest packet once and counts that, or for the
last times. -/
inductive Gives (data : AdvBear → List (BitVec 8)) (before after : List AdvBear)
    (sent : List (List (BitVec 8))) : Prop
  | rests : after = before → sent = [] → Gives data before after sent
  | once (b : AdvBear) (rest : List AdvBear) : b.transmit.count ≠ 0 → before = b :: rest →
      after = b.setCount (b.transmit.count - 1) :: rest → sent = [data b] →
      Gives data before after sent
  | last (b : AdvBear) (rest : List AdvBear) : before = b :: rest → after = rest →
      sent = List.replicate (b.transmit.count.toNat + 1) (data b) → Gives data before after sent

variable {cfg : AdvCfg} {s : AdvNode} {i : PrepareInput} {cell : ℕ}

/-- The data of a command. -/
def cmdData (cfg : AdvCfg) (b : AdvBear) : List (BitVec 8) := b.data (advType cfg b.type)

def friendData (b : AdvBear) : List (BitVec 8) := b.data b.type

theorem setType_setType (b : AdvBear) (type : BitVec 8) : (b.setType type).setType b.type = b := rfl

theorem advCmdSend_eq (cfg : AdvCfg) (s : AdvNode) (i : PrepareInput) (cell : ℕ) :
    let b := s.advCmdFifo.cell cell
    (advCmdSend cfg s i cell).1.fn2lpnFifo = s.fn2lpnFifo ∧
      (advCmdSend cfg s i cell).1.advCmdFifo =
        (if i.advRetryFlag then myFifoPop (s.advCmdFifo.set cell (b.setCount 0))
        else if b.transmit.count = 0 then myFifoPop (s.advCmdFifo.set cell b)
        else s.advCmdFifo.set cell (b.setCount (b.transmit.count - 1))) ∧
      (advCmdSend cfg s i cell).2 =
        .cmd (cmdData cfg b) (if i.advRetryFlag then b.transmit.count.toNat else 0) := by
  unfold advCmdSend
  dsimp only
  rw [AdvBear.meshAdvCmdSet_eq, setType_setType]
  refine ⟨rfl, ?_, rfl⟩
  split_ifs with hretry h0 h0
  · rfl
  · exact absurd rfl h0
  · rfl
  · rfl

theorem advCmdSend_gives (hroom : s.advCmdFifo.count ≤ 2 ^ cfg.numLog)
    (hget : myFifoGet cfg.numLog s.advCmdFifo = some cell) :
    Gives (cmdData cfg) (s.advCmdFifo.contents cfg.numLog)
        ((advCmdSend cfg s i cell).1.advCmdFifo.contents cfg.numLog)
        (cmdSent (advCmdSend cfg s i cell).2) ∧
      (advCmdSend cfg s i cell).1.advCmdFifo.count ≤ 2 ^ cfg.numLog := by
  have hk := cfg.numLog_lt
  obtain ⟨-, -, hcons⟩ := contents_of_get hk hget
  obtain ⟨-, hfifo, hhanded⟩ := advCmdSend_eq cfg s i cell
  -- the cell that is written is the oldest one still
  have hset : ∀ x, myFifoGet cfg.numLog (s.advCmdFifo.set cell x) = some cell := fun _ => hget
  have hpop : ∀ x, (myFifoPop (s.advCmdFifo.set cell x)).contents cfg.numLog =
      (s.advCmdFifo.contents cfg.numLog).tail := by
    intro x
    rw [contents_pop_head hk (hset x), contents_set_head hk hroom hget]
    rfl
  rw [hfifo, hhanded]
  split_ifs with hretry h0
  · refine ⟨.last _ _ hcons (hpop _) rfl, count_pop_le hk (hset _) hroom⟩
  · refine ⟨.last _ _ hcons (hpop _) ?_, count_pop_le hk (hset _) hroom⟩
    rw [h0]
    rfl
  · exact ⟨.once _ _ h0 hcons (contents_set_head hk hroom hget _) rfl, hroom⟩

theorem advCmdPrepare_gives (i : PrepareInput) (hroom : s.advCmdFifo.count ≤ 2 ^ cfg.numLog) :
    Gives (cmdData cfg) (s.advCmdFifo.contents cfg.numLog)
        ((advCmdPrepare cfg s i).1.advCmdFifo.contents cfg.numLog)
        (cmdSent (advCmdPrepare cfg s i).2) ∧
      (advCmdPrepare cfg s i).1.advCmdFifo.count ≤ 2 ^ cfg.numLog := by
  unfold advCmdPrepare
  by_cases hbusy : s.txCmdBusyCnt ≠ 0
  · rw [if_pos hbusy]
    exact ⟨.rests rfl (cmdSent_gattHanded i), hroom⟩
  · rw [if_neg hbusy]
    cases hget : myFifoGet cfg.numLog s.advCmdFifo with
    | none =>
      refine ⟨.rests rfl ?_, hroom⟩
      dsimp only
      split_ifs
      · rfl
      · exact cmdSent_gattHanded i
    | some cell =>
      dsimp only
      split_ifs with hover
      · exact advCmdSend_gives hroom hget
      · exact ⟨.rests rfl (cmdSent_gattHanded i), hroom⟩

/-- The commands leave the packets of the friend alone. -/
theorem advCmdPrepare_friend (cfg : AdvCfg) (s : AdvNode) (i : PrepareInput) :
    (advCmdPrepare cfg s i).1.fn2lpnFifo = s.fn2lpnFifo ∧
      friendSent (advCmdPrepare cfg s i).2 = [] := by
  unfold advCmdPrepare
  by_cases hbusy : s.txCmdBusyCnt ≠ 0
  · rw [if_pos hbusy]
    exact ⟨rfl, friendSent_gattHanded i⟩
  · rw [if_neg hbusy]
    cases myFifoGet cfg.numLog s.advCmdFifo with
    | none =>
      refine ⟨rfl, ?_⟩
      dsimp only
      split_ifs
      · rfl
      · exact friendSent_gattHanded i
    | some cell =>
      dsimp only
      split_ifs with hover
      · obtain ⟨hfn, -, hhanded⟩ := advCmdSend_eq cfg s i cell
        refine ⟨hfn, ?_⟩
        rw [hhanded]
        rfl
      · exact ⟨rfl, friendSent_gattHanded i⟩

/-- **What a call does to the commands.** -/
theorem advCmd_cases (cfg : AdvCfg) (i : PrepareInput)
    (hroom : s.advCmdFifo.count ≤ 2 ^ cfg.numLog) :
    Gives (cmdData cfg) (s.advCmdFifo.contents cfg.numLog)
        ((appAdvertisePrepareHandler cfg s i).1.advCmdFifo.contents cfg.numLog)
        (cmdSent (appAdvertisePrepareHandler cfg s i).2) ∧
      (appAdvertisePrepareHandler cfg s i).1.advCmdFifo.count ≤ 2 ^ cfg.numLog := by
  unfold appAdvertisePrepareHandler
  split_ifs with hnow hfriend
  · exact ⟨.rests rfl (cmdSent_gattHanded i), hroom⟩
  · cases myFifoGet cfg.fnNumLog s.fn2lpnFifo with
    | some fn =>
      dsimp only
      rw [AdvBear.meshAdvCmdSet_eq]
      exact ⟨.rests rfl rfl, hroom⟩
    | none => exact advCmdPrepare_gives i hroom
  · exact advCmdPrepare_gives i hroom

/-- **What a call does to the packets of the friend.** -/
theorem friend_cases (cfg : AdvCfg) (i : PrepareInput)
    (hroom : s.fn2lpnFifo.count ≤ 2 ^ cfg.fnNumLog) :
    Gives friendData (s.fn2lpnFifo.contents cfg.fnNumLog)
        ((appAdvertisePrepareHandler cfg s i).1.fn2lpnFifo.contents cfg.fnNumLog)
        (friendSent (appAdvertisePrepareHandler cfg s i).2) ∧
      (appAdvertisePrepareHandler cfg s i).1.fn2lpnFifo.count ≤ 2 ^ cfg.fnNumLog := by
  unfold appAdvertisePrepareHandler
  split_ifs with hnow hfriend
  · exact ⟨.rests rfl (friendSent_gattHanded i), hroom⟩
  · cases hget : myFifoGet cfg.fnNumLog s.fn2lpnFifo with
    | some fn =>
      -- a packet of the friend is sent for all its times at once
      have hk := cfg.fnNumLog_lt
      dsimp only
      rw [AdvBear.meshAdvCmdSet_eq]
      exact ⟨.last _ _ (contents_of_get hk hget).2.2 (contents_pop_head hk hget) rfl,
        count_pop_le hk hget hroom⟩
    | none =>
      obtain ⟨hfn, hsent⟩ := advCmdPrepare_friend cfg s i
      refine ⟨.rests ?_ hsent, ?_⟩
      · exact congrArg (Buf.contents cfg.fnNumLog) hfn
      · exact hfn ▸ hroom
  · obtain ⟨hfn, hsent⟩ := advCmdPrepare_friend cfg s i
    refine ⟨.rests ?_ hsent, ?_⟩
    · exact congrArg (Buf.contents cfg.fnNumLog) hfn
    · exact hfn ▸ hroom

/-! ### All calls -/

/-- A FIFO after a run: what it took and what was sent of it. -/
def FifoServes (data : AdvBear → List (BitVec 8)) (pushed queue : List AdvBear)
    (sent : List (List (BitVec 8))) : Prop :=
  ∃ out, Serves (pushed.map AdvBear.split) (queue.map AdvBear.split) out ∧ out.map data = sent

theorem FifoServes.gives {data : AdvBear → List (BitVec 8)}
    (hdata : ∀ b n, data (b.setCount n) = data b) {pushed before after : List AdvBear}
    {sent sent' : List (List (BitVec 8))} (h : FifoServes data pushed before sent)
    (hg : Gives data before after sent') : FifoServes data pushed after (sent ++ sent') := by
  obtain ⟨out, h, rfl⟩ := h
  cases hg with
  | rests hafter hsent =>
    subst hafter hsent
    exact ⟨out, h, (List.append_nil _).symm⟩
  | once b rest h0 hbefore hafter hsent =>
    subst hbefore hafter hsent
    obtain ⟨n, hn⟩ : ∃ n, b.transmit.count.toNat = n + 1 := by
      refine Nat.exists_eq_succ_of_ne_zero fun hz => h0 (BitVec.eq_of_toNat_eq hz)
    have hpred : (b.transmit.count - 1).toNat = n := by
      have hlt := b.transmit.count.isLt
      rw [BitVec.toNat_sub, hn]
      show (2 ^ 3 - 1 + (n + 1)) % 2 ^ 3 = n
      omega
    -- the count is not 0: sent once, and it stays
    rw [List.map_cons, show b.split = (b.split.1, n + 1) from Prod.ext rfl hn] at h
    refine ⟨out ++ [b.split.1], ?_, ?_⟩
    · rw [List.map_cons, AdvBear.split_setCount, hpred]
      exact h.once
    · rw [List.map_append, List.map_singleton]
      exact congrArg (_ ++ [·]) (hdata b 0)
  | last b rest hbefore hafter hsent =>
    subst hbefore hafter hsent
    rw [List.map_cons] at h
    refine ⟨_, h.last, ?_⟩
    rw [List.map_append, List.map_replicate]
    exact congrArg (_ ++ List.replicate _ ·) (hdata b 0)

theorem FifoServes.push {data : AdvBear → List (BitVec 8)} {pushed queue : List AdvBear}
    {sent : List (List (BitVec 8))} (h : FifoServes data pushed queue sent) (b : AdvBear) :
    FifoServes data (pushed ++ [b]) (queue ++ [b]) sent := by
  obtain ⟨out, hserves, hmap⟩ := h
  refine ⟨out, ?_, hmap⟩
  rw [List.map_append, List.map_append]
  exact hserves.push b.split

/-- All of the commands that were sent, and of the packets of the friend. -/
def AdvRun.cmdSent (r : AdvRun) : List (List (BitVec 8)) := r.handed.flatMap PirMesh.cmdSent

def AdvRun.friendSent (r : AdvRun) : List (List (BitVec 8)) := r.handed.flatMap PirMesh.friendSent

structure AdvInv (cfg : AdvCfg) (r : AdvRun) : Prop where
  room : r.node.advCmdFifo.count ≤ 2 ^ cfg.numLog
  friendRoom : r.node.fn2lpnFifo.count ≤ 2 ^ cfg.fnNumLog
  cmd : FifoServes (cmdData cfg) r.pushed (r.node.advCmdFifo.contents cfg.numLog) r.cmdSent
  friend : FifoServes friendData r.friendPushed (r.node.fn2lpnFifo.contents cfg.fnNumLog)
    r.friendSent

theorem advInv_initial (cfg : AdvCfg) (cell : ℕ → AdvBear) : AdvInv cfg (.initial cell) := by
  have hcount : Buf.count (⟨0, 0, cell⟩ : MyFifo AdvBear) = 0 := Buf.count_eq_zero.mpr rfl
  have hqueue : ∀ k, Buf.contents k (⟨0, 0, cell⟩ : MyFifo AdvBear) = [] := by
    intro k
    rw [← List.length_eq_zero_iff, Buf.length_contents, hcount]
  have hserves : ∀ data, FifoServes data [] [] [] := fun _ => ⟨[], .inl ⟨rfl, rfl⟩, rfl⟩
  refine ⟨hcount.trans_le (Nat.zero_le _), hcount.trans_le (Nat.zero_le _), ?_, ?_⟩
  · show FifoServes _ [] (Buf.contents cfg.numLog ⟨0, 0, cell⟩) []
    rw [hqueue]
    exact hserves _
  · show FifoServes _ [] (Buf.contents cfg.fnNumLog ⟨0, 0, cell⟩) []
    rw [hqueue]
    exact hserves _

theorem AdvInv.next {r : AdvRun} (h : AdvInv cfg r) (e : AdvEvent) : AdvInv cfg (r.next cfg e) := by
  cases e with
  | push b =>
    unfold AdvRun.next
    dsimp only
    split_ifs with hroom
    · have hcount := Buf.count_push cfg.numLog_lt b hroom
      refine ⟨hcount.trans_le hroom, h.friendRoom, ?_, h.friend⟩
      rw [Buf.contents_push cfg.numLog_lt b hroom]
      exact h.cmd.push b
    · exact h
  | pushFriend b =>
    unfold AdvRun.next
    dsimp only
    split_ifs with hroom
    · have hcount := Buf.count_push cfg.fnNumLog_lt b hroom
      refine ⟨h.room, hcount.trans_le hroom, h.cmd, ?_⟩
      rw [Buf.contents_push cfg.fnNumLog_lt b hroom]
      exact h.friend.push b
    · exact h
  | rspDelaySet step => exact ⟨h.room, h.friendRoom, h.cmd, h.friend⟩
  | prepare i =>
    obtain ⟨hcmd, hroom⟩ := advCmd_cases cfg i h.room
    obtain ⟨hfriend, hfriendRoom⟩ := friend_cases cfg i h.friendRoom
    refine ⟨hroom, hfriendRoom, ?_, ?_⟩
    · have hgives := h.cmd.gives (fun _ _ => rfl) hcmd
      unfold AdvRun.cmdSent at hgives ⊢
      rw [AdvRun.next, List.flatMap_append, List.flatMap_singleton]
      exact hgives
    · have hgives := h.friend.gives (fun _ _ => rfl) hfriend
      unfold AdvRun.friendSent at hgives ⊢
      rw [AdvRun.next, List.flatMap_append, List.flatMap_singleton]
      exact hgives

theorem advInv_run (cfg : AdvCfg) (cell : ℕ → AdvBear) (es : List AdvEvent) :
    AdvInv cfg (es.foldl (AdvRun.next cfg) (.initial cell)) := by
  induction es using List.reverseRecOn with
  | nil => exact advInv_initial cfg cell
  | append_singleton es e ih =>
    rw [List.foldl_append]
    exact ih.next e

/-- **The commands are sent as often as they are to be**, in the order they came in, each with its
own bytes and the type without its flags. -/
theorem advCmd_serves (cfg : AdvCfg) (cell : ℕ → AdvBear) (es : List AdvEvent) :
    let r := es.foldl (AdvRun.next cfg) (.initial cell)
    FifoServes (cmdData cfg) r.pushed (r.node.advCmdFifo.contents cfg.numLog) r.cmdSent :=
  (advInv_run cfg cell es).cmd

/-- The packets of the friend too. -/
theorem friend_serves (cfg : AdvCfg) (cell : ℕ → AdvBear) (es : List AdvEvent) :
    let r := es.foldl (AdvRun.next cfg) (.initial cell)
    FifoServes friendData r.friendPushed (r.node.fn2lpnFifo.contents cfg.fnNumLog) r.friendSent :=
  (advInv_run cfg cell es).friend

end PirMesh

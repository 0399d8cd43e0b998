import PirMesh.Friend.Ship
import PirMesh.Library.NumberedQueue
import PirMesh.Library.Run

/-! # Friend — Delivery of the cached messages

A run of one slot with its history: the messages accepted for the low power node are
numbered, and each cell of the ring is tagged with the one it holds.  The cache is the
queue of the tagged cells (`FriendRun.queue`).

The code loses a message when an acknowledgement takes the place of one that was sent
already (`friendQueue_ack_lost`), when an update or an acknowledgement is merged with
an entry of another kind, when a new FSN comes before the response to the last one, or
when the ring overflows while a response waits.  In all other runs (`Undisturbed`)
every message is sent before it leaves the cache, in order, and a repeated poll gets
the same answer (`friendQueue_delivers`). -/

namespace PirMesh

open Ring Run NumberedQueue

/-! ### History -/

/-- A slot, what its cells hold, and what happened to the messages. -/
structure FriendRun where
  slot : FriendSlot
  tag : ℕ → Tag
  hist : Hist MeshCmdBear

inductive QueueEvent
  | msg (b : MeshCmdBear) (lenNw advType transParVal : BitVec 8)
  | poll (p : FriendPoll) (now now100ms : BitVec 32)
  | fire (now now100ms : BitVec 32)

/-- The history of `meshFriCmd2cache` on the ring `f`. -/
def acceptHist (k : ℕ) (f : MyFifo MeshCmdBear) (b : MeshCmdBear) (tag : ℕ → Tag)
    (h : Hist MeshCmdBear) : (ℕ → Tag) × Hist MeshCmdBear :=
  match friendCacheCheckReplace k f b with
  | some (i, _) =>
    let c := myFifoGetOffset k f i
    (Function.update tag c ⟨h.next, (tag c).place⟩, h.replace (tag c).no b)
  | none =>
    let h' := if myFifoFreeCntGet k f = 0 then h.drop (tag (myFifoGetOffset k f 0)).no else h
    (Function.update tag (slot k f.wptr) ⟨h.next, h.next⟩, h'.push b)

/-- A poll of the low power node of the slot that the friend accepts. -/
def Polled (s : FriendSlot) (p : FriendPoll) : Prop :=
  s.proc.status ≠ .idle ∧ p.rfu = 0 ∧ s.friAdr = p.dst

instance (s : FriendSlot) (p : FriendPoll) : Decidable (Polled s p) :=
  inferInstanceAs (Decidable (_ ∧ _))

namespace FriendRun

section

variable (lib : FriendLib) (node : FriendNode)

def msg (r : FriendRun) (b : MeshCmdBear) : FriendRun :=
  let k := node.cacheSizeLog
  let res := acceptHist k r.slot.cache.fifo b r.tag r.hist
  ⟨{ r.slot with cache := meshFriCmd2cache lib k r.slot.cache b }, res.1, res.2⟩

def poll (r : FriendRun) (p : FriendPoll) (now now100ms : BitVec 32) : FriendRun :=
  let k := node.cacheSizeLog
  let slot := (friendRxSlot lib node ⟨r.slot.lpnAdr, .poll p, now, now100ms⟩ r.slot).1
  if Polled r.slot p ∧ r.slot.fsn ≠ p.fsn then
    let f := (friendPollPop k r.slot.cache).fifo
    if (myFifoGet k f).isSome then ⟨slot, r.tag, r.hist.forget⟩
    else
      let res := acceptHist k f p.update r.tag r.hist.forget
      ⟨slot, res.1, res.2⟩
  else ⟨slot, r.tag, r.hist⟩

def fire (r : FriendRun) (now now100ms : BitVec 32) : FriendRun :=
  let res := meshFriendResponseDelayProcFn r.slot now now100ms
  match res.2, r.slot.delay.pollRsp with
  | some b, some c => ⟨res.1, r.tag, r.hist.send (r.tag c) b⟩
  | _, _ => ⟨res.1, r.tag, r.hist⟩

/-- A message is one for the low power node (`mesh_mac_match_friend`,
`mesh_group_match_friend`) only in an established friendship. -/
def step (r : FriendRun) : QueueEvent → FriendRun
  | .msg b lenNw advType transParVal =>
    if isInMeshFriendStFn r.slot then r.msg lib node (cacheBear b lenNw advType transParVal) else r
  | .poll p now now100ms => r.poll lib node p now now100ms
  | .fire now now100ms => r.fire now now100ms

end

end FriendRun

/-- The cells of a ring with what they hold. -/
def tagged (f : MyFifo MeshCmdBear) (tag : ℕ → Tag) : MyFifo (MeshCmdBear × Tag) :=
  ⟨f.wptr, f.rptr, fun c => (f.cell c, tag c)⟩

namespace FriendRun

def queue (k : ℕ) (r : FriendRun) : List (MeshCmdBear × Tag) :=
  (tagged r.slot.cache.fifo r.tag).contents k

/-- No message is lost, the first transmissions are in order, and so are the answers
to repeated polls. -/
structure Delivers (k : ℕ) (r : FriendRun) : Prop where
  delivered : r.hist.Delivered (r.queue k)
  inOrder : r.hist.InOrder
  sameAnswer : r.hist.SameAnswer

/-- The history starts with the request of the low power node. -/
def Starts (node : FriendNode) (r : FriendRun) : Prop :=
  r.hist = Hist.empty ∧
    ∃ s src netkey req now, r.slot = friendRequestSlot node s src netkey req now

end FriendRun

def friendQueue (lib : FriendLib) (node : FriendNode) : Sys FriendRun QueueEvent :=
  Sys.det (FriendRun.Starts node) (FriendRun.step lib node)

/-! ### Undisturbed runs -/

/-- `e` differs from `b` in its sequence number and in its data only; of an
acknowledgement that is the bitmap. -/
def Older (e b : MeshCmdBear) : Prop :=
  e = { b with
    sno := e.sno, segMap := e.segMap
    data0 := if b.opcode = cmdCtlUpdate then e.data0 else b.data0
    data1 := if b.opcode = cmdCtlUpdate then e.data1 else b.data1 }

instance (e b : MeshCmdBear) : Decidable (Older e b) := inferInstanceAs (Decidable (_ = _))

/-- An entry that is replaced is an older copy, and was not sent yet. -/
def QuietReplace (k : ℕ) (f : MyFifo MeshCmdBear) (last : Option MeshCmdBear) (b : MeshCmdBear)
    (x : ℕ × MeshCmdBear) : Prop :=
  Older (f.cell (myFifoGetOffset k f x.1)) b ∧ (x.1 = 0 → last = none)

instance (k : ℕ) (f : MyFifo MeshCmdBear) (last : Option MeshCmdBear) (b : MeshCmdBear) :
    DecidablePred (QuietReplace k f last b) :=
  fun _ => inferInstanceAs (Decidable (_ ∧ _))

/-- The ring does not overflow while the response to a poll waits. -/
def QuietPush (k : ℕ) (s : FriendSlot) (b : MeshCmdBear) : Prop :=
  friendCacheCheckReplace k s.cache.fifo b = none → myFifoFreeCntGet k s.cache.fifo = 0 →
    s.delay.delayType ≠ .poll

instance (k : ℕ) (s : FriendSlot) (b : MeshCmdBear) : Decidable (QuietPush k s b) :=
  inferInstanceAs (Decidable (_ → _ → _))

/-- A new FSN comes when the last one was answered, or the ring is empty or overflowed. -/
def QuietPoll (k : ℕ) (r : FriendRun) (p : FriendPoll) : Prop :=
  Polled r.slot p → r.slot.fsn ≠ p.fsn →
    myFifoGet k r.slot.cache.fifo = none ∨ r.slot.cache.cacheOverwrite ∨ r.hist.last ≠ none

instance (k : ℕ) (r : FriendRun) (p : FriendPoll) : Decidable (QuietPoll k r p) :=
  inferInstanceAs (Decidable (_ → _ → _))

def QuietMsg (k : ℕ) (r : FriendRun) (b : MeshCmdBear) : Prop :=
  (∀ x ∈ friendCacheCheckReplace k r.slot.cache.fifo b,
    QuietReplace k r.slot.cache.fifo r.hist.last b x) ∧ QuietPush k r.slot b

instance (k : ℕ) (r : FriendRun) (b : MeshCmdBear) : Decidable (QuietMsg k r b) :=
  @instDecidableAnd _ _ (Option.decidableForallMem _) _

def Undisturbed (k : ℕ) (r : FriendRun) : QueueEvent → Prop
  | .msg b lenNw advType transParVal =>
    isInMeshFriendStFn r.slot → QuietMsg k r (cacheBear b lenNw advType transParVal)
  | .poll p .. => QuietPoll k r p
  | .fire .. => True

instance (k : ℕ) (r : FriendRun) : ∀ e, Decidable (Undisturbed k r e)
  | .msg .. => inferInstanceAs (Decidable (_ → _))
  | .poll .. => inferInstanceAs (Decidable (QuietPoll ..))
  | .fire .. => inferInstanceAs (Decidable True)

/-! ### The tagged ring -/

section

variable {k : ℕ} {f : MyFifo MeshCmdBear} {tag : ℕ → Tag}

theorem tagged_push (b : MeshCmdBear) (t : Tag) :
    tagged (f.push k b) (Function.update tag (slot k f.wptr) t) = (tagged f tag).push k (b, t) := by
  unfold tagged Buf.push
  congr 1
  funext c
  by_cases hc : c = slot k f.wptr
  · subst hc
    simp
  · simp [Function.update_of_ne hc]

theorem tagged_set (c : ℕ) (b : MeshCmdBear) (t : Tag) :
    tagged (f.set c b) (Function.update tag c t) = (tagged f tag).set c (b, t) := by
  unfold tagged Buf.set
  congr 1
  funext d
  by_cases hd : d = c
  · subst hd
    simp
  · simp [Function.update_of_ne hd]

theorem tagged_pop : tagged f.pop tag = (tagged f tag).pop := rfl

@[simp] theorem count_tagged : (tagged f tag).count = f.count := rfl

/-! ### One acceptance -/

variable {b e : MeshCmdBear} {h : Hist MeshCmdBear} {i : ℕ}

/-- The older copy becomes the message itself. -/
theorem friendCacheReplace_older {x : MeshCmdBear} (ho : Older e b)
    (hx : friendCacheReplace b i e = some x) : x = b := by
  unfold Older at ho
  have hop : e.opcode = b.opcode := by
    rw [ho]
    rfl
  unfold friendCacheReplace at hx
  rw [hop] at hx
  split_ifs at hx with hu
  · obtain rfl := Option.some.inj hx
    rw [if_pos hu, if_pos hu] at ho
    rw [ho]
  · obtain rfl := Option.some.inj hx
    rw [if_neg hu, if_neg hu] at ho
    rw [ho]

theorem getElem_queue {hi : i < ((tagged f tag).contents k).length} :
    ((tagged f tag).contents k)[i] =
      (f.cell (slot k (f.rptr + BitVec.ofNat 8 i)), tag (slot k (f.rptr + BitVec.ofNat 8 i))) :=
  Buf.getElem_contents hi

theorem ok_acceptHist_replace (hk : k < 8) (hle : f.count ≤ 2 ^ k)
    (ok : Ok ((tagged f tag).contents k) h) (hx : friendCacheCheckReplace k f b = some (i, e))
    (hq : QuietReplace k f h.last b (i, e)) :
    Ok ((tagged (f.set (slot k (f.rptr + BitVec.ofNat 8 i)) e)
      (acceptHist k f b tag h).1).contents k) (acceptHist k f b tag h).2 := by
  obtain ⟨hi, hrep⟩ := friendCacheCheckReplace_some hk hx
  obtain ⟨ho, hhead⟩ := hq
  rw [myFifoGetOffset_eq hk] at ho
  obtain rfl := friendCacheReplace_older ho hrep
  have hi' : i < ((tagged f tag).contents k).length := by
    rwa [Buf.length_contents]
  have hrepl := ok.replace hi' e hhead
  rw [getElem_queue] at hrepl
  unfold acceptHist
  rw [hx]
  dsimp only
  rw [myFifoGetOffset_eq hk, tagged_set]
  exact (Buf.contents_set (r := tagged f tag) hk _ hle hi) ▸ hrepl

theorem ok_acceptHist_room (hk : k < 8) (hroom : f.count < 2 ^ k)
    (ok : Ok ((tagged f tag).contents k) h) (hx : friendCacheCheckReplace k f b = none) :
    Ok ((tagged (f.push k b) (acceptHist k f b tag h).1).contents k)
      (acceptHist k f b tag h).2 := by
  have hfree : myFifoFreeCntGet k f ≠ 0 := fun h0 =>
    hroom.ne ((myFifoFreeCntGet_eq_zero hk).mp h0)
  unfold acceptHist
  rw [hx]
  dsimp only
  rw [if_neg hfree, tagged_push, Buf.contents_push (r := tagged f tag) hk _ hroom]
  exact ok.push b

theorem ok_acceptHist_full (hk : k < 8) (hfull : f.count = 2 ^ k)
    (ok : Ok ((tagged f tag).contents k) h) (hx : friendCacheCheckReplace k f b = none) :
    Ok ((tagged (f.pop.push k b) (acceptHist k f b tag h).1).contents k)
      (acceptHist k f b tag h).2 := by
  have hne : (tagged f tag).count ≠ 0 := Buf.count_ne_zero_of_full hfull
  obtain ⟨q, hq⟩ : ∃ q, (tagged f tag).contents k =
      (f.cell (slot k f.rptr), tag (slot k f.rptr)) :: q :=
    ⟨_, List.eq_cons_of_mem_head? (Buf.head_contents hne)⟩
  rw [hq] at ok
  have hpush := ok.drop.push b
  have hoff : myFifoGetOffset k f 0 = slot k f.rptr := by
    rw [myFifoGetOffset_eq hk, BitVec.add_zero]
  have htag := @tagged_push k f.pop tag b ⟨h.next, h.next⟩
  unfold acceptHist
  rw [hx]
  dsimp only
  rw [if_pos ((myFifoFreeCntGet_eq_zero hk).mpr hfull), hoff]
  refine htag.symm ▸ ?_
  rw [tagged_pop, Buf.contents_pop_push (r := tagged f tag) hk _ hfull, hq]
  exact hpush

end

/-! ### The steps of a run -/

/-- What an undisturbed run keeps. -/
structure FriendRun.Inv (k : ℕ) (r : FriendRun) : Prop where
  ok : Ok (r.queue k) r.hist
  countLe : r.slot.cache.fifo.count ≤ 2 ^ k
  /-- The response that waits is the head. -/
  waiting : r.slot.delay.delayType = .poll → ∀ c ∈ r.slot.delay.pollRsp,
    r.slot.cache.fifo.count ≠ 0 ∧ c = Ring.slot k r.slot.cache.fifo.rptr
  noClear : r.slot.proc.clearByLpnTick = 0

variable {lib : FriendLib} {node : FriendNode}

theorem inv_starts {r : FriendRun} (h : r.Starts node) : r.Inv node.cacheSizeLog := by
  obtain ⟨hist, s, src, netkey, req, now, hslot⟩ := h
  have hcount : r.slot.cache.fifo.count = 0 := by
    rw [hslot]
    exact Buf.count_eq_zero.mpr rfl
  have hq : r.queue node.cacheSizeLog = [] := by
    rw [← List.length_eq_zero_iff, FriendRun.queue, Buf.length_contents]
    exact hcount
  exact
    { ok := by
        rw [hq, hist]
        exact .empty
      countLe := hcount ▸ Nat.zero_le _
      waiting := by
        rw [hslot]
        exact fun hp => nomatch hp
      noClear := by
        rw [hslot]
        rfl }

section

variable {r : FriendRun} {k : ℕ}

theorem inv_msg (hlib : lib.Lawful node.cacheSizeLog)
    (inv : r.Inv node.cacheSizeLog) {b : MeshCmdBear} (hq : QuietMsg node.cacheSizeLog r b) :
    (r.msg lib node b).Inv node.cacheSizeLog := by
  have hk := node.cacheSizeLog_lt
  obtain ⟨hrepl, hpush⟩ := hq
  unfold FriendRun.msg
  dsimp only
  cases hx : friendCacheCheckReplace node.cacheSizeLog r.slot.cache.fifo b with
  | some x =>
    obtain ⟨i, e⟩ := x
    have hok := ok_acceptHist_replace hk inv.countLe inv.ok hx (hrepl _ hx)
    rw [meshFriCmd2cache_replace hk hx]
    exact ⟨hok, inv.countLe, inv.waiting, inv.noClear⟩
  | none =>
    obtain hroom | hfull := inv.countLe.lt_or_eq
    · have hok := ok_acceptHist_room hk hroom inv.ok hx
      have hcount := Buf.count_push hk b hroom
      rw [meshFriCmd2cache_room hlib hx hroom]
      refine ⟨hok, hcount.trans_le hroom, fun hp c hc => ?_, inv.noClear⟩
      obtain ⟨-, hc⟩ := inv.waiting hp c hc
      exact ⟨hcount ▸ Nat.succ_ne_zero _, hc⟩
    · have hok := ok_acceptHist_full hk hfull inv.ok hx
      have hlt := Buf.count_pop_lt hfull
      have hcount := Buf.count_push hk b hlt
      rw [meshFriCmd2cache_full hlib hk hx hfull]
      exact ⟨hok, hcount.trans_le hlt,
        fun hp => absurd hp (hpush hx ((myFifoFreeCntGet_eq_zero hk).mpr hfull)), inv.noClear⟩

/-- The call does nothing, or the response has gone. -/
theorem meshFriendResponseDelayProcFn_cases (s : FriendSlot) (now now100ms : BitVec 32) :
    meshFriendResponseDelayProcFn s now now100ms = (s, none) ∨
    ∃ t, meshFriendResponseDelayProcFn s now now100ms =
        (t, if s.delay.delayType = .poll then s.delay.pollRsp.map s.cache.fifo.cell else none) ∧
      t.cache = s.cache ∧ t.delay.delayType = .none ∧
      t.proc.clearByLpnTick = s.proc.clearByLpnTick := by
  unfold meshFriendResponseDelayProcFn
  dsimp only
  split_ifs
  · exact .inr ⟨_, rfl, rfl, rfl, rfl⟩
  · exact .inr ⟨_, rfl, rfl, rfl, rfl⟩
  · exact .inr ⟨_, rfl, rfl, rfl, rfl⟩
  · exact .inr ⟨_, rfl, rfl, rfl, rfl⟩
  · exact .inl rfl
  · exact .inl rfl

theorem inv_fire (inv : r.Inv k) (now now100ms : BitVec 32) : (r.fire now now100ms).Inv k := by
  unfold FriendRun.fire
  dsimp only
  obtain heq | ⟨t, heq, hcache, htype, hclear⟩ :=
    meshFriendResponseDelayProcFn_cases r.slot now now100ms
  · rw [heq]
    exact inv
  rw [heq]
  have hgone : ∀ hist, Ok (r.queue k) hist → FriendRun.Inv k ⟨t, r.tag, hist⟩ := by
    intro hist hok
    refine ⟨?_, hcache ▸ inv.countLe, fun hp => ?_, hclear.trans inv.noClear⟩
    · unfold FriendRun.queue at hok ⊢
      rwa [hcache]
    · cases htype.symm.trans hp
  by_cases hp : r.slot.delay.delayType = .poll
  · rw [if_pos hp]
    cases hc : r.slot.delay.pollRsp with
    | none => exact hgone _ inv.ok
    | some c =>
      obtain ⟨hne, rfl⟩ := inv.waiting hp c hc
      obtain ⟨q, hq⟩ : ∃ q, r.queue k =
          (r.slot.cache.fifo.cell (Ring.slot k r.slot.cache.fifo.rptr),
            r.tag (Ring.slot k r.slot.cache.fifo.rptr)) :: q :=
        ⟨_, List.eq_cons_of_mem_head? (Buf.head_contents (r := tagged r.slot.cache.fifo r.tag) hne)⟩
      refine hgone _ ?_
      have hok := inv.ok
      rw [hq] at hok ⊢
      exact hok.send
  · rw [if_neg hp]
    exact hgone _ inv.ok

/-- A poll that is not accepted changes nothing. -/
theorem friendRxSlot_not_polled {s : FriendSlot} {p : FriendPoll} (h : ¬ Polled s p)
    (now now100ms : BitVec 32) :
    (friendRxSlot lib node ⟨s.lpnAdr, .poll p, now, now100ms⟩ s).1 = s := by
  unfold Polled at h
  unfold friendRxSlot friendRxPasses friendRxMsg
  dsimp only
  split_ifs with h1 h2 h3
  · rfl
  · rfl
  · simp only [decide_eq_true_eq] at h1
    exact absurd ⟨h1.1, not_not.mp h2, not_not.mp h3⟩ h
  · rfl

/-- A poll that is accepted works on the cache, and answers with its head. -/
theorem friendRxSlot_polled {s : FriendSlot} {p : FriendPoll} (h : Polled s p)
    (hc : s.proc.clearByLpnTick = 0) (now now100ms : BitVec 32) :
    ∃ t : FriendSlot, (friendRxSlot lib node ⟨s.lpnAdr, .poll p, now, now100ms⟩ s).1 = t ∧
      t.cache = (friendPollCache lib node s p).cache ∧
      t.delay.pollRsp = myFifoGet node.cacheSizeLog t.cache.fifo ∧ t.proc.clearByLpnTick = 0 := by
  obtain ⟨hst, hrfu, hdst⟩ := h
  have hslot : (friendRxSlot lib node ⟨s.lpnAdr, .poll p, now, now100ms⟩ s).1 =
      friendPollSlot lib node s p := by
    simp [friendRxSlot, friendRxPasses, friendRxMsg, hst, hrfu, hdst]
  have hcache : ∀ t : FriendSlot, t.cache = s.cache → t.fsn = s.fsn →
      (friendPollRsp lib node t p).cache = (friendPollCache lib node s p).cache := by
    intro t ht hf
    unfold friendPollRsp friendPollCache meshFriendSetDelayParPoll
    dsimp only
    rw [ht, hf]
    split_ifs
    · rfl
    · rfl
    · exact ht
  have hproc : ∀ t : FriendSlot, (friendPollCache lib node t p).proc = t.proc := by
    intro t
    unfold friendPollCache
    dsimp only
    split_ifs <;> rfl
  refine ⟨_, hslot, ?_⟩
  unfold friendPollSlot
  split_ifs with ho
  · refine ⟨hcache _ ?_ ?_, rfl, ?_⟩
    · unfold friendEstablish
      split_ifs <;> rfl
    · unfold friendEstablish
      split_ifs <;> rfl
    · unfold friendPollRsp friendEstablish
      dsimp only [meshFriendSetDelayParPoll]
      rw [hproc]
      split_ifs <;> rfl
  · exact absurd hc ‹_›
  · exact ⟨hcache s rfl rfl, rfl, (congrArg (·.clearByLpnTick) (hproc s)).trans hc⟩

/-- What a new FSN leaves of the queue. -/
theorem ok_friendPollPop (hk : k < 8) (inv : r.Inv k)
    (hq : myFifoGet k r.slot.cache.fifo = none ∨ r.slot.cache.cacheOverwrite ∨ r.hist.last ≠ none) :
    Ok ((tagged (friendPollPop k r.slot.cache).fifo r.tag).contents k) r.hist.forget ∧
      (friendPollPop k r.slot.cache).fifo.count ≤ 2 ^ k := by
  unfold friendPollPop
  split_ifs with hsome hover
  · exact ⟨inv.ok.forget, inv.countLe⟩
  · have hne := (isSome_myFifoGet hk).mp hsome
    have hlast : r.hist.last ≠ none := by
      obtain hnone | hov | hl := hq
      · rw [hnone] at hsome
        cases hsome
      · exact absurd hov hover
      · exact hl
    refine ⟨?_, (Buf.count_pop hne).trans_le ((Nat.sub_le ..).trans inv.countLe)⟩
    have hpop := inv.ok.pop hlast
    unfold FriendRun.queue at hpop
    rwa [← Buf.contents_pop (r := tagged r.slot.cache.fifo r.tag) hne] at hpop
  · exact ⟨inv.ok.forget, inv.countLe⟩

theorem inv_poll (hlib : lib.Lawful node.cacheSizeLog)
    (inv : r.Inv node.cacheSizeLog) {p : FriendPoll} (hq : QuietPoll node.cacheSizeLog r p)
    (now now100ms : BitVec 32) : (r.poll lib node p now now100ms).Inv node.cacheSizeLog := by
  have hk := node.cacheSizeLog_lt
  unfold FriendRun.poll
  dsimp only
  by_cases hp : Polled r.slot p
  swap
  · rw [if_neg (fun h => hp h.1), friendRxSlot_not_polled hp]
    exact inv
  obtain ⟨t, ht, hcache, hrsp, hclear⟩ :=
    @friendRxSlot_polled lib node _ _ hp inv.noClear now now100ms
  rw [ht]
  -- the response is the head of what the poll leaves
  have hinv : ∀ tag hist, Ok ((tagged t.cache.fifo tag).contents node.cacheSizeLog) hist →
      t.cache.fifo.count ≤ 2 ^ node.cacheSizeLog →
      FriendRun.Inv node.cacheSizeLog ⟨t, tag, hist⟩ := by
    refine fun tag hist hok hle => ⟨hok, hle, fun _ c hc => ?_, hclear⟩
    dsimp only at hc ⊢
    rw [hrsp, myFifoGet_eq hk] at hc
    split_ifs at hc with h0
    · cases hc
    · exact ⟨h0, (Option.some.inj hc).symm⟩
  by_cases hf : r.slot.fsn = p.fsn
  · rw [if_neg (fun h => h.2 hf)]
    have hsame : t.cache = r.slot.cache := by
      rw [hcache]
      unfold friendPollCache
      rw [if_neg (not_not.mpr hf)]
    exact hinv _ _ (hsame ▸ inv.ok) (hsame ▸ inv.countLe)
  rw [if_pos ⟨hp, hf⟩]
  obtain ⟨hok, hle⟩ := ok_friendPollPop hk inv (hq hp hf)
  unfold friendPollCache at hcache
  dsimp only at hcache
  rw [if_pos hf] at hcache
  dsimp only at hcache
  split_ifs with hsome
  · rw [if_pos hsome] at hcache
    exact hinv _ _ (hcache ▸ hok) (hcache ▸ hle)
  · -- the ring is empty, and the update goes in
    rw [if_neg hsome] at hcache
    have hzero : (friendPollPop node.cacheSizeLog r.slot.cache).fifo.count = 0 := by
      by_contra hne
      exact hsome ((isSome_myFifoGet hk).mpr hne)
    have hroom : (friendPollPop node.cacheSizeLog r.slot.cache).fifo.count <
        2 ^ node.cacheSizeLog := hzero ▸ Nat.two_pow_pos _
    have hx : friendCacheCheckReplace node.cacheSizeLog
        (friendPollPop node.cacheSizeLog r.slot.cache).fifo p.update = none := by
      refine Option.eq_none_iff_forall_ne_some.mpr fun x hx => ?_
      have hi := (friendCacheCheckReplace_some hk hx).1
      exact Nat.not_lt_zero _ (hzero ▸ hi)
    rw [meshFriCmd2cache_room hlib hx hroom] at hcache
    have hpush := ok_acceptHist_room hk hroom hok hx
    refine hinv _ _ (hcache ▸ hpush) ?_
    rw [hcache]
    exact (Buf.count_push hk _ hroom).trans_le hroom

theorem inv_step (hlib : lib.Lawful node.cacheSizeLog)
    (inv : r.Inv node.cacheSizeLog) {ev : QueueEvent} (hq : Undisturbed node.cacheSizeLog r ev) :
    (r.step lib node ev).Inv node.cacheSizeLog := by
  cases ev with
  | msg b lenNw advType transParVal =>
    unfold FriendRun.step
    dsimp only
    split_ifs with hin
    · exact inv_msg hlib inv (hq hin)
    · exact inv
  | poll p now now100ms => exact inv_poll hlib inv hq now now100ms
  | fire now now100ms => exact inv_fire inv now now100ms

end

/-- The request of the low power node `5`. -/
def friendStart : FriendRun where
  slot := friendRequestSlot friendOne idleSlot 5 0 ⟨1, 0, 0, 100, 100, 0, 1, 0⟩ 0
  tag _ := ⟨0, 0⟩
  hist := Hist.empty

/-- A poll, with the update that answers an empty cache. -/
def pollFsn (fsn : Bool) : QueueEvent :=
  .poll ⟨fsn, 0, 1, 0, 0, { idleBear with ctl := true, src := 1, dst := 5, lt := 2 }⟩ 0 0

def fireLate : QueueEvent := .fire 0x1000000 0

/-- An acknowledgement of the message with one SeqZero. -/
def ackMsg (sno : BitVec 24) (segMap : BitVec 32) : QueueEvent :=
  .msg { idleBear with ctl := true, sno, src := 7, dst := 5, data1 := 4, segMap } 0 0 0

theorem friendStart_starts : friendStart.Starts friendOne :=
  ⟨rfl, _, _, _, _, _, rfl⟩

theorem friendQueue_reach (es : List QueueEvent)
    (h : GoodRun (FriendRun.step (ringPush 2) friendOne) (Undisturbed 2) friendStart es) :
    ((friendQueue (ringPush 2) friendOne).restrict (Undisturbed 2)).Reach
      (es.foldl (FriendRun.step (ringPush 2) friendOne) friendStart) := by
  have h0 : ((friendQueue (ringPush 2) friendOne).restrict (Undisturbed 2)).Reach friendStart :=
    .init friendStart_starts
  exact Sys.reach_foldl_restrict h0 h

/-- Two acknowledgements, the second while the first was not sent yet. -/
def quietAcks : List QueueEvent :=
  [pollFsn false, fireLate, ackMsg 1 1, ackMsg 2 3, pollFsn true, fireLate, pollFsn true, fireLate]

/-- The second acknowledgement takes the place of the first, which was sent, and the next
FSN takes it out. -/
def lateAck : FriendRun :=
  [pollFsn false, fireLate, ackMsg 1 1, pollFsn true, fireLate, ackMsg 2 3, pollFsn false].foldl
    (FriendRun.step (ringPush 2) friendOne) friendStart

end PirMesh

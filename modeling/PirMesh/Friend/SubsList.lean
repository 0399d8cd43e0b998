import PirMesh.Friend.LpnSubsSpec
import PirMesh.Friend.Table

/-! # Friend — Subscription lists from the message on (`mesh_fn.c`)

The handler takes the number of addresses from the length of the packet, copies five of
them behind the transaction number to the stack, and goes through as many as it took to be
there.  The length is not checked: with half an address, with more than five, or in a packet
that is too short it goes through addresses that are not in the message
(`subsList_iff`).  The lists hold no address twice in any case. -/

namespace PirMesh

open FreePlaces List Run

/-! ### The message -/

/-- `mesh_cmd_bear_unseg_t`, and the memory from the octet behind the opcode on. -/
structure SubscBear where
  len : BitVec 8
  ctl : Bool
  data : ℕ → BitVec 8

namespace SubscBear

def szmic (b : SubscBear) : ℕ := if b.ctl then 8 else 4

/-- `mesh_lt_len_get_by_bear`; the type is one octet, the network header nine. -/
def ltLen (b : SubscBear) : BitVec 8 := b.len - 1 - 9 - BitVec.ofNat 8 b.szmic

/-- `mesh_subsc_adr_cnt_get` -/
def adrCnt (b : SubscBear) : BitVec 8 := ((b.ltLen.setWidth 32 - 1) / 2).setWidth 8

def transNo (b : SubscBear) : BitVec 8 := b.data 0

/-- Address `i` behind the transaction number. -/
def adr (b : SubscBear) (i : ℕ) : BitVec 16 := b.data (2 * i + 2) ++ b.data (2 * i + 1)

/-- The addresses the list operation goes through: five were copied, and behind them is the
stack. -/
def readAdr (b : SubscBear) (stack : ℕ → BitVec 16) : List (BitVec 16) :=
  (range b.adrCnt.toNat).map fun i => if i < subListMaxInOneMsg then b.adr i else stack i

def msg (b : SubscBear) (add : Bool) (stack : ℕ → BitVec 16) : FriendMsg :=
  .subsList add b.transNo (b.readAdr stack)

/-- How many whole addresses there are behind the opcode and the transaction number. -/
def msgCnt (b : SubscBear) : ℕ := (b.len.toNat - (1 + 9 + 1 + 1 + b.szmic)) / 2

def msgAdr (b : SubscBear) : List (BitVec 16) := (range b.msgCnt).map b.adr

/-- The message is the opcode alone, or has a transaction number and up to five addresses. -/
def WellFormed (b : SubscBear) : Prop :=
  b.len.toNat = 1 + 9 + 1 + b.szmic ∨
    ∃ k ≤ subListMaxInOneMsg, b.len.toNat = 1 + 9 + 1 + 1 + b.szmic + 2 * k

end SubscBear

/-- The bit of one slot in `match_F2L`. -/
def matchSlot (adr : BitVec 16) (m : BitVec 16) (si : FriendSlot × ℕ) : BitVec 16 :=
  if isInMeshFriendStFn si.1 ∧ si.1.subsList.contains adr then m ||| (1 : BitVec 16) <<< si.2
  else m

/-- `mesh_group_match_friend`; `enabled` is `is_fn_support_and_en`. -/
def meshGroupMatchFriend (enabled : Bool) (l : List FriendSlot) (adr : BitVec 16) : BitVec 16 :=
  if enabled then l.zipIdx.foldl (matchSlot adr) 0 else 0

/-! ### Lists over a run -/

/-- The list has five places and no address twice. -/
def HasTable (s : FriendSlot) : Prop := Table subListMaxLpn s.subsList

theorem table_zero : Table subListMaxLpn (replicate subListMaxLpn (0 : BitVec 16)) :=
  ⟨length_replicate, by decide⟩

theorem HasTable.of_eq {s t : FriendSlot} (h : HasTable s) (heq : t.subsList = s.subsList) :
    HasTable t := by
  unfold HasTable
  rwa [heq]

theorem HasTable.timeoutStatus {s : FriendSlot} (h : HasTable s) (now now100ms : BitVec 32) :
    HasTable (friendTimeoutStatus s now now100ms) := by
  unfold friendTimeoutStatus
  split
  · exact h
  · exact h
  · exact h
  · split_ifs <;> exact h.of_eq rfl
  · split_ifs <;> exact h.of_eq rfl
  · split_ifs
    · exact table_zero
    · exact h

theorem HasTable.timeout {s : FriendSlot} (h : HasTable s) (now now100ms : BitVec 32) :
    HasTable (friendTimeout now now100ms s) := by
  rw [friendTimeout, friendTimeoutLpn]
  split_ifs
  · exact table_zero
  · obtain ⟨proc, heq⟩ := friendTimeoutClear_eq (friendTimeoutStatus s now now100ms) now100ms
    rw [heq]
    exact (h.timeoutStatus now now100ms).of_eq rfl

theorem HasTable.subscRun {s t : FriendSlot} (h : HasTable s) (add : Bool)
    (adr : List (BitVec 16))
    (heq : t.subsList = if add then friendSubscListAddAdr s.subsList adr
      else friendSubscListRmvAdr s.subsList adr) : HasTable t := by
  unfold HasTable
  rw [heq]
  exact SubscCmd.run_table (c := ⟨add, adr⟩) h

section

variable (lib : FriendLib) (node : FriendNode)

theorem HasTable.pollSlot {s : FriendSlot} (h : HasTable s) (p : FriendPoll) :
    HasTable (friendPollSlot lib node s p) := by
  unfold friendPollSlot
  split_ifs
  · refine h.of_eq ((subsList_friendPollCache lib node _ p).trans ?_)
    exact subsList_friendEstablish node s
  · exact table_zero
  · exact h.of_eq (subsList_friendPollCache lib node s p)

theorem HasTable.rxSlot {s : FriendSlot} (h : HasTable s) (rx : FriendRx) :
    HasTable (friendRxSlot lib node rx s).1 := by
  rw [friendRxSlot]
  split_ifs
  · unfold friendRxMsg
    cases rx.msg with
    | request n r =>
      dsimp only
      split_ifs
      · exact h
      · exact table_zero
      · exact h
    | poll p =>
      dsimp only
      split_ifs
      · exact h
      · exact h
      · exact h.pollSlot lib node p
    | clear lpnAdr lpnCounter =>
      dsimp only
      split_ifs
      · exact h.of_eq rfl
      · exact table_zero
      · exact h
    | clrConf lpnAdr =>
      dsimp only
      split_ifs
      · exact h.of_eq rfl
      · exact h
    | subsList add transNo adr => exact h.subscRun add adr rfl
    | other => exact h
  · exact h

theorem HasTable.rxWalk {l : List FriendSlot} (h : ∀ s ∈ l, HasTable s) (rx : FriendRx) :
    ∀ t ∈ friendRxWalk lib node rx l, HasTable t := by
  induction l with
  | nil => exact forall_mem_nil _
  | cons s l ih =>
    obtain ⟨hs, hl⟩ := forall_mem_cons.mp h
    have ht := hs.rxSlot lib node rx
    unfold friendRxWalk
    revert ht
    obtain ⟨t, stop⟩ := friendRxSlot lib node rx s
    intro ht
    cases stop with
    | true => exact forall_mem_cons.mpr ⟨ht, hl⟩
    | false => exact forall_mem_cons.mpr ⟨ht, ih hl⟩

theorem HasTable.next {l : List FriendSlot} (h : ∀ s ∈ l, HasTable s) (e : FriendEvent) :
    ∀ t ∈ meshFriendShipProcFN lib node l e, HasTable t := by
  cases e with
  | rx rx => exact HasTable.rxWalk lib node h rx
  | pass now now100ms => exact forall_mem_map.mpr fun s hs => (h s hs).timeout now now100ms
  | response now now100ms =>
    exact forall_mem_map.mpr fun s hs => (h s hs).of_eq (friendResponse_held s now now100ms).1

/-- **No list of a run** holds an address twice. -/
theorem hasTable_of_reach {l : List FriendSlot} (h : (friendTable lib node).Reach l) :
    ∀ s ∈ l, HasTable s := by
  refine Sys.Reach.inv (P := fun l => ∀ s ∈ l, HasTable s) h ?_ ?_
  · rintro _ ⟨l₀, rfl⟩
    exact forall_mem_map.mpr fun _ _ => table_zero
  · rintro l e _ hl rfl
    exact HasTable.next lib node hl e

end

/-! ### The message and what is read of it -/

namespace SubscBear

variable {b : SubscBear}

theorem szmic_le (b : SubscBear) : b.szmic ≤ 8 := by
  unfold szmic
  split
  · exact le_refl 8
  · exact Nat.le_of_ble_eq_true rfl

theorem ltLen_toNat (b : SubscBear) :
    b.ltLen.toNat = (b.len.toNat + (256 - (1 + 9 + b.szmic))) % 256 := by
  have hmic := b.szmic_le
  have hlen := b.len.isLt
  have hone : (1 : BitVec 8).toNat = 1 := rfl
  have hnine : (9 : BitVec 8).toNat = 9 := rfl
  rw [ltLen, BitVec.toNat_sub, BitVec.toNat_sub, BitVec.toNat_sub, BitVec.toNat_ofNat, hone, hnine]
  omega

/-- In a packet without an opcode the length goes around. -/
theorem adrCnt_toNat (b : SubscBear) :
    b.adrCnt.toNat = if b.ltLen.toNat = 0 then 255 else (b.ltLen.toNat - 1) / 2 := by
  have hlt := b.ltLen.isLt
  have hone : (1 : BitVec 32).toNat = 1 := rfl
  have htwo : (2 : BitVec 32).toNat = 2 := rfl
  rw [adrCnt, BitVec.toNat_setWidth, BitVec.toNat_udiv, BitVec.toNat_sub, BitVec.toNat_setWidth,
    hone, htwo]
  split_ifs
  · omega
  · omega

/-- **No address is read from elsewhere** exactly when the message is well formed. -/
theorem reads_iff (b : SubscBear) :
    (∀ i, i < b.adrCnt.toNat → i < b.msgCnt ∧ i < subListMaxInOneMsg) ↔ b.WellFormed := by
  have hmic := b.szmic_le
  have hlt := b.ltLen_toNat
  have hcnt := b.adrCnt_toNat
  have hlen := b.len.isLt
  have hmax : subListMaxInOneMsg = 5 := rfl
  rw [WellFormed, hmax]
  unfold msgCnt
  constructor
  · intro h
    -- the last address that is read decides
    have hle : b.adrCnt.toNat ≤ (b.len.toNat - (1 + 9 + 1 + 1 + b.szmic)) / 2 ∧
        b.adrCnt.toNat ≤ 5 := by
      rcases Nat.eq_zero_or_pos b.adrCnt.toNat with h0 | hpos
      · rw [h0]
        exact ⟨Nat.zero_le _, Nat.zero_le _⟩
      · have hlast := h (b.adrCnt.toNat - 1) (by omega)
        omega
    split_ifs at hcnt with h0
    · omega
    · by_cases hshort : b.len.toNat < 1 + 9 + 1 + b.szmic
      · omega
      · by_cases heq : b.len.toNat = 1 + 9 + 1 + b.szmic
        · exact .inl heq
        · refine .inr ⟨b.adrCnt.toNat, hle.2, ?_⟩
          omega
  · rintro (heq | ⟨k, hk, heq⟩) i hi
    · split_ifs at hcnt <;> omega
    · split_ifs at hcnt <;> omega

/-- They are the addresses of the message then. -/
theorem WellFormed.readAdr (h : b.WellFormed) (stack : ℕ → BitVec 16) :
    b.readAdr stack = b.msgAdr := by
  have hreads := b.reads_iff.mpr h
  have hcnt : b.adrCnt.toNat = b.msgCnt := by
    have hmic := b.szmic_le
    have hlt := b.ltLen_toNat
    have hadr := b.adrCnt_toNat
    have hlen := b.len.isLt
    have hmax : subListMaxInOneMsg = 5 := rfl
    unfold msgCnt
    rcases h with heq | ⟨k, hk, heq⟩
    · split_ifs at hadr <;> omega
    · split_ifs at hadr <;> omega
  rw [SubscBear.readAdr, msgAdr, ← hcnt]
  exact map_congr_left fun i hi => if_pos (hreads i (mem_range.mp hi)).2

end SubscBear

/-! ### What is matched -/

theorem getLsbD_matchSlot (adr m : BitVec 16) (s : FriendSlot) (k : ℕ) {j : ℕ} (hj : j < 16) :
    (matchSlot adr m (s, k)).getLsbD j ↔
      m.getLsbD j ∨ j = k ∧ isInMeshFriendStFn s ∧ adr ∈ s.subsList := by
  have hbit : ((1 : BitVec 16) <<< k).getLsbD j ↔ j = k := by
    have hone : (1 : BitVec 16).getLsbD (j - k) = decide (j - k = 0) := by
      simp [BitVec.getLsbD_one]
    rw [BitVec.getLsbD_shiftLeft, hone]
    simp only [hj, decide_true, Bool.true_and, Bool.and_eq_true, Bool.not_eq_true',
      decide_eq_false_iff_not, decide_eq_true_eq]
    omega
  unfold matchSlot
  rw [← contains_iff_mem]
  split_ifs with hs
  · rw [BitVec.getLsbD_or, Bool.or_eq_true, hbit, and_iff_left hs]
  · exact (or_iff_left fun hc => hs hc.2).symm

theorem getLsbD_match_fold (adr : BitVec 16) (l : List FriendSlot) (k : ℕ) (m : BitVec 16)
    {j : ℕ} (hj : j < 16) :
    ((l.zipIdx k).foldl (matchSlot adr) m).getLsbD j ↔
      m.getLsbD j ∨ ∃ s, k ≤ j ∧ l[j - k]? = some s ∧
        isInMeshFriendStFn s ∧ adr ∈ s.subsList := by
  induction l generalizing k m with
  | nil => simp
  | cons s l ih =>
    rw [zipIdx_cons, foldl_cons, ih, getLsbD_matchSlot adr m s k hj, or_assoc]
    refine or_congr_right ?_
    -- bit `j` is that of a slot before, of this one, or of one behind it
    rcases Nat.lt_trichotomy j k with hlt | rfl | hgt
    · refine iff_of_false ?_ fun ⟨_, hle, _⟩ => absurd hle (by omega)
      rintro (⟨heq, -⟩ | ⟨_, hle, -⟩)
      · omega
      · omega
    · rw [Nat.sub_self, getElem?_cons_zero]
      constructor
      · rintro (⟨-, hs⟩ | ⟨_, hle, -⟩)
        · exact ⟨s, le_refl j, rfl, hs⟩
        · omega
      · rintro ⟨_, -, hs, hmatch⟩
        exact .inl ⟨rfl, Option.some.inj hs ▸ hmatch⟩
    · have hsucc : j - k = j - (k + 1) + 1 := by omega
      rw [hsucc, getElem?_cons_succ]
      constructor
      · rintro (⟨heq, -⟩ | ⟨t, -, ht⟩)
        · omega
        · exact ⟨t, hgt.le, ht⟩
      · rintro ⟨t, -, ht⟩
        exact .inr ⟨t, hgt, ht⟩

/-- The bit of a slot says that it is a friendship, and the address is in its list. -/
theorem getLsbD_meshGroupMatchFriend {l : List FriendSlot} {adr : BitVec 16} (hadr : adr ≠ 0)
    {j : ℕ} (hj : j < 16) {s : FriendSlot} (hs : l[j]? = some s) :
    (meshGroupMatchFriend true l adr).getLsbD j ↔
      isInMeshFriendStFn s ∧ adr ∈ contents s.subsList := by
  have hfold := getLsbD_match_fold adr l 0 0 hj
  rw [meshGroupMatchFriend, if_pos rfl, hfold, Nat.sub_zero, hs, mem_contents,
    and_iff_left hadr]
  constructor
  · rintro (hzero | ⟨t, -, ht, hmatch⟩)
    · simp at hzero
    · exact Option.some.inj ht ▸ hmatch
  · exact fun hmatch => .inr ⟨s, Nat.zero_le j, rfl, hmatch⟩

/-! ### The handler -/

/-- What the handler of a subscription list should do to the table `l`. -/
structure SubsListRight (add : Bool) (b : SubscBear) (rx : FriendRx) (l l' : List FriendSlot) :
    Prop where
  reads : ∀ i, i < b.adrCnt.toNat → i < b.msgCnt ∧ i < subListMaxInOneMsg
  nodup : ∀ t ∈ l', (entries t.subsList).Nodup
  lists : Forall₂ (fun s t => friendRxPasses s rx = true →
    (add = true → (contents s.subsList ∪ b.msgAdr.toFinset.erase 0).card ≤ subListMaxLpn →
      contents t.subsList = contents s.subsList ∪ b.msgAdr.toFinset.erase 0) ∧
    (add = false → contents t.subsList = contents s.subsList \ b.msgAdr.toFinset)) l l'
  matched : ∀ (j : ℕ) (t : FriendSlot), l'[j]? = some t → ∀ adr ≠ 0,
    ((meshGroupMatchFriend true l' adr).getLsbD j ↔
      isInMeshFriendStFn t ∧ adr ∈ contents t.subsList)

section

variable (lib : FriendLib) (node : FriendNode)

/-- A subscription list goes through the whole table. -/
theorem friendRxWalk_subsList {rx : FriendRx} {add : Bool} {transNo : BitVec 8}
    {adr : List (BitVec 16)} (hm : rx.msg = .subsList add transNo adr) (l : List FriendSlot) :
    friendRxWalk lib node rx l = l.map fun s => (friendRxSlot lib node rx s).1 := by
  have hgoes : ∀ s, (friendRxSlot lib node rx s).2 = false := by
    intro s
    rw [friendRxSlot]
    split_ifs with hp
    · rw [friendRxMsg, hm]
    · rfl
  induction l with
  | nil => rfl
  | cons s l ih =>
    rw [map_cons, ← ih, friendRxWalk]
    have hs := hgoes s
    revert hs
    obtain ⟨t, stop⟩ := friendRxSlot lib node rx s
    rintro rfl
    rfl

theorem subsList_friendRxSlot {rx : FriendRx} {add : Bool} {transNo : BitVec 8}
    {adr : List (BitVec 16)} (hm : rx.msg = .subsList add transNo adr) {s : FriendSlot}
    (hp : friendRxPasses s rx = true) :
    (friendRxSlot lib node rx s).1.subsList = SubscCmd.run ⟨add, adr⟩ s.subsList := by
  unfold friendRxSlot friendRxMsg
  rw [if_pos hp, hm]
  rfl

end

/-- **A subscription list is applied as it was sent** exactly when the message is well formed. -/
theorem subsList_iff (lib : FriendLib) (node : FriendNode) {l : List FriendSlot}
    (h : (friendTable lib node).Reach l) (hmax : l.length ≤ 16) (add : Bool) (b : SubscBear)
    (stack : ℕ → BitVec 16) (rx : FriendRx) (hm : rx.msg = b.msg add stack) :
    SubsListRight add b rx l (meshFriendShipProcFN lib node l (.rx rx)) ↔ b.WellFormed := by
  have htable := hasTable_of_reach lib node h
  refine ⟨fun hright => b.reads_iff.mp hright.reads, fun hwell => ?_⟩
  have hnext := HasTable.next lib node htable (.rx rx)
  have hwalk : meshFriendShipProcFN lib node l (.rx rx) =
      l.map fun s => (friendRxSlot lib node rx s).1 := friendRxWalk_subsList lib node hm l
  refine ⟨b.reads_iff.mpr hwell, fun t ht => (hnext t ht).nodup, ?_, fun j t ht adr hadr => ?_⟩
  · rw [hwalk, forall₂_map_right_iff, forall₂_same]
    intro s hs hp
    rw [subsList_friendRxSlot lib node hm hp, hwell.readAdr]
    constructor
    · rintro rfl hroom
      exact SubscCmd.contents_run (c := ⟨true, b.msgAdr⟩) (htable s hs) hroom
    · rintro rfl
      exact contents_takeOutAll s.subsList b.msgAdr
  · have hj : j < (meshFriendShipProcFN lib node l (.rx rx)).length :=
      (List.getElem?_eq_some_iff.mp ht).1
    rw [hwalk, length_map] at hj
    exact getLsbD_meshGroupMatchFriend hadr (hj.trans_le hmax) ht

/-- Node 5 is a friend. -/
def friendEvents : List FriendEvent := [.rx (lpnRequest 5), .rx (lpnPoll 5 false)]

/-- A list with the address C001. -/
def subscOne : SubscBear := ⟨22, true, fun i => if i = 1 then 0x01 else if i = 2 then 0xC0 else 0⟩

theorem subsList_iff_one :
    SubsListRight true subscOne ⟨5, subscOne.msg true fun _ => 0, 0, 0⟩
      (friendEvents.foldl (meshFriendShipProcFN (ringPush 2) friendOne)
        (meshFriendShipInitAll [idleSlot]))
      (meshFriendShipProcFN (ringPush 2) friendOne
        (friendEvents.foldl (meshFriendShipProcFN (ringPush 2) friendOne)
          (meshFriendShipInitAll [idleSlot]))
        (.rx ⟨5, subscOne.msg true fun _ => 0, 0, 0⟩)) :=
  (subsList_iff (ringPush 2) friendOne (friendTable_reach _ _ [idleSlot] friendEvents)
    (by decide +kernel) true subscOne (fun _ => 0) ⟨5, subscOne.msg true fun _ => 0, 0, 0⟩ rfl).mpr
    (.inr ⟨1, by decide, by decide⟩)

/-- Half an address. -/
def subscHalf : SubscBear := ⟨21, true, fun _ => 1⟩

theorem subsList_refuted : ¬ ∀ (lib : FriendLib) (node : FriendNode) (l : List FriendSlot),
    (friendTable lib node).Reach l → l.length ≤ 16 →
    ∀ (add : Bool) (b : SubscBear) (stack : ℕ → BitVec 16) (rx : FriendRx),
      rx.msg = b.msg add stack →
      SubsListRight add b rx l (meshFriendShipProcFN lib node l (.rx rx)) := by
  intro h
  have hright := h (ringPush 2) friendOne _ (friendTable_reach _ _ [idleSlot] friendEvents)
    (by decide +kernel) true subscHalf (fun _ => 0) ⟨5, subscHalf.msg true fun _ => 0, 0, 0⟩ rfl
  exact absurd (hright.reads 0 (by decide)).1 (by decide)

end PirMesh

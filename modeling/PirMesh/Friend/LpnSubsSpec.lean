import PirMesh.Friend.LpnSubs

/-! # Friend — Whether the friend knows the subscriptions

The list of the friend and the list of the node are to hold the addresses the models of
the node are subscribed to, whenever nothing is to be repeated and the friendship is the
old one (`InSync`).  The messages of one change are a request of `StopWait`: whoever has
it has its addresses added to the list or taken out of it (`SubscCmd.act`).

They do as long as each change is told in turn (`InTurn`): nothing is to be repeated when
it is made, and what is sent for it says all of it.  An overwriting or the deletion of
all addresses sends nothing, a deletion takes the address out although another model may
keep it, and a change in the middle of another one takes its place in the record. -/

namespace PirMesh

open FreePlaces Run StopWait

/-! ### What a message does to a list -/

def SubscCmd.act (c : SubscCmd) (s : Finset (BitVec 16)) : Finset (BitVec 16) :=
  if c.add then s ∪ c.adr.toFinset.erase 0 else s \ c.adr.toFinset

theorem SubscCmd.act_act (c : SubscCmd) (s : Finset (BitVec 16)) : c.act (c.act s) = c.act s := by
  rw [act, act]
  split
  · rw [Finset.union_assoc, Finset.union_self]
  · rw [sdiff_sdiff, sup_idem]

/-- The list after the message. -/
def SubscCmd.run (c : SubscCmd) (l : List (BitVec 16)) : List (BitVec 16) :=
  if c.add then friendSubscListAddAdr l c.adr else friendSubscListRmvAdr l c.adr

variable {l : List (BitVec 16)} {c : SubscCmd}

theorem SubscCmd.run_table (h : Table subListMaxLpn l) : Table subListMaxLpn (c.run l) := by
  rw [run]
  split
  · exact h.putAll c.adr
  · exact h.takeOutAll c.adr

/-- As long as there is room, the list follows the set. -/
theorem SubscCmd.contents_run (h : Table subListMaxLpn l)
    (hroom : (c.act (contents l)).card ≤ subListMaxLpn) :
    contents (c.run l) = c.act (contents l) := by
  rw [run, act]
  rw [act] at hroom
  split
  · next hadd =>
    rw [if_pos hadd] at hroom
    exact contents_putAll h c.adr hroom
  · exact contents_takeOutAll l c.adr

/-! ### The invariant -/

/-- The two lists hold what the node is subscribed to. -/
def LpnLink.InSync (k : LpnLink) : Prop :=
  k.lpn.retry.retryCnt = 0 → k.restarted = false →
    contents k.fn.subsList = subscribed k.subs ∧ contents k.lpn.adr = subscribed k.subs

/-- A friendship whose lists are in order, with no message in flight. -/
structure LpnLink.Established (k : LpnLink) : Prop where
  restarted_eq : k.restarted = false
  status_eq : k.lpn.status = .idle
  friend_eq : isInMeshFriendStFn k.fn = true
  retryCnt_eq : k.lpn.retry.retryCnt = 0
  toFn_eq : k.toFn = []
  toLpn_eq : k.toLpn = []
  held_eq : heldConf k.fn = none
  fn_table : Table subListMaxLpn k.fn.subsList
  lpn_table : Table subListMaxLpn k.lpn.adr
  fn_eq : contents k.fn.subsList = subscribed k.subs
  lpn_eq : contents k.lpn.adr = subscribed k.subs

/-- What is sent for the change says what it does. -/
def SubTold (op : CfgModelSub) (model : ℕ) (adr : BitVec 16) (s : ModelSubs) : Prop :=
  match op with
  | .add | .virtualAdrAdd => True
  | .del | .virtualAdrDel => adr ∉ subscribed (subSet op model adr s)
  | .overWrite | .virtualAdrOverWrite | .delAll =>
    subscribed (subSet op model adr s) = subscribed s

def InTurn (k : LpnLink) : LpnEvent → Prop
  | .change op model adr => k.lpn.retry.retryCnt = 0 ∧ SubTold op model adr k.subs ∧
      (subscribed (subSet op model adr k.subs)).card ≤ subListMaxLpn
  | _ => True

instance (model : ℕ) (adr : BitVec 16) (s : ModelSubs) :
    ∀ op, Decidable (SubTold op model adr s)
  | .add | .virtualAdrAdd => inferInstanceAs (Decidable True)
  | .del => inferInstanceAs (Decidable (adr ∉ subscribed (subSet .del model adr s)))
  | .virtualAdrDel =>
    inferInstanceAs (Decidable (adr ∉ subscribed (subSet .virtualAdrDel model adr s)))
  | .overWrite =>
    inferInstanceAs (Decidable (subscribed (subSet .overWrite model adr s) = subscribed s))
  | .virtualAdrOverWrite =>
    inferInstanceAs (Decidable (subscribed (subSet .virtualAdrOverWrite model adr s) =
      subscribed s))
  | .delAll => inferInstanceAs (Decidable (subscribed (subSet .delAll model adr s) = subscribed s))

instance (k : LpnLink) : ∀ e, Decidable (InTurn k e)
  | .change op model adr => inferInstanceAs (Decidable (k.lpn.retry.retryCnt = 0 ∧
      SubTold op model adr k.subs ∧
        (subscribed (subSet op model adr k.subs)).card ≤ subListMaxLpn))
  | .pass .. | .pollRetry _ | .loseReq _ | .loseConf _ | .rxReq .. | .rxConf | .fnRx _
  | .fnPass .. | .fnResponse .. => inferInstanceAs (Decidable True)

/-- What the record repeats. -/
def MeshSubscListRetry.cmd (r : MeshSubscListRetry) : SubscCmd := ⟨r.retryType = .add, r.adr⟩

/-- The list of the node once the record is confirmed. -/
def LpnNode.confirmed (n : LpnNode) : List (BitVec 16) :=
  if n.retry.retryType = .add then friendSubscListAddAdr n.adr n.retry.adr else n.adr

namespace LpnLink

/-- A confirmation that waits at the friend is the last one in flight. -/
def exchange (k : LpnLink) : Link (BitVec 8) SubscCmd (Finset (BitVec 16)) where
  last := k.lpn.retry.transNo
  cmd := k.lpn.retry.cmd
  down := k.toFn
  up := k.toLpn ++ (heldConf k.fn).toList
  recv := contents k.fn.subsList

structure Pending (k : LpnLink) : Prop where
  cnt_ne : k.lpn.retry.retryCnt ≠ 0
  numbered : k.lpn.transNo = k.lpn.retry.transNo + 1
  waiting : Waiting SubscCmd.act (subscribed k.subs) k.exchange
  confirmed_eq : contents k.lpn.confirmed = subscribed k.subs

structure Idle (k : LpnLink) : Prop where
  cnt_eq : k.lpn.retry.retryCnt = 0
  /-- The next number is new. -/
  numbered : k.lpn.transNo = k.lpn.retry.transNo + 1 ∨ k.exchange.down = [] ∧ k.exchange.up = []
  done : Done SubscCmd.act (subscribed k.subs) k.exchange
  lpn_eq : contents k.lpn.adr = subscribed k.subs

structure Inv (k : LpnLink) : Prop where
  fn_table : Table subListMaxLpn k.fn.subsList
  lpn_table : Table subListMaxLpn k.lpn.adr
  fits : (subscribed k.subs).card ≤ subListMaxLpn
  phase : k.Pending ∨ k.Idle

variable {k : LpnLink}

theorem Established.inv (h : k.Established) : k.Inv := by
  have hdown : k.exchange.down = [] := h.toFn_eq
  have hup : k.exchange.up = [] := by
    show k.toLpn ++ (heldConf k.fn).toList = []
    rw [h.toLpn_eq, h.held_eq]
    rfl
  refine ⟨h.fn_table, h.lpn_table, h.fn_eq ▸ h.fn_table.card_le, .inr ⟨h.retryCnt_eq, .inr
    ⟨hdown, hup⟩, ⟨fun x hx => ?_, fun n hn => ?_, h.fn_eq⟩, h.lpn_eq⟩⟩
  · exact absurd (hdown ▸ hx) List.not_mem_nil
  · exact absurd (hup ▸ hn) List.not_mem_nil

/-! ### Losses -/

/-- Messages are lost, and the friend leaves the list as it is. -/
theorem Inv.lose (h : k.Inv) {toFn : List SubscMsg} {toLpn : List (BitVec 8)} {fn : FriendSlot}
    (hdown : toFn.Sublist k.toFn) (hlist : fn.subsList = k.fn.subsList)
    (hup : (toLpn ++ (heldConf fn).toList).Sublist (k.toLpn ++ (heldConf k.fn).toList)) :
    Inv { k with toFn, toLpn, fn } := by
  refine ⟨hlist ▸ h.fn_table, h.lpn_table, h.fits, ?_⟩
  have hrecv : contents fn.subsList = k.exchange.recv := congrArg contents hlist
  obtain h | h := h.phase
  · refine .inl ⟨h.cnt_ne, h.numbered, ?_, h.confirmed_eq⟩
    rw [exchange, hrecv]
    exact h.waiting.lose hdown hup
  · refine .inr ⟨h.cnt_eq, h.numbered.imp_right fun hnil => ?_, ?_, h.lpn_eq⟩
    · exact ⟨List.sublist_nil.mp (hnil.1 ▸ hdown), List.sublist_nil.mp (hnil.2 ▸ hup)⟩
    · rw [exchange, hrecv]
      exact h.done.lose hdown hup

end LpnLink

/-! ### What else happens at the friend -/

/-- Unless it ends the friendship, a step leaves the list, and holds no new confirmation. -/
def KeepsList (s t : FriendSlot) : Prop :=
  isInMeshFriendStFn t = true →
    t.subsList = s.subsList ∧ (heldConf t = heldConf s ∨ heldConf t = none)

theorem KeepsList.of_eq {s t : FriendSlot} (hl : t.subsList = s.subsList)
    (hd : t.delay = s.delay) : KeepsList s t :=
  fun _ => ⟨hl, .inl (by rw [heldConf, heldConf, hd])⟩

theorem KeepsList.refl (s : FriendSlot) : KeepsList s s := .of_eq rfl rfl

theorem KeepsList.of_none {s t : FriendSlot} (hl : t.subsList = s.subsList)
    (hd : heldConf t = none) : KeepsList s t := fun _ => ⟨hl, .inr hd⟩

theorem KeepsList.of_cleared {s t : FriendSlot} (h : t.linkOk = false) : KeepsList s t := by
  intro ht
  rw [isInMeshFriendStFn, h] at ht
  exact absurd (of_decide_eq_true ht).1 Bool.false_ne_true

theorem keepsList_friendTimeoutStatus (s : FriendSlot) (now now100ms : BitVec 32) :
    KeepsList s (friendTimeoutStatus s now now100ms) := by
  unfold friendTimeoutStatus
  split
  · exact .refl s
  · exact .refl s
  · exact .refl s
  · split_ifs
    · exact .of_eq rfl rfl
    · exact .refl s
  · split_ifs
    · exact .of_eq rfl rfl
    · exact .refl s
  · split_ifs
    · exact .of_cleared rfl
    · exact .refl s

theorem friendTimeoutClear_eq (s : FriendSlot) (now100ms : BitVec 32) :
    ∃ proc, friendTimeoutClear s now100ms = { s with proc } := by
  unfold friendTimeoutClear
  split_ifs
  · exact ⟨_, rfl⟩
  · exact ⟨_, rfl⟩
  · exact ⟨s.proc, rfl⟩
  · exact ⟨s.proc, rfl⟩

theorem keepsList_friendTimeout (now now100ms : BitVec 32) (s : FriendSlot) :
    KeepsList s (friendTimeout now now100ms s) := by
  rw [friendTimeout, friendTimeoutLpn]
  split_ifs
  · exact .of_cleared rfl
  · obtain ⟨proc, heq⟩ := friendTimeoutClear_eq (friendTimeoutStatus s now now100ms) now100ms
    rw [heq]
    exact keepsList_friendTimeoutStatus s now now100ms

variable (lib : FriendLib) (node : FriendNode)

theorem subsList_friendPollCache (s : FriendSlot) (p : FriendPoll) :
    (friendPollCache lib node s p).subsList = s.subsList := by
  unfold friendPollCache
  split_ifs <;> rfl

theorem subsList_friendEstablish (s : FriendSlot) :
    (friendEstablish node s).subsList = s.subsList := by
  unfold friendEstablish
  dsimp only
  split_ifs <;> rfl

theorem keepsList_friendPollSlot (s : FriendSlot) (p : FriendPoll) :
    KeepsList s (friendPollSlot lib node s p) := by
  -- the response takes the place of a confirmation
  have hrsp (t : FriendSlot) (ht : t.subsList = s.subsList) :
      KeepsList s (friendPollRsp lib node t p) :=
    .of_none ((subsList_friendPollCache lib node t p).trans ht) rfl
  unfold friendPollSlot
  split_ifs
  · exact hrsp _ (subsList_friendEstablish node s)
  · exact .of_cleared rfl
  · exact hrsp s rfl

theorem keepsList_fnRxOther (rx : FriendRx) (s : FriendSlot) :
    KeepsList s (fnRxOther lib node rx s) := by
  rw [fnRxOther]
  split
  · exact .refl s
  · next hmsg =>
    rw [friendRxSlot]
    split_ifs with hp
    · unfold friendRxMsg
      cases hm : rx.msg with
      | request n r =>
        dsimp only
        split_ifs
        · exact .refl s
        · exact .of_cleared rfl
        · exact .refl s
      | poll p =>
        dsimp only
        split_ifs
        · exact .refl s
        · exact .refl s
        · exact keepsList_friendPollSlot lib node s p
      | clear lpnAdr lpnCounter =>
        dsimp only
        split_ifs
        · exact .of_none rfl rfl
        · exact .of_cleared rfl
        · exact .refl s
      | clrConf lpnAdr =>
        dsimp only
        split_ifs
        · exact .of_eq rfl rfl
        · exact .refl s
      | subsList add transNo adr => exact absurd hm (hmsg add transNo adr)
      | other => exact .refl s
    · exact .refl s

/-- The response sends the confirmation that waits, if it is due. -/
theorem friendResponse_held (s : FriendSlot) (now now100ms : BitVec 32) :
    (meshFriendResponseDelayProcFn s now now100ms).1.subsList = s.subsList ∧
      ((friendSubscConf s now).toList ++
        (heldConf (meshFriendResponseDelayProcFn s now now100ms).1).toList).Sublist
          (heldConf s).toList := by
  have hconf : (friendSubscConf s now).toList.Sublist (heldConf s).toList := by
    rw [friendSubscConf]
    split_ifs
    · exact .refl _
    · exact List.nil_sublist _
  have hsent (t : FriendSlot) (hl : t.subsList = s.subsList) (hd : t.delay.delayType = .none) :
      t.subsList = s.subsList ∧
        ((friendSubscConf s now).toList ++ (heldConf t).toList).Sublist (heldConf s).toList := by
    have hnone : heldConf t = none := by
      rw [heldConf, hd]
      rfl
    rw [hnone, Option.toList_none, List.append_nil]
    exact ⟨hl, hconf⟩
  unfold meshFriendResponseDelayProcFn
  dsimp only
  split_ifs with hdue
  · exact hsent _ rfl rfl
  · exact hsent _ rfl rfl
  · exact hsent _ rfl rfl
  · exact hsent _ rfl rfl
  · have hnone : friendSubscConf s now = none := by
      rw [friendSubscConf]
      split_ifs with hexceed
      · -- nothing waits
        have htype : s.delay.delayType = .none := by_contra fun hne => hdue ⟨hne, hexceed⟩
        rw [heldConf, htype]
        rfl
      · rfl
    rw [hnone]
    exact ⟨rfl, .refl _⟩

/-- A message that passes is acted on and will be confirmed. -/
theorem fnRxReq_spec (lpnAdr : BitVec 16) (now now100ms : BitVec 32) (m : SubscMsg)
    (s : FriendSlot) :
    fnRxReq lib node lpnAdr now now100ms m s = s ∨
      (fnRxReq lib node lpnAdr now now100ms m s).subsList = m.2.run s.subsList ∧
        heldConf (fnRxReq lib node lpnAdr now now100ms m s) = some m.1 := by
  rw [fnRxReq, friendRxSlot]
  split_ifs with hp
  · refine .inr ⟨rfl, ?_⟩
    show some ((m.1.setWidth 16).setWidth 8) = some m.1
    rw [BitVec.setWidth_setWidth_of_le _ (by decide), BitVec.setWidth_eq]
  · exact .inl rfl

namespace LpnLink

variable {lpnAdr : BitVec 16} {k : LpnLink}

/-! ### The steps -/

/-- The friend takes a message in. -/
theorem Inv.deliver (h : k.Inv) {m : SubscMsg} {toFn : List SubscMsg} {fn : FriendSlot}
    (hk : k.toFn = m :: toFn) (hlist : fn.subsList = m.2.run k.fn.subsList)
    (hheld : heldConf fn = some m.1) : Inv { k with toFn, fn } := by
  -- what was waiting for its delay is lost
  have hup : (k.toLpn ++ (heldConf fn).toList).Sublist (k.exchange.up ++ [m.1]) := by
    rw [hheld]
    exact (List.sublist_append_left k.toLpn _).append_right [m.1]
  have hact : m.2.act k.exchange.recv = k.exchange.recv ∨
      m.2.act k.exchange.recv = subscribed k.subs := by
    obtain hp | hi := h.phase
    · exact hp.waiting.act_head hk
    · exact .inr (hi.done.act_head hk)
  have hroom : (m.2.act (contents k.fn.subsList)).card ≤ subListMaxLpn := by
    obtain hact | hact := hact
    · rw [show m.2.act (contents k.fn.subsList) = _ from hact]
      exact h.fn_table.card_le
    · rw [show m.2.act (contents k.fn.subsList) = _ from hact]
      exact h.fits
  have hrecv : contents fn.subsList = m.2.act k.exchange.recv := by
    rw [hlist]
    exact SubscCmd.contents_run h.fn_table hroom
  refine ⟨hlist ▸ SubscCmd.run_table h.fn_table, h.lpn_table, h.fits, ?_⟩
  obtain hp | hi := h.phase
  · refine .inl ⟨hp.cnt_ne, hp.numbered, ?_, hp.confirmed_eq⟩
    rw [exchange, hrecv]
    exact (hp.waiting.deliver SubscCmd.act_act hk).lose (.refl _) hup
  · refine .inr ⟨hi.cnt_eq, hi.numbered.imp_right fun hnil => ?_, ?_, hi.lpn_eq⟩
    · exact absurd (hnil.1.symm.trans hk) (List.cons_ne_nil m toFn).symm
    · rw [exchange, hrecv]
      exact (hi.done.deliver hk).lose (.refl _) hup

/-- The confirmation of the last request. -/
theorem Inv.confirm (h : k.Inv) {toLpn : List (BitVec 8)}
    (hk : k.toLpn = k.lpn.retry.transNo :: toLpn) :
    Inv { k with toLpn, lpn := friendSubscStop { k.lpn with adr := k.lpn.confirmed } } := by
  have hup : k.exchange.up = k.exchange.last :: (toLpn ++ (heldConf k.fn).toList) := by
    show k.toLpn ++ _ = _
    rw [hk]
    rfl
  have htable : Table subListMaxLpn k.lpn.confirmed := by
    rw [LpnNode.confirmed]
    split_ifs
    · exact h.lpn_table.putAll _
    · exact h.lpn_table
  refine ⟨h.fn_table, htable, h.fits, .inr ?_⟩
  obtain hp | hi := h.phase
  · exact ⟨rfl, .inl hp.numbered, hp.waiting.confirm hup, hp.confirmed_eq⟩
  · have hmem : k.exchange.last ∈ k.exchange.up := hup ▸ List.mem_cons_self
    obtain ⟨-, hact⟩ := hi.done.up_eq _ hmem
    refine ⟨rfl, .inl ?_, hi.done.lose (.refl _) ?_, ?_⟩
    · obtain hnum | hnil := hi.numbered
      · exact hnum
      · exact absurd (hnil.2 ▸ hmem) List.not_mem_nil
    · rw [hup]
      exact List.sublist_cons_self _ _
    · -- the list has what is confirmed again
      show contents k.lpn.confirmed = subscribed k.subs
      rw [LpnNode.confirmed]
      split_ifs with hadd
      · have hrun : friendSubscListAddAdr k.lpn.adr k.lpn.retry.adr =
            k.lpn.retry.cmd.run k.lpn.adr := by
          have htype : k.lpn.retry.cmd.add = true := decide_eq_true hadd
          rw [SubscCmd.run, if_pos htype]
          rfl
        have hsame : k.lpn.retry.cmd.act (contents k.lpn.adr) = subscribed k.subs := by
          rw [hi.lpn_eq]
          exact hact
        rw [hrun, SubscCmd.contents_run h.lpn_table (hsame ▸ h.fits), hsame]
      · exact hi.lpn_eq

theorem ne_succ (n : BitVec 8) : n ≠ n + 1 := by
  bv_omega

/-- A change that leaves the addresses. -/
theorem Inv.congr_subs (h : k.Inv) {subs : ModelSubs}
    (hsame : subscribed subs = subscribed k.subs) :
    Inv { k with subs } := by
  refine ⟨h.fn_table, h.lpn_table, hsame ▸ h.fits, ?_⟩
  obtain hp | hi := h.phase
  · exact .inl ⟨hp.cnt_ne, hp.numbered, hsame ▸ hp.waiting, hp.confirmed_eq.trans hsame.symm⟩
  · exact .inr ⟨hi.cnt_eq, hi.numbered, hsame ▸ hi.done, hi.lpn_eq.trans hsame.symm⟩

/-- A change that is sent. -/
theorem Inv.start (h : k.Inv) (hcnt : k.lpn.retry.retryCnt = 0) {type : SubscType}
    {subs : ModelSubs} {a : BitVec 16} {adr : List (BitVec 16)}
    (hgoal : SubscCmd.act ⟨type = .add, [a]⟩ (subscribed k.subs) = subscribed subs)
    (hfits : (subscribed subs).card ≤ subListMaxLpn) (htable : Table subListMaxLpn adr)
    (hconf : contents (if type = .add then friendSubscListAddAdr adr [a] else adr) =
      subscribed subs) :
    Inv { k with
      subs
      lpn := { k.lpn with
        adr, retry := ⟨type, lpnGetPollRetryMax, k.lpn.transNo, [a]⟩, transNo := k.lpn.transNo + 1 }
      toFn := k.toFn ++ [(k.lpn.transNo, ⟨type = .add, [a]⟩)] } := by
  obtain hp | hi := h.phase
  · exact absurd hcnt hp.cnt_ne
  · -- no message in flight has the number
    have hnew {n : BitVec 8} (hn : n = k.lpn.retry.transNo)
        (hnonempty : ¬ (k.exchange.down = [] ∧ k.exchange.up = [])) : n ≠ k.lpn.transNo := by
      rw [hi.numbered.resolve_right hnonempty, hn]
      exact ne_succ _
    refine ⟨h.fn_table, htable, hfits, .inl ⟨?_, rfl, .inl ?_, hconf⟩⟩
    · exact (by decide : lpnGetPollRetryMax ≠ 0)
    · refine hi.done.request (fun x hx => ?_) (fun n hn => ?_) hgoal
      · refine hnew (congrArg Prod.fst (hi.done.down_eq x hx).1) fun hnil => ?_
        exact List.not_mem_nil (hnil.1 ▸ hx)
      · refine hnew (hi.done.up_eq n hn).1 fun hnil => ?_
        exact List.not_mem_nil (hnil.2 ▸ hn)

theorem subscribed_insert (s : ModelSubs) (model : ℕ) (a : BitVec 16) :
    subscribed (insert (model, a) s) = insert a (subscribed s) := Finset.image_insert Prod.snd _ s

theorem subscribed_erase {s : ModelSubs} {model : ℕ} {a : BitVec 16}
    (hgone : a ∉ subscribed (s.erase (model, a))) :
    subscribed (s.erase (model, a)) = (subscribed s).erase a := by
  ext b
  constructor
  · intro hb
    refine Finset.mem_erase.mpr ⟨fun heq => hgone (heq ▸ hb), ?_⟩
    exact Finset.image_subset_image (Finset.erase_subset _ s) hb
  · intro hb
    obtain ⟨hne, hb⟩ := Finset.mem_erase.mp hb
    obtain ⟨p, hp, rfl⟩ := Finset.mem_image.mp hb
    exact Finset.mem_image_of_mem _ (Finset.mem_erase.mpr ⟨fun heq => hne (heq ▸ rfl), hp⟩)

/-- An address is added to a model. -/
theorem Inv.add (h : k.Inv) (hcnt : k.lpn.retry.retryCnt = 0) (model : ℕ) (a : GroupAdr)
    (hfits : (subscribed (insert (model, a.1) k.subs)).card ≤ subListMaxLpn) :
    Inv { k with
      subs := insert (model, a.1) k.subs
      lpn := (friendSubscAdd [a.1] k.lpn).1
      toFn := k.toFn ++ (friendSubscAdd [a.1] k.lpn).2.toList } := by
  have ha : a.1 ≠ 0 := fun h0 => absurd (h0 ▸ a.2) (by decide)
  have hi : k.Idle := h.phase.resolve_left fun hp => hp.cnt_ne hcnt
  have hgoal : SubscCmd.act ⟨true, [a.1]⟩ (subscribed k.subs) =
      subscribed (insert (model, a.1) k.subs) := by
    rw [subscribed_insert, SubscCmd.act, if_pos rfl, List.toFinset_cons, List.toFinset_nil,
      Finset.erase_insert_of_ne ha, Finset.erase_empty, Finset.union_insert, Finset.union_empty]
  refine h.start hcnt hgoal hfits h.lpn_table ?_
  have hrun : contents (SubscCmd.run ⟨true, [a.1]⟩ k.lpn.adr) =
      SubscCmd.act ⟨true, [a.1]⟩ (contents k.lpn.adr) := by
    refine SubscCmd.contents_run h.lpn_table ?_
    rw [hi.lpn_eq, hgoal]
    exact hfits
  rw [hi.lpn_eq, hgoal] at hrun
  exact hrun

/-- The last model that is subscribed to an address leaves it. -/
theorem Inv.del (h : k.Inv) (hcnt : k.lpn.retry.retryCnt = 0) (model : ℕ) (a : GroupAdr)
    (hgone : a.1 ∉ subscribed (k.subs.erase (model, a.1))) :
    Inv { k with
      subs := k.subs.erase (model, a.1)
      lpn := (friendSubscRmv [a.1] k.lpn).1
      toFn := k.toFn ++ (friendSubscRmv [a.1] k.lpn).2.toList } := by
  have hi : k.Idle := h.phase.resolve_left fun hp => hp.cnt_ne hcnt
  have hgoal : SubscCmd.act ⟨false, [a.1]⟩ (subscribed k.subs) =
      subscribed (k.subs.erase (model, a.1)) := by
    rw [subscribed_erase hgone, SubscCmd.act, if_neg Bool.false_ne_true, List.toFinset_cons,
      List.toFinset_nil, Finset.sdiff_insert, Finset.sdiff_empty]
  have hrun : contents (SubscCmd.run ⟨false, [a.1]⟩ k.lpn.adr) =
      subscribed (k.subs.erase (model, a.1)) := by
    rw [← hgoal, ← hi.lpn_eq]
    exact contents_takeOutAll k.lpn.adr [a.1]
  refine h.start hcnt hgoal ?_ (h.lpn_table.takeOutAll [a.1]) hrun
  exact (Finset.card_le_card (Finset.image_subset_image (Finset.erase_subset _ _))).trans h.fits

/-- A change that is told in turn. -/
theorem Inv.change (h : k.Inv) {op : CfgModelSub} {model : ℕ} {a : GroupAdr}
    (hin : InTurn k (.change op model a)) :
    Inv (lpnStep lib node lpnAdr k (.change op model a)) := by
  obtain ⟨hcnt, htold, hfits⟩ := hin
  -- nothing is sent
  have hsilent (subs : ModelSubs) (hsame : subscribed subs = subscribed k.subs) :
      Inv { k with subs, toFn := k.toFn ++ [] } := by
    rw [List.append_nil]
    exact h.congr_subs hsame
  cases op with
  | add => exact h.add hcnt model a hfits
  | virtualAdrAdd => exact h.add hcnt model a hfits
  | del => exact h.del hcnt model a htold
  | virtualAdrDel => exact h.del hcnt model a htold
  | overWrite => exact hsilent _ htold
  | virtualAdrOverWrite => exact hsilent _ htold
  | delAll => exact hsilent _ htold

/-- A call without a message starts the friendship again, sends nothing, or repeats the record. -/
theorem meshFriendShipProcLPN_cases (pollDue subscDue : Bool) (n : LpnNode) :
    (meshFriendShipProcLPN pollDue subscDue n).1.status = .request ∨
      (∃ pollRetry, meshFriendShipProcLPN pollDue subscDue n = ({ n with pollRetry }, none)) ∨
      n.retry.retryCnt ≠ 0 ∧ ∃ retryCnt, retryCnt ≠ 0 ∧ meshFriendShipProcLPN pollDue subscDue n =
        ({ n with retry := { n.retry with retryCnt } }, friendSubscRepeat n) := by
  unfold meshFriendShipProcLPN
  dsimp only
  split_ifs with hpoll hlost hrepeat hstop
  · exact .inl rfl
  · exact .inr (.inl ⟨n.pollRetry - 1, rfl⟩)
  · exact .inl rfl
  · exact .inr (.inr ⟨hrepeat.1, _, hstop, rfl⟩)
  · exact .inr (.inl ⟨n.pollRetry, rfl⟩)

theorem friendSubscRepeat_eq (n : LpnNode) :
    friendSubscRepeat n = none ∨ friendSubscRepeat n = some (n.retry.transNo, n.retry.cmd) := by
  rw [friendSubscRepeat, MeshSubscListRetry.cmd]
  cases n.retry.retryType with
  | none => exact .inl rfl
  | add => exact .inr rfl
  | remove => exact .inr rfl

/-- The rest of the node is no part of the exchange. -/
theorem Inv.congr_lpn (h : k.Inv) (pollRetry : BitVec 32) :
    Inv { k with lpn := { k.lpn with pollRetry } } :=
  ⟨h.fn_table, h.lpn_table, h.fits, h.phase.imp
    (fun hp => ⟨hp.cnt_ne, hp.numbered, hp.waiting, hp.confirmed_eq⟩)
    fun hi => ⟨hi.cnt_eq, hi.numbered, hi.done, hi.lpn_eq⟩⟩

/-- The record is repeated. -/
theorem Inv.again (h : k.Inv) (hcnt : k.lpn.retry.retryCnt ≠ 0) {retryCnt : BitVec 8}
    (hne : retryCnt ≠ 0) :
    Inv { k with
      lpn := { k.lpn with retry := { k.lpn.retry with retryCnt } }
      toFn := k.toFn ++ (friendSubscRepeat k.lpn).toList } := by
  have hp : k.Pending := h.phase.resolve_right fun hi => hcnt hi.cnt_eq
  refine ⟨h.fn_table, h.lpn_table, h.fits, .inl ⟨hne, hp.numbered, ?_, hp.confirmed_eq⟩⟩
  obtain hnone | hsome := friendSubscRepeat_eq k.lpn
  · rw [hnone, Option.toList_none, List.append_nil]
    exact hp.waiting
  · rw [hsome]
    exact hp.waiting.again

/-- The call without a message, unless it starts the friendship again. -/
theorem Inv.pass (h : k.Inv) (pollDue subscDue : Bool)
    (hidle : (meshFriendShipProcLPN pollDue subscDue k.lpn).1.status = .idle) :
    Inv (lpnStep lib node lpnAdr k (.pass pollDue subscDue)) := by
  rw [lpnStep]
  obtain hstop | ⟨pollRetry, heq⟩ | ⟨hcnt, retryCnt, hne, heq⟩ :=
    meshFriendShipProcLPN_cases pollDue subscDue k.lpn
  · rw [hidle] at hstop
    cases hstop
  · rw [heq]
    show Inv { k with lpn := { k.lpn with pollRetry }, toFn := k.toFn ++ [] }
    rw [List.append_nil]
    exact h.congr_lpn pollRetry
  · rw [heq]
    exact h.again hcnt hne

/-- A step that does not start the friendship again. -/
theorem Inv.step (h : k.Inv) {e : LpnEvent} (hin : InTurn k e)
    (hidle : (lpnStep lib node lpnAdr k e).lpn.status = .idle)
    (hfriend : isInMeshFriendStFn (lpnStep lib node lpnAdr k e).fn = true) :
    Inv (lpnStep lib node lpnAdr k e) := by
  have hother (fn : FriendSlot) (hkeeps : KeepsList k.fn fn)
      (hf : isInMeshFriendStFn fn = true) : Inv { k with fn } := by
    obtain ⟨hlist, hheld⟩ := hkeeps hf
    refine h.lose (.refl _) hlist (List.Sublist.append_left ?_ _)
    obtain hheld | hheld := hheld
    · rw [hheld]
    · rw [hheld]
      exact List.nil_sublist _
  cases e with
  | change op model a => exact h.change lib node hin
  | pass pollDue subscDue => exact h.pass lib node pollDue subscDue hidle
  | pollRetry cnt => exact h.congr_lpn cnt
  | loseReq i => exact h.lose (List.eraseIdx_sublist _ i) rfl (.refl _)
  | loseConf i => exact h.lose (.refl _) rfl ((List.eraseIdx_sublist _ i).append_right _)
  | rxReq now now100ms =>
    rw [lpnStep]
    split
    · exact h
    · next m toFn hk =>
      obtain hdrop | ⟨hlist, hheld⟩ := fnRxReq_spec lib node lpnAdr now now100ms m k.fn
      · rw [hdrop]
        exact h.lose (hk ▸ List.sublist_cons_self m toFn) rfl (.refl _)
      · exact h.deliver hk hlist hheld
  | rxConf =>
    rw [lpnStep]
    split
    · exact h
    · next c toLpn hk =>
      by_cases hlast : k.lpn.status = .idle ∧ c = k.lpn.retry.transNo
      · rw [lpnSubsListConf, if_pos hlast]
        exact h.confirm (hlast.2 ▸ hk)
      · rw [lpnSubsListConf, if_neg hlast]
        refine h.lose (.refl _) rfl (List.Sublist.append_right ?_ _)
        exact hk ▸ List.sublist_cons_self c toLpn
  | fnRx rx => exact hother _ (keepsList_fnRxOther lib node rx k.fn) hfriend
  | fnPass now now100ms => exact hother _ (keepsList_friendTimeout now now100ms k.fn) hfriend
  | fnResponse now now100ms =>
    obtain ⟨hlist, hheld⟩ := friendResponse_held k.fn now now100ms
    refine h.lose (.refl _) hlist ?_
    rw [List.append_assoc]
    exact hheld.append_left _

/-! ### Runs -/

theorem restarted_lpnStep (k : LpnLink) (e : LpnEvent) :
    (lpnStep lib node lpnAdr k e).restarted = k.restarted := by
  cases e with
  | rxReq now now100ms =>
    rw [lpnStep]
    split <;> rfl
  | rxConf =>
    rw [lpnStep]
    split <;> rfl
  | _ => rfl

theorem Inv.congr_restarted (h : k.Inv) (restarted : Bool) : Inv { k with restarted } :=
  ⟨h.fn_table, h.lpn_table, h.fits, h.phase.imp
    (fun hp => ⟨hp.cnt_ne, hp.numbered, hp.waiting, hp.confirmed_eq⟩)
    fun hi => ⟨hi.cnt_eq, hi.numbered, hi.done, hi.lpn_eq⟩⟩

theorem Inv.next (h : k.restarted = true ∨ k.Inv) {e : LpnEvent} (hin : InTurn k e) :
    (lpnNext lib node lpnAdr k e).restarted = true ∨ (lpnNext lib node lpnAdr k e).Inv := by
  rw [or_iff_not_imp_left, Bool.not_eq_true]
  intro hnot
  obtain ⟨hold, hfriend⟩ := Bool.or_eq_false_iff.mp hnot
  obtain ⟨hold, hidle⟩ := Bool.or_eq_false_iff.mp hold
  rw [restarted_lpnStep] at hold
  rw [Bool.not_eq_false'] at hfriend
  have hinv : k.Inv := h.resolve_left fun hr => Bool.false_ne_true (hold.symm.trans hr)
  have hstatus := not_not.mp (of_decide_eq_false hidle)
  exact (hinv.step lib node hin hstatus hfriend).congr_restarted _

theorem Inv.inSync (h : k.Inv) : k.InSync := by
  intro hcnt _
  have hi : k.Idle := h.phase.resolve_left fun hp => hp.cnt_ne hcnt
  exact ⟨hi.done.recv_eq, hi.lpn_eq⟩

end LpnLink

/-- **The friend knows the subscriptions.**  From an established friendship, as long as each change
is told in turn, both lists hold the addresses the node is subscribed to whenever nothing is to be
repeated. -/
theorem lpnSubs_inSync (lpnAdr : BitVec 16) {k : LpnLink} (h : k.Established) {es : List LpnEvent}
    (hgood : GoodRun (lpnNext lib node lpnAdr) InTurn k es) :
    ∀ p, p <+: es → (p.foldl (lpnNext lib node lpnAdr) k).InSync := by
  rintro p ⟨t, rfl⟩
  have hrun : (p.foldl (lpnNext lib node lpnAdr) k).restarted = true ∨
      (p.foldl (lpnNext lib node lpnAdr) k).Inv :=
    (goodRun_append.mp hgood).1.inv (.inr h.inv) fun _ _ hs hin => LpnLink.Inv.next lib node hs hin
  obtain hr | hinv := hrun
  · intro _ hnot
    exact absurd (hr.symm.trans hnot) Bool.false_ne_true.symm
  · exact hinv.inSync

/-- The low power node 5 and its friend, before the first subscription. -/
def lpnStart : LpnLink where
  subs := ∅
  lpn := ⟨0, List.replicate subListMaxLpn 0, ⟨.none, 0, 0, []⟩, 0, .idle⟩
  toFn := []
  fn := { idleSlot with
    lpnAdr := 5, linkOk := true, req := ⟨1, 0, 0, 100, 100, 0, 1, 0⟩
    proc := { meshFriShipProcZero with status := .timeoutCheck } }
  toLpn := []
  restarted := false

theorem lpnStart_established : lpnStart.Established :=
  ⟨rfl, rfl, rfl, rfl, rfl, rfl, rfl, ⟨rfl, List.nodup_nil⟩, ⟨rfl, List.nodup_nil⟩, rfl, rfl⟩

/-- Two models take up a group, the first time with a loss and a repetition, and leave it. -/
def lpnChanges : List LpnEvent :=
  [.change .add 0 ⟨0xC000, rfl⟩, .loseReq 0, .pass false true, .rxReq 0 0,
    .fnResponse 4000000 0, .rxConf, .change .add 1 ⟨0xC000, rfl⟩, .rxReq 0 0,
    .fnResponse 4000000 0, .rxConf, .change .delAll 0 ⟨0xC000, rfl⟩,
    .change .del 1 ⟨0xC000, rfl⟩, .rxReq 0 0, .fnResponse 4000000 0, .rxConf]

theorem lpnSubs_inSync_sample :
    (lpnChanges.foldl (lpnNext (ringPush 2) friendOne 5) lpnStart).InSync :=
  lpnSubs_inSync (ringPush 2) friendOne 5 lpnStart_established
    (by decide : GoodRun _ _ _ lpnChanges) _ (List.prefix_refl _)

/-- A model overwrites its addresses by one, which nobody is told. -/
theorem lpnSubs_inSync_refuted :
    ¬ ∀ (k : LpnLink) (es : List LpnEvent), k.Established →
      GoodRun (lpnNext (ringPush 2) friendOne 5)
        (fun s e => (subscribed (lpnStep (ringPush 2) friendOne 5 s e).subs).card ≤ subListMaxLpn)
        k es →
      (es.foldl (lpnNext (ringPush 2) friendOne 5) k).InSync := by
  intro h
  obtain ⟨hfn, -⟩ := h lpnStart [.change .overWrite 0 ⟨0xC000, rfl⟩] lpnStart_established
    (by decide) rfl rfl
  exact absurd hfn (by decide)

end PirMesh

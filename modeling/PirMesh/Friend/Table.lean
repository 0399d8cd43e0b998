import PirMesh.Friend.Ship
import PirMesh.Library.Run

/-! # Friend — One friendship for each low power node

A request takes the first slot that is idle or of its source.  A slot before the one
its low power node is served from may have been left meanwhile, so a repeated
request may open a second friendship (`meshFriendShip_two_slots`).  Where no idle slot
comes before the slot of the source (`RequestFound`) a request ends the friendship
there is, and no run brings two slots to one low power node
(`meshFriendShip_unique`). -/

namespace PirMesh

open Run List

/-- Two slots that are not idle are of different low power nodes. -/
def UniqueLpn (l : List FriendSlot) : Prop :=
  l.Pairwise fun s t => s.proc.status ≠ .idle → t.proc.status ≠ .idle → s.lpnAdr ≠ t.lpnAdr

instance (l : List FriendSlot) : Decidable (UniqueLpn l) :=
  inferInstanceAs (Decidable (Pairwise _ l))

/-- The slot goes on with its low power node, or is idle. -/
def KeepsLpn (s t : FriendSlot) : Prop :=
  t.proc.status ≠ .idle → s.proc.status ≠ .idle ∧ t.lpnAdr = s.lpnAdr

theorem KeepsLpn.refl (s : FriendSlot) : KeepsLpn s s := fun h => ⟨h, rfl⟩

theorem KeepsLpn.trans {s t u : FriendSlot} (h₁ : KeepsLpn s t) (h₂ : KeepsLpn t u) :
    KeepsLpn s u := by
  intro hu
  obtain ⟨ht, htu⟩ := h₂ hu
  obtain ⟨hs, hst⟩ := h₁ ht
  exact ⟨hs, htu.trans hst⟩

theorem KeepsLpn.of_eq {s t : FriendSlot} (hs : t.proc.status = s.proc.status)
    (ha : t.lpnAdr = s.lpnAdr) : KeepsLpn s t := fun h => ⟨hs ▸ h, ha⟩

theorem KeepsLpn.of_idle {s t : FriendSlot} (h : t.proc.status = .idle) : KeepsLpn s t :=
  fun hne => absurd h hne

theorem UniqueLpn.keeps {l l' : List FriendSlot} (h : UniqueLpn l) (hk : Forall₂ KeepsLpn l l') :
    UniqueLpn l' := by
  induction hk with
  | nil => exact h
  | @cons s t l l' hst hk ih =>
    obtain ⟨hs, hl⟩ := pairwise_cons.mp h
    refine pairwise_cons.mpr ⟨fun u hu => ?_, ih hl⟩
    obtain ⟨v, hv, hvu⟩ : ∃ v ∈ l, KeepsLpn v u := by
      obtain ⟨i, hi, rfl⟩ := getElem_of_mem hu
      exact ⟨l.get ⟨i, hk.length_eq ▸ hi⟩, get_mem _ _, forall₂_iff_get.mp hk |>.2 i _ hi⟩
    intro htne hune heq
    obtain ⟨hsne, hsa⟩ := hst htne
    obtain ⟨hvne, hva⟩ := hvu hune
    exact hs v hv hsne hvne (hsa.symm.trans (heq.trans hva))

/-! ### What the events do to one slot -/

theorem keeps_friendTimeoutStatus (s : FriendSlot) (now now100ms : BitVec 32) :
    KeepsLpn s (friendTimeoutStatus s now now100ms) := by
  unfold friendTimeoutStatus
  cases hs : s.proc.status with
  | idle | request | update => exact .refl s
  | offer =>
    dsimp only
    split_ifs
    · exact fun _ => ⟨hs ▸ FriSt.noConfusion, rfl⟩
    · exact .refl s
  | poll =>
    dsimp only
    split_ifs
    · exact .of_idle rfl
    · exact .refl s
  | timeoutCheck =>
    dsimp only
    split_ifs
    · exact .of_idle rfl
    · exact .refl s

theorem keeps_friendTimeoutClear (s : FriendSlot) (now100ms : BitVec 32) :
    KeepsLpn s (friendTimeoutClear s now100ms) := by
  unfold friendTimeoutClear
  split_ifs <;> exact .of_eq rfl rfl

theorem keeps_friendTimeoutLpn (s : FriendSlot) (now : BitVec 32) :
    KeepsLpn s (friendTimeoutLpn s now) := by
  unfold friendTimeoutLpn
  split_ifs
  · exact .of_idle rfl
  · exact .refl s

theorem keeps_friendTimeout (now now100ms : BitVec 32) (s : FriendSlot) :
    KeepsLpn s (friendTimeout now now100ms s) :=
  (keeps_friendTimeoutStatus s now now100ms).trans
    ((keeps_friendTimeoutClear _ now100ms).trans (keeps_friendTimeoutLpn _ now))

theorem keeps_meshFriendResponseDelayProcFn (s : FriendSlot) (now now100ms : BitVec 32) :
    KeepsLpn s (meshFriendResponseDelayProcFn s now now100ms).1 := by
  unfold meshFriendResponseDelayProcFn
  dsimp only
  split_ifs <;> exact .of_eq rfl rfl

variable (lib : FriendLib) (node : FriendNode)

theorem lpnAdr_friendPollCache (s : FriendSlot) (p : FriendPoll) :
    (friendPollCache lib node s p).lpnAdr = s.lpnAdr := by
  unfold friendPollCache
  split_ifs <;> rfl

theorem lpnAdr_friendEstablish (s : FriendSlot) :
    (friendEstablish node s).lpnAdr = s.lpnAdr := by
  unfold friendEstablish
  dsimp only
  split_ifs <;> rfl

theorem keeps_friendPollSlot (s : FriendSlot) (p : FriendPoll) (h : s.proc.status ≠ .idle) :
    KeepsLpn s (friendPollSlot lib node s p) := by
  have hrsp : ∀ t : FriendSlot, t.lpnAdr = s.lpnAdr → KeepsLpn s (friendPollRsp lib node t p) :=
    fun t ht _ => ⟨h, (lpnAdr_friendPollCache lib node t p).trans ht⟩
  unfold friendPollSlot
  split_ifs
  · exact hrsp _ (lpnAdr_friendEstablish node s)
  · exact .of_idle rfl
  · exact hrsp s rfl

/-- Any message but a request. -/
theorem keeps_friendRxSlot (rx : FriendRx) (s : FriendSlot)
    (hm : ∀ n r, rx.msg ≠ .request n r) : KeepsLpn s (friendRxSlot lib node rx s).1 := by
  by_cases hp : friendRxPasses s rx
  · rw [friendRxSlot, if_pos hp]
    unfold friendRxMsg
    cases hmsg : rx.msg with
    | request n r => exact absurd hmsg (hm n r)
    | poll p =>
      have hne : s.proc.status ≠ .idle := by
        simp only [friendRxPasses, hmsg, decide_eq_true_eq] at hp
        exact hp.1
      dsimp only
      split_ifs
      · exact .refl s
      · exact .refl s
      · exact keeps_friendPollSlot lib node s p hne
    | clear lpnAdr lpnCounter =>
      dsimp only
      split_ifs
      · exact .of_eq rfl rfl
      · exact .of_idle rfl
      · exact .refl s
    | clrConf lpnAdr =>
      dsimp only
      split_ifs <;> exact .of_eq rfl rfl
    | subsList add transNo adr => exact .of_eq rfl rfl
    | other => exact .refl s
  · rw [friendRxSlot, if_neg hp]
    exact .refl s

theorem keeps_friendRxWalk (rx : FriendRx) (hm : ∀ n r, rx.msg ≠ .request n r)
    (l : List FriendSlot) : Forall₂ KeepsLpn l (friendRxWalk lib node rx l) := by
  induction l with
  | nil => exact .nil
  | cons s l ih =>
    have hs := keeps_friendRxSlot lib node rx s hm
    unfold friendRxWalk
    revert hs
    obtain ⟨t, stop⟩ := friendRxSlot lib node rx s
    intro hs
    cases stop with
    | true => exact .cons hs (forall₂_same.mpr fun u _ => .refl u)
    | false => exact .cons hs ih

/-! ### A message for the first slot that takes it -/

section First

variable {rx : FriendRx} {takes : FriendSlot → Prop} [DecidablePred takes]
  {f : FriendSlot → FriendSlot}

theorem friendRxWalk_none
    (hslot : ∀ s, friendRxSlot lib node rx s = if takes s then (f s, true) else (s, false))
    {l : List FriendSlot} (hl : ∀ u ∈ l, ¬ takes u) : friendRxWalk lib node rx l = l := by
  induction l with
  | nil => rfl
  | cons s l ih =>
    obtain ⟨hs, hl⟩ := forall_mem_cons.mp hl
    rw [friendRxWalk, hslot, if_neg hs]
    exact congrArg _ (ih hl)

/-- The walk ends there. -/
theorem friendRxWalk_first
    (hslot : ∀ s, friendRxSlot lib node rx s = if takes s then (f s, true) else (s, false))
    {pre : List FriendSlot} (hpre : ∀ u ∈ pre, ¬ takes u) {s : FriendSlot} (hs : takes s)
    (post : List FriendSlot) :
    friendRxWalk lib node rx (pre ++ s :: post) = pre ++ f s :: post := by
  induction pre with
  | nil =>
    change friendRxWalk lib node rx (s :: post) = f s :: post
    rw [friendRxWalk, hslot, if_pos hs]
  | cons u pre ih =>
    obtain ⟨hu, hpre⟩ := forall_mem_cons.mp hpre
    change friendRxWalk lib node rx (u :: (pre ++ s :: post)) = u :: (pre ++ f s :: post)
    rw [friendRxWalk, hslot, if_neg hu]
    exact congrArg _ (ih hpre)

theorem none_or_first (takes : FriendSlot → Prop) [DecidablePred takes] (l : List FriendSlot) :
    (∀ u ∈ l, ¬ takes u) ∨
      ∃ pre s post, l = pre ++ s :: post ∧ (∀ u ∈ pre, ¬ takes u) ∧ takes s := by
  cases hfind : l.find? fun s => decide (takes s) with
  | none =>
    refine .inl fun u hu => ?_
    simpa using find?_eq_none.mp hfind u hu
  | some s =>
    obtain ⟨hs, pre, post, hl, hpre⟩ := find?_eq_some_iff_append.mp hfind
    exact .inr ⟨pre, s, post, hl, fun u hu => by simpa using hpre u hu, of_decide_eq_true hs⟩

end First

/-! ### Requests -/

/-- The slot is idle, or its low power node was friend before. -/
def TakesRequest (src : BitVec 16) (s : FriendSlot) : Prop :=
  s.proc.status = .idle ∨ src = s.lpnAdr

instance (src : BitVec 16) (s : FriendSlot) : Decidable (TakesRequest src s) :=
  inferInstanceAs (Decidable (_ ∨ _))

/-- A valid request goes to the first slot that takes it. -/
theorem friendRxWalk_request {rx : FriendRx} {n : BitVec 8} {r : MeshCtlFriReq}
    (hm : rx.msg = .request n r) (hv : meshFriendRequestIsValid r) (l : List FriendSlot) :
    (friendRxWalk lib node rx l = l ∧ ∀ s ∈ l, ¬ TakesRequest rx.src s) ∨
    ∃ pre s post, l = pre ++ s :: post ∧ (∀ u ∈ pre, ¬ TakesRequest rx.src u) ∧
      TakesRequest rx.src s ∧
      friendRxWalk lib node rx l = pre ++ friendRequestSlot node s rx.src n r rx.now :: post := by
  have hslot : ∀ s, friendRxSlot lib node rx s =
      if TakesRequest rx.src s then (friendRequestSlot node s rx.src n r rx.now, true)
      else (s, false) := by
    intro s
    unfold friendRxSlot friendRxPasses friendRxMsg TakesRequest
    rw [hm]
    dsimp only
    rw [hv]
    rfl
  obtain hnone | ⟨pre, s, post, rfl, hpre, hs⟩ := none_or_first (TakesRequest rx.src) l
  · exact .inl ⟨friendRxWalk_none lib node hslot hnone, hnone⟩
  · exact .inr ⟨pre, s, post, rfl, hpre, hs, friendRxWalk_first lib node hslot hpre hs post⟩

theorem friendRxWalk_invalid {rx : FriendRx} {n : BitVec 8} {r : MeshCtlFriReq}
    (hm : rx.msg = .request n r) (hv : ¬ meshFriendRequestIsValid r) (l : List FriendSlot) :
    friendRxWalk lib node rx l = l := by
  cases l with
  | nil => rfl
  | cons s l => simp [friendRxWalk, friendRxSlot, friendRxMsg, friendRxPasses, hm, hv]

/-- The source of a valid request. -/
def requestSrc : FriendEvent → Option (BitVec 16)
  | .rx rx => match rx.msg with
    | .request _ r => if meshFriendRequestIsValid r then some rx.src else none
    | _ => none
  | _ => none

/-- No idle slot comes before one that serves `src`. -/
def FoundFirst (l : List FriendSlot) (src : BitVec 16) : Prop :=
  l.Pairwise fun s t => t.proc.status ≠ .idle → t.lpnAdr = src → s.proc.status ≠ .idle

instance (l : List FriendSlot) : DecidablePred (FoundFirst l) :=
  fun _ => inferInstanceAs (Decidable (Pairwise _ l))

/-- The slot that serves the source of a valid request comes before the idle ones. -/
def RequestFound (l : List FriendSlot) (e : FriendEvent) : Prop :=
  ∀ src ∈ requestSrc e, FoundFirst l src

instance (l : List FriendSlot) (e : FriendEvent) : Decidable (RequestFound l e) :=
  Option.decidableForallMem (requestSrc e)

/-- A table of slots, cleared at start. -/
def friendTable : Sys (List FriendSlot) FriendEvent :=
  Sys.det (fun l => ∃ l₀, l = meshFriendShipInitAll l₀) (meshFriendShipProcFN lib node)

theorem uniqueLpn_initAll (l : List FriendSlot) : UniqueLpn (meshFriendShipInitAll l) :=
  pairwise_map.mpr (pairwise_of_forall fun _ _ hs => absurd rfl hs)

theorem UniqueLpn.request {l : List FriendSlot} (h : UniqueLpn l) {rx : FriendRx} {n : BitVec 8}
    {r : MeshCtlFriReq} (hm : rx.msg = .request n r)
    (hfound : RequestFound l (.rx rx)) : UniqueLpn (friendRxWalk lib node rx l) := by
  by_cases hv : meshFriendRequestIsValid r
  swap
  · rwa [friendRxWalk_invalid lib node hm hv]
  have hp := hfound rx.src (by simp [requestSrc, hm, hv])
  obtain ⟨heq, -⟩ | ⟨pre, s, post, rfl, hpre, hs, heq⟩ := friendRxWalk_request lib node hm hv l
  · rwa [heq]
  rw [heq]
  obtain ⟨hupre, hus, hupp⟩ := pairwise_append.mp h
  obtain ⟨-, hps, -⟩ := pairwise_append.mp hp
  refine pairwise_append.mpr ⟨hupre, ?_, ?_⟩
  · refine pairwise_cons.mpr ⟨fun u hu _ hune heq => ?_, (pairwise_cons.mp hus).2⟩
    -- behind the slot there is none of the source
    have hsne := (pairwise_cons.mp hps).1 u hu hune heq.symm
    have hsrc := hs.resolve_left hsne
    exact (pairwise_cons.mp hus).1 u hu hsne hune (hsrc.symm.trans heq)
  · intro u hu v hv hune hvne
    obtain rfl | hv := mem_cons.mp hv
    · -- a slot before it takes no request of the source
      exact fun heq => hpre u hu (.inr heq.symm)
    · exact hupp u hu v (mem_cons_of_mem _ hv) hune hvne

theorem UniqueLpn.step {l : List FriendSlot} (h : UniqueLpn l) {e : FriendEvent}
    (hfound : RequestFound l e) : UniqueLpn (meshFriendShipProcFN lib node l e) := by
  cases e with
  | rx rx =>
    by_cases hm : ∃ n r, rx.msg = .request n r
    · obtain ⟨n, r, hm⟩ := hm
      exact h.request lib node hm hfound
    · exact h.keeps (keeps_friendRxWalk lib node rx (by simpa using hm) l)
  | pass now now100ms =>
    exact h.keeps (forall₂_map_right_iff.mpr (forall₂_same.mpr fun s _ =>
      keeps_friendTimeout now now100ms s))
  | response now now100ms =>
    exact h.keeps (forall₂_map_right_iff.mpr (forall₂_same.mpr fun s _ =>
      keeps_meshFriendResponseDelayProcFn s now now100ms))

/-- A request that finds the slot of its source starts that slot again. -/
theorem friendRxWalk_restarts {l : List FriendSlot} (h : UniqueLpn l) {rx : FriendRx} {n : BitVec 8}
    {r : MeshCtlFriReq} (hm : rx.msg = .request n r) (hv : meshFriendRequestIsValid r)
    (hfound : RequestFound l (.rx rx)) {i : ℕ} (hi : i < l.length)
    (hs : l[i].proc.status ≠ .idle) (hsrc : l[i].lpnAdr = rx.src) :
    friendRxWalk lib node rx l = l.set i (friendRequestSlot node l[i] rx.src n r rx.now) := by
  have hp := hfound rx.src (by simp [requestSrc, hm, hv])
  obtain ⟨-, hnone⟩ | ⟨pre, s, post, rfl, hpre, ht, heq⟩ := friendRxWalk_request lib node hm hv l
  · exact absurd (.inr hsrc.symm) (hnone _ (getElem_mem hi))
  rw [heq]
  obtain hlt | rfl | hgt := lt_trichotomy i pre.length
  · rw [getElem_append_left hlt] at hsrc
    exact absurd (.inr hsrc.symm) (hpre _ (getElem_mem hlt))
  · simp
  · -- a slot behind the one that was taken
    have hmem : (pre ++ s :: post)[i] ∈ post := by
      obtain ⟨j, rfl⟩ := Nat.exists_eq_add_of_lt hgt
      have hj : j < post.length := by
        rw [length_append, length_cons] at hi
        omega
      rw [getElem_append_right (by omega)]
      have hsub : pre.length + j + 1 - pre.length = j + 1 := by omega
      simp only [hsub, getElem_cons_succ]
      exact getElem_mem hj
    obtain ⟨-, hus, -⟩ := pairwise_append.mp h
    obtain ⟨-, hps, -⟩ := pairwise_append.mp hp
    have hsne := (pairwise_cons.mp hps).1 _ hmem hs hsrc
    have hsa := ht.resolve_left hsne
    exact absurd (hsa.symm.trans hsrc.symm) ((pairwise_cons.mp hus).1 _ hmem hsne hs)

/-- While every valid request finds the slot of its source before an idle one, no two
slots serve the same low power node, and a request starts the friendship it finds
again. -/
theorem meshFriendShip_unique {l : List FriendSlot}
    (h : ((friendTable lib node).restrict RequestFound).Reach l) :
    UniqueLpn l ∧ ∀ (rx : FriendRx) (n : BitVec 8) (r : MeshCtlFriReq) (i : ℕ) (hi : i < l.length),
      rx.msg = .request n r → meshFriendRequestIsValid r → RequestFound l (.rx rx) →
      l[i].proc.status ≠ .idle → l[i].lpnAdr = rx.src →
      meshFriendShipProcFN lib node l (.rx rx) =
        l.set i (friendRequestSlot node l[i] rx.src n r rx.now) := by
  have hu : UniqueLpn l := by
    refine Run.Sys.Reach.inv (P := UniqueLpn) h ?_ ?_
    · rintro _ ⟨l₀, rfl⟩
      exact uniqueLpn_initAll l₀
    · rintro l e _ hl ⟨hfound, rfl⟩
      exact hl.step lib node hfound
  exact ⟨hu, fun rx n r i hi hm hv hfound hs hsrc =>
    friendRxWalk_restarts lib node hu hm hv hfound hi hs hsrc⟩

theorem friendTable_reach (l : List FriendSlot) (es : List FriendEvent) :
    (friendTable lib node).Reach
      (es.foldl (meshFriendShipProcFN lib node) (meshFriendShipInitAll l)) := by
  have h0 : (friendTable lib node).Reach (meshFriendShipInitAll l) := .init ⟨l, rfl⟩
  exact Sys.reach_foldl h0 es

theorem friendTable_reach_found {l : List FriendSlot} {es : List FriendEvent}
    (h : GoodRun (meshFriendShipProcFN lib node) RequestFound (meshFriendShipInitAll l) es) :
    ((friendTable lib node).restrict RequestFound).Reach
      (es.foldl (meshFriendShipProcFN lib node) (meshFriendShipInitAll l)) := by
  have h0 : ((friendTable lib node).restrict RequestFound).Reach (meshFriendShipInitAll l) :=
    .init ⟨l, rfl⟩
  exact Sys.reach_foldl_restrict h0 h

/-- The slots after two requests. -/
def twoFriends : List FriendSlot :=
  [.rx (lpnRequest 5), .rx (lpnRequest 6)].foldl
    (meshFriendShipProcFN (ringPush 2) friendOne) (meshFriendShipInitAll [idleSlot, idleSlot])

theorem twoFriends_reach :
    ((friendTable (ringPush 2) friendOne).restrict RequestFound).Reach twoFriends :=
  friendTable_reach_found _ _ (by decide +kernel)

theorem one_lt_twoFriends : 1 < twoFriends.length := by decide +kernel

/-- A repeated request of the second finds its slot. -/
theorem meshFriendShip_unique_two :
    UniqueLpn twoFriends ∧
      meshFriendShipProcFN (ringPush 2) friendOne twoFriends (.rx (lpnRequest 6)) =
        twoFriends.set 1 (friendRequestSlot friendOne (twoFriends.get ⟨1, one_lt_twoFriends⟩)
          6 0 ⟨1, 0, 0, 100, 100, 0, 1, 0⟩ 0) := by
  obtain ⟨hu, hr⟩ := meshFriendShip_unique (ringPush 2) friendOne twoFriends_reach
  have hset := hr (lpnRequest 6) 0 ⟨1, 0, 0, 100, 100, 0, 1, 0⟩ 1 one_lt_twoFriends rfl
    (by decide +kernel) (by decide +kernel) (by decide +kernel) (by decide +kernel)
  exact ⟨hu, hset⟩

/-- Another friend clears the first low power node, and the second repeats its request. -/
def clearedThenRequest : List FriendEvent :=
  [.rx (lpnRequest 5), .rx (lpnRequest 6), .rx ⟨9, .clear 5 0, 0, 0⟩, .rx (lpnRequest 6)]

/-- The slot of the first takes the repeated request of the second. -/
theorem meshFriendShip_two_slots :
    ¬ ∀ (lib : FriendLib) (node : FriendNode) (l : List FriendSlot),
      (friendTable lib node).Reach l → UniqueLpn l := by
  intro h
  have hne : ¬ UniqueLpn (clearedThenRequest.foldl (meshFriendShipProcFN (ringPush 2) friendOne)
      (meshFriendShipInitAll [idleSlot, idleSlot])) := by
    decide +kernel
  exact hne (h _ _ _ (friendTable_reach _ _ _ _))

end PirMesh

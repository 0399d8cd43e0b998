import PirMesh.Friend.Table

/-! # Friend — Which clear ends a friendship (`mesh_fn.c`)

A Friend Clear names a low power node and a counter, and ends the friendship whose request
had the same counter or one of the 255 before it, the counter going around.  The code takes
the difference as an `int`, so any older counter passes; and it takes the first slot of the
low power node, friend or not (`friendClear_iff`). -/

namespace PirMesh

open List

/-! ### What a clear should do -/

/-- The slot is a friendship with the low power node, and the counter is in its window. -/
def ClearsFriend (lpnAdr lpnCounter : BitVec 16) (s : FriendSlot) : Prop :=
  isInMeshFriendStFn s ∧ s.lpnAdr = lpnAdr ∧ (lpnCounter - s.req.lpnCounter).toNat ≤ 255

/-- The friendship is over, or will be with the next poll or after five seconds. -/
def EndScheduled (s : FriendSlot) : Prop :=
  isInMeshFriendStFn s = false ∨ s.proc.clearByLpnTick ≠ 0

/-- What a slot may become. -/
def ClearRight (lpnAdr lpnCounter : BitVec 16) (s t : FriendSlot) : Prop :=
  (ClearsFriend lpnAdr lpnCounter s → EndScheduled t) ∧
    (¬ ClearsFriend lpnAdr lpnCounter s → t = s)

/-! ### What it does -/

/-- The check of the branch. -/
def TakesClear (lpnAdr lpnCounter : BitVec 16) (s : FriendSlot) : Prop :=
  s.lpnAdr = lpnAdr ∧ (lpnCounter.toNat : ℤ) - s.req.lpnCounter.toNat ≤ 255

instance (lpnAdr lpnCounter : BitVec 16) : DecidablePred (TakesClear lpnAdr lpnCounter) :=
  fun _ => inferInstanceAs (Decidable (_ ∧ _))

/-- The slot that takes the clear. -/
def friendClearSlot (rx : FriendRx) (lpnCounter : BitVec 16) (s : FriendSlot) : FriendSlot :=
  if s.lpnAdr = rx.src then
    let t := meshFriendSetDelayPar s .clearConf rx.src lpnCounter rx.now
    { t with proc := { t.proc with clearByLpnTick := rx.now ||| 1 } }
  else friendShipDisconnectFn s

/-- It is cleared already, or this very message has scheduled its end. -/
def AlreadyClear (rx : FriendRx) (lpnCounter : BitVec 16) (s : FriendSlot) : Prop :=
  if s.lpnAdr = rx.src then
    s.delay = { s.delay with
      delayType := .clearConf, tick := rx.now, adrDst := rx.src, parVal := lpnCounter } ∧
    s.proc.clearByLpnTick = rx.now ||| 1
  else s = meshFriendShipClearFN s

/-- The first slot that passes the check is the friendship, or already clear; and every other
friendship the clear is for already ends. -/
def ClearInTurn (rx : FriendRx) (lpnAdr lpnCounter : BitVec 16) (l : List FriendSlot) : Prop :=
  ∀ pre s post, l = pre ++ s :: post → (∀ u ∈ pre, ¬ TakesClear lpnAdr lpnCounter u) →
    TakesClear lpnAdr lpnCounter s →
    (ClearsFriend lpnAdr lpnCounter s ∨ AlreadyClear rx lpnCounter s) ∧
      ∀ u ∈ post, ClearsFriend lpnAdr lpnCounter u → EndScheduled u

section

variable {rx : FriendRx} {lpnAdr lpnCounter : BitVec 16} {s : FriendSlot}

/-- A counter in the window is not more than 255 ahead. -/
theorem ClearsFriend.takes (h : ClearsFriend lpnAdr lpnCounter s) :
    TakesClear lpnAdr lpnCounter s := by
  obtain ⟨-, hadr, hwindow⟩ := h
  have hcounter := lpnCounter.isLt
  have hreq := s.req.lpnCounter.isLt
  rw [BitVec.toNat_sub] at hwindow
  exact ⟨hadr, by omega⟩

theorem friendRxSlot_clear (lib : FriendLib) (node : FriendNode)
    (hm : rx.msg = .clear lpnAdr lpnCounter) (s : FriendSlot) :
    friendRxSlot lib node rx s =
      if TakesClear lpnAdr lpnCounter s then (friendClearSlot rx lpnCounter s, true)
      else (s, false) := by
  unfold friendRxSlot friendRxPasses friendRxMsg TakesClear friendClearSlot
  rw [hm]
  dsimp only
  rw [if_pos rfl]
  refine if_congr Iff.rfl ?_ rfl
  split_ifs
  · rfl
  · rfl

/-- The slot that takes it ends, or will. -/
theorem endScheduled_friendClearSlot (rx : FriendRx) (lpnCounter : BitVec 16) (s : FriendSlot) :
    EndScheduled (friendClearSlot rx lpnCounter s) := by
  unfold friendClearSlot
  split_ifs
  · refine .inr fun h0 => ?_
    have hbit : (rx.now ||| 1).getLsbD 0 = (0 : BitVec 32).getLsbD 0 := congrArg (·.getLsbD 0) h0
    simp at hbit
  · exact .inl rfl

theorem friendClearSlot_eq_iff : friendClearSlot rx lpnCounter s = s ↔
    AlreadyClear rx lpnCounter s := by
  unfold friendClearSlot AlreadyClear
  split_ifs
  · constructor
    · intro h
      exact ⟨(congrArg FriendSlot.delay h).symm, (congrArg (·.proc.clearByLpnTick) h).symm⟩
    · rintro ⟨hdelay, htick⟩
      unfold meshFriendSetDelayPar
      dsimp only
      rw [← hdelay, ← htick]
  · exact eq_comm

/-- The first slot. -/
theorem clearRight_friendClearSlot_iff : ClearRight lpnAdr lpnCounter s
      (friendClearSlot rx lpnCounter s) ↔
    ClearsFriend lpnAdr lpnCounter s ∨ AlreadyClear rx lpnCounter s := by
  rw [ClearRight, and_iff_right fun _ => endScheduled_friendClearSlot rx lpnCounter s,
    friendClearSlot_eq_iff]
  exact or_iff_not_imp_left.symm

/-- A slot that stays as it is. -/
theorem clearRight_self_iff : ClearRight lpnAdr lpnCounter s s ↔
    (ClearsFriend lpnAdr lpnCounter s → EndScheduled s) :=
  and_iff_left fun _ => rfl

end

theorem forall₂_append_iff {R : FriendSlot → FriendSlot → Prop} {pre l l' : List FriendSlot} :
    Forall₂ R (pre ++ l) (pre ++ l') ↔ (∀ u ∈ pre, R u u) ∧ Forall₂ R l l' := by
  induction pre with
  | nil => simp
  | cons u pre ih =>
    rw [cons_append, cons_append, forall₂_cons, ih, forall_mem_cons, and_assoc]

/-- **A clear ends the friendship it is for, and nothing else**, exactly when it is in turn. -/
theorem friendClear_iff (lib : FriendLib) (node : FriendNode) (l : List FriendSlot)
    (rx : FriendRx) (lpnAdr lpnCounter : BitVec 16) (hm : rx.msg = .clear lpnAdr lpnCounter) :
    Forall₂ (ClearRight lpnAdr lpnCounter) l (meshFriendShipProcFN lib node l (.rx rx)) ↔
      ClearInTurn rx lpnAdr lpnCounter l := by
  have hslot := @friendRxSlot_clear rx lpnAdr lpnCounter lib node hm
  change Forall₂ _ l (friendRxWalk lib node rx l) ↔ _
  -- the walk changes the first slot that takes the clear, and leaves all others
  have hfirst : ∀ pre s post, (∀ u ∈ pre, ¬ TakesClear lpnAdr lpnCounter u) →
      TakesClear lpnAdr lpnCounter s →
      (Forall₂ (ClearRight lpnAdr lpnCounter) (pre ++ s :: post)
          (friendRxWalk lib node rx (pre ++ s :: post)) ↔
        (ClearsFriend lpnAdr lpnCounter s ∨ AlreadyClear rx lpnCounter s) ∧
          ∀ u ∈ post, ClearsFriend lpnAdr lpnCounter u → EndScheduled u) := by
    intro pre s post hpre hs
    rw [friendRxWalk_first lib node hslot hpre hs, forall₂_append_iff, forall₂_cons,
      clearRight_friendClearSlot_iff, forall₂_same]
    refine (and_iff_right fun u hu => ?_).trans (and_congr_right fun _ => ?_)
    · exact clearRight_self_iff.mpr fun hc => absurd hc.takes (hpre u hu)
    · exact forall₂_congr fun u _ => clearRight_self_iff
  obtain hnone | ⟨pre, s, post, rfl, hpre, hs⟩ := none_or_first (TakesClear lpnAdr lpnCounter) l
  · refine iff_of_true ?_ fun pre s post hl _ hs => ?_
    · rw [friendRxWalk_none lib node hslot hnone, forall₂_same]
      exact fun u hu => clearRight_self_iff.mpr fun hc => absurd hc.takes (hnone u hu)
    · exact absurd hs (hnone s (hl ▸ mem_append_right pre mem_cons_self))
  · constructor
    · intro h pre' s' post' hl hpre' hs'
      rw [hl] at h
      exact (hfirst pre' s' post' hpre' hs').mp h
    · exact fun h => (hfirst pre s post hpre hs).mpr (h pre s post rfl hpre hs)

/-- Node 5 asked with the counter 5, and polled. -/
def friendOfFive : FriendSlot :=
  friendPollSlot (ringPush 2) friendOne
    (friendRequestSlot friendOne idleSlot 5 0 ⟨1, 0, 0, 100, 100, 0, 1, 5⟩ 0)
    ⟨false, 0, 1, 0, 0, idleBear⟩

/-- Its next friend sends the counter 6. -/
theorem friendClear_iff_next : Forall₂ (ClearRight 5 6) [friendOfFive]
    (meshFriendShipProcFN (ringPush 2) friendOne [friendOfFive] (.rx ⟨9, .clear 5 6, 0, 0⟩)) := by
  refine (friendClear_iff (ringPush 2) friendOne [friendOfFive] ⟨9, .clear 5 6, 0, 0⟩ 5 6
    rfl).mpr ?_
  intro pre s post hl _ _
  obtain ⟨-, hsingle⟩ | ⟨-, hsingle⟩ := append_eq_singleton_iff.mp hl.symm
  · obtain ⟨rfl, rfl⟩ := cons.inj hsingle
    exact ⟨.inl ⟨rfl, rfl, by decide⟩, forall_mem_nil _⟩
  · exact absurd hsingle (cons_ne_nil s post)

/-- An older clear, with the counter 0. -/
theorem friendClear_refuted : ¬ ∀ (lib : FriendLib) (node : FriendNode) (l : List FriendSlot)
    (rx : FriendRx) (lpnAdr lpnCounter : BitVec 16), rx.msg = .clear lpnAdr lpnCounter →
    Forall₂ (ClearRight lpnAdr lpnCounter) l (meshFriendShipProcFN lib node l (.rx rx)) := by
  intro h
  have hright := h (ringPush 2) friendOne [friendOfFive] ⟨9, .clear 5 0, 0, 0⟩ 5 0 rfl
  have hold : ¬ ClearsFriend 5 0 friendOfFive := fun hc => absurd hc.2.2 (by decide)
  have hslot := (forall₂_cons.mp hright).1.2 hold
  exact absurd (congrArg isInMeshFriendStFn hslot) (by decide)

end PirMesh

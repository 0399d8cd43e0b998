import PirMesh.Heartbeat.Subscribe

/-! # Heartbeat — Setting a subscription (`app_heartbeat.c`)

A message with a source or a destination that is not allowed is refused.  The source is stored
before the destination is looked at, so a message refused for its destination leaves its
source behind (`heartbeatSubSet_iff`). -/

namespace PirMesh

open Nor Run

/-- A message, and the clock it is handled at. -/
structure HeartbeatSubSetEvent where
  set : HeartbeatSubSet
  clock100ms : BitVec 32
  deriving DecidableEq, Repr

namespace HeartbeatSubSet

abbrev SrcAllowed (p : HeartbeatSubSet) : Prop := isUnicastAdr p.src.toNat ∨ p.src = 0

abbrev DstAllowed (isGroupAdr : BitVec 16 → Bool) (eleAdrPrimary : BitVec 16)
    (p : HeartbeatSubSet) : Prop :=
  p.dst = eleAdrPrimary ∨ isGroupAdr p.dst ∨ p.dst = 0

/-- Refused for its source or its destination. -/
def Rejected (isGroupAdr : BitVec 16 → Bool) (eleAdrPrimary : BitVec 16) (p : HeartbeatSubSet) :
    Prop :=
  ¬ p.SrcAllowed ∨ ¬ p.DstAllowed isGroupAdr eleAdrPrimary

end HeartbeatSubSet

namespace MeshHeartbeatSub

/-- There is a source exactly when there is a destination. -/
def Balanced (sub : MeshHeartbeatSub) : Prop := sub.adr = 0 ↔ sub.dst = 0

instance (sub : MeshHeartbeatSub) : Decidable sub.Balanced := inferInstanceAs (Decidable (_ ↔ _))

section

variable (isGroupAdr : BitVec 16 → Bool) (eleAdrPrimary : BitVec 16)

def setNext (sub : MeshHeartbeatSub) (e : HeartbeatSubSetEvent) : MeshHeartbeatSub :=
  meshCmdSigHeartbeatSubSet isGroupAdr eleAdrPrimary e.set e.clock100ms sub

/-- A message that is refused for its destination names the source that is stored. -/
def InTurn (sub : MeshHeartbeatSub) (e : HeartbeatSubSetEvent) : Prop :=
  e.set.SrcAllowed → ¬ e.set.DstAllowed isGroupAdr eleAdrPrimary → e.set.src = sub.adr

/-- What a sequence of messages should do. -/
structure SetsAtomically (sub : MeshHeartbeatSub) (es : List HeartbeatSubSetEvent) : Prop where
  rejected : ∀ q e, q ++ [e] <+: es → e.set.Rejected isGroupAdr eleAdrPrimary →
    setNext isGroupAdr eleAdrPrimary (q.foldl (setNext isGroupAdr eleAdrPrimary) sub) e =
      q.foldl (setNext isGroupAdr eleAdrPrimary) sub
  balanced : sub.Balanced → ∀ q, q <+: es →
    (q.foldl (setNext isGroupAdr eleAdrPrimary) sub).Balanced

end

/-! ### One message -/

section

variable {isGroupAdr : BitVec 16 → Bool} {eleAdrPrimary : BitVec 16} {sub : MeshHeartbeatSub}
  {e : HeartbeatSubSetEvent}

theorem setNext_of_not_srcAllowed (h : ¬ e.set.SrcAllowed) :
    setNext isGroupAdr eleAdrPrimary sub e = sub := by
  unfold setNext meshCmdSigHeartbeatSubSet
  exact if_pos h

theorem setNext_of_not_dstAllowed (hsrc : e.set.SrcAllowed)
    (hdst : ¬ e.set.DstAllowed isGroupAdr eleAdrPrimary) :
    setNext isGroupAdr eleAdrPrimary sub e = { sub with adr := e.set.src } := by
  unfold setNext meshCmdSigHeartbeatSubSet
  rw [if_neg (not_not.mpr hsrc)]
  exact if_pos hdst

/-- A message that is not refused stores both addresses, or neither. -/
theorem setNext_adr_dst (hsrc : e.set.SrcAllowed)
    (hdst : e.set.DstAllowed isGroupAdr eleAdrPrimary) :
    let sub' := setNext isGroupAdr eleAdrPrimary sub e
    if e.set.src = 0 ∨ e.set.dst = 0 then sub'.adr = 0 ∧ sub'.dst = 0
    else sub'.adr = e.set.src ∧ sub'.dst = e.set.dst := by
  unfold setNext meshCmdSigHeartbeatSubSet
  rw [if_neg (not_not.mpr hsrc)]
  simp only
  rw [if_neg (not_not.mpr hdst)]
  split_ifs
  · exact ⟨rfl, rfl⟩
  · exact ⟨rfl, rfl⟩
  · exact ⟨rfl, rfl⟩
  · exact ⟨rfl, rfl⟩

theorem balanced_of_allowed (hsrc : e.set.SrcAllowed)
    (hdst : e.set.DstAllowed isGroupAdr eleAdrPrimary) :
    (setNext isGroupAdr eleAdrPrimary sub e).Balanced := by
  have hboth := @setNext_adr_dst isGroupAdr eleAdrPrimary sub e hsrc hdst
  by_cases hzero : e.set.src = 0 ∨ e.set.dst = 0
  · rw [if_pos hzero] at hboth
    exact iff_of_true hboth.1 hboth.2
  · rw [if_neg hzero] at hboth
    obtain ⟨hsrc0, hdst0⟩ := not_or.mp hzero
    exact iff_of_false (hboth.1.symm ▸ hsrc0) (hboth.2.symm ▸ hdst0)

/-- **A refused message changes nothing** exactly when it is in turn. -/
theorem rejected_iff : (e.set.Rejected isGroupAdr eleAdrPrimary →
      setNext isGroupAdr eleAdrPrimary sub e = sub) ↔ sub.InTurn isGroupAdr eleAdrPrimary e := by
  constructor
  · intro h hsrc hdst
    have hadr := congrArg adr (h (.inr hdst))
    rwa [setNext_of_not_dstAllowed hsrc hdst] at hadr
  · rintro h (hsrc | hdst)
    · exact setNext_of_not_srcAllowed hsrc
    · by_cases hsrc : e.set.SrcAllowed
      · rw [setNext_of_not_dstAllowed hsrc hdst, h hsrc hdst]
      · exact setNext_of_not_srcAllowed hsrc

theorem Balanced.next (hsub : sub.Balanced) (h : sub.InTurn isGroupAdr eleAdrPrimary e) :
    (setNext isGroupAdr eleAdrPrimary sub e).Balanced := by
  by_cases hrej : e.set.Rejected isGroupAdr eleAdrPrimary
  · rw [rejected_iff.mpr h hrej]
    exact hsub
  · obtain ⟨hsrc, hdst⟩ := not_or.mp hrej
    exact balanced_of_allowed (not_not.mp hsrc) (not_not.mp hdst)

end

end MeshHeartbeatSub

/-- **A sequence of messages sets the subscription atomically** exactly when each of them is in
turn. -/
theorem heartbeatSubSet_iff (isGroupAdr : BitVec 16 → Bool) (eleAdrPrimary : BitVec 16)
    (sub : MeshHeartbeatSub) (es : List HeartbeatSubSetEvent) :
    sub.SetsAtomically isGroupAdr eleAdrPrimary es ↔
      GoodRun (MeshHeartbeatSub.setNext isGroupAdr eleAdrPrimary)
        (MeshHeartbeatSub.InTurn isGroupAdr eleAdrPrimary) sub es := by
  have hrejected := @forall_step_iff_goodRun _ _
    (MeshHeartbeatSub.setNext isGroupAdr eleAdrPrimary)
    (fun t e => e.set.Rejected isGroupAdr eleAdrPrimary →
      t.setNext isGroupAdr eleAdrPrimary e = t) es sub
  have hturn := @goodRun_congr _ _ (MeshHeartbeatSub.setNext isGroupAdr eleAdrPrimary) _ _
    (fun t e => @MeshHeartbeatSub.rejected_iff isGroupAdr eleAdrPrimary t e) es sub
  constructor
  · exact fun h => hturn.mp (hrejected.mp h.rejected)
  · intro h
    refine ⟨hrejected.mpr (hturn.mpr h), fun hsub q hq => ?_⟩
    obtain ⟨rest, rfl⟩ := hq
    exact (goodRun_append.mp h).1.inv hsub fun t e ht he => ht.next he

/-- A message from node 5 to a node that is not this one, to a subscription that is not set. -/
theorem heartbeatSubSet_refuted : ¬ ∀ (isGroupAdr : BitVec 16 → Bool) (eleAdrPrimary : BitVec 16)
    (sub : MeshHeartbeatSub) (es : List HeartbeatSubSetEvent),
    sub.SetsAtomically isGroupAdr eleAdrPrimary es := by
  intro h
  have hatomic := h (fun _ => false) 2 ⟨0, 0, 0, 0, 0, 0, 0, 0, 0⟩ [⟨⟨5, 3, 1⟩, 0⟩]
  exact absurd (hatomic.balanced (by decide) _ List.prefix_rfl) (by decide)

end PirMesh

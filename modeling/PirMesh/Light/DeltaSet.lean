import PirMesh.Light.PowerUp

/-! # Light — Delta commands of a transaction

The messages of a delta transaction carry the delta from its start: the target is to be
the one before its first message plus the delta, in the range.  `g_level_set` adds the
difference to `delta_last`, which is one for all lights, states and sources and changes
with a message that is refused, and it adds it to a target that was brought into the range.

`DeltaRun.InTurn` leaves out the messages that meet one of these, and `deltaSet_target`
says that in a run of the others the target is right after each. -/

namespace PirMesh

open Run

/-! ### One command -/

/-- Levels that the range brings to the same limit. -/
def SameLimit (save : SwLevelSave) (ty : StTrans) (x y : ℤ) : Prop :=
  let min := if ty = .ctlTemp then -32768 else save.min
  let max := if ty = .ctlTemp then 32767 else save.max
  (min.toInt ≤ x ∧ max.toInt < x) ∧ (min.toInt ≤ y ∧ max.toInt < y) ∨
    (x < min.toInt ∧ ¬ (ty = .lightness ∧ x = levelOff.toInt)) ∧
      (y < min.toInt ∧ ¬ (ty = .lightness ∧ y = levelOff.toInt))

theorem SameLimit.eq {save : SwLevelSave} {ty : StTrans} {x y : ℤ} (h : SameLimit save ty x y) :
    getValWithCheckRange x save.min save.max ty = getValWithCheckRange y save.min save.max ty := by
  unfold getValWithCheckRange
  dsimp only
  obtain ⟨⟨hx, hx'⟩, hy, hy'⟩ | ⟨⟨hx, hx'⟩, hy, hy'⟩ := h
  · rw [if_neg (not_lt.mpr hx), if_pos hx', if_neg (not_lt.mpr hy), if_pos hy']
  · rw [if_pos hx, if_neg hx', if_pos hy, if_neg hy']

namespace LightNode

def target (n : LightNode) (idx : ℕ) (ty : StTrans) : BitVec 16 := ((n.light idx).trans ty).target

/-- A level in the range of a state. -/
def inRange (n : LightNode) (idx : ℕ) (ty : StTrans) (level : ℤ) : BitVec 16 :=
  getValWithCheckRange level ((n.light idx).save ty).min ((n.light idx).save ty).max ty

/-- What a delta command sets. -/
def deltaTarget (n : LightNode) (idx : ℕ) (ty : StTrans) (level : BitVec 32)
    (retransaction : Bool) : BitVec 16 :=
  if retransaction then
    if level = n.deltaLast then n.target idx ty
    else n.inRange idx ty ((n.target idx ty).signExtend 32 + (level - n.deltaLast)).toInt
  else n.inRange idx ty ((n.target idx ty).signExtend 32 + level).toInt

/-- Only the target of one state is another one. -/
structure SameBut (n n' : LightNode) (idx : ℕ) (ty : StTrans) : Prop where
  target : ∀ idx' ty', (idx', ty') ≠ (idx, ty) → n'.target idx' ty' = n.target idx' ty'
  inRange : ∀ idx' ty' level, n'.inRange idx' ty' level = n.inRange idx' ty' level

end LightNode

section

variable {lib : TransLib} {l : Light} {ty : StTrans} {deltaLast level : BitVec 32}
  {par : Option TransitionPar} {retransaction : Bool}

theorem gLevelTarget_delta : gLevelTarget l ty ⟨.delta level, par⟩ deltaLast retransaction =
    getValWithCheckRange ((l.trans ty).target.signExtend 32 +
      if retransaction then level - deltaLast else level).toInt (l.save ty).min (l.save ty).max
      ty := by
  cases retransaction with
  | false => rfl
  | true => rfl

/-- A delta that is sent again as it was sets nothing. -/
theorem Light.gLevelSet_delta (h : ¬ gLevelInvalid ⟨.delta level, par⟩) :
    ∃ l', Light.gLevelSet lib l ty ⟨.delta level, par⟩ deltaLast retransaction false = some l' ∧
      l.SameBut l' ty ∧
      (l'.trans ty).target =
        if retransaction = true ∧ level = deltaLast then (l.trans ty).target
        else gLevelTarget l ty ⟨.delta level, par⟩ deltaLast retransaction := by
  have hiff : (¬ retransaction ∨ (gLevelAdjust (.delta level) deltaLast retransaction).2 ≠ 0) ↔
      ¬ (retransaction = true ∧ level = deltaLast) := by
    cases retransaction with
    | false => exact iff_of_true (.inl Bool.false_ne_true) fun hr => Bool.false_ne_true hr.1
    | true =>
      have hsub : (gLevelAdjust (.delta level) deltaLast true).2 = level - deltaLast := rfl
      rw [hsub, not_and]
      refine ⟨fun hor _ heq => ?_, fun hne => .inr fun h0 => hne rfl ?_⟩
      · rcases hor with hr | hd
        · exact hr rfl
        · exact hd (sub_eq_zero.mpr heq)
      · exact eq_of_sub_eq_zero h0
  unfold Light.gLevelSet
  rw [if_neg h]
  by_cases hsame : retransaction = true ∧ level = deltaLast
  · rw [if_neg fun hc => hiff.mp hc hsame]
    exact ⟨l, rfl, .refl l ty, (if_pos hsame).symm⟩
  · rw [if_pos (hiff.mpr hsame)]
    refine ⟨_, rfl, l.sameBut_setTrans ty _, ?_⟩
    rw [if_neg hsame, Light.setTrans_trans_self]
    exact gLevelStart_target _ rfl _ _ _ _

end

namespace LightNode

variable (lib : TransLib) (n : LightNode) (idx : ℕ) (ty : StTrans) (level : BitVec 32)
  (par : Option TransitionPar) (retransaction : Bool) (clock : BitVec 32)

/-- A message that is refused leaves its delta. -/
theorem step_delta_refused (h : gLevelInvalid ⟨.delta level, par⟩) :
    n.step lib (.level idx ty ⟨.delta level, par⟩ retransaction clock) =
      { n with deltaLast := level } := by
  have hnone : gLevelSetAndUpdateLast lib (n.light idx) ty ⟨.delta level, par⟩ n.deltaLast
      retransaction = none := congrArg (Option.map _) (Light.gLevelSet_eq_none.mpr h)
  unfold step
  dsimp only
  rw [hnone]
  rfl

theorem step_delta_accepted (h : ¬ gLevelInvalid ⟨.delta level, par⟩) :
    (n.step lib (.level idx ty ⟨.delta level, par⟩ retransaction clock)).target idx ty =
        n.deltaTarget idx ty level retransaction ∧
      n.SameBut (n.step lib (.level idx ty ⟨.delta level, par⟩ retransaction clock)) idx ty := by
  obtain ⟨l, hset, hsame, htarget⟩ := @Light.gLevelSet_delta lib (n.light idx) ty n.deltaLast level
    par retransaction h
  have hcmd : gLevelSetAndUpdateLast lib (n.light idx) ty ⟨.delta level, par⟩ n.deltaLast
      retransaction = some (l.gLevelLastSet ty) := congrArg (Option.map _) hset
  have hstep : (n.step lib (.level idx ty ⟨.delta level, par⟩ retransaction clock)).light =
      Function.update n.light idx (l.gLevelLastSet ty) := by
    unfold step
    dsimp only
    rw [hcmd]
    rfl
  have hrange : ∀ ty', ((l.gLevelLastSet ty).save ty').min = ((n.light idx).save ty').min ∧
      ((l.gLevelLastSet ty).save ty').max = ((n.light idx).save ty').max := by
    intro ty'
    unfold Light.gLevelLastSet
    by_cases hty : ty' = ty
    · subst hty
      rw [Light.setSave_self, hsame.save]
      unfold setOnPowerUpLast
      split_ifs
      all_goals exact ⟨rfl, rfl⟩
    · rw [Light.setSave_of_ne hty, hsame.save]
      exact ⟨rfl, rfl⟩
  refine ⟨?_, ?_, ?_⟩
  · unfold LightNode.target
    rw [hstep, Function.update_self]
    have hlast : (l.gLevelLastSet ty).trans = l.trans := rfl
    rw [hlast, htarget, gLevelTarget_delta]
    unfold deltaTarget LightNode.inRange LightNode.target
    cases retransaction with
    | false => rw [if_neg fun hr => Bool.false_ne_true hr.1, if_neg Bool.false_ne_true,
        if_neg Bool.false_ne_true]
    | true =>
      rw [if_pos rfl, if_pos rfl]
      exact if_congr (and_iff_right rfl) rfl rfl
  · intro idx' ty' hne
    unfold LightNode.target
    rw [hstep]
    by_cases hidx : idx' = idx
    · subst hidx
      rw [Function.update_self]
      have hty : ty' ≠ ty := fun hty => hne (by rw [hty])
      exact congrArg StTransition.target (hsame.trans ty' hty)
    · rw [Function.update_of_ne hidx]
  · intro idx' ty' level'
    unfold LightNode.inRange
    rw [hstep]
    by_cases hidx : idx' = idx
    · subst hidx
      rw [Function.update_self, (hrange ty').1, (hrange ty').2]
    · rw [Function.update_of_ne hidx]

end LightNode

/-! ### Transactions -/

/-- A transaction that has come: the target before its first message, and the delta of the last
one that was accepted. -/
structure DeltaTrans where
  base : BitVec 16
  level : Option (BitVec 32)

/-- The node, and what is not in the code: the transactions of each state, and which of them set
its target. -/
structure DeltaRun (κ : Type) where
  node : LightNode
  seen : κ × ℕ × StTrans → Option DeltaTrans
  owner : ℕ × StTrans → Option κ

/-- A message of a transaction with a state of a light, or time goes on. -/
inductive DeltaEvent (κ : Type)
  | delta (tid : κ) (idx : ℕ) (ty : StTrans) (level : BitVec 32) (par : Option TransitionPar)
    (clock : BitVec 32)
  | pass
  | saveProc (clock : BitVec 32)

namespace DeltaRun

variable {κ : Type}

def initial (node : LightNode) : DeltaRun κ := ⟨node, fun _ => none, fun _ => none⟩

/-- The target before the first message of the transaction. -/
def base (t : DeltaRun κ) (tid : κ) (idx : ℕ) (ty : StTrans) : BitVec 16 :=
  match t.seen (tid, idx, ty) with
  | some s => s.base
  | none => t.node.target idx ty

/-- `retransaction` is whether a message of the transaction has come. -/
def retransaction (t : DeltaRun κ) (tid : κ) (idx : ℕ) (ty : StTrans) : Bool :=
  (t.seen (tid, idx, ty)).isSome

/-- The message arrives and is looked at. -/
def next (lib : TransLib) [DecidableEq κ] (t : DeltaRun κ) : DeltaEvent κ → DeltaRun κ
  | .delta tid idx ty level par clock =>
    let node := t.node.step lib
      (.level idx ty ⟨.delta level, par⟩ (t.retransaction tid idx ty) clock)
    let base := t.base tid idx ty
    if gLevelInvalid ⟨.delta level, par⟩ then
      { t with
        node
        seen := Function.update t.seen (tid, idx, ty)
          (some ⟨base, (t.seen (tid, idx, ty)).bind (·.level)⟩) }
    else
      { node
        seen := Function.update t.seen (tid, idx, ty) (some ⟨base, some level⟩)
        owner := Function.update t.owner (idx, ty) (some tid) }
  | .pass => { t with node := t.node.step lib .pass }
  | .saveProc clock => { t with node := t.node.step lib (.saveProc clock) }

/-- A message that is accepted is in turn: the first of its transaction with a sum that an `s32`
holds; one as before, when that one was accepted and no other transaction set the target since; or
one with another delta, added to a target that is `delta_last` from the start, or one that the
range would bring to the same limit. -/
def InTurn (t : DeltaRun κ) : DeltaEvent κ → Prop
  | .delta tid idx ty level par _ =>
    ¬ gLevelInvalid ⟨.delta level, par⟩ →
      match t.seen (tid, idx, ty) with
      | none => FitsS32 ((t.node.target idx ty).toInt + level.toInt)
      | some s =>
        if level = t.node.deltaLast then s.level = some level ∧ t.owner (idx, ty) = some tid
        else
          FitsS32 ((t.node.target idx ty).toInt + (level.toInt - t.node.deltaLast.toInt)) ∧
            ((t.node.target idx ty).toInt = s.base.toInt + t.node.deltaLast.toInt ∨
              SameLimit ((t.node.light idx).save ty) ty (s.base.toInt + level.toInt)
                ((t.node.target idx ty).toInt + (level.toInt - t.node.deltaLast.toInt)))
  | .pass | .saveProc _ => True

/-- The invariant of a run: a target is the delta of the transaction that set it from its start. -/
def Inv (t : DeltaRun κ) : Prop :=
  ∀ tid idx ty, t.owner (idx, ty) = some tid →
    ∃ s level, t.seen (tid, idx, ty) = some s ∧ s.level = some level ∧
      t.node.target idx ty = t.node.inRange idx ty (s.base.toInt + level.toInt)

section

variable {t : DeltaRun κ} {tid : κ} {idx : ℕ} {ty : StTrans} {level : BitVec 32}
  {par : Option TransitionPar} {clock : BitVec 32}

theorem toInt_of_fits {x y : BitVec 32} (h : FitsS32 (x.toInt + y.toInt)) :
    (x + y).toInt = x.toInt + y.toInt := by
  rw [BitVec.toInt_add]
  exact Int.bmod_eq_of_le (by have := h.1; omega) (by have := h.2; omega)

/-- **A message in turn** sets the target that it says. -/
theorem InTurn.target (hinv : t.Inv) (hturn : t.InTurn (.delta tid idx ty level par clock))
    (hvalid : ¬ gLevelInvalid ⟨.delta level, par⟩) :
    t.node.deltaTarget idx ty level (t.retransaction tid idx ty) =
      t.node.inRange idx ty ((t.base tid idx ty).toInt + level.toInt) := by
  have h := hturn hvalid
  unfold LightNode.deltaTarget retransaction base
  have hext : ((t.node.target idx ty).signExtend 32).toInt = (t.node.target idx ty).toInt :=
    BitVec.toInt_signExtend_of_le (by decide)
  cases hseen : t.seen (tid, idx, ty) with
  | none =>
    rw [hseen] at h
    dsimp only at h ⊢
    rw [Option.isSome_none, if_neg Bool.false_ne_true, toInt_of_fits (by rwa [hext]), hext]
  | some s =>
    rw [hseen] at h
    dsimp only at h ⊢
    rw [Option.isSome_some, if_pos rfl]
    by_cases hsame : level = t.node.deltaLast
    · rw [if_pos hsame] at h ⊢
      obtain ⟨hlevel, howner⟩ := h
      -- the target is not set again, and is the one its owner set
      obtain ⟨s', level', hs, hl, htarget⟩ := hinv tid idx ty howner
      obtain rfl := Option.some.inj (hseen.symm.trans hs)
      obtain rfl := Option.some.inj (hlevel.symm.trans hl)
      exact htarget
    · rw [if_neg hsame] at h ⊢
      obtain ⟨hfits, hbase⟩ := h
      -- the difference may wrap, the sum does not
      have hsum : ((t.node.target idx ty).signExtend 32 + (level - t.node.deltaLast)).toInt =
          (t.node.target idx ty).toInt + (level.toInt - t.node.deltaLast.toInt) := by
        rw [BitVec.toInt_add, BitVec.toInt_sub, hext, Int.add_bmod_bmod]
        exact Int.bmod_eq_of_le (by have := hfits.1; omega) (by have := hfits.2; omega)
      rw [hsum]
      rcases hbase with heq | hlimit
      · refine congrArg (t.node.inRange idx ty) ?_
        omega
      · exact hlimit.eq.symm

theorem Inv.next [DecidableEq κ] (lib : TransLib) (hinv : t.Inv) {e : DeltaEvent κ}
    (hturn : t.InTurn e) : (t.next lib e).Inv := by
  cases e with
  | pass =>
    intro tid idx ty howner
    obtain ⟨s, level, hs, hl, htarget⟩ := hinv tid idx ty howner
    refine ⟨s, level, hs, hl, ?_⟩
    exact (Light.transitionPass_target _ _ _).trans htarget
  | saveProc clock =>
    have hlight : (t.node.lightParSaveProc clock).light = t.node.light := by
      unfold LightNode.lightParSaveProc
      split_ifs
      all_goals rfl
    intro tid idx ty howner
    obtain ⟨s, level, hs, hl, htarget⟩ := hinv tid idx ty howner
    refine ⟨s, level, hs, hl, ?_⟩
    unfold DeltaRun.next LightNode.step LightNode.target LightNode.inRange
    dsimp only
    rw [hlight]
    exact htarget
  | delta tid idx ty level par clock =>
    intro tid' idx' ty' howner
    unfold DeltaRun.next at howner ⊢
    dsimp only at howner ⊢
    by_cases hvalid : gLevelInvalid ⟨.delta level, par⟩
    · rw [if_pos hvalid] at howner ⊢
      obtain ⟨s, level', hs, hl, htarget⟩ := hinv tid' idx' ty' howner
      rw [LightNode.step_delta_refused lib t.node idx ty level par _ clock hvalid]
      by_cases hkey : (tid', idx', ty') = (tid, idx, ty)
      · -- a message that is refused leaves the delta of its transaction
        obtain ⟨rfl, rfl, rfl⟩ := Prod.mk.inj hkey |>.imp_right Prod.mk.inj
        refine ⟨⟨t.base tid' idx' ty', (t.seen (tid', idx', ty')).bind (·.level)⟩, level',
          Function.update_self .., ?_, ?_⟩
        · rw [hs]
          exact hl
        · have hbase : t.base tid' idx' ty' = s.base := by
            unfold base
            rw [hs]
          rw [hbase]
          exact htarget
      · exact ⟨s, level', (Function.update_of_ne hkey ..).trans hs, hl, htarget⟩
    · rw [if_neg hvalid] at howner ⊢
      obtain ⟨hstep, hsame⟩ := LightNode.step_delta_accepted lib t.node idx ty level par
        (t.retransaction tid idx ty) clock hvalid
      dsimp only at howner ⊢
      by_cases hstate : (idx', ty') = (idx, ty)
      · obtain ⟨rfl, rfl⟩ := Prod.mk.inj hstate
        rw [Function.update_self] at howner
        obtain rfl := Option.some.inj howner
        refine ⟨_, level, Function.update_self .., rfl, ?_⟩
        rw [hstep, hsame.inRange]
        exact hturn.target hinv hvalid
      · rw [Function.update_of_ne hstate] at howner
        obtain ⟨s, level', hs, hl, htarget⟩ := hinv tid' idx' ty' howner
        have hkey : (tid', idx', ty') ≠ (tid, idx, ty) := fun h => hstate (Prod.mk.inj h).2
        refine ⟨s, level', (Function.update_of_ne hkey ..).trans hs, hl, ?_⟩
        rw [hsame.target idx' ty' hstate, hsame.inRange]
        exact htarget

end

end DeltaRun

/-- Lights in the middle of the whole range. -/
def middleNode : LightNode :=
  ⟨fun _ => ⟨fun _ => ⟨0, 0, -32768, 32767, true⟩, fun _ => ⟨0, 0, 0, 0, 0, 0⟩, 0⟩, 0, 0, none⟩

end PirMesh

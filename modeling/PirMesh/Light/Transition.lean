import PirMesh.Library.Ramp
import PirMesh.Light.Level

/-! # Light — Transitions

A transition waits for its delay, takes a step every 20 ms of the time that is left, and
goes to the target with the last pass.  `transits_iff` reduces it to its steps.

From a level in the range the steps never pass the target.  From the off level below the
range the first whole level is brought up to the range, and the steps that were computed
from off may go on above the target (`gLevelSet_overshoots`); `RampsWell` is exactly when
they do not. -/

namespace PirMesh

open Ramp

/-! ### What a transition is to do -/

/-- `v` is on the way from `a` to `b`. -/
def OnWay (a v b : BitVec 16) : Prop :=
  a.toInt ≤ v.toInt ∧ v.toInt ≤ b.toInt ∨ b.toInt ≤ v.toInt ∧ v.toInt ≤ a.toInt

instance (a v b : BitVec 16) : Decidable (OnWay a v b) := inferInstanceAs (Decidable (_ ∨ _))

theorem OnWay.start (a b : BitVec 16) : OnWay a a b :=
  (le_total a.toInt b.toInt).imp (fun h => ⟨le_rfl, h⟩) fun h => ⟨h, le_rfl⟩

theorem OnWay.target (a b : BitVec 16) : OnWay a b b :=
  (le_total a.toInt b.toInt).imp (fun h => ⟨h, le_rfl⟩) fun h => ⟨le_rfl, h⟩

theorem OnWay.trans {a v w b : BitVec 16} (h : OnWay a v b) (h' : OnWay v w b) : OnWay a w b := by
  unfold OnWay at *
  omega

def Light.after (l : Light) (k : ℕ) : Light := lightTransitionProc^[k] l

/-- The passes a transition takes. -/
def StTransition.passes (t : StTransition) : ℕ := t.delayMs.toNat + t.remainTMs.toNat

/-- No other command arrives: the light waits, and goes to its target step by step. -/
structure Light.Transits (l : Light) (ty : StTrans) : Prop where
  done : ((l.after (l.trans ty).passes).trans ty).present = (l.trans ty).target ∧
    ((l.after (l.trans ty).passes).trans ty).passes = 0
  delayed : ∀ k ≤ (l.trans ty).delayMs.toNat, k < (l.trans ty).passes →
    ((l.after k).trans ty).present = (l.trans ty).present
  between : ∀ k ≤ (l.trans ty).passes,
    OnWay (l.trans ty).present ((l.after k).trans ty).present (l.trans ty).target
  toward : ∀ k < (l.trans ty).passes,
    OnWay ((l.after k).trans ty).present ((l.after (k + 1)).trans ty).present (l.trans ty).target

/-! ### Passes of one state -/

namespace StTransition

variable {save : SwLevelSave} {ty : StTrans}

/-- The step every 20 ms, until the target is met. -/
def step (save : SwLevelSave) (ty : StTrans) (t : StTransition) : StTransition :=
  if t.present ≠ t.target then lightGetNextLevel save ty t else t

/-- The delay and the time that are left. -/
def left (t : StTransition) (d r : ℕ) : StTransition :=
  { t with delayMs := BitVec.ofNat 16 d, remainTMs := BitVec.ofNat 32 r }

theorem left_self (t : StTransition) : t.left t.delayMs.toNat t.remainTMs.toNat = t := by
  unfold left
  rw [BitVec.ofNat_toNat, BitVec.ofNat_toNat, BitVec.setWidth_eq, BitVec.setWidth_eq]

@[simp] theorem step_target (t : StTransition) : (step save ty t).target = t.target := by
  unfold step
  split_ifs
  · rfl
  · rfl

@[simp] theorem step_step1p32768 (t : StTransition) :
    (step save ty t).step1p32768 = t.step1p32768 := by
  unfold step
  split_ifs
  · rfl
  · rfl

theorem ofNat_eq_zero {w m : ℕ} (h : m < 2 ^ w) : BitVec.ofNat w m = 0 ↔ m = 0 := by
  rw [← BitVec.toNat_inj, BitVec.toNat_ofNat, Nat.mod_eq_of_lt h]
  exact Iff.of_eq (congrArg (m = ·) (Nat.zero_mod _))

theorem ofNat_sub_one {w m : ℕ} (h0 : 0 < m) : BitVec.ofNat w m - 1 = BitVec.ofNat w (m - 1) := by
  obtain ⟨m, rfl⟩ := Nat.exists_eq_succ_of_ne_zero h0.ne'
  rw [Nat.succ_sub_one, Nat.succ_eq_add_one, BitVec.ofNat_add]
  exact BitVec.add_sub_cancel _ _

variable {t : StTransition} {d r : ℕ}

theorem pass_delay (h0 : 0 < d) (hd : d < 2 ^ 16) (hr : r < 2 ^ 32) (hmore : 1 < d ∨ 0 < r) :
    (transitionPass save ty (t.left d r)).1 = t.left (d - 1) r := by
  have hne : BitVec.ofNat 16 d ≠ 0 := mt (ofNat_eq_zero hd).mp h0.ne'
  have hover : ¬ (BitVec.ofNat 16 (d - 1) = 0 ∧ BitVec.ofNat 32 r = 0) := by
    rw [ofNat_eq_zero (by omega), ofNat_eq_zero hr]
    omega
  unfold transitionPass left
  dsimp only
  rw [if_pos hne, ofNat_sub_one h0, if_neg hover]

/-- The last pass goes to the target. -/
def arrived (t : StTransition) : StTransition := ({ t with present := t.target }).left 0 0

theorem pass_delay_last : (transitionPass save ty (t.left 1 0)).1 = t.arrived := by
  have hne : BitVec.ofNat 16 1 ≠ 0 := by decide
  have hover : BitVec.ofNat 16 0 = 0 ∧ BitVec.ofNat 32 0 = 0 := by decide
  unfold transitionPass left
  dsimp only
  rw [if_pos hne, ofNat_sub_one Nat.one_pos, Nat.sub_self, if_pos hover]
  rfl

/-- The step of a pass, if there is one. -/
def stepIf (save : SwLevelSave) (ty : StTrans) (t : StTransition) (r : ℕ) : StTransition :=
  if r % lightAdjustInterval = 0 then step save ty t else t

theorem stepIf_left (hr : r < 2 ^ 32) :
    (if (t.left 0 r).present ≠ (t.left 0 r).target ∧
        (t.left 0 r).remainTMs.toNat % lightAdjustInterval = 0 then
      lightGetNextLevel save ty (t.left 0 r) else t.left 0 r) = (stepIf save ty t r).left 0 r := by
  have hmod : (t.left 0 r).remainTMs.toNat = r := Nat.mod_eq_of_lt hr
  rw [hmod]
  unfold stepIf step
  by_cases h0 : r % lightAdjustInterval = 0
  · rw [if_pos h0]
    by_cases hp : t.present ≠ t.target
    · rw [if_pos hp, if_pos ⟨hp, h0⟩]
      rfl
    · rw [if_neg hp, if_neg fun h => hp h.1]
  · rw [if_neg h0, if_neg fun h => h0 h.2]

/-- A pass of the time that is left, before the last one. -/
theorem pass_remain (h1 : 1 < r) (hr : r < 2 ^ 32) :
    (transitionPass save ty (t.left 0 r)).1 = (stepIf save ty t r).left 0 (r - 1) := by
  have hdelay : ¬ (t.left 0 r).delayMs ≠ 0 := fun h => h rfl
  have hne : (t.left 0 r).remainTMs ≠ 0 := mt (ofNat_eq_zero hr).mp (by omega)
  have hover : BitVec.ofNat 32 (r - 1) ≠ 0 := mt (ofNat_eq_zero (by omega)).mp (by omega)
  unfold transitionPass
  rw [if_neg hdelay, if_pos hne, stepIf_left hr]
  unfold left
  dsimp only
  rw [ofNat_sub_one (by omega), if_neg hover]

theorem pass_remain_last : (transitionPass save ty (t.left 0 1)).1 = t.arrived := by
  have hdelay : ¬ (t.left 0 1).delayMs ≠ 0 := fun h => h rfl
  have hne : (t.left 0 1).remainTMs ≠ 0 := mt (ofNat_eq_zero (by decide)).mp Nat.one_ne_zero
  have hstep : stepIf save ty t 1 = t := if_neg (by decide)
  unfold transitionPass
  rw [if_neg hdelay, if_pos hne, stepIf_left (by decide), hstep]
  unfold left
  dsimp only
  rw [ofNat_sub_one Nat.one_pos, Nat.sub_self]
  exact congrArg Prod.fst (if_pos rfl)

/-! ### All passes -/

/-- `n` steps. -/
def steps (save : SwLevelSave) (ty : StTrans) (t : StTransition) (n : ℕ) : StTransition :=
  (step save ty)^[n] t

/-- The steps that were taken when `r` of `total` ms are left. -/
def stepsDone (total r : ℕ) : ℕ := total / lightAdjustInterval - r / lightAdjustInterval

theorem stepsDone_pred {total m : ℕ} (h0 : 0 < m) (hm : m ≤ total) :
    stepsDone total (m - 1) =
      if m % lightAdjustInterval = 0 then stepsDone total m + 1 else stepsDone total m := by
  unfold stepsDone lightAdjustInterval
  split_ifs
  · omega
  · omega

def elapse (save : SwLevelSave) (ty : StTrans) (t : StTransition) (k : ℕ) : StTransition :=
  (fun t => (transitionPass save ty t).1)^[k] t

theorem elapse_succ (t : StTransition) (k : ℕ) :
    elapse save ty t (k + 1) = (transitionPass save ty (elapse save ty t k)).1 :=
  Function.iterate_succ_apply' _ k t

theorem steps_succ (t : StTransition) (n : ℕ) :
    steps save ty t (n + 1) = step save ty (steps save ty t n) :=
  Function.iterate_succ_apply' _ n t

theorem elapse_delay (hd : d < 2 ^ 16) (hr : r < 2 ^ 32) :
    ∀ k ≤ d, k < d + r → elapse save ty (t.left d r) k = t.left (d - k) r := by
  intro k
  induction k with
  | zero => exact fun _ _ => rfl
  | succ k ih =>
    intro hk hmore
    rw [elapse_succ, ih (by omega) (by omega), pass_delay (by omega) (by omega) hr (by omega),
      Nat.sub_sub]

theorem elapse_remain (hr : r < 2 ^ 32) : ∀ k < r, elapse save ty (t.left 0 r) k =
    (steps save ty t (stepsDone r (r - k))).left 0 (r - k) := by
  intro k
  induction k with
  | zero =>
    intro _
    rw [Nat.sub_zero, stepsDone, Nat.sub_self]
    rfl
  | succ k ih =>
    intro hk
    rw [elapse_succ, ih (by omega), pass_remain (by omega) (by omega), ← Nat.sub_sub,
      stepsDone_pred (by omega) (Nat.sub_le r k)]
    unfold stepIf
    split_ifs
    · rw [steps_succ]
    · rfl

/-- All of the delay, and `k` ms of the time that is left then. -/
theorem elapse_left (hd : d < 2 ^ 16) (hr : r < 2 ^ 32) {k : ℕ} (hk : k < r) :
    elapse save ty (t.left d r) (d + k) =
      (steps save ty t (stepsDone r (r - k))).left 0 (r - k) := by
  have hsplit : elapse save ty (t.left d r) (d + k) =
      elapse save ty (elapse save ty (t.left d r) d) k := by
    rw [Nat.add_comm]
    exact Function.iterate_add_apply _ k d _
  rw [hsplit, elapse_delay hd hr d le_rfl (by omega), Nat.sub_self, elapse_remain hr k hk]

theorem elapse_all (hd : d < 2 ^ 16) (hr : r < 2 ^ 32) (h0 : 0 < d + r) :
    elapse save ty (t.left d r) (d + r) = (steps save ty t (r / lightAdjustInterval)).arrived := by
  obtain ⟨n, hn⟩ := Nat.exists_eq_succ_of_ne_zero h0.ne'
  rcases Nat.eq_zero_or_pos r with rfl | hpos
  · obtain rfl : d = n + 1 := hn
    rw [Nat.add_zero, elapse_succ, elapse_delay hd hr n n.le_succ (by omega),
      Nat.add_sub_cancel_left]
    exact pass_delay_last
  · have hlast : d + r = d + (r - 1) + 1 := by omega
    have hone : r - (r - 1) = 1 := by omega
    rw [hlast, elapse_succ, elapse_left hd hr (by omega), hone, pass_remain_last]
    rfl

@[simp] theorem steps_target (t : StTransition) (n : ℕ) :
    (steps save ty t n).target = t.target := by
  induction n with
  | zero => rfl
  | succ n ih => rw [steps_succ, step_target, ih]

end StTransition

/-! ### A transition is its steps -/

theorem Light.after_succ (l : Light) (k : ℕ) : l.after (k + 1) = lightTransitionProc (l.after k) :=
  Function.iterate_succ_apply' _ k l

theorem Light.after_save (l : Light) (k : ℕ) : (l.after k).save = l.save := by
  induction k with
  | zero => rfl
  | succ k ih => exact (congrArg Light.save (l.after_succ k)).trans ih

/-- The states are independent. -/
theorem Light.after_trans (l : Light) (ty : StTrans) (k : ℕ) :
    (l.after k).trans ty = StTransition.elapse (l.save ty) ty (l.trans ty) k := by
  induction k with
  | zero => rfl
  | succ k ih =>
    rw [l.after_succ, StTransition.elapse_succ, ← ih, ← l.after_save k]
    rfl

/-- Every step goes towards the target. -/
def StTransition.StepsToward (save : SwLevelSave) (ty : StTrans) (t : StTransition) : Prop :=
  ∀ n < t.remainTMs.toNat / lightAdjustInterval,
    OnWay (steps save ty t n).present (steps save ty t (n + 1)).present t.target

/-- Once each pass goes towards the target, the levels in between are on the way. -/
theorem Light.Transits.of_toward {l : Light} {ty : StTrans}
    (done : ((l.after (l.trans ty).passes).trans ty).present = (l.trans ty).target ∧
      ((l.after (l.trans ty).passes).trans ty).passes = 0)
    (delayed : ∀ k ≤ (l.trans ty).delayMs.toNat, k < (l.trans ty).passes →
      ((l.after k).trans ty).present = (l.trans ty).present)
    (toward : ∀ k < (l.trans ty).passes, OnWay ((l.after k).trans ty).present
      ((l.after (k + 1)).trans ty).present (l.trans ty).target) : l.Transits ty := by
  refine ⟨done, delayed, fun k => ?_, toward⟩
  induction k with
  | zero => exact fun _ => .start _ _
  | succ k ih => exact fun hk => (ih (Nat.le_of_succ_le hk)).trans (toward k hk)

section

open StTransition

variable {l : Light} {ty : StTrans}

theorem Light.after_left (l : Light) (ty : StTrans) (k : ℕ) : (l.after k).trans ty =
    elapse (l.save ty) ty
      ((l.trans ty).left (l.trans ty).delayMs.toNat (l.trans ty).remainTMs.toNat) k := by
  rw [l.after_trans, left_self]

theorem Light.present_delay {k : ℕ} (hk : k ≤ (l.trans ty).delayMs.toNat)
    (hmore : k < (l.trans ty).passes) :
    ((l.after k).trans ty).present = (l.trans ty).present := by
  rw [l.after_left, elapse_delay (BitVec.isLt _) (BitVec.isLt _) k hk hmore]
  rfl

theorem Light.present_remain {k : ℕ} (hk : k < (l.trans ty).remainTMs.toNat) :
    ((l.after ((l.trans ty).delayMs.toNat + k)).trans ty).present =
      (steps (l.save ty) ty (l.trans ty)
        (stepsDone (l.trans ty).remainTMs.toNat ((l.trans ty).remainTMs.toNat - k))).present := by
  rw [l.after_left, elapse_left (BitVec.isLt _) (BitVec.isLt _) hk]
  rfl

theorem Light.after_passes (h0 : 0 < (l.trans ty).passes) :
    (l.after (l.trans ty).passes).trans ty = (steps (l.save ty) ty (l.trans ty)
      ((l.trans ty).remainTMs.toNat / lightAdjustInterval)).arrived := by
  rw [l.after_left]
  exact elapse_all (BitVec.isLt _) (BitVec.isLt _) h0

theorem Light.present_passes (h0 : 0 < (l.trans ty).passes) :
    ((l.after (l.trans ty).passes).trans ty).present = (l.trans ty).target := by
  rw [l.after_passes h0]
  exact steps_target _ _

/-- **A transition is its steps**, unless it takes no time. -/
theorem transits_iff (h0 : 0 < (l.trans ty).passes) :
    l.Transits ty ↔ (l.trans ty).StepsToward (l.save ty) ty := by
  constructor
  · intro h n hn
    -- the pass of step `n + 1`, when so many steps are still to be taken
    obtain ⟨m, hm⟩ : ∃ m, m = (l.trans ty).remainTMs.toNat / lightAdjustInterval - n := ⟨_, rfl⟩
    unfold lightAdjustInterval at hn hm
    have hk : (l.trans ty).remainTMs.toNat - 20 * m + 1 < (l.trans ty).remainTMs.toNat := by omega
    have htoward := h.toward ((l.trans ty).delayMs.toNat + ((l.trans ty).remainTMs.toNat - 20 * m))
      (by unfold passes; omega)
    have hdone : stepsDone (l.trans ty).remainTMs.toNat (20 * m) = n := by
      unfold stepsDone lightAdjustInterval
      omega
    have hnext : stepsDone (l.trans ty).remainTMs.toNat (20 * m - 1) = n + 1 := by
      unfold stepsDone lightAdjustInterval
      omega
    have hleft : (l.trans ty).remainTMs.toNat - ((l.trans ty).remainTMs.toNat - 20 * m) =
        20 * m := by omega
    rw [Nat.add_assoc, Light.present_remain (Nat.lt_of_succ_lt hk), Light.present_remain hk,
      ← Nat.sub_sub, hleft, hdone, hnext] at htoward
    exact htoward
  · intro h
    refine .of_toward ⟨Light.present_passes h0, ?_⟩ (fun k => Light.present_delay) fun k hk => ?_
    · rw [Light.after_passes h0]
      rfl
    · rcases Nat.lt_or_ge (k + 1) (l.trans ty).passes with hmore | hlast
      · rcases Nat.lt_or_ge k (l.trans ty).delayMs.toNat with hd | hd
        · rw [Light.present_delay hd.le hk, Light.present_delay hd hmore]
          exact .start _ _
        · obtain ⟨i, rfl⟩ := Nat.exists_eq_add_of_le hd
          have hi : i + 1 < (l.trans ty).remainTMs.toNat := by
            unfold passes at hmore
            omega
          rw [Nat.add_assoc, Light.present_remain (Nat.lt_of_succ_lt hi), Light.present_remain hi,
            ← Nat.sub_sub, stepsDone_pred (by omega) (Nat.sub_le _ i)]
          split_ifs with hstep
          · refine h _ ?_
            unfold stepsDone
            unfold lightAdjustInterval at hstep ⊢
            omega
          · exact .start _ _
      · obtain hend : k + 1 = (l.trans ty).passes := Nat.le_antisymm hk hlast
        rw [hend, Light.present_passes h0]
        exact .target _ _

theorem transits_of_passes_eq_zero (h0 : (l.trans ty).passes = 0) :
    l.Transits ty ↔ (l.trans ty).present = (l.trans ty).target := by
  have hnone : ∀ k, ¬ k < (l.trans ty).passes := fun k hk => Nat.not_lt_zero k (h0 ▸ hk)
  constructor
  · intro h
    have hdone := h.done.1
    rwa [h0] at hdone
  · intro h
    refine .of_toward ?_ (fun k _ hk => absurd hk (hnone k)) fun k hk => absurd hk (hnone k)
    rw [h0]
    exact ⟨h, h0⟩

end

end PirMesh

import PirMesh.Light.Hue
import PirMesh.Light.TransitionSpec

/-! # Light — The shorter arc of a hue (`lighting_model_HSL.c`)

The difference of two hues is the shorter arc between them, except where that arc goes through 0:
there it is one less, since a turn has 65536 parts and not 65535 (`shortest_iff`).

`OnArc` follows a transition pass by pass: what it has gained lies on the arc and only grows, and
the last pass makes up for what the steps leave (`huePass_onArc`). -/

namespace PirMesh

open Ramp StTransition

/-! ### The difference -/

/-- `d` is the shortest way around from hue `p` to hue `t`. -/
structure Shortest (t p : BitVec 16) (d : ℤ) : Prop where
  congr : ((t.toNat : ℤ) - p.toNat - d) % 65536 = 0
  least : ∀ e : ℤ, ((t.toNat : ℤ) - p.toNat - e) % 65536 = 0 → d.natAbs ≤ e.natAbs

/-- The arc between two hues does not go through 0. -/
def Inner (t p : BitVec 16) : Prop := ((t.toNat : ℤ) - p.toNat).natAbs ≤ 0x8000

instance (t p : BitVec 16) : Decidable (Inner t p) := inferInstanceAs (Decidable (_ ≤ _))

/-- The half turn is negative. -/
theorem toInt_ofInt_half {x : ℤ} (h : -0x8000 ≤ x) (h' : x ≤ 0x8000) :
    (BitVec.ofInt 16 x).toInt = if x = 0x8000 then -0x8000 else x := by
  split_ifs with hhalf
  · rw [hhalf]
    rfl
  · exact BitVec.toInt_ofInt_eq_self (by decide) (by omega) (by omega)

theorem toInt_getHueDeltaValue (t p : BitVec 16) : (getHueDeltaValue t p).toInt =
    if (p.toNat : ℤ) + 0x8000 < t.toNat then (t.toNat : ℤ) - p.toNat - 65535
    else if (t.toNat : ℤ) + 0x8000 < p.toNat then (t.toNat : ℤ) - p.toNat + 65535
    else if (t.toNat : ℤ) - p.toNat = 0x8000 then -0x8000
    else (t.toNat : ℤ) - p.toNat := by
  have ht := t.isLt
  have hp := p.isLt
  unfold getHueDeltaValue
  dsimp only
  split_ifs
  all_goals
    rw [toInt_ofInt_half (by omega) (by omega)]
    split_ifs
    all_goals omega

/-- **The difference of two hues** is the shortest one exactly if the arc is an inner one. -/
theorem shortest_iff (t p : BitVec 16) :
    Shortest t p (getHueDeltaValue t p).toInt ↔ Inner t p := by
  have hval := toInt_getHueDeltaValue t p
  have ht := t.isLt
  have hp := p.isLt
  unfold Inner
  constructor
  · rintro ⟨hcongr, -⟩
    split_ifs at hval
    all_goals omega
  · intro h
    refine ⟨?_, fun e he => ?_⟩
    · split_ifs at hval
      all_goals omega
    · split_ifs at hval
      all_goals omega

/-! ### The way of a transition -/

/-- From `x` on to `y`, on the way from 0 to `d`. -/
def Toward (d x y : ℤ) : Prop := 0 ≤ x ∧ x ≤ y ∧ y ≤ d ∨ d ≤ y ∧ y ≤ x ∧ x ≤ 0

/-- The steps lead to `d`, and `N` of them not beyond. -/
def Leads (step d : ℤ) (N : ℕ) : Prop :=
  0 ≤ step ∧ wholes 32768 step N ≤ d ∨ step ≤ 0 ∧ d ≤ wholes 32768 step N

section

variable {step d : ℤ} {N n : ℕ}

theorem Leads.toward (h : Leads step d N) {m : ℕ} (hnm : n ≤ m) (hm : m ≤ N) :
    Toward d (wholes 32768 step n) (wholes 32768 step m) := by
  rcases h with ⟨hstep, hend⟩ | ⟨hstep, hend⟩
  · have hmono := @wholes_mono 32768 step (by decide) hstep
    have hzero := hmono (Nat.zero_le n)
    rw [wholes_zero] at hzero
    exact .inl ⟨hzero, hmono hnm, (hmono hm).trans hend⟩
  · have hanti := @wholes_anti 32768 step (by decide) hstep
    have hzero := hanti (Nat.zero_le n)
    rw [wholes_zero] at hzero
    exact .inr ⟨hend.trans (hanti hm), hanti hnm, hzero⟩

theorem Toward.last {x y : ℤ} (h : Toward d x y) : Toward d x d := by
  unfold Toward at *
  omega

theorem Toward.stay {x y : ℤ} (h : Toward d x y) : Toward d x x := by
  unfold Toward at *
  omega

theorem Toward.end (d : ℤ) : Toward d d d := by
  unfold Toward
  omega

end

/-- The transition has gained `a`: it is at the end of the arc, or it has taken its steps. -/
structure OnArc (p : BitVec 16) (d : ℤ) (total : ℕ) (step : BitVec 32) (t : StTransition)
    (a : ℤ) : Prop where
  level : t.present = p + BitVec.ofInt 16 a
  target : t.target = p + BitVec.ofInt 16 d
  left : t.remainTMs.toNat ≤ total
  taken : a = d ∨ t.step1p32768 = step ∧
    a = wholes 32768 step.toInt (stepsDone total t.remainTMs.toNat) ∧
      t.present1p32768.toInt =
        (stepsDone total t.remainTMs.toNat * step.toInt).tmod 32768

section

variable {p : BitVec 16} {d a : ℤ} {total : ℕ} {step : BitVec 32} {save : SwLevelSave}
  {t : StTransition}

/-- A level on the arc is not the target before its end. -/
theorem eq_of_ofInt_eq (hd : d.natAbs ≤ 0x8000) (ha : Toward d a a)
    (h : p + BitVec.ofInt 16 a = p + BitVec.ofInt 16 d) : a = d := by
  have heq := congrArg BitVec.toInt ((BitVec.add_right_inj p).mp h)
  rw [BitVec.toInt_ofInt, BitVec.toInt_ofInt] at heq
  unfold Int.bmod at heq
  unfold Toward at ha
  dsimp only at heq
  split_ifs at heq
  all_goals omega

/-- The next level of a hue, with what it carries over. -/
theorem hslGetNextLevel_hue {n : ℕ} (hstep : t.step1p32768 = step)
    (hlevel : t.present = p + BitVec.ofInt 16 (wholes 32768 step.toInt n))
    (hcarry : t.present1p32768.toInt = (n * step.toInt).tmod 32768) :
    (hslGetNextLevel save .hue t).present =
        p + BitVec.ofInt 16 (wholes 32768 step.toInt (n + 1)) ∧
      (hslGetNextLevel save .hue t).present1p32768.toInt =
        ((n + 1 : ℕ) * step.toInt).tmod 32768 := by
  obtain ⟨hdiv, hmod⟩ := @carry 32768 (by decide) step.toInt n
  have hlt := Int.tmod_lt_of_pos (step.toInt + (n * step.toInt).tmod 32768)
    (show (0 : ℤ) < 32768 by decide)
  have hgt := Int.lt_tmod_of_pos (step.toInt + (n * step.toInt).tmod 32768)
    (show (0 : ℤ) < 32768 by decide)
  unfold hslGetNextLevel
  dsimp only
  rw [if_pos rfl, hstep, hcarry, hdiv]
  constructor
  · rw [BitVec.ofInt_add, BitVec.ofInt_toInt, hlevel, BitVec.add_assoc, ← BitVec.ofInt_add]
    congr 2
    omega
  · rw [BitVec.toInt_ofInt_eq_self (by decide) hgt.le hlt]
    exact hmod

variable (hd : d.natAbs ≤ 0x8000) (hleads : Leads step.toInt d (total / lightAdjustInterval))

theorem stepsDone_le (total r : ℕ) : stepsDone total r ≤ total / lightAdjustInterval :=
  Nat.sub_le _ _

include hleads in
theorem OnArc.stay (h : OnArc p d total step t a) : Toward d a a := by
  rcases h.taken with rfl | ⟨-, rfl, -⟩
  · exact .end _
  · exact hleads.toward le_rfl (stepsDone_le _ _)

/-- The step of a pass, if it is time for one, when `r` ms are left behind it. -/
structure Stepped (p : BitVec 16) (d : ℤ) (total : ℕ) (step : BitVec 32) (t : StTransition)
    (r : ℕ) (a a' : ℤ) (t' : StTransition) : Prop where
  level : t'.present = p + BitVec.ofInt 16 a'
  same : t'.target = t.target ∧ t'.remainTMs = t.remainTMs ∧ t'.delayMs = t.delayMs
  toward : Toward d a a'
  taken : a' = d ∨ t'.step1p32768 = step ∧ a' = wholes 32768 step.toInt (stepsDone total r) ∧
    t'.present1p32768.toInt = (stepsDone total r * step.toInt).tmod 32768

include hd hleads in
theorem OnArc.stepped (h : OnArc p d total step t a) (hpos : 0 < t.remainTMs.toNat) :
    ∃ a', Stepped p d total step t (t.remainTMs.toNat - 1) a a'
      (if t.present ≠ t.target ∧ t.remainTMs.toNat % lightAdjustInterval = 0 then
        hslGetNextLevel save .hue t else t) := by
  have hpred := stepsDone_pred hpos h.left
  have hmet : t.present = t.target → a = d := fun heq =>
    eq_of_ofInt_eq hd (h.stay hleads) (h.level.symm.trans (heq.trans h.target))
  split_ifs with hgo
  · have hne : a ≠ d := by
      rintro rfl
      exact hgo.1 (h.level.trans h.target.symm)
    obtain ⟨hstep, hgained, hcarry⟩ := h.taken.resolve_left hne
    rw [if_pos hgo.2] at hpred
    have hlevel := h.level
    rw [hgained] at hlevel
    obtain ⟨hnext, hcarry'⟩ := @hslGetNextLevel_hue p step save t _ hstep hlevel hcarry
    rw [← hpred] at hnext hcarry'
    refine ⟨_, hnext, ⟨rfl, rfl, rfl⟩, ?_, .inr ⟨hstep, rfl, hcarry'⟩⟩
    rw [hgained]
    exact hleads.toward (hpred ▸ Nat.le_succ _) (stepsDone_le _ _)
  · refine ⟨a, h.level, ⟨rfl, rfl, rfl⟩, h.stay hleads, ?_⟩
    by_cases hend : a = d
    · exact .inl hend
    · have hno : t.remainTMs.toNat % lightAdjustInterval ≠ 0 := fun h0 =>
        hgo ⟨fun heq => hend (hmet heq), h0⟩
      rw [if_neg hno] at hpred
      rw [hpred]
      exact .inr (h.taken.resolve_left hend)

/-- A transition that is over is at the end of the arc. -/
theorem onArc_arrived {t' : StTransition} (hleft : t'.remainTMs.toNat ≤ total)
    (htarget : t'.target = p + BitVec.ofInt 16 d) :
    OnArc p d total step (lightResSwGLevelSet t' t'.target false) d :=
  ⟨htarget, htarget, hleft, .inl rfl⟩

/-- A pass goes on along the arc, and the last one to its end. -/
def GoesOn (p : BitVec 16) (d : ℤ) (total : ℕ) (step : BitVec 32) (t : StTransition) (a : ℤ)
    (t' : StTransition) : Prop :=
  ∃ a', OnArc p d total step t' a' ∧ Toward d a a' ∧ t'.passes = t.passes - 1 ∧
    (t.passes = 1 → a' = d)

include hleads in
/-- A pass of the delay gains nothing, unless it is the last one. -/
theorem delayPass_onArc (h : OnArc p d total step t a) (hdelay : t.delayMs ≠ 0) :
    GoesOn p d total step t a (transitionPassBy (hslGetNextLevel save .hue) t).1 := by
  have hstay := h.stay hleads
  have hprev : (t.delayMs - 1).toNat = t.delayMs.toNat - 1 := by bv_omega
  have hdpos : 0 < t.delayMs.toNat := by bv_omega
  have hpasses : (t.delayMs - 1).toNat + t.remainTMs.toNat =
      t.delayMs.toNat + t.remainTMs.toNat - 1 := by omega
  unfold transitionPassBy
  rw [if_pos hdelay]
  dsimp only
  split_ifs with hover
  · exact ⟨d, onArc_arrived h.left h.target, hstay.last, hpasses, fun _ => rfl⟩
  · refine ⟨a, ⟨h.level, h.target, h.left, h.taken⟩, hstay, hpasses, fun hone => ?_⟩
    unfold passes at hone
    refine absurd ⟨?_, ?_⟩ hover
    · bv_omega
    · bv_omega

include hd hleads in
/-- A pass of the transition proper takes its step, and the last one what is left. -/
theorem remainPass_onArc (h : OnArc p d total step t a) (hdelay : t.delayMs = 0)
    (hremain : 0 < t.remainTMs.toNat) :
    GoesOn p d total step t a (transitionPassBy (hslGetNextLevel save .hue) t).1 := by
  have hne : t.remainTMs ≠ 0 := by bv_omega
  have hprev : (t.remainTMs - 1).toNat = t.remainTMs.toNat - 1 := by bv_omega
  obtain ⟨a', hstepped⟩ := h.stepped hd hleads hremain
  unfold transitionPassBy
  rw [if_neg (not_not.mpr hdelay), if_pos hne]
  dsimp only
  generalize (if t.present ≠ t.target ∧ t.remainTMs.toNat % lightAdjustInterval = 0 then
    hslGetNextLevel save .hue t else t) = t' at hstepped ⊢
  obtain ⟨hlevel, ⟨htarget, hsame, hdelay'⟩, htoward, htaken⟩ := hstepped
  have hleft : (t'.remainTMs - 1).toNat = t.remainTMs.toNat - 1 := by rw [hsame, hprev]
  have hend := htarget.trans h.target
  have hle : (t'.remainTMs - 1).toNat ≤ total := by
    have htotal := h.left
    omega
  have hpasses : ∀ present, StTransition.passes
      { t' with present := present, remainTMs := t'.remainTMs - 1 } = t.passes - 1 := by
    intro present
    unfold passes
    dsimp only
    rw [hleft, hdelay', hdelay]
    show 0 + (t.remainTMs.toNat - 1) = 0 + t.remainTMs.toNat - 1
    omega
  split_ifs with hover
  · exact ⟨d, onArc_arrived hle hend, htoward.last, hpasses _, fun _ => rfl⟩
  · rw [← hleft] at htaken
    refine ⟨a', ⟨hlevel, hend, hle, htaken⟩, htoward, hpasses _, fun hone => ?_⟩
    unfold passes at hone
    rw [hdelay] at hone
    have hone' : t.remainTMs.toNat = 1 := (Nat.zero_add _).symm.trans hone
    exact absurd (BitVec.eq_of_toNat_eq (by rw [hleft, hone']; rfl)) hover

include hd hleads in
theorem huePass_onArc (h : OnArc p d total step t a) (hpos : 0 < t.passes) :
    GoesOn p d total step t a (transitionPassBy (hslGetNextLevel save .hue) t).1 := by
  by_cases hdelay : t.delayMs = 0
  · refine remainPass_onArc hd hleads h hdelay ?_
    have hnone : t.delayMs.toNat = 0 := congrArg BitVec.toNat hdelay
    unfold passes at hpos
    omega
  · exact delayPass_onArc hleads h hdelay

include hd hleads in
/-- All passes go along the arc, and end where it does. -/
theorem hueRun_onArc (m : ℕ) (t : StTransition) (a : ℤ) (h : OnArc p d total step t a)
    (hm : t.passes = m) (hend : m = 0 → a = d) :
    ∃ gained : ℕ → ℤ, gained 0 = a ∧ gained m = d ∧
      (∀ k ≤ m, ((fun t => (transitionPassBy (hslGetNextLevel save .hue) t).1)^[k] t).present =
        p + BitVec.ofInt 16 (gained k)) ∧
      ∀ k < m, Toward d (gained k) (gained (k + 1)) := by
  induction m generalizing t a with
  | zero =>
    refine ⟨fun _ => a, rfl, hend rfl, fun k hk => ?_, fun k hk => absurd hk (Nat.not_lt_zero k)⟩
    obtain rfl := Nat.le_zero.mp hk
    exact h.level
  | succ m ih =>
    obtain ⟨a', hnext, htoward, hpasses, hlast⟩ :=
      huePass_onArc hd hleads h (hm ▸ Nat.succ_pos m)
    obtain ⟨gained, hstart, hfinal, hlevels, hsteps⟩ := ih _ a' hnext (by rw [hpasses, hm]; rfl)
      fun hzero => hlast (by rw [hm, hzero])
    refine ⟨fun k => Nat.casesOn k a gained, rfl, hfinal, fun k hk => ?_, fun k hk => ?_⟩
    · cases k with
      | zero => exact h.level
      | succ k => exact hlevels k (Nat.le_of_succ_le_succ hk)
    · cases k with
      | zero =>
        show Toward d a (gained 0)
        rw [hstart]
        exact htoward
      | succ k => exact hsteps k (Nat.lt_of_succ_lt_succ hk)

end

/-! ### What a command starts -/

namespace HslLight

/-- The difference that a command finds, as an angle. -/
def hueDelta (l : HslLight) (target : BitVec 16) : ℤ :=
  (getHueDeltaValue (s16ToU16 target) (s16ToU16 (l.trans .hue).present)).toInt

/-- The transition that a command builds: it is to start at the present hue, with the steps of the
difference or with none, or it is at its target. -/
structure Built (l : HslLight) (goal : BitVec 16) (time : BitVec 32) (t : StTransition) :
    Prop where
  target : t.target = goal
  remain : t.remainTMs = time
  carry : t.present1p32768 = 0
  start : t.present = goal ∨ t.present = (l.trans .hue).present ∧
    (t.step1p32768 = transitionStep (l.hueDelta goal) time ∨ t.step1p32768 = 0)

section

variable {lib : TransLib} {l : HslLight} {target : BitVec 16} {par : TransitionPar}
  {remain : BitVec 32} {flag keepColor : Bool}

@[simp] theorem setTrans_self (l : HslLight) (ty : HslTrans) (t : StTransition) :
    (l.setTrans ty t).trans ty = t := by
  unfold setTrans
  exact Function.update_self ty t l.trans

@[simp] theorem setStep_hue (l : HslLight) (step : BitVec 32) :
    (l.setStep .hue step).trans .hue = { l.trans .hue with step1p32768 := step } :=
  l.setTrans_self .hue _

/-- The steps of a hue whose target is set. -/
theorem setSteps_hue (l : HslLight) (remain : BitVec 32) (keepColor : Bool) :
    ((l.setSteps .hue remain keepColor).trans .hue).target = (l.trans .hue).target ∧
      (((l.setSteps .hue remain keepColor).trans .hue).present = (l.trans .hue).target ∨
        ((l.setSteps .hue remain keepColor).trans .hue).present = (l.trans .hue).present ∧
          (((l.setSteps .hue remain keepColor).trans .hue).step1p32768 =
              transitionStep (l.hueDelta (l.trans .hue).target) remain ∨
            ((l.setSteps .hue remain keepColor).trans .hue).step1p32768 = 0)) := by
  unfold setSteps
  dsimp only
  by_cases hon : keepColor = true ∧ l.PresentOff
  · rw [if_pos hon]
    split_ifs with hoff
    · exact ⟨by simp [colorStays, colorNow], .inl (by simp [colorStays, colorNow])⟩
    · exact ⟨by simp [colorNow], .inl (by simp [colorNow])⟩
  · rw [if_neg hon]
    split_ifs with hoff
    · exact ⟨by simp [colorStays], .inr ⟨by simp [colorStays], .inr (by simp [colorStays])⟩⟩
    · refine ⟨by simp, .inr ⟨by simp, .inl ?_⟩⟩
      rw [setStep_hue]
      unfold deltaOf hueDelta
      dsimp only
      rw [if_pos rfl]

theorem gLevelSetIdxWithTrans_built (hvalid : isValidTransitionStep par.transitT = true)
    (h0 : 100 * lib.getTransition100ms par.transitT ≠ 0) :
    l.Built target (100 * lib.getTransition100ms par.transitT)
      ((l.gLevelSetIdxWithTrans lib .hue ⟨target, none, par⟩ flag).trans .hue) := by
  unfold gLevelSetIdxWithTrans setTimes
  dsimp only
  rw [if_neg (getTransitionStep_ne hvalid), if_neg h0, setTrans_self]
  generalize hset : l.setTrans .hue { l.trans .hue with
    target := target
    delayMs := par.delay.setWidth 16 * 5 } = l'
  have hhue : l'.trans .hue = { l.trans .hue with
      target := target
      delayMs := par.delay.setWidth 16 * 5 } := by rw [← hset, setTrans_self]
  obtain ⟨htarget, hstart⟩ := l'.setSteps_hue (100 * lib.getTransition100ms par.transitT)
    (flag && decide (HslTrans.hue ≠ .lightness))
  unfold hueDelta at hstart
  rw [hhue] at htarget hstart
  exact ⟨htarget, rfl, rfl, hstart⟩

theorem after_hue (l : HslLight) (k : ℕ) : (l.after k).save = l.save ∧ (l.after k).trans .hue =
    (fun t => (transitionPassBy (hslGetNextLevel (l.save .hue) .hue) t).1)^[k] (l.trans .hue) := by
  induction k with
  | zero => exact ⟨rfl, rfl⟩
  | succ k ih =>
    have hnext : l.after (k + 1) = (l.after k).transitionProc :=
      Function.iterate_succ_apply' transitionProc k l
    rw [hnext, Function.iterate_succ_apply', ← ih.2, ← ih.1]
    exact ⟨ih.1 ▸ rfl, rfl⟩

/-- A target at the end of an arc, as levels. -/
theorem eq_add_of_congr {d : ℤ} {t q : BitVec 16}
    (h : (((s16ToU16 t).toNat : ℤ) - (s16ToU16 q).toNat - d) % 65536 = 0) :
    t = q + BitVec.ofInt 16 d := by
  have ht := t.isLt
  have hq := q.isLt
  have hhalf : (32768 : BitVec 16).toNat = 32768 := rfl
  unfold s16ToU16 at h
  rw [BitVec.toNat_add, BitVec.toNat_add, hhalf] at h
  refine BitVec.eq_of_toNat_eq ?_
  rw [BitVec.toNat_add, BitVec.toNat_ofInt]
  omega

/-- The steps of a command, or none, lead along the arc. -/
theorem hueDelta_leads {step : BitVec 32} {d : ℤ} (hge : 100 ≤ remain.toNat)
    (hint : remain.toInt = remain.toNat) (hd : d.natAbs ≤ 0x8000)
    (hstep : step = transitionStep d remain ∨ step = 0) :
    Leads step.toInt d (remain.toNat / lightAdjustInterval) := by
  rcases hstep with rfl | rfl
  · rcases le_total 0 d with h0 | h0
    · exact .inl (transitionStep_up hge hint h0 (by omega))
    · exact .inr (transitionStep_down hge hint h0 (by omega))
  · have hzero : wholes 32768 (0 : BitVec 32).toInt (remain.toNat / lightAdjustInterval) = 0 :=
      wholes_no_step _
    unfold Leads
    rw [hzero]
    show 0 ≤ (0 : ℤ) ∧ 0 ≤ d ∨ (0 : ℤ) ≤ 0 ∧ d ≤ 0
    omega

/-- The way of a command for the hue: the shorter arc, on which the levels only go on, up to the
target. -/
structure HueGoes (lib : TransLib) (l : HslLight) (target : BitVec 16) (par : TransitionPar)
    (flag : Bool) : Prop where
  shortest : Shortest (s16ToU16 target) (s16ToU16 (l.trans .hue).present) (l.hueDelta target)
  arc : ∃ gained : ℕ → ℤ,
    (∀ k ≤ ((l.gLevelSetIdxWithTrans lib .hue ⟨target, none, par⟩ flag).trans .hue).passes,
      (((l.gLevelSetIdxWithTrans lib .hue ⟨target, none, par⟩ flag).after k).trans .hue).present =
        (l.trans .hue).present + BitVec.ofInt 16 (gained k)) ∧
    (∀ k < ((l.gLevelSetIdxWithTrans lib .hue ⟨target, none, par⟩ flag).trans .hue).passes,
      Toward (l.hueDelta target) (gained k) (gained (k + 1)))
  arrives :
    (((l.gLevelSetIdxWithTrans lib .hue ⟨target, none, par⟩ flag).after
      ((l.gLevelSetIdxWithTrans lib .hue ⟨target, none, par⟩ flag).trans .hue).passes).trans
        .hue).present = target

/-- The transition that a command builds starts on the arc. -/
theorem Built.onArc {t : StTransition} (h : l.Built target remain t)
    (hend : target = (l.trans .hue).present + BitVec.ofInt 16 (l.hueDelta target)) :
    ∃ step a, (step = transitionStep (l.hueDelta target) remain ∨ step = 0) ∧
      OnArc (l.trans .hue).present (l.hueDelta target) remain.toNat step t a := by
  have hleft : t.remainTMs.toNat ≤ remain.toNat := h.remain ▸ le_rfl
  rcases h.start with hthere | ⟨hlevel, hstep⟩
  · exact ⟨0, l.hueDelta target, .inr rfl, hthere.trans hend, h.target.trans hend, hleft, .inl rfl⟩
  · have hnone : stepsDone remain.toNat t.remainTMs.toNat = 0 := by
      rw [h.remain]
      exact Nat.sub_self _
    refine ⟨t.step1p32768, 0, hstep, ?_, h.target.trans hend, hleft, .inr ⟨rfl, ?_, ?_⟩⟩
    · rw [hlevel]
      exact (BitVec.add_zero _).symm
    · rw [hnone, wholes_zero]
    · rw [hnone, h.carry, Nat.cast_zero, zero_mul]
      rfl

/-- **A hue goes the shorter arc** exactly if that does not lead through 0. -/
theorem hueTransition_goes_iff (hlib : lib.Lawful)
    (hvalid : isValidTransitionStep par.transitT = true)
    (hstep : getTransitionStep par.transitT ≠ 0) :
    l.HueGoes lib target par flag ↔
      Inner (s16ToU16 target) (s16ToU16 (l.trans .hue).present) := by
  constructor
  · intro h
    exact (shortest_iff _ _).mp h.shortest
  · intro hinner
    have hshort : Shortest _ _ (l.hueDelta target) := (shortest_iff _ _).mpr hinner
    have hd : (l.hueDelta target).natAbs ≤ 0x8000 :=
      (hshort.least _ (by rw [sub_self]; rfl)).trans hinner
    have hend := eq_add_of_congr hshort.congr
    have h0 := hlib.time_ne_zero hstep
    obtain ⟨hge, hint⟩ := transition_remain hlib par.transitT h0
    have hbuilt := @gLevelSetIdxWithTrans_built lib l target par flag hvalid h0
    obtain ⟨step, a, hmade, harc⟩ := hbuilt.onArc hend
    have hpos : (((l.gLevelSetIdxWithTrans lib .hue ⟨target, none, par⟩ flag).trans
        .hue).passes ≠ 0) := by
      unfold passes
      rw [hbuilt.remain]
      omega
    obtain ⟨gained, -, hlast, hlevels, hsteps⟩ := hueRun_onArc hd
      (hueDelta_leads hge hint hd hmade) _ _ a harc rfl fun hz => absurd hz hpos
    have hruns : ∀ k, (((l.gLevelSetIdxWithTrans lib .hue ⟨target, none, par⟩ flag).after
        k).trans .hue) = _ := fun k => (after_hue _ k).2
    refine ⟨hshort, ⟨gained, fun k hk => ?_, hsteps⟩, ?_⟩
    · rw [hruns]
      exact hlevels k hk
    · rw [hruns, hlevels _ le_rfl, hlast]
      exact hend.symm

end

/-- A light with hue 0. -/
def red : HslLight where
  save _ := ⟨0, 0, levelOff, 32767, true⟩
  trans _ := ⟨0, 0, 0, levelOff, 0, levelOff⟩

/-- A quarter of a turn, in a second. -/
theorem hueTransition_goes_quarter : red.HueGoes specTransLib (-16384) ⟨10, 0⟩ false :=
  (hueTransition_goes_iff specTransLib_lawful (by decide) (by decide)).mpr (by decide)

/-- The least way back through 0 is not found: no step is made. -/
theorem hueTransition_refuted :
    ¬ ∀ (lib : TransLib) (l : HslLight) (target : BitVec 16) (par : TransitionPar) (flag : Bool),
      lib.Lawful → isValidTransitionStep par.transitT = true →
        getTransitionStep par.transitT ≠ 0 → l.HueGoes lib target par flag := by
  intro h
  have hgoes := h specTransLib red 32767 ⟨10, 0⟩ false specTransLib_lawful (by decide) (by decide)
  have hinner := (shortest_iff _ _).mp hgoes.shortest
  revert hinner
  decide

end HslLight

end PirMesh

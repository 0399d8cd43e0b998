import PirMesh.Light.Transition

/-! # Light — The steps of a transition

The levels of a transition as integers: each step adds what `wholes` adds, and is brought
into the range. -/

namespace PirMesh

open Ramp

/-! ### The range -/

def checkMin (save : SwLevelSave) (ty : StTrans) : ℤ :=
  if ty = .ctlTemp then -32768 else save.min.toInt

def checkMax (save : SwLevelSave) (ty : StTrans) : ℤ :=
  if ty = .ctlTemp then 32767 else save.max.toInt

def checkRange (save : SwLevelSave) (ty : StTrans) (v : ℤ) : ℤ :=
  if v < checkMin save ty then
    if ty = .lightness ∧ v = levelOff.toInt then levelOff.toInt else checkMin save ty
  else if checkMax save ty < v then checkMax save ty
  else v

theorem toInt_bounds (v : BitVec 16) : -32768 ≤ v.toInt ∧ v.toInt ≤ 32767 :=
  ⟨v.le_toInt, Int.le_of_lt_add_one v.toInt_lt⟩

theorem levelOff_toInt : levelOff.toInt = -32768 := by decide

theorem checkMin_ge (save : SwLevelSave) (ty : StTrans) : -32768 ≤ checkMin save ty := by
  unfold checkMin
  split_ifs
  · exact le_rfl
  · exact (toInt_bounds _).1

theorem checkMax_le (save : SwLevelSave) (ty : StTrans) : checkMax save ty ≤ 32767 := by
  unfold checkMax
  split_ifs
  · exact le_rfl
  · exact (toInt_bounds _).2

theorem checkMin_le_checkMax {save : SwLevelSave} (h : save.min.toInt ≤ save.max.toInt)
    (ty : StTrans) : checkMin save ty ≤ checkMax save ty := by
  unfold checkMin checkMax
  split_ifs
  · decide
  · exact h

theorem toInt_getValWithCheckRange (save : SwLevelSave) (ty : StTrans) (v : ℤ) :
    (getValWithCheckRange v save.min save.max ty).toInt = checkRange save ty v := by
  have hmin : (if ty = .ctlTemp then (-32768 : BitVec 16) else save.min).toInt =
      checkMin save ty := by
    unfold checkMin
    split_ifs
    · rfl
    · rfl
  have hmax : (if ty = .ctlTemp then (32767 : BitVec 16) else save.max).toInt =
      checkMax save ty := by
    unfold checkMax
    split_ifs
    · rfl
    · rfl
  unfold getValWithCheckRange checkRange
  dsimp only
  rw [hmin, hmax]
  by_cases hlo : v < checkMin save ty
  · rw [if_pos hlo, if_pos hlo, apply_ite BitVec.toInt, hmin]
  · rw [if_neg hlo, if_neg hlo]
    by_cases hhi : checkMax save ty < v
    · rw [if_pos hhi, if_pos hhi, hmax]
    · rw [if_neg hhi, if_neg hhi]
      have hge := checkMin_ge save ty
      have hle := checkMax_le save ty
      exact BitVec.toInt_ofInt_eq_self (by decide) (by omega) (by omega)

/-! ### Levels -/

namespace StTransition

variable {save : SwLevelSave} {ty : StTrans} {t : StTransition}

def level (save : SwLevelSave) (ty : StTrans) (t : StTransition) (n : ℕ) : ℤ :=
  (steps save ty t n).present.toInt

/-- What `n` steps add. -/
def gained (t : StTransition) (n : ℕ) : ℤ := wholes 32768 t.step1p32768.toInt n

@[simp] theorem steps_step1p32768 (t : StTransition) (n : ℕ) :
    (steps save ty t n).step1p32768 = t.step1p32768 := by
  induction n with
  | zero => rfl
  | succ n ih => rw [steps_succ, step_step1p32768, ih]

theorem level_stays {n : ℕ} (h : level save ty t n = t.target.toInt) :
    level save ty t (n + 1) = t.target.toInt := by
  have hmet : (steps save ty t n).present = (steps save ty t n).target := by
    rw [steps_target]
    exact BitVec.toInt_inj.mp h
  have hstep : step save ty (steps save ty t n) = steps save ty t n := if_neg (not_not.mpr hmet)
  unfold level
  rw [steps_succ, hstep]
  exact h

/-- A step that is taken. -/
theorem step_of_ne {n : ℕ} (h : level save ty t n ≠ t.target.toInt) :
    steps save ty t (n + 1) = lightGetNextLevel save ty (steps save ty t n) := by
  rw [steps_succ]
  refine if_pos fun hmet => h ?_
  rw [steps_target] at hmet
  exact congrArg BitVec.toInt hmet

theorem level_carry (h0 : t.present1p32768 = 0) (n : ℕ) :
    level save ty t n = t.target.toInt ∨
      (steps save ty t n).present1p32768.toInt = (n * t.step1p32768.toInt).tmod 32768 := by
  induction n with
  | zero =>
    right
    rw [Nat.cast_zero, zero_mul, Int.zero_tmod]
    exact congrArg BitVec.toInt h0
  | succ n ih =>
    by_cases hmet : level save ty t n = t.target.toInt
    · exact .inl (level_stays hmet)
    · right
      have hcarry := ih.resolve_left hmet
      have hlt := Int.tmod_lt_of_pos (t.step1p32768.toInt + (n * t.step1p32768.toInt).tmod 32768)
        (show (0 : ℤ) < 32768 by decide)
      have hgt := Int.lt_tmod_of_pos (t.step1p32768.toInt + (n * t.step1p32768.toInt).tmod 32768)
        (show (0 : ℤ) < 32768 by decide)
      rw [step_of_ne hmet]
      unfold lightGetNextLevel
      dsimp only
      rw [hcarry, steps_step1p32768, BitVec.toInt_ofInt_eq_self (by decide) hgt.le hlt]
      exact (carry (by decide) _ n).2

/-- **A step** adds what it gains, and is brought into the range. -/
theorem level_succ (h0 : t.present1p32768 = 0) {n : ℕ}
    (h : level save ty t n ≠ t.target.toInt) :
    level save ty t (n + 1) =
      checkRange save ty (level save ty t n + (gained t (n + 1) - gained t n)) := by
  have hcarry := (level_carry h0 n).resolve_left h
  have hgain := (@carry 32768 (by decide) t.step1p32768.toInt n).1
  unfold level at h ⊢
  rw [step_of_ne h]
  unfold lightGetNextLevel
  dsimp only
  rw [toInt_getValWithCheckRange, hcarry, steps_step1p32768, hgain]
  rfl

/-! ### Up and down -/

theorem gained_le_succ (hS : 0 ≤ t.step1p32768.toInt) (n : ℕ) :
    0 ≤ gained t n ∧ gained t n ≤ gained t (n + 1) := by
  have hmono := @wholes_mono 32768 _ (by decide) hS
  exact ⟨@wholes_zero 32768 _ ▸ hmono (Nat.zero_le n), hmono n.le_succ⟩

theorem gained_succ_le (hS : t.step1p32768.toInt ≤ 0) (n : ℕ) :
    gained t n ≤ 0 ∧ gained t (n + 1) ≤ gained t n := by
  have hanti := @wholes_anti 32768 _ (by decide) hS
  exact ⟨@wholes_zero 32768 _ ▸ hanti (Nat.zero_le n), hanti n.le_succ⟩

theorem gained_zero (t : StTransition) : gained t 0 = 0 := wholes_zero

/-- To a target above, the levels rise up to it. -/
theorem stepsToward_iff_rises (h : t.present.toInt ≤ t.target.toInt) :
    t.StepsToward save ty ↔ ∀ n < t.remainTMs.toNat / lightAdjustInterval,
      level save ty t n ≤ level save ty t (n + 1) ∧ level save ty t (n + 1) ≤ t.target.toInt := by
  constructor
  · intro hway
    have hle : ∀ n ≤ t.remainTMs.toNat / lightAdjustInterval,
        level save ty t n ≤ t.target.toInt := by
      intro n
      induction n with
      | zero => exact fun _ => h
      | succ n ih =>
        intro hn
        have hn' := ih (Nat.le_of_succ_le hn)
        rcases hway n hn with ⟨-, hup⟩ | ⟨-, hdown⟩
        · exact hup
        · exact hdown.trans hn'
    intro n hn
    have hn' := hle n hn.le
    rcases hway n hn with hup | ⟨hdown, hdown'⟩
    · exact hup
    · refine ⟨?_, hle (n + 1) hn⟩
      unfold level at hn' ⊢
      omega
  · exact fun hup n hn => .inl (hup n hn)

/-- From a level in the range, the steps go up to the target. -/
theorem rises_of_inside (h0 : t.present1p32768 = 0) (hS : 0 ≤ t.step1p32768.toInt)
    (hlo : checkMin save ty ≤ t.present.toInt) (hhi : t.present.toInt ≤ checkMax save ty)
    (hup : t.present.toInt ≤ t.target.toInt) {N : ℕ}
    (hend : t.present.toInt + gained t N ≤ t.target.toInt ∨ checkMax save ty ≤ t.target.toInt) :
    ∀ n < N,
      level save ty t n ≤ level save ty t (n + 1) ∧ level save ty t (n + 1) ≤ t.target.toInt := by
  have hpath : Stops (level save ty t)
      (fun n => min (checkMax save ty) (t.present.toInt + gained t n)) t.target.toInt := by
    refine ⟨?_, fun n => level_stays, fun n hn hne => ?_⟩
    · rw [gained_zero, add_zero, min_eq_right hhi]
      rfl
    · obtain ⟨hpos, hle⟩ := gained_le_succ hS n
      rw [level_succ h0 hne, hn]
      unfold checkRange
      split_ifs
      all_goals omega
  have hmono : Monotone fun n => min (checkMax save ty) (t.present.toInt + gained t n) := by
    refine monotone_nat_of_le_succ fun n => ?_
    have hle := (gained_le_succ hS n).2
    omega
  refine (hpath.rises_iff hmono ?_ N).mpr (.inl ?_)
  · rw [gained_zero, add_zero, min_eq_right hhi]
    exact hup
  · omega

/-- What holds of a level that goes down: off, below the range, is only ever the target. -/
structure Falling (save : SwLevelSave) (ty : StTrans) (t : StTransition) (n : ℕ) : Prop where
  above : t.target.toInt ≤ level save ty t n
  below : level save ty t n ≤ checkMax save ty
  inside : level save ty t n = t.target.toInt ∨ checkMin save ty ≤ level save ty t n
  least : t.target = levelOff ∨ t.present.toInt + gained t n ≤ level save ty t n

theorem Falling.succ (h0 : t.present1p32768 = 0) (hS : t.step1p32768.toInt ≤ 0) {n : ℕ}
    (hend : t.target.toInt ≤ t.present.toInt + gained t (n + 1) ∨ t.target = levelOff)
    (h : Falling save ty t n) :
    Falling save ty t (n + 1) ∧ level save ty t (n + 1) ≤ level save ty t n := by
  by_cases hmet : level save ty t n = t.target.toInt
  · have hnext := level_stays hmet
    refine ⟨⟨hnext.ge, ?_, .inl hnext, ?_⟩, (hnext.trans hmet.symm).le⟩
    · rw [hnext, ← hmet]
      exact h.below
    · refine h.least.imp_right fun hl => ?_
      rw [hnext, ← hmet]
      exact (add_le_add_right (gained_succ_le hS n).2 _).trans hl
  · have hnext := level_succ h0 hmet
    have hdown := (gained_succ_le hS n).2
    have hlo := h.inside.resolve_left hmet
    have hoff : -32768 ≤ t.target.toInt := (toInt_bounds _).1
    have hmin := checkMin_ge save ty
    have hbelow := h.below
    have hleast : t.target = levelOff ∨ t.present.toInt + gained t (n + 1) ≤
        level save ty t n + (gained t (n + 1) - gained t n) :=
      h.least.imp_right fun hl => by omega
    have hpast : t.target.toInt = -32768 ∨
        t.target.toInt ≤ level save ty t n + (gained t (n + 1) - gained t n) := by
      rcases hleast with htarget | hl
      · exact .inl ((congrArg BitVec.toInt htarget).trans levelOff_toInt)
      · refine (hend.imp_left fun he => he.trans hl).symm.imp_left fun htarget => ?_
        exact (congrArg BitVec.toInt htarget).trans levelOff_toInt
    unfold checkRange at hnext
    rw [levelOff_toInt] at hnext
    split_ifs at hnext with hlow hlight hhigh
    -- off, the end of the range, no more than before, or the step
    · exact ⟨⟨by omega, by omega, by omega, hleast.imp_right fun hl => by omega⟩, by omega⟩
    · exact ⟨⟨by omega, by omega, by omega, hleast.imp_right fun hl => by omega⟩, by omega⟩
    · omega
    · exact ⟨⟨by omega, by omega, by omega, hleast.imp_right fun hl => by omega⟩, by omega⟩

/-- From a level in the range, the steps go down to the target. -/
theorem falls_of_inside (h0 : t.present1p32768 = 0) (hS : t.step1p32768.toInt ≤ 0)
    (hlo : checkMin save ty ≤ t.present.toInt) (hhi : t.present.toInt ≤ checkMax save ty)
    (hdown : t.target.toInt ≤ t.present.toInt) {N : ℕ}
    (hend : t.target.toInt ≤ t.present.toInt + gained t N ∨ t.target = levelOff) :
    ∀ n < N,
      t.target.toInt ≤ level save ty t (n + 1) ∧ level save ty t (n + 1) ≤ level save ty t n := by
  have hmore : ∀ n ≤ N,
      t.target.toInt ≤ t.present.toInt + gained t n ∨ t.target = levelOff := fun n hn =>
    hend.imp_left fun h =>
      h.trans (add_le_add_right (wholes_anti (by decide) hS hn) _)
  have hfall : ∀ n ≤ N, Falling save ty t n := by
    intro n
    induction n with
    | zero =>
      refine fun _ => ⟨hdown, hhi, .inr hlo, .inr ?_⟩
      rw [gained_zero, add_zero]
      rfl
    | succ n ih => exact fun hn => ((ih (Nat.le_of_succ_le hn)).succ h0 hS (hmore _ hn)).1
  intro n hn
  exact ⟨(hfall _ hn).above, ((hfall n hn.le).succ h0 hS (hmore _ hn)).2⟩

/-! ### From the off level below the range -/

/-- The step that leaves the off level: a lightness stays off until a whole level. -/
def LeavesOffAt (ty : StTrans) (gain : ℕ → ℤ) (j : ℕ) : Prop :=
  if ty = .lightness then gain (j - 1) = 0 ∧ 0 < gain j else j = 1

instance (ty : StTrans) (gain : ℕ → ℤ) (j : ℕ) : Decidable (LeavesOffAt ty gain j) :=
  inferInstanceAs (Decidable (if ty = .lightness then _ else _))

/-- The steps from off do not pass the target: the first one is in the range by itself, or
the others, from the least level of the range, do not, or one of them meets it. -/
def ClearsOff (save : SwLevelSave) (ty : StTrans) (target : ℤ) (gain : ℕ → ℤ) (N : ℕ) : Prop :=
  ∀ j ≤ N, LeavesOffAt ty gain j →
    checkMin save ty ≤ levelOff.toInt + gain j ∨ checkMax save ty ≤ target ∨
      checkMin save ty + (gain N - gain j) ≤ target ∨
      ∃ n ≤ N, j ≤ n ∧ checkMin save ty + (gain n - gain j) = target

section

variable (h0 : t.present1p32768 = 0) (hS : 0 ≤ t.step1p32768.toInt)
  (hrange : checkMin save ty ≤ checkMax save ty) (hlow : t.present = levelOff)
  (hout : levelOff.toInt < checkMin save ty)

/-- The levels, when step `j` leaves off. -/
def offPath (save : SwLevelSave) (ty : StTrans) (gain : ℕ → ℤ) (j n : ℕ) : ℤ :=
  if n < j then levelOff.toInt
  else min (checkMax save ty)
    (max (checkMin save ty) (levelOff.toInt + gain j) + (gain n - gain j))

theorem offPath_before {gain : ℕ → ℤ} {j n : ℕ} (h : n < j) :
    offPath save ty gain j n = levelOff.toInt := if_pos h

theorem offPath_from {gain : ℕ → ℤ} {j n : ℕ} (h : j ≤ n) : offPath save ty gain j n =
    min (checkMax save ty)
      (max (checkMin save ty) (levelOff.toInt + gain j) + (gain n - gain j)) :=
  if_neg h.not_gt

/-- Before it, nothing is gained. -/
theorem LeavesOffAt.before {j : ℕ} (h : LeavesOffAt ty (gained t) j) :
    0 < j ∧ (ty = .lightness → 0 < gained t j) ∧ gained t (j - 1) = 0 ∧
      (ty ≠ .lightness → j = 1) := by
  unfold LeavesOffAt at h
  by_cases hty : ty = .lightness
  · rw [if_pos hty] at h
    refine ⟨Nat.pos_of_ne_zero ?_, fun _ => h.2, h.1, fun hne => absurd hty hne⟩
    rintro rfl
    exact absurd h.2 (gained_zero t).not_gt
  · rw [if_neg hty] at h
    subst h
    exact ⟨Nat.one_pos, fun hl => absurd hl hty, gained_zero t, fun _ => rfl⟩

include hS in
theorem LeavesOffAt.gained_eq_zero {j n : ℕ} (h : LeavesOffAt ty (gained t) j) (hn : n < j) :
    gained t n = 0 := by
  have hle : gained t n ≤ gained t (j - 1) :=
    wholes_mono (by decide) hS (Nat.le_sub_one_of_lt hn)
  exact le_antisymm (hle.trans h.before.2.2.1.le) (gained_le_succ hS n).1

include h0 hS hrange hlow hout in
theorem stops_offPath {j : ℕ} (hj : LeavesOffAt ty (gained t) j) :
    Stops (level save ty t) (offPath save ty (gained t) j) t.target.toInt := by
  obtain ⟨hpos, hlight, -, hone⟩ := hj.before
  refine ⟨?_, fun n => level_stays, fun n hn hne => ?_⟩
  · rw [offPath_before hpos, ← hlow]
    rfl
  · have hnext := level_succ h0 hne
    have hle := gained_le_succ hS n
    have hmin := checkMin_ge save ty
    rw [levelOff_toInt] at hout
    rw [hn] at hnext
    rw [hnext]
    unfold checkRange
    rcases lt_trichotomy (n + 1) j with hbefore | hat | hafter
    · -- still off
      have hty : ty = .lightness := by
        by_contra hty
        have := hone hty
        omega
      rw [offPath_before (Nat.lt_of_succ_lt hbefore), offPath_before hbefore,
        hj.gained_eq_zero hS (Nat.lt_of_succ_lt hbefore), hj.gained_eq_zero hS hbefore,
        sub_zero, add_zero, levelOff_toInt, if_pos hout, if_pos ⟨hty, rfl⟩]
    · -- the step into the range
      subst hat
      rw [offPath_before n.lt_succ_self, offPath_from le_rfl,
        hj.gained_eq_zero hS n.lt_succ_self, sub_zero, sub_self, add_zero, levelOff_toInt]
      split_ifs with h1 h2 h3
      · have := hlight h2.1
        omega
      · omega
      · omega
      · omega
    · -- a step in the range
      have hmono : gained t j ≤ gained t n :=
        wholes_mono (by decide) hS (Nat.le_of_lt_succ hafter)
      rw [offPath_from (Nat.le_of_lt_succ hafter), offPath_from hafter.le, levelOff_toInt]
      split_ifs
      all_goals omega

include hS hrange in
theorem offPath_mono {j : ℕ} : Monotone (offPath save ty (gained t) j) := by
  refine monotone_nat_of_le_succ fun n => ?_
  have hle := (gained_le_succ hS n).2
  have hmin := checkMin_ge save ty
  rcases Nat.lt_or_ge n j with hn | hn
  · rw [offPath_before hn, levelOff_toInt]
    rcases Nat.lt_or_ge (n + 1) j with hn' | hn'
    · rw [offPath_before hn', levelOff_toInt]
    · have hmono : gained t j ≤ gained t (n + 1) := wholes_mono (by decide) hS hn'
      rw [offPath_from hn', levelOff_toInt]
      omega
  · have hn' : j ≤ n + 1 := hn.trans n.le_succ
    rw [offPath_from hn, offPath_from hn']
    omega

include h0 hS hlow hout in
/-- Without such a step the light stays off. -/
theorem level_of_not_leaves {N : ℕ}
    (hnone : ∀ j ≤ N, ¬ LeavesOffAt ty (gained t) j) :
    ∀ n ≤ N, level save ty t n = levelOff.toInt ∧ gained t n = 0 := by
  intro n
  induction n with
  | zero => exact fun _ => ⟨congrArg BitVec.toInt hlow, gained_zero t⟩
  | succ n ih =>
    intro hn
    obtain ⟨hlevel, hzero⟩ := ih (Nat.le_of_succ_le hn)
    have hty : ty = .lightness := by
      by_contra hty
      exact hnone 1 (n.succ_pos.trans_le hn) (if_neg hty |>.mpr rfl)
    have hzero' : gained t (n + 1) = 0 := by
      refine le_antisymm (not_lt.mp fun hpos => ?_) (gained_le_succ hS (n + 1)).1
      exact hnone (n + 1) hn ((if_pos hty).mpr ⟨hzero, hpos⟩)
    refine ⟨?_, hzero'⟩
    by_cases hmet : level save ty t n = t.target.toInt
    · exact (level_stays hmet).trans (hmet.symm.trans hlevel)
    · rw [level_succ h0 hmet, hlevel, hzero, hzero', sub_zero, add_zero]
      exact (if_pos hout).trans (if_pos ⟨hty, rfl⟩)

/-- Where the path ends, when step `j` leaves off. -/
theorem offPath_reaches_iff {j N : ℕ} (hN : j ≤ N)
    (hlt : levelOff.toInt < t.target.toInt)
    (hend : levelOff.toInt + gained t N ≤ t.target.toInt ∨ checkMax save ty ≤ t.target.toInt) :
    (offPath save ty (gained t) j N ≤ t.target.toInt ∨
        ∃ n ≤ N, offPath save ty (gained t) j n = t.target.toInt) ↔
      checkMin save ty ≤ levelOff.toInt + gained t j ∨ checkMax save ty ≤ t.target.toInt ∨
        checkMin save ty + (gained t N - gained t j) ≤ t.target.toInt ∨
        ∃ n ≤ N, j ≤ n ∧ checkMin save ty + (gained t n - gained t j) = t.target.toInt := by
  rw [offPath_from hN]
  constructor
  · rintro (hle | ⟨n, hn, hmeets⟩)
    · omega
    · rcases Nat.lt_or_ge n j with hnj | hnj
      · rw [offPath_before hnj] at hmeets
        exact absurd hmeets hlt.ne
      · rw [offPath_from hnj] at hmeets
        by_cases hmax : checkMax save ty ≤ t.target.toInt
        · exact .inr (.inl hmax)
        · by_cases hin : checkMin save ty ≤ levelOff.toInt + gained t j
          · exact .inl hin
          · exact .inr (.inr (.inr ⟨n, hn, hnj, by omega⟩))
  · rintro (hin | hmax | hle | ⟨n, hn, hnj, hmeets⟩)
    · exact .inl (by omega)
    · exact .inl (by omega)
    · by_cases hin : checkMin save ty ≤ levelOff.toInt + gained t j
      · exact .inl (by omega)
      · exact .inl (by omega)
    · by_cases hmax : checkMax save ty ≤ t.target.toInt
      · exact .inl (by omega)
      · by_cases hin : checkMin save ty ≤ levelOff.toInt + gained t j
        · exact .inl (by omega)
        · refine .inr ⟨n, hn, ?_⟩
          rw [offPath_from hnj]
          omega

include h0 hS hrange hlow hout in
/-- **From off**, the steps go up to the target exactly when they clear it. -/
theorem rises_of_off_iff {N : ℕ} (hlt : levelOff.toInt < t.target.toInt)
    (hend : levelOff.toInt + gained t N ≤ t.target.toInt ∨ checkMax save ty ≤ t.target.toInt) :
    (∀ n < N, level save ty t n ≤ level save ty t (n + 1) ∧
      level save ty t (n + 1) ≤ t.target.toInt) ↔
      ClearsOff save ty t.target.toInt (gained t) N := by
  have hone : ∀ j ≤ N, LeavesOffAt ty (gained t) j → _ := fun j hN hj =>
    ((stops_offPath h0 hS hrange hlow hout hj).rises_iff (offPath_mono hS hrange)
      ((offPath_before hj.before.1).trans_le hlt.le) N).trans
      (offPath_reaches_iff hN hlt hend)
  constructor
  · exact fun hup j hN hj => (hone j hN hj).mp hup
  · intro hclear
    by_cases hex : ∃ j ≤ N, LeavesOffAt ty (gained t) j
    · obtain ⟨j, hN, hj⟩ := hex
      exact (hone j hN hj).mpr (hclear j hN hj)
    · have hoff := level_of_not_leaves h0 hS hlow hout fun j hN hj => hex ⟨j, hN, hj⟩
      intro n hn
      rw [(hoff n hn.le).1, (hoff (n + 1) hn).1]
      exact ⟨le_rfl, hlt.le⟩

end

end StTransition

end PirMesh

import PirMesh.Library.Proportion
import PirMesh.Light.DeltaSet
import PirMesh.Light.TransitionSpec

/-! # Light — Move commands

A move goes from the present level to the limit in its direction, `delta` in every `T` ms.
The time for that is put together from 32 bits without a sign, so it is right for moves up
only, when it fits, and when its second formula does not round away too much: `MoveFits`.

The delta is brought into the range of the levels first.  `moveSet_iff` is about those that
are in it. -/

namespace PirMesh

open Proportion

/-! ### The time of a move -/

/-- The time for `d`, when `s` takes `t`, as it is rounded. -/
def moveTimeMs (t s d : ℕ) : ℕ :=
  t * (d / s) + if 65536 ≤ t then coarse 100 t s (d % s) else t * (d % s) / s

/-- What the second formula rounds away is less than two. -/
def MoveRounds (t s d : ℕ) : Prop :=
  100 * t / s * (d % s) % 100 * s + 100 * t % s * (d % s) < 2 * 100 * s

section

variable {t s d : ℕ}

theorem rest_le (t d : ℕ) (hs : 0 < s) : t * (d % s) / s ≤ t := by
  refine Nat.div_le_of_le_mul ?_
  rw [Nat.mul_comm s]
  exact Nat.mul_le_mul_left t (Nat.mod_lt d hs).le

theorem moveTimeMs_le (hs : 0 < s) : moveTimeMs t s d ≤ d * t / s := by
  rw [proportion_split d t hs, moveTimeMs]
  refine Nat.add_le_add_left ?_ _
  split_ifs
  · exact coarse_le t (d % s) (by decide) hs
  · exact le_rfl

/-- The time is right to a millisecond. -/
theorem moveTimeMs_iff (hs : 0 < s) :
    d * t / s ≤ moveTimeMs t s d + 1 ↔ 65536 ≤ t → MoveRounds t s d := by
  rw [proportion_split d t hs, moveTimeMs, Nat.add_assoc, Nat.add_le_add_iff_left]
  by_cases hlong : 65536 ≤ t
  · rw [if_pos hlong, le_coarse_add_one_iff t (d % s) (by decide) hs]
    exact ⟨fun h _ => h, fun h => h hlong⟩
  · rw [if_neg hlong]
    exact iff_of_true (Nat.le_succ _) fun h => absurd h hlong

/-- A time that 32 bits hold. -/
theorem moveTimeMs_up_iff (hs : 0 < s) (ht : t < 2 ^ 31) :
    t * (d / s) < 2 ^ 32 ∧ d * t / s ≤ moveTimeMs t s d % 2 ^ 32 + 1 ∧
        moveTimeMs t s d % 2 ^ 32 ≤ d * t / s + 1 ↔
      moveTimeMs t s d < 2 ^ 32 ∧ (65536 ≤ t → MoveRounds t s d) := by
  have hle := moveTimeMs_le (t := t) (d := d) hs
  have hrest := rest_le t d hs
  have hsplit := proportion_split d t hs
  have hwhole : t * (d / s) ≤ moveTimeMs t s d := Nat.le_add_right _ _
  constructor
  · rintro ⟨hprod, hlow, hhigh⟩
    have hfits : moveTimeMs t s d < 2 ^ 32 := by
      by_contra hover
      have hmod : moveTimeMs t s d % 2 ^ 32 = moveTimeMs t s d - 2 ^ 32 := by omega
      omega
    rw [Nat.mod_eq_of_lt hfits] at hlow
    exact ⟨hfits, (moveTimeMs_iff hs).mp hlow⟩
  · rintro ⟨hfits, hrounds⟩
    rw [Nat.mod_eq_of_lt hfits]
    exact ⟨hwhole.trans_lt hfits, (moveTimeMs_iff hs).mpr hrounds, hle.trans (Nat.le_succ _)⟩

/-- The difference of a way down is the one of a way nearly around. -/
theorem moveTimeMs_down (hs : 0 < s) (hs' : s ≤ 32768) (hd : 0 < d) (hd' : d ≤ 65535)
    (ht : 100 ≤ t) (hprod : t * ((2 ^ 32 - d) / s) < 2 ^ 32) :
    ¬ moveTimeMs t s (2 ^ 32 - d) % 2 ^ 32 ≤ d * t / s + 1 := by
  obtain ⟨a, ha⟩ : ∃ a, a = 2 ^ 32 - d := ⟨_, rfl⟩
  rw [← ha] at hprod ⊢
  have hmod := Nat.mod_lt a hs
  have hdiv := Nat.mod_add_div a s
  have hquot : 131070 ≤ a / s := by
    rw [Nat.le_div_iff_mul_le hs]
    omega
  have hts : t ≤ s := by
    by_contra hlt
    have hmul : (s + 1) * (a / s) ≤ t * (a / s) := Nat.mul_le_mul_right _ (not_le.mp hlt)
    rw [Nat.succ_mul] at hmul
    omega
  have hshort : ¬ 65536 ≤ t := by omega
  have htime : moveTimeMs t s a = a * t / s := by
    rw [moveTimeMs, if_neg hshort, proportion_split a t hs]
  have hfits : a * t / s ≤ a := Nat.div_le_of_le_mul (by
    rw [Nat.mul_comm s]
    exact Nat.mul_le_mul_left a hts)
  -- the way around is longer by far more than two times `s`
  have hfar : d * t / s + 2 * t ≤ a * t / s := by
    rw [← Nat.add_mul_div_right _ _ hs]
    refine Nat.div_le_div_right ?_
    have hmul : (d + 2 * s) * t ≤ a * t := Nat.mul_le_mul_right t (by omega)
    have heq : (d + 2 * s) * t = d * t + 2 * t * s := by ring
    omega
  rw [htime, Nat.mod_eq_of_lt (by omega)]
  omega

end

/-! ### What the code computes -/

/-- The difference of the levels, as the code has it. -/
def moveDelta (target present : BitVec 16) : ℕ :=
  (target.signExtend 32 - present.signExtend 32).toNat

/-- The products of the time, of operands of 32 bits. -/
def moveProducts (levelMove target present : BitVec 16) (remain : BitVec 32) : List ℕ :=
  let absStep := levelMove.toInt.natAbs
  let mod := moveDelta target present % absStep
  (if 65536 ≤ remain.toNat then [remain.toNat * 100, remain.toNat * 100 / absStep * mod]
    else [remain.toNat * mod]) ++ [remain.toNat * (moveDelta target present / absStep)]

/-- The products of the step. -/
def moveStepProducts (levelMove : BitVec 16) (remain : BitVec 32) : List ℤ :=
  [levelMove.toInt * 32768, (levelMove.toInt * 32768).tdiv remain.toInt * lightAdjustInterval]

section

variable {levelMove target present : BitVec 16} {remain : BitVec 32}

theorem natAbs_pos_of_ne (h : levelMove ≠ 0) :
    0 < levelMove.toInt.natAbs ∧ levelMove.toInt.natAbs ≤ 32768 := by
  have hbounds := toInt_bounds levelMove
  have hne : levelMove.toInt ≠ 0 := fun h0 => h (BitVec.toInt_inj.mp h0)
  omega

/-- The first products of the time fit. -/
theorem moveProducts_iff (h : levelMove ≠ 0) (ht : remain.toNat ≤ 100 * (0x3f * 6000)) :
    (∀ x ∈ moveProducts levelMove target present remain, x < 2 ^ 32) ↔
      remain.toNat * (moveDelta target present / levelMove.toInt.natAbs) < 2 ^ 32 := by
  obtain ⟨hpos, hle⟩ := natAbs_pos_of_ne h
  have hmod := Nat.mod_lt (moveDelta target present) hpos
  have hlong : remain.toNat * 100 / levelMove.toInt.natAbs *
      (moveDelta target present % levelMove.toInt.natAbs) ≤ remain.toNat * 100 :=
    (Nat.mul_le_mul_left _ hmod.le).trans (Nat.div_mul_le_self _ _)
  have hshort : remain.toNat * (moveDelta target present % levelMove.toInt.natAbs) ≤
      remain.toNat * 32768 := Nat.mul_le_mul_left _ (by omega)
  unfold moveProducts
  dsimp only
  rw [List.forall_mem_append, List.forall_mem_singleton]
  refine and_iff_right fun x hx => ?_
  split_ifs at hx with h65536
  · rcases List.mem_cons.mp hx with rfl | hx
    · omega
    · obtain rfl := List.mem_singleton.mp hx
      omega
  · obtain rfl := List.mem_singleton.mp hx
    omega

theorem moveRemainTMs_toNat (h : levelMove ≠ 0) (ht : remain.toNat ≤ 100 * (0x3f * 6000)) :
    (moveRemainTMs levelMove target present remain).toNat =
      moveTimeMs remain.toNat levelMove.toInt.natAbs (moveDelta target present) % 2 ^ 32 := by
  obtain ⟨hpos, hle⟩ := natAbs_pos_of_ne h
  obtain ⟨s, hs⟩ : ∃ s, s = levelMove.toInt.natAbs := ⟨_, rfl⟩
  rw [← hs] at hpos hle ⊢
  have habs : (BitVec.ofNat 32 s).toNat = s := Nat.mod_eq_of_lt (by omega)
  have hmod := Nat.mod_lt (moveDelta target present) hpos
  have hlong : remain.toNat * 100 / s * (moveDelta target present % s) ≤ remain.toNat * 100 :=
    (Nat.mul_le_mul_left _ hmod.le).trans (Nat.div_mul_le_self _ _)
  have hshort : ¬ 65536 ≤ remain.toNat →
      remain.toNat * (moveDelta target present % s) < 2 ^ 32 := fun hlt => by
    have hmul : remain.toNat * (moveDelta target present % s) ≤ 65536 * 32768 :=
      Nat.mul_le_mul (by omega) (by omega)
    omega
  have hhundred : (remain * 100).toNat = remain.toNat * 100 := by
    rw [BitVec.toNat_mul]
    exact Nat.mod_eq_of_lt (by
      show remain.toNat * 100 < 2 ^ 32
      omega)
  have hdelta : (target.signExtend 32 - present.signExtend 32).toNat = moveDelta target present :=
    rfl
  have hmodulo : ((target.signExtend 32 - present.signExtend 32) % BitVec.ofNat 32 s).toNat =
      moveDelta target present % s := by
    rw [BitVec.toNat_umod, habs, hdelta]
  have hval : (if 65536 ≤ remain then remain * 100 / BitVec.ofNat 32 s *
        ((target.signExtend 32 - present.signExtend 32) % BitVec.ofNat 32 s) / 100
      else remain * ((target.signExtend 32 - present.signExtend 32) % BitVec.ofNat 32 s) /
        BitVec.ofNat 32 s).toNat =
      if 65536 ≤ remain.toNat then coarse 100 remain.toNat s (moveDelta target present % s)
      else remain.toNat * (moveDelta target present % s) / s := by
    by_cases h65536 : 65536 ≤ remain.toNat
    · have hge : (65536 : BitVec 32) ≤ remain := h65536
      rw [if_pos hge, if_pos h65536, BitVec.toNat_udiv, BitVec.toNat_mul, BitVec.toNat_udiv,
        hhundred, habs, hmodulo, Nat.mod_eq_of_lt (by omega), coarse, Nat.mul_comm 100]
      rfl
    · have hlt : ¬ (65536 : BitVec 32) ≤ remain := h65536
      rw [if_neg hlt, if_neg h65536, BitVec.toNat_udiv, BitVec.toNat_mul, hmodulo, habs,
        Nat.mod_eq_of_lt (hshort h65536)]
  unfold moveRemainTMs
  dsimp only
  rw [← hs, BitVec.toNat_add, hval, BitVec.toNat_mul, BitVec.toNat_udiv, habs, hdelta, moveTimeMs,
    Nat.mod_add_mod]

end

/-! ### Moves -/

/-- The limit in the direction of a delta, and the way to it. -/
def moveLimit (delta : BitVec 16) : BitVec 16 := getTargetLevelForMoveSet (delta.signExtend 32)

def moveWay (delta present : BitVec 16) : ℕ := ((moveLimit delta).toInt - present.toInt).natAbs

/-- The time of a transition in ms. -/
def transitionMs (lib : TransLib) (par : TransitionPar) : BitVec 32 :=
  100 * lib.getTransition100ms par.transitT

/-- The level as it is passed on. -/
def moveInRange (l : Light) (ty : StTrans) (delta : BitVec 16) : BitVec 16 :=
  getValWithCheckRange delta.toInt (l.save ty).min (l.save ty).max ty

/-- The transition of a move by `delta` every `T` ms, from `l` to `l'`: every 20 ms a step in its
direction, to a part of 32768 in a millisecond; the time to the limit, to a millisecond; and the
limit at the end. -/
structure MovesToLimit (lib : TransLib) (l l' : Light) (ty : StTrans) (delta : BitVec 16)
    (par : TransitionPar) : Prop where
  sign : 0 < (l'.trans ty).step1p32768.toInt * delta.toInt
  speed : ((l'.trans ty).step1p32768.toInt * (transitionMs lib par).toNat -
    lightAdjustInterval * (delta.toInt * 32768)).natAbs <
      lightAdjustInterval * (transitionMs lib par).toNat
  time : moveWay delta (l.trans ty).present * (transitionMs lib par).toNat / delta.toInt.natAbs ≤
      (l'.trans ty).remainTMs.toNat + 1 ∧
    (l'.trans ty).remainTMs.toNat ≤
      moveWay delta (l.trans ty).present * (transitionMs lib par).toNat / delta.toInt.natAbs + 1
  products : (∀ x ∈ moveProducts (moveInRange l ty delta) (moveLimit (moveInRange l ty delta))
      (l.trans ty).present (transitionMs lib par), x < 2 ^ 32) ∧
    ∀ x ∈ moveStepProducts (moveInRange l ty delta) (transitionMs lib par), FitsS32 x
  reaches : ((l'.after (l'.trans ty).passes).trans ty).present = moveLimit delta

/-- A move up that is not too slow for a step, with a time that 32 bits hold, that its formula does
not round away, and that is not zero without a delay. -/
structure MoveFits (lib : TransLib) (delta present : BitVec 16) (par : TransitionPar) : Prop where
  up : 0 < delta.toInt
  steps : (transitionMs lib par).toNat ≤ delta.toInt.natAbs * 32768
  fits : moveTimeMs (transitionMs lib par).toNat delta.toInt.natAbs (moveWay delta present) < 2 ^ 32
  rounds : 65536 ≤ (transitionMs lib par).toNat →
    MoveRounds (transitionMs lib par).toNat delta.toInt.natAbs (moveWay delta present)
  ends : moveTimeMs (transitionMs lib par).toNat delta.toInt.natAbs (moveWay delta present) ≠ 0 ∨
    par.delay ≠ 0

section

variable {lib : TransLib} {l : Light} {ty : StTrans} {delta present : BitVec 16}
  {p : Option TransitionPar} {par : TransitionPar} {deltaLast : BitVec 32}

theorem moveDelta_toNat (target present : BitVec 16) :
    target.toInt - present.toInt = moveDelta target present ∨
      target.toInt - present.toInt = moveDelta target present - 2 ^ 32 := by
  have htarget := toInt_bounds target
  have hpresent := toInt_bounds present
  have hsub : (target.signExtend 32 - present.signExtend 32).toInt =
      target.toInt - present.toInt := by
    rw [BitVec.toInt_sub, BitVec.toInt_signExtend_of_le (by decide),
      BitVec.toInt_signExtend_of_le (by decide)]
    exact Int.bmod_eq_of_le (by omega) (by omega)
  rcases toInt_eq_toNat_cases (target.signExtend 32 - present.signExtend 32) with ⟨h, -⟩ | ⟨h, -⟩
  · exact .inl (hsub.symm.trans h)
  · exact .inr (hsub.symm.trans h)

theorem moveLimit_up (h : 0 < delta.toInt) : moveLimit delta = 32767 := by
  unfold moveLimit getTargetLevelForMoveSet
  rw [BitVec.toInt_signExtend_of_le (by decide)]
  exact if_pos h.le

theorem moveLimit_down (h : delta.toInt < 0) : moveLimit delta = -32768 := by
  unfold moveLimit getTargetLevelForMoveSet
  rw [BitVec.toInt_signExtend_of_le (by decide)]
  exact if_neg (not_le.mpr h)

/-- The way up is as it is, the way down is around. -/
theorem moveDelta_limit (h : delta ≠ 0) (hpresent : present ≠ moveLimit delta) :
    0 < moveWay delta present ∧ moveWay delta present ≤ 65535 ∧
      moveDelta (moveLimit delta) present =
        if 0 < delta.toInt then moveWay delta present else 2 ^ 32 - moveWay delta present := by
  have hbounds := toInt_bounds present
  have hlimit := toInt_bounds (moveLimit delta)
  have hne : present.toInt ≠ (moveLimit delta).toInt := mt BitVec.toInt_inj.mp hpresent
  have hdelta : delta.toInt ≠ 0 := fun h0 => h (BitVec.toInt_inj.mp h0)
  have hcases := moveDelta_toNat (moveLimit delta) present
  have hlt : moveDelta (moveLimit delta) present < 2 ^ 32 := BitVec.isLt _
  unfold moveWay
  refine ⟨by omega, by omega, ?_⟩
  by_cases hup : 0 < delta.toInt
  · have htop : (moveLimit delta).toInt = 32767 := congrArg BitVec.toInt (moveLimit_up hup)
    rw [if_pos hup]
    omega
  · have hbottom : (moveLimit delta).toInt = -32768 :=
      congrArg BitVec.toInt (moveLimit_down (by omega))
    rw [if_neg hup]
    omega

/-- What an accepted move leaves of the transition. -/
def MoveStarted (lib : TransLib) (l l' : Light) (ty : StTrans) (delta : BitVec 16)
    (par : TransitionPar) : Prop :=
  l'.trans ty = { l.trans ty with
    target := moveLimit delta
    delayMs := par.delay.setWidth 16 * 5
    remainTMs := moveRemainTMs delta (moveLimit delta) (l.trans ty).present (transitionMs lib par)
    step1p32768 := transitionStep delta.toInt (transitionMs lib par)
    present1p32768 := 0 }

/-- What a move in the range starts. -/
theorem gLevelMove_started (lib : TransLib) (l : Light) (ty : StTrans) (delta : BitVec 16)
    (p : Option TransitionPar) (par : TransitionPar) (deltaLast : BitVec 32)
    (hpar : gLevelTrans l ⟨.move delta, p⟩ = some par)
    (hp : ∀ t ∈ p, isValidTransitionStep t.transitT = true)
    (hvalid : isValidTransitionStep par.transitT = true) (h0 : transitionMs lib par ≠ 0)
    (hdelta : delta ≠ 0) (hpresent : (l.trans ty).present ≠ moveLimit delta)
    (hrange : moveInRange l ty delta = delta) :
    ∃ l', gLevelSetAndUpdateLast lib l ty ⟨.move delta, p⟩ deltaLast false = some l' ∧
      MoveStarted lib l l' ty delta par := by
  have hmove : ¬ gLevelInvalid ⟨.move delta, p⟩ := by
    rintro (hzero | ⟨t, ht, hinvalid⟩)
    · exact hdelta (LevelCmd.move.inj hzero)
    · exact hinvalid (hp t ht)
  have hset : Light.gLevelSet lib l ty ⟨.move delta, p⟩ deltaLast false false =
      some (l.setTrans ty (gLevelStart lib (.move delta) (moveLimit delta) (some par) false
        (l.trans ty))) := by
    unfold Light.gLevelSet
    rw [if_neg hmove, if_pos (.inl Bool.false_ne_true), hpar]
    rfl
  refine ⟨(l.setTrans ty (gLevelStart lib (.move delta) (moveLimit delta) (some par) false
    (l.trans ty))).gLevelLastSet ty, ?_, ?_⟩
  · unfold gLevelSetAndUpdateLast
    dsimp only
    unfold moveInRange at hrange
    rw [hrange, hset]
    rfl
  · have htrans : ((l.setTrans ty (gLevelStart lib (.move delta) (moveLimit delta) (some par) false
        (l.trans ty))).gLevelLastSet ty).trans ty =
        gLevelStart lib (.move delta) (moveLimit delta) (some par) false (l.trans ty) :=
      Light.setTrans_trans_self l ty _
    rw [MoveStarted, htrans, gLevelStart]
    dsimp only
    rw [if_pos (.inl hpresent), lightGLevelSetIdxWithTrans_valid hvalid]
    unfold transitionTimes
    unfold transitionMs at h0
    dsimp only
    rw [if_neg h0]
    have hlevel : (LevelCmd.move delta).level.setWidth 16 = delta := setWidth_signExtend_level delta
    have hisMove : (LevelCmd.move delta).isMove = true := rfl
    rw [hisMove, if_pos rfl, hlevel]
    rfl

theorem transitionMs_bounds (hlib : lib.Lawful) (h0 : transitionMs lib par ≠ 0) :
    100 ≤ (transitionMs lib par).toNat ∧ (transitionMs lib par).toNat ≤ 100 * (0x3f * 6000) ∧
      (transitionMs lib par).toInt = (transitionMs lib par).toNat := by
  obtain ⟨hge, hint⟩ := transition_remain hlib par.transitT h0
  have hunits := hlib.le par.transitT
  refine ⟨hge, ?_, hint⟩
  unfold transitionMs
  rw [BitVec.toNat_mul]
  exact (Nat.mod_le _ _).trans (Nat.mul_le_mul_left 100 hunits)

/-- The step of a move up. -/
theorem transitionStep_move (hlib : lib.Lawful) (h0 : transitionMs lib par ≠ 0)
    (hup : 0 < delta.toInt) :
    (transitionStep delta.toInt (transitionMs lib par)).toInt =
      delta.toInt * 32768 / (transitionMs lib par).toNat * 20 := by
  obtain ⟨hge, -, hint⟩ := transitionMs_bounds hlib h0
  have hbounds := toInt_bounds delta
  rw [transitionStep_toInt hge hint (by omega), Int.tdiv_eq_ediv_of_nonneg (by omega)]

/-- A step is there when the delta makes one in a millisecond. -/
theorem moveQuot_pos_iff (hlib : lib.Lawful) (h0 : transitionMs lib par ≠ 0)
    (hup : 0 < delta.toInt) :
    0 < delta.toInt * 32768 / ((transitionMs lib par).toNat : ℤ) ↔
      (transitionMs lib par).toNat ≤ delta.toInt.natAbs * 32768 := by
  obtain ⟨hge, -, -⟩ := transitionMs_bounds hlib h0
  have hT : (0 : ℤ) < (transitionMs lib par).toNat := by omega
  have habs : (delta.toInt.natAbs : ℤ) = delta.toInt := Int.natAbs_of_nonneg hup.le
  rw [← Int.add_one_le_iff, zero_add, Int.le_ediv_iff_mul_le hT]
  omega

/-- What is rounded off a step is less than 20 parts. -/
theorem moveStep_speed {x : ℤ} {T : ℕ} (hT : 0 < T) :
    (x / (T : ℤ) * 20 * T - lightAdjustInterval * x).natAbs < lightAdjustInterval * T := by
  have hTpos : (0 : ℤ) < T := Int.natCast_pos.mpr hT
  have hle := Int.mul_ediv_self_le (x := x) (k := T) hTpos.ne'
  have hlt := Int.lt_mul_ediv_self_add (x := x) (k := T) hTpos
  have hmul : x / (T : ℤ) * 20 * T = 20 * (T * (x / T)) := by ring
  rw [hmul]
  unfold lightAdjustInterval
  omega

theorem moveStepProducts_fit (hlib : lib.Lawful) (h0 : transitionMs lib par ≠ 0)
    (hup : 0 < delta.toInt) :
    ∀ x ∈ moveStepProducts delta (transitionMs lib par), FitsS32 x := by
  obtain ⟨hge, -, hint⟩ := transitionMs_bounds hlib h0
  have hbounds := toInt_bounds delta
  obtain ⟨T, hT⟩ : ∃ T : ℤ, T = (transitionMs lib par).toNat := ⟨_, rfl⟩
  have hquot : 0 ≤ delta.toInt * 32768 / T := Int.ediv_nonneg (by omega) (by omega)
  have hle := Int.mul_ediv_self_le (x := delta.toInt * 32768) (k := T) (by omega)
  have hmul : 100 * (delta.toInt * 32768 / T) ≤ T * (delta.toInt * 32768 / T) :=
    mul_le_mul_of_nonneg_right (by omega) hquot
  intro x hx
  unfold moveStepProducts at hx
  rw [hint, Int.tdiv_eq_ediv_of_nonneg (by omega), ← hT] at hx
  rcases List.mem_cons.mp hx with rfl | hx
  · exact ⟨by omega, by omega⟩
  · obtain rfl := List.mem_singleton.mp hx
    unfold lightAdjustInterval
    exact ⟨by omega, by omega⟩

section

variable {l' : Light} (ht : MoveStarted lib l l' ty delta par)

include ht

theorem MoveStarted.step : (l'.trans ty).step1p32768 = transitionStep delta.toInt
    (transitionMs lib par) :=
  congrArg StTransition.step1p32768 ht

theorem MoveStarted.remain (hlib : lib.Lawful) (h0 : transitionMs lib par ≠ 0)
    (hdelta : delta ≠ 0) :
    (l'.trans ty).remainTMs.toNat = moveTimeMs (transitionMs lib par).toNat delta.toInt.natAbs
      (moveDelta (moveLimit delta) (l.trans ty).present) % 2 ^ 32 :=
  (congrArg (·.remainTMs.toNat) ht).trans
    (moveRemainTMs_toNat hdelta (transitionMs_bounds hlib h0).2.1)

/-- It reaches its target when there is a time or a delay. -/
theorem MoveStarted.reaches_iff (hpresent : (l.trans ty).present ≠ moveLimit delta) :
    ((l'.after (l'.trans ty).passes).trans ty).present = moveLimit delta ↔
      (l'.trans ty).remainTMs.toNat ≠ 0 ∨ par.delay ≠ 0 := by
  have htarget : (l'.trans ty).target = moveLimit delta := congrArg StTransition.target ht
  have hsame : (l'.trans ty).present = (l.trans ty).present := by rw [ht]
  have hdelay : (l'.trans ty).delayMs.toNat = 0 ↔ par.delay = 0 := by
    rw [ht]
    exact delayMs_eq_zero par.delay
  constructor
  · intro hreaches
    by_contra hends
    obtain ⟨hzero, hnodelay⟩ := not_or.mp hends
    have hpasses : (l'.trans ty).passes = 0 := by
      rw [StTransition.passes, not_not.mp hzero, hdelay.mpr (not_not.mp hnodelay)]
    rw [hpasses] at hreaches
    exact hpresent (hsame.symm.trans hreaches)
  · intro hends
    rw [Light.present_passes, htarget]
    rw [StTransition.passes]
    rcases hends with hne | hne
    · omega
    · have hdelay' : (l'.trans ty).delayMs.toNat ≠ 0 := mt hdelay.mp hne
      omega

/-- **The transition of a move** is right exactly when the move fits. -/
theorem movesToLimit_iff (hlib : lib.Lawful) (h0 : transitionMs lib par ≠ 0) (hdelta : delta ≠ 0)
    (hpresent : (l.trans ty).present ≠ moveLimit delta)
    (hrange : moveInRange l ty delta = delta) :
    MovesToLimit lib l l' ty delta par ↔ MoveFits lib delta (l.trans ty).present par := by
  obtain ⟨hge, hT, -⟩ := transitionMs_bounds hlib h0
  obtain ⟨hpos, hle⟩ := natAbs_pos_of_ne hdelta
  obtain ⟨hway, hway', hdiff⟩ := moveDelta_limit hdelta hpresent
  have hremain := ht.remain hlib h0 hdelta
  have hreaches := ht.reaches_iff hpresent
  constructor
  · intro h
    have hprod := (moveProducts_iff hdelta hT).mp (by
      have hfst := h.products.1
      rwa [hrange] at hfst)
    have hup : 0 < delta.toInt := by
      by_contra hdown
      rw [if_neg hdown] at hdiff
      rw [hdiff] at hprod hremain
      have hlate := h.time.2
      rw [hremain] at hlate
      exact moveTimeMs_down hpos hle hway hway' hge hprod hlate
    rw [if_pos hup] at hdiff
    rw [hdiff] at hprod hremain
    have htime := h.time
    rw [hremain] at htime
    obtain ⟨hfits, hrounds⟩ := (moveTimeMs_up_iff hpos (by omega)).mp ⟨hprod, htime⟩
    refine ⟨hup, (moveQuot_pos_iff hlib h0 hup).mp ?_, hfits, hrounds, ?_⟩
    · have hsign := h.sign
      rw [ht.step, transitionStep_move hlib h0 hup] at hsign
      have hstep := pos_of_mul_pos_left hsign hup.le
      omega
    · have hends := hreaches.mp h.reaches
      rwa [hremain, Nat.mod_eq_of_lt hfits] at hends
  · rintro ⟨hup, hsteps, hfits, hrounds, hends⟩
    rw [if_pos hup] at hdiff
    rw [hdiff] at hremain
    obtain ⟨hprod, htime⟩ := (moveTimeMs_up_iff hpos (by omega)).mpr ⟨hfits, hrounds⟩
    have hquot := (moveQuot_pos_iff hlib h0 hup).mpr hsteps
    refine ⟨?_, ?_, ?_, ⟨?_, ?_⟩, ?_⟩
    · rw [ht.step, transitionStep_move hlib h0 hup]
      exact mul_pos (by omega) hup
    · rw [ht.step, transitionStep_move hlib h0 hup]
      exact moveStep_speed (by omega)
    · rw [hremain]
      exact htime
    · rw [hrange]
      refine (moveProducts_iff hdelta hT).mpr ?_
      rwa [hdiff]
    · rw [hrange]
      exact moveStepProducts_fit hlib h0 hup
    · refine hreaches.mpr ?_
      rwa [hremain, Nat.mod_eq_of_lt hfits]

end

end

/-- **A move whose delta is in the range** goes to its limit as it is to exactly when it fits. -/
theorem moveSet_iff (lib : TransLib) (hlib : lib.Lawful) (l : Light) (ty : StTrans)
    (delta : BitVec 16) (p : Option TransitionPar) (par : TransitionPar) (deltaLast : BitVec 32)
    (hpar : gLevelTrans l ⟨.move delta, p⟩ = some par)
    (hp : ∀ t ∈ p, isValidTransitionStep t.transitT = true)
    (hvalid : isValidTransitionStep par.transitT = true) (h0 : transitionMs lib par ≠ 0)
    (hdelta : delta ≠ 0) (hpresent : (l.trans ty).present ≠ moveLimit delta)
    (hrange : moveInRange l ty delta = delta) :
    (∃ l', gLevelSetAndUpdateLast lib l ty ⟨.move delta, p⟩ deltaLast false = some l' ∧
        MovesToLimit lib l l' ty delta par) ↔
      MoveFits lib delta (l.trans ty).present par := by
  obtain ⟨l', hset, ht⟩ := gLevelMove_started lib l ty delta p par deltaLast hpar hp hvalid
    h0 hdelta hpresent hrange
  rw [← movesToLimit_iff ht hlib h0 hdelta hpresent hrange]
  constructor
  · rintro ⟨l'', hset', h⟩
    obtain rfl := Option.some.inj (hset.symm.trans hset')
    exact h
  · exact fun h => ⟨l', hset, h⟩

/-- 100 levels in a second, from the middle. -/
theorem moveSet_middle : ∃ l', gLevelSetAndUpdateLast specTransLib (middleNode.light 0) .lightness
    ⟨.move 100, some ⟨10, 0⟩⟩ 0 false = some l' ∧
      MovesToLimit specTransLib (middleNode.light 0) l' .lightness 100 ⟨10, 0⟩ :=
  (moveSet_iff specTransLib specTransLib_lawful (middleNode.light 0) .lightness 100
    (some ⟨10, 0⟩) ⟨10, 0⟩ 0 rfl (by decide) rfl (by decide) (by decide) (by decide)
    (by decide)).mpr
    ⟨by decide, by decide, by decide, fun h => absurd h (by decide), .inl (by decide)⟩

/-- 100 levels in a second, down. -/
theorem moveSet_refuted : ¬ ∀ (lib : TransLib) (l : Light) (ty : StTrans) (delta : BitVec 16)
    (p : Option TransitionPar) (par : TransitionPar) (deltaLast : BitVec 32), lib.Lawful →
    gLevelTrans l ⟨.move delta, p⟩ = some par →
    (∀ t ∈ p, isValidTransitionStep t.transitT = true) →
    isValidTransitionStep par.transitT = true → transitionMs lib par ≠ 0 → delta ≠ 0 →
    (l.trans ty).present ≠ moveLimit delta →
    ∃ l', gLevelSetAndUpdateLast lib l ty ⟨.move delta, p⟩ deltaLast false = some l' ∧
      MovesToLimit lib l l' ty delta par := by
  intro h
  obtain ⟨l', hset, hmoves⟩ := h specTransLib (middleNode.light 0) .lightness (-100)
    (some ⟨10, 0⟩) ⟨10, 0⟩ 0 specTransLib_lawful rfl (by decide) rfl (by decide) (by decide)
    (by decide)
  obtain ⟨l'', hset', ht⟩ := gLevelMove_started specTransLib (middleNode.light 0)
    .lightness (-100) (some ⟨10, 0⟩) ⟨10, 0⟩ 0 rfl (by decide) rfl (by decide) (by decide)
      (by decide) (by decide)
  obtain rfl := Option.some.inj (hset.symm.trans hset')
  have hfits := (movesToLimit_iff ht specTransLib_lawful (by decide) (by decide) (by decide)
    (by decide)).mp hmoves
  exact absurd hfits.up (by decide)

end PirMesh

import Mathlib.Data.List.Basic
import PirMesh.Device.CounterWindow
import PirMesh.Library.Run

/-! # Device — When power-ons reset the node

A node is switched on and off.  Over any number of power-ons, a factory reset
happens in a power-on exactly when the five before it ended each in its window
(`factoryReset_iff`), provided no power-on ends before its window opens and
power does not fail inside a check.  A power-on that ends before its window
opens leaves an odd count; `reset_cnt_get_idx` zeroes the odd byte and does not
step past it, so the next power-on counts on a byte that cannot hold a count
and reads the serials at -1. -/

namespace PirMesh

open Nor Nor.Prog Run

/-! ### Power-ons -/

/-- The ticks at which the main loop checks, and how power ends: between two
checks, or after `n` flash operations of a last check at `t`. -/
structure PowerOn where
  checks : List Nat
  paced : Paced 0 checks
  cut : Option (Nat × Nat)

/-- How long the power-on has lasted at its last check. -/
def PowerOn.length (p : PowerOn) : Nat := p.checks.getLastD 0

structure CntState where
  flash : Flash
  /-- The lengths of the valid power-ons since the last factory reset. -/
  history : List Nat
  /-- The indexes `factory_reset_serials` was read at. -/
  serialReads : List Int

section

variable (beyond : Int → Byte)

def PowerOn.run (p : PowerOn) (f : Flash) : CntRam × Flash := (checkAll beyond p.checks {}).run f

/-- What the end of the power-on makes of the flash. -/
def PowerOn.cutFlash (p : PowerOn) (r : CntRam) (f : Flash) : Flash :=
  match p.cut with
  | none => f
  | some (t, n) => (factoryResetCntCheck beyond (BitVec.ofNat 32 t) r).cutAfter n f

def cntNext (s : CntState) (p : PowerOn) : CntState :=
  let (r, f) := p.run beyond s.flash
  if r.rebooted then
    { flash := f, history := [], serialReads := s.serialReads ++ r.serialReads }
  else
    { flash := p.cutFlash beyond r f
      history := if validOn < p.length then s.history ++ [p.length] else s.history
      serialReads := s.serialReads ++ r.serialReads }

/-- A node with no power-on counted. -/
def CntState.Fresh (s : CntState) : Prop :=
  (∃ i, Counter s.flash i 0) ∧ s.history = [] ∧ s.serialReads = []

def cntSys : Sys CntState PowerOn := .det CntState.Fresh (cntNext beyond)

/-- The power-on resets the node. -/
def Triggers (s : CntState) (p : PowerOn) : Prop := (p.run beyond s.flash).1.rebooted = true

end

/-- A power-on of length `d` ends in the `k`-th window. -/
def InWindow (k d : Nat) : Prop := opens k < d ∧ d ≤ closes k

instance (k d : Nat) : Decidable (InWindow k d) := inferInstanceAs (Decidable (_ ∧ _))

/-- The last five power-ons ended each in its window. -/
def LastFive (h : List Nat) : Prop :=
  ∃ pre d0 d1 d2 d3 d4, h = pre ++ [d0, d1, d2, d3, d4] ∧
    InWindow 0 d0 ∧ InWindow 1 d1 ∧ InWindow 2 d2 ∧ InWindow 3 d3 ∧ InWindow 4 d4

/-- What a power-on of length `d` makes of `k` in a row. -/
def streakStep (k d : Nat) : Nat := if InWindow k d then k + 1 else 0

/-- How many power-ons at the end of `h` are in their windows one after the other. -/
def streak (h : List Nat) : Nat := h.foldl streakStep 0

/-- Power fails outside the checks, and not before the window opens. -/
def EndsWell (s : CntState) (p : PowerOn) : Prop :=
  (∀ t n, p.cut = some (t, n) → n = 0) ∧ (validOn < p.length → opens (streak s.history) < p.length)

/-- The sector has bytes left to write to, behind everything that is written. -/
def HasRoom (f : Flash) : Prop :=
  ∃ i < flashSectorSize, (∀ j < i, f (flashAdrResetCnt + j) ≠ blank) ∧
    ∀ j, i ≤ j → j < flashSectorSize → f (flashAdrResetCnt + j) = blank

variable {beyond : Int → Byte} {s : CntState} {h : List Nat} {p : PowerOn}

/-! ### Streaks -/

@[simp] theorem streak_nil : streak [] = 0 := rfl

theorem streak_snoc (h : List Nat) (d : Nat) : streak (h ++ [d]) = streakStep (streak h) d := by
  rw [streak, List.foldl_append, List.foldl_cons, List.foldl_nil, streak]

theorem streakStep_in {k d : Nat} (h : InWindow k d) : streakStep k d = k + 1 := if_pos h

theorem streakStep_late {k d : Nat} (h : closes k < d) : streakStep k d = 0 :=
  if_neg fun hw => Nat.not_lt.mpr hw.2 h

/-- Every power-on came behind at most four in a row, and did not end before its window. -/
def NoneEarly (h : List Nat) : Prop :=
  ∀ pre d post, h = pre ++ d :: post → streak pre < 5 ∧ opens (streak pre) < d

theorem NoneEarly.snoc {d : Nat} (hh : NoneEarly h) (h5 : streak h < 5)
    (hd : opens (streak h) < d) :
    NoneEarly (h ++ [d]) :=
  History.Each.snoc (P := fun pre d => streak pre < 5 ∧ opens (streak pre) < d) hh ⟨h5, hd⟩

/-- A streak is the windows one after the other. -/
theorem exists_of_streak {k : Nat} (hk : streak h = k + 1) :
    ∃ pre d, h = pre ++ [d] ∧ streak pre = k ∧ InWindow k d := by
  rcases List.eq_nil_or_concat' h with rfl | ⟨pre, d, rfl⟩
  · simp at hk
  · rw [streak_snoc] at hk
    by_cases hw : InWindow (streak pre) d
    · rw [streakStep_in hw] at hk
      obtain rfl : streak pre = k := Nat.succ.inj hk
      exact ⟨pre, d, rfl, rfl, hw⟩
    · exact absurd hk (by rw [streakStep, if_neg hw]; exact Nat.noConfusion)

/-- The first three windows are one and the same. -/
theorem inWindow_first {k d : Nat} (hk : k < 3) : InWindow k d ↔ InWindow 0 d := by
  have h : ∀ k < 3, opens k = opens 0 ∧ closes k = closes 0 := by decide
  rw [InWindow, InWindow, (h k hk).1, (h k hk).2]

/-- The last two open when the first three close. -/
theorem not_early_of_first {k d : Nat} (h3 : 3 ≤ k) (h5 : k < 5) (hd : InWindow 0 d) :
    ¬ opens k < d := by
  have h : ∀ k < 5, 3 ≤ k → closes 0 ≤ opens k := by decide
  exact Nat.not_lt.mpr (Nat.le_trans hd.2 (h k h5 h3))

/-- A power-on in the first window is never behind three or four in a row. -/
theorem NoneEarly.behind {pre post : List Nat} {d : Nat} (hh : NoneEarly h)
    (heq : h = pre ++ d :: post) (hd : InWindow 0 d) :
    streak pre < 3 ∧ streak (pre ++ [d]) = streak pre + 1 := by
  obtain ⟨h5, ho⟩ := hh pre d post heq
  have h3 : streak pre < 3 := Nat.lt_of_not_le fun h3 => not_early_of_first h3 h5 hd ho
  exact ⟨h3, by rw [streak_snoc, streakStep_in ((inWindow_first h3).mpr hd)]⟩

/-- **The last five were in their windows iff five in a row were.**  A streak that
started earlier would have met the fourth window too early. -/
theorem lastFive_iff (hh : NoneEarly h) : LastFive h ↔ streak h = 5 := by
  constructor
  · rintro ⟨pre, d0, d1, d2, d3, d4, rfl, w0, w1, w2, w3, w4⟩
    obtain ⟨-, e0⟩ := hh.behind rfl w0
    obtain ⟨-, e1⟩ := hh.behind (by simp : _ = (pre ++ [d0]) ++ d1 :: [d2, d3, d4])
      ((inWindow_first (by decide)).mp w1)
    obtain ⟨hlt, e2⟩ := hh.behind (by simp : _ = (pre ++ [d0] ++ [d1]) ++ d2 :: [d3, d4])
      ((inWindow_first (by decide)).mp w2)
    have h0 : streak pre = 0 := by omega
    have h3 : streak (pre ++ [d0] ++ [d1] ++ [d2]) = 3 := by omega
    have h4 : streak (pre ++ [d0] ++ [d1] ++ [d2] ++ [d3]) = 4 := by
      rw [streak_snoc, h3, streakStep_in w3]
    calc streak (pre ++ [d0, d1, d2, d3, d4])
        = streak (pre ++ [d0] ++ [d1] ++ [d2] ++ [d3] ++ [d4]) := by simp
      _ = 5 := by rw [streak_snoc, h4, streakStep_in w4]
  · intro hk
    obtain ⟨h4, d4, rfl, hk, w4⟩ := exists_of_streak hk
    obtain ⟨h3, d3, rfl, hk, w3⟩ := exists_of_streak hk
    obtain ⟨h2, d2, rfl, hk, w2⟩ := exists_of_streak hk
    obtain ⟨h1, d1, rfl, hk, w1⟩ := exists_of_streak hk
    obtain ⟨pre, d0, rfl, -, w0⟩ := exists_of_streak hk
    exact ⟨pre, d0, d1, d2, d3, d4, by simp, w0, w1, w2, w3, w4⟩

/-! ### The invariant -/

structure CntInv (s : CntState) : Prop where
  counter : ∃ i, Counter s.flash i (2 * streak s.history)
  le : streak s.history ≤ 5
  noneEarly : NoneEarly s.history
  reads : SerialsInRange s.serialReads

theorem SerialsInRange.append {l m : List Int} (hl : SerialsInRange l) (hm : SerialsInRange m) :
    SerialsInRange (l ++ m) := by
  intro i hi
  exact (List.mem_append.mp hi).elim (hl i) (hm i)

theorem cutFlash_of_endsWell (hp : EndsWell s p) (r : CntRam) (f : Flash) :
    p.cutFlash beyond r f = f := by
  unfold PowerOn.cutFlash
  split
  · rfl
  · rename_i t n hcut
    rw [hp.1 t n hcut, cutAfter_zero]

/-- A power-on behind fewer than five in a row runs through its checks. -/
theorem CntInv.run (hs : CntInv s) (hk : streak s.history < 5) (beyond : Int → Byte) (p : PowerOn) :
    ∃ r g, p.run beyond s.flash = (r, g) ∧ InPowerOn (streak s.history) p.length r g := by
  obtain ⟨i, hc⟩ := hs.counter
  have hstart : InPowerOn (streak s.history) 0 {} s.flash :=
    ⟨.unseen (Nat.zero_le _) rfl hc, rfl, fun _ hi => absurd hi List.not_mem_nil⟩
  exact hstart.checkAll beyond hk p.paced

/-- The flash and the RAM a power-on of this length leaves count the longer history. -/
theorem CntInv.counted (hs : CntInv s) (hk : streak s.history < 5) (hp : EndsWell s p) {r : CntRam}
    {g : Flash} (hg : InPowerOn (streak s.history) p.length r g) :
    CntInv {
      flash := g
      history := if validOn < p.length then s.history ++ [p.length] else s.history
      serialReads := s.serialReads ++ r.serialReads } := by
  have hreads := hs.reads.append hg.reads
  have hclose := validOn_lt_closes _ hk
  cases hg.window with
  | unseen ht _ hc =>
    rw [if_neg (Nat.not_lt.mpr ht)]
    exact ⟨⟨_, hc⟩, hs.le, hs.noneEarly, hreads⟩
  | early hv ht _ _ _ => exact absurd (hp.2 hv) (Nat.not_lt.mpr ht)
  | inside hv ho ht _ _ hc =>
    have hw : streak (s.history ++ [p.length]) = streak s.history + 1 := by
      rw [streak_snoc, streakStep_in ⟨ho, ht⟩]
    rw [if_pos hv]
    exact ⟨⟨_, by rw [hw]; exact hc⟩, by rw [hw]; exact hk, hs.noneEarly.snoc hk ho, hreads⟩
  | late ht _ hc =>
    have hv : validOn < p.length := Nat.lt_trans hclose ht
    have hw : streak (s.history ++ [p.length]) = 0 := by
      rw [streak_snoc, streakStep_late ht]
    rw [if_pos hv]
    exact ⟨⟨_, by rw [hw]; exact hc⟩, by rw [hw]; exact Nat.zero_le _,
      hs.noneEarly.snoc hk (hp.2 hv), hreads⟩

/-- **A power-on behind five in a row** is reset as soon as it is valid. -/
theorem CntInv.run_five (hs : CntInv s) (hk : streak s.history = 5) (beyond : Int → Byte)
    (p : PowerOn) :
    ∃ i, p.run beyond s.flash = if validOn < p.length then
      (CntRam.reset {} i, s.flash.eraseList flashSectorSize resetSectors) else ({}, s.flash) := by
  obtain ⟨i, hc⟩ := hs.counter
  rw [hk] at hc
  refine ⟨i, ?_⟩
  by_cases hv : validOn < p.length
  · rw [if_pos hv]
    exact (checkAll_trigger beyond rfl rfl hc (Nat.zero_le _) p.paced hv).1
  · rw [if_neg hv]
    exact (checkAll_short beyond rfl rfl p.paced (Nat.le_of_not_lt hv) _).run

/-- A reset leaves no count. -/
theorem counter_eraseList (f : Flash) : Counter (f.eraseList flashSectorSize resetSectors) 0 0 :=
  .of_blank fun _ hj => Flash.eraseList_inside f (b := flashAdrResetCnt) (by decide)
    ⟨Nat.le_add_right _ _, Nat.add_lt_add_left hj _⟩

theorem CntInv.next (hs : CntInv s) (hp : EndsWell s p) : CntInv (cntNext beyond s p) := by
  rcases Nat.lt_or_eq_of_le hs.le with hk | hk
  · obtain ⟨r, g, hrun, hg⟩ := hs.run hk beyond p
    simp only [cntNext, hrun, hg.running, cutFlash_of_endsWell hp]
    exact hs.counted hk hp hg
  · obtain ⟨i, hrun⟩ := hs.run_five hk beyond p
    by_cases hv : validOn < p.length
    · rw [if_pos hv] at hrun
      simp only [cntNext, hrun, CntRam.reset, if_true, List.append_nil]
      exact ⟨⟨0, counter_eraseList _⟩, Nat.zero_le _, fun pre d post h => by simp at h, hs.reads⟩
    · rw [if_neg hv] at hrun
      simp only [cntNext, hrun, cutFlash_of_endsWell hp, if_neg hv, List.append_nil]
      exact hs

theorem CntInv.triggers_iff (hs : CntInv s) (p : PowerOn) :
    Triggers beyond s p ↔ validOn < p.length ∧ streak s.history = 5 := by
  unfold Triggers
  rcases Nat.lt_or_eq_of_le hs.le with hk | hk
  · obtain ⟨r, g, hrun, hg⟩ := hs.run hk beyond p
    simp [hrun, hg.running, Nat.ne_of_lt hk]
  · obtain ⟨i, hrun⟩ := hs.run_five hk beyond p
    rw [hrun]
    split <;> simp [*, CntRam.reset]

theorem CntInv.hasRoom (hs : CntInv s) : HasRoom s.flash := by
  obtain ⟨i, hc⟩ := hs.counter
  have hi : i ≤ 3840 := by rcases hc.room with h | ⟨h, -⟩ <;> omega
  have hzero : ∀ j < i, s.flash (flashAdrResetCnt + j) ≠ blank := fun j hj => by
    rw [hc.zeros j hj]
    decide
  by_cases hk : 2 * streak s.history = 0
  · refine ⟨i, by simp [flashSectorSize]; omega, hzero, fun j hj hj' => ?_⟩
    rcases Nat.eq_or_lt_of_le hj with rfl | hlt
    · rw [hc.count, hk]
      rfl
    · exact hc.blanks j hlt hj'
  · refine ⟨i + 1, by simp [flashSectorSize]; omega, fun j hj => ?_, fun j hj => hc.blanks j hj⟩
    rcases Nat.lt_succ_iff_lt_or_eq.mp hj with hlt | rfl
    · exact hzero j hlt
    · rw [hc.count]
      exact fun hb => hk ((cntByte_eq_blank _ hc.le).mp hb)

/-- **When power-ons reset the node**, in every run whose power-ons end well. -/
theorem factoryReset_iff (beyond : Int → Byte)
    (h : ((cntSys beyond).restrict EndsWell).Reach s) :
    (∀ p, Triggers beyond s p ↔ validOn < p.length ∧ LastFive s.history) ∧
      HasRoom s.flash ∧ SerialsInRange s.serialReads := by
  have hs : CntInv s := h.inv (P := CntInv)
    (fun s ⟨hc, hh, hr⟩ => ⟨by rw [hh]; exact hc, by rw [hh]; exact Nat.zero_le _,
      by rw [hh]; exact fun pre d post h => by simp at h,
      by rw [hr]; exact fun _ hi => absurd hi List.not_mem_nil⟩)
    fun s p t hs ⟨hp, ht⟩ => ht ▸ hs.next hp
  refine ⟨fun p => ?_, hs.hasRoom, hs.reads⟩
  rw [hs.triggers_iff, lastFive_iff hs.noneEarly]

/-! ### A power-on that ends too early -/

/-- A power-on with one check, `n` seconds long. -/
def secondsOn (n : Fin 200) : PowerOn where
  checks := [n.1 * 16000000]
  paced := by
    refine List.isChain_cons_cons.mpr ⟨⟨Nat.zero_le _, ?_⟩, List.IsChain.singleton _⟩
    unfold maxGap
    omega
  cut := none

def erasedCounter : CntState := ⟨fun _ => blank, [], []⟩

theorem fresh_erasedCounter : erasedCounter.Fresh := ⟨⟨0, .of_blank fun _ _ => rfl⟩, rfl, rfl⟩

/-- The fourth of four one-second power-ons ends before its window opens; the next
power-on reads the serials at -1. -/
theorem factoryReset_early : ¬ ∀ (beyond : Int → Byte) (s : CntState), (cntSys beyond).Reach s →
    (∀ p, Triggers beyond s p ↔ validOn < p.length ∧ LastFive s.history) ∧
      HasRoom s.flash ∧ SerialsInRange s.serialReads := by
  intro h
  have hrun := Sys.reach_foldl (.init fresh_erasedCounter : (cntSys fun _ => 0).Reach erasedCounter)
    (List.replicate 5 (secondsOn 1))
  have hread := (h _ _ hrun).2.2 (-1) (by decide +kernel)
  exact absurd hread.1 (by decide)

/-- Three short power-ons and two long ones. -/
def fiveInARow : List PowerOn :=
  [secondsOn 1, secondsOn 1, secondsOn 1, secondsOn 10, secondsOn 10]

/-- The next power-on resets. -/
theorem factoryReset_fiveInARow :
    ((cntSys fun _ => 0).restrict EndsWell).Reach
        (fiveInARow.foldl (cntNext fun _ => 0) erasedCounter) ∧
      Triggers (fun _ => 0) (fiveInARow.foldl (cntNext fun _ => 0) erasedCounter)
        (secondsOn 1) := by
  have hrun : ((cntSys fun _ => 0).restrict EndsWell).Reach
      (fiveInARow.foldl (cntNext fun _ => 0) erasedCounter) := by
    refine .step (e := secondsOn 10) (.step (e := secondsOn 10) (.step (e := secondsOn 1)
      (.step (e := secondsOn 1) (.step (e := secondsOn 1) (.init fresh_erasedCounter)
      ⟨?_, rfl⟩) ⟨?_, rfl⟩) ⟨?_, rfl⟩) ⟨?_, rfl⟩) ⟨?_, rfl⟩ <;>
    exact ⟨fun _ _ h => by simp [secondsOn] at h, by decide +kernel⟩
  refine ⟨hrun, ((factoryReset_iff _ hrun).1 (secondsOn 1)).mpr ⟨by decide, ?_⟩⟩
  have hhistory : (fiveInARow.foldl (cntNext fun _ => 0) erasedCounter).history =
      [16000000, 16000000, 16000000, 160000000, 160000000] := by decide +kernel
  rw [hhistory]
  exact ⟨[], _, _, _, _, _, rfl, by decide, by decide, by decide, by decide, by decide⟩

end PirMesh

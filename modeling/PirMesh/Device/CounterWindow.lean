import PirMesh.Device.CounterSpec

/-! # Device — The windows of a power-on

`factory_reset_serials` gives each of five power-ons in a row a window for its
end.  `InPowerOn k t` is what the check has left at tick `t` of the `k`-th
power-on in a row: nothing before the power-on is valid, an odd count before
its window opens, an even one inside, none behind.  A later check keeps that
(`InPowerOn.check`), and every check time it loads is inside the array. -/

namespace PirMesh

open Nor Nor.Prog

variable {f : Flash} {i c : Nat}

/-! ### Windows -/

/-- Ticks in `s` seconds. -/
def ticks (s : Byte) : Nat := s.toNat * 16000000

/-- The window of the `k`-th power-on in a row, counted from 0: it ends behind
`opens k` and not behind `closes k`. -/
def opens (k : Nat) : Nat := ticks (factoryResetSerials.getD (2 * k) 0)

def closes (k : Nat) : Nat := ticks (factoryResetSerials.getD (2 * k + 1) 0)

/-- A power-on counts when it is longer than this. -/
def validOn : Nat := 800000

/-- The 32-bit tick does not go round between two checks before the counter is done. -/
def maxGap : Nat := 2 ^ 32 - 1 - 480000000

theorem opens_le_closes : ∀ k < 5, opens k ≤ closes k := by decide

theorem closes_le : ∀ k < 5, closes k ≤ 480000000 := by decide

theorem validOn_lt_closes : ∀ k < 5, validOn < closes k := by decide

theorem exceed_valid {t : Nat} (ht : t < 2 ^ 32) :
    clockTimeExceed (BitVec.ofNat 32 t) validPowerOnTimeUs = true ↔ validOn < t := by
  have hv : (validPowerOnTimeUs * 16).toNat = validOn := by decide
  simp only [clockTimeExceed, decide_eq_true_eq, BitVec.lt_def, hv, BitVec.toNat_ofNat,
    Nat.mod_eq_of_lt ht]

theorem exceed_ticks {t : Nat} (ht : t < 2 ^ 32) (s : Byte) :
    clockTimeExceed (BitVec.ofNat 32 t) (s.setWidth 32 * 1000 * 1000) = true ↔ ticks s < t := by
  have hs := s.isLt
  have hmul : (s.setWidth 32 * 1000 * 1000 * 16).toNat = s.toNat * 16000000 := by
    simp only [BitVec.toNat_mul, BitVec.toNat_setWidth, BitVec.reduceToNat]
    omega
  simp only [clockTimeExceed, decide_eq_true_eq, BitVec.lt_def, hmul, BitVec.toNat_ofNat, ticks,
    Nat.mod_eq_of_lt ht]

/-! ### A power-on -/

def SerialsInRange (l : List Int) : Prop := ∀ i ∈ l, 0 ≤ i ∧ i < factoryResetSerials.length

/-- What the last check, at tick `t` of the `k`-th power-on in a row, has left. -/
inductive Window (k t : Nat) (r : CntRam) (f : Flash) : Prop
  | unseen {i : Nat} : t ≤ validOn → r.clearSt = 4 → Counter f i (2 * k) → Window k t r f
  | early : validOn < t → t ≤ opens k → r.clearSt = 2 →
      r.resetCheckTime = (factoryResetSerials.getD (2 * k) 0).setWidth 32 →
      Counter f r.adrResetCntIdx (2 * k + 1) → Window k t r f
  | inside : validOn < t → opens k < t → t ≤ closes k → r.clearSt = 1 →
      r.resetCheckTime = (factoryResetSerials.getD (2 * k + 1) 0).setWidth 32 →
      Counter f r.adrResetCntIdx (2 * k + 2) → Window k t r f
  | late {i : Nat} : closes k < t → r.clearSt = 0 → Counter f i 0 → Window k t r f

structure InPowerOn (k t : Nat) (r : CntRam) (f : Flash) : Prop where
  window : Window k t r f
  running : r.rebooted = false
  reads : SerialsInRange r.serialReads

variable {k t : Nat} {r : CntRam}

theorem checkOpen_skip (beyond : Int → Byte) (clock : BitVec 32) (h : r.clearSt ≠ 2) (f : Flash) :
    Reads f (checkOpen beyond clock r) r := by
  rw [checkOpen, if_neg fun hc => h hc.1]
  exact .pure r

theorem checkClose_skip (clock : BitVec 32) (h : r.clearSt ≠ 1) (f : Flash) :
    Reads f (checkClose clock r) r := by
  rw [checkClose, if_neg fun hc => h hc.1]
  exact .pure r

/-- The block that closes the window. -/
theorem checkClose_run (ht : t < 2 ^ 32) (hv : validOn < t) (ho : opens k < t)
    (hst : r.clearSt = 1)
    (htime : r.resetCheckTime = (factoryResetSerials.getD (2 * k + 1) 0).setWidth 32)
    (hc : Counter f r.adrResetCntIdx (2 * k + 2)) (hrun : r.rebooted = false)
    (hreads : SerialsInRange r.serialReads) :
    ∃ r' g, (checkClose (BitVec.ofNat 32 t) r).run f = (r', g) ∧ InPowerOn k t r' g := by
  rw [checkClose, htime]
  by_cases hx : closes k < t
  · obtain ⟨g, hclear, hg⟩ := clearResetCnt_run hc (Nat.succ_ne_zero _)
    rw [if_pos ⟨hst, (exceed_ticks ht _).mpr hx⟩, run_bind_of hclear]
    exact ⟨_, g, rfl, .late hx rfl hg, hrun, hreads⟩
  · rw [if_neg fun h => hx ((exceed_ticks ht _).mp h.2)]
    exact ⟨r, f, rfl, .inside hv ho (Nat.le_of_not_lt hx) hst htime hc, hrun, hreads⟩

theorem SerialsInRange.snoc {l : List Int} (h : SerialsInRange l) (hc : c < 10) :
    SerialsInRange (l ++ [(c : Int)]) := by
  intro i hi
  rcases List.mem_append.mp hi with hi | hi
  · exact h i hi
  · obtain rfl := List.mem_singleton.mp hi
    exact ⟨by omega, by simp [factoryResetSerials]; omega⟩

/-- The block that opens the window, and the one behind it. -/
theorem checkOpen_run (beyond : Int → Byte) (hk : k < 5) (ht : t < 2 ^ 32) (hv : validOn < t)
    (hst : r.clearSt = 2)
    (htime : r.resetCheckTime = (factoryResetSerials.getD (2 * k) 0).setWidth 32)
    (hc : Counter f r.adrResetCntIdx (2 * k + 1)) (hrun : r.rebooted = false)
    (hreads : SerialsInRange r.serialReads) :
    ∃ r' g, (checkOpen beyond (BitVec.ofNat 32 t) r >>= checkClose (BitVec.ofNat 32 t)).run f =
      (r', g) ∧ InPowerOn k t r' g := by
  by_cases hx : opens k < t
  · obtain ⟨j, g, hinc, hg⟩ := increaseResetCnt_run hc (by omega)
    have hopen : (checkOpen beyond (BitVec.ofNat 32 t) r).run f =
        (({ r with clearSt := 1, adrResetCntIdx := j } : CntRam).load (2 * k + 1), g) := by
      rw [checkOpen, htime, if_pos ⟨hst, (exceed_ticks ht _).mpr hx⟩, run_bind_of hinc,
        loadCheckTime_run beyond hg]
    rw [run_bind_of hopen]
    exact checkClose_run ht hv hx rfl rfl hg hrun (hreads.snoc (by omega))
  · have hopen : (checkOpen beyond (BitVec.ofNat 32 t) r).run f = (r, f) := by
      rw [checkOpen, htime, if_neg fun h => hx ((exceed_ticks ht _).mp h.2)]
      rfl
    rw [run_bind_of hopen, (checkClose_skip _ (by simp [hst]) f).run]
    exact ⟨r, f, rfl, .early hv (Nat.le_of_not_lt hx) hst htime hc, hrun, hreads⟩

/-- A check that sees the power-on for the first time. -/
theorem factoryResetCntCheck_unseen (beyond : Int → Byte) (hk : k < 5) (ht : t < 2 ^ 32)
    (hv : validOn < t)
    (hst : r.clearSt = 4) (hc : Counter f i (2 * k)) (hrun : r.rebooted = false)
    (hreads : SerialsInRange r.serialReads) :
    ∃ r' g, (factoryResetCntCheck beyond (BitVec.ofNat 32 t) r).run f = (r', g) ∧
      InPowerOn k t r' g := by
  obtain ⟨j, g, hhandle, hg⟩ := factoryResetHandle_run hc hk { r with clearSt := 3 }
  have hvalid : (checkValid (BitVec.ofNat 32 t) r).run f =
      ({ r with clearSt := 3, adrResetCntIdx := j }, g) := by
    rw [checkValid, if_pos ⟨hst, (exceed_valid ht).mpr hv⟩, hhandle]
  have hfirst : (checkFirst beyond { r with clearSt := 3, adrResetCntIdx := j }).run g =
      (({ r with clearSt := 2, adrResetCntIdx := j } : CntRam).load (2 * k), g) := by
    rw [checkFirst, if_pos rfl]
    exact loadCheckTime_run beyond hg
  rw [factoryResetCntCheck, if_neg (by simp [hst]), run_bind_of hvalid, if_neg (by simp [hrun]),
    run_bind_of hfirst]
  exact checkOpen_run beyond hk ht hv rfl rfl hg hrun (hreads.snoc (by omega))

/-- Behind its first block the check goes through the other two. -/
theorem factoryResetCntCheck_seen (beyond : Int → Byte) (clock : BitVec 32) (h0 : r.clearSt ≠ 0)
    (h4 : r.clearSt ≠ 4) (h3 : r.clearSt ≠ 3) (hrun : r.rebooted = false) (f : Flash) :
    (factoryResetCntCheck beyond clock r).run f =
      (checkOpen beyond clock r >>= checkClose clock).run f := by
  have hvalid : (checkValid clock r).run f = (r, f) := by
    rw [checkValid, if_neg fun h => h4 h.1]
    rfl
  have hfirst : (checkFirst beyond r).run f = (r, f) := by
    rw [checkFirst, if_neg h3]
    rfl
  rw [factoryResetCntCheck, if_neg h0, run_bind_of hvalid, if_neg (by simp [hrun]),
    run_bind_of hfirst]

/-- Nothing happens before the power-on is valid. -/
theorem factoryResetCntCheck_short (beyond : Int → Byte) (ht : t ≤ validOn) (hst : r.clearSt = 4)
    (hrun : r.rebooted = false) (f : Flash) :
    Reads f (factoryResetCntCheck beyond (BitVec.ofNat 32 t) r) r := by
  have hlt : t < 2 ^ 32 := Nat.lt_of_le_of_lt ht (by decide)
  have hvalid : Reads f (checkValid (BitVec.ofNat 32 t) r) r := by
    rw [checkValid, if_neg fun h => Nat.not_lt.mpr ht ((exceed_valid hlt).mp h.2)]
    exact .pure r
  have hfirst : Reads f (checkFirst beyond r) r := by
    rw [checkFirst, if_neg (by simp [hst])]
    exact .pure r
  rw [factoryResetCntCheck, if_neg (by simp [hst])]
  refine hvalid.bind ?_
  rw [if_neg (by simp [hrun])]
  exact hfirst.bind ((checkOpen_skip beyond _ (by simp [hst]) f).bind
    (checkClose_skip _ (by simp [hst]) f))

/-- The state a reset leaves RAM in. -/
def CntRam.reset (r : CntRam) (i : Nat) : CntRam :=
  { r with clearSt := 3, adrResetCntIdx := i, rebooted := true }

/-- A valid power-on with the count at ten is reset. -/
theorem checkValid_trigger (hv : validOn < t) (ht : t < 2 ^ 32) (hst : r.clearSt = 4)
    (hc : Counter f i 10) :
    (checkValid (BitVec.ofNat 32 t) r).run f =
      (r.reset i, f.eraseList flashSectorSize resetSectors) := by
  rw [checkValid, if_pos ⟨hst, (exceed_valid ht).mpr hv⟩, factoryResetHandle_trigger hc]
  rfl

/-- Nothing follows the reset. -/
theorem factoryResetCntCheck_trigger (beyond : Int → Byte) (hv : validOn < t) (ht : t < 2 ^ 32)
    (hst : r.clearSt = 4) (hc : Counter f i 10) :
    (factoryResetCntCheck beyond (BitVec.ofNat 32 t) r).run f =
        (r.reset i, f.eraseList flashSectorSize resetSectors) ∧
      ∀ n, (factoryResetCntCheck beyond (BitVec.ofNat 32 t) r).cutAfter n f =
        f.eraseList flashSectorSize (resetSectors.take n) := by
  have hvalid := checkValid_trigger hv ht hst hc
  have hcut : ∀ n, (checkValid (BitVec.ofNat 32 t) r).cutAfter n f =
      f.eraseList flashSectorSize (resetSectors.take n) := by
    intro n
    rw [checkValid, if_pos ⟨hst, (exceed_valid ht).mpr hv⟩, factoryResetHandle_trigger_cut hc]
  rw [factoryResetCntCheck, if_neg (by simp [hst])]
  refine ⟨?_, fun n => ?_⟩
  · rw [run_bind_of hvalid]
    rfl
  · rw [cutAfter_bind_pure (b := r.reset i), hcut]
    rw [hvalid]
    exact if_pos rfl

/-- **A later check** leaves what belongs to its own moment. -/
theorem InPowerOn.check (beyond : Int → Byte) {t' : Nat} (hk : k < 5) (h : InPowerOn k t r f)
    (hle : t ≤ t') (hgap : t' ≤ t + maxGap) :
    ∃ r' g, (factoryResetCntCheck beyond (BitVec.ofNat 32 t') r).run f = (r', g) ∧
      InPowerOn k t' r' g := by
  have hclose := closes_le k hk
  have hlt : t ≤ closes k → t' < 2 ^ 32 := by
    intro ht
    unfold maxGap at hgap
    omega
  obtain ⟨hw, hrun, hreads⟩ := h
  cases hw with
  | unseen ht hst hc =>
    have ht' := hlt (Nat.le_trans ht (Nat.le_of_lt (validOn_lt_closes k hk)))
    by_cases hv : validOn < t'
    · exact factoryResetCntCheck_unseen beyond hk ht' hv hst hc hrun hreads
    · exact ⟨r, f, (factoryResetCntCheck_short beyond (Nat.le_of_not_lt hv) hst hrun f).run,
        .unseen (Nat.le_of_not_lt hv) hst hc, hrun, hreads⟩
  | early hv ht hst htime hc =>
    have ht' := hlt (Nat.le_trans ht (opens_le_closes k hk))
    rw [factoryResetCntCheck_seen beyond _ (by simp [hst]) (by simp [hst]) (by simp [hst]) hrun]
    exact checkOpen_run beyond hk ht' (Nat.lt_of_lt_of_le hv hle) hst htime hc hrun hreads
  | inside hv ho ht hst htime hc =>
    rw [factoryResetCntCheck_seen beyond _ (by simp [hst]) (by simp [hst]) (by simp [hst]) hrun,
      run_bind_of (checkOpen_skip beyond _ (by simp [hst]) f).run]
    exact checkClose_run (hlt ht) (Nat.lt_of_lt_of_le hv hle) (Nat.lt_of_lt_of_le ho hle) hst htime
      hc hrun hreads
  | late ht hst hc =>
    refine ⟨r, f, ?_, .late (Nat.lt_of_lt_of_le ht hle) hst hc, hrun, hreads⟩
    rw [factoryResetCntCheck, if_pos hst]
    rfl

/-! ### All checks of a power-on -/

/-- The checks come in order, and never so late that the tick goes round unseen. -/
def Paced (t : Nat) (ts : List Nat) : Prop :=
  (t :: ts).IsChain fun a b => a ≤ b ∧ b ≤ a + maxGap

theorem Paced.le_last {ts : List Nat} (h : Paced t ts) : t ≤ ts.getLastD t := by
  induction ts generalizing t with
  | nil => exact Nat.le_refl t
  | cons t' ts ih =>
    obtain ⟨⟨hle, -⟩, h'⟩ := List.isChain_cons_cons.mp h
    rw [List.getLastD_cons]
    exact Nat.le_trans hle (ih h')

theorem InPowerOn.checkAll (beyond : Int → Byte) {ts : List Nat} (hk : k < 5)
    (h : InPowerOn k t r f) (hp : Paced t ts) :
    ∃ r' g, (checkAll beyond ts r).run f = (r', g) ∧ InPowerOn k (ts.getLastD t) r' g := by
  induction ts generalizing t r f with
  | nil => exact ⟨r, f, rfl, h⟩
  | cons t' ts ih =>
    obtain ⟨⟨hle, hgap⟩, hp'⟩ := List.isChain_cons_cons.mp hp
    obtain ⟨r', g, hrun, hg⟩ := h.check beyond hk hle hgap
    rw [PirMesh.checkAll, run_bind_of hrun, if_neg (by simp [hg.running]), List.getLastD_cons]
    exact ih hg hp'

/-- Before the power-on is valid no check does anything. -/
theorem checkAll_short (beyond : Int → Byte) {ts : List Nat} (hst : r.clearSt = 4)
    (hrun : r.rebooted = false) (hp : Paced t ts) (hs : ts.getLastD t ≤ validOn) (f : Flash) :
    Reads f (checkAll beyond ts r) r := by
  induction ts generalizing t with
  | nil => exact .pure r
  | cons t' ts ih =>
    obtain ⟨-, hp'⟩ := List.isChain_cons_cons.mp hp
    rw [List.getLastD_cons] at hs
    rw [checkAll]
    refine (factoryResetCntCheck_short beyond
      (Nat.le_trans (Paced.le_last hp') hs) hst hrun f).bind ?_
    rw [if_neg (by simp [hrun])]
    exact ih hp' hs

/-- With the count at ten the first check of a valid power-on resets. -/
theorem checkAll_trigger (beyond : Int → Byte) {ts : List Nat} (hst : r.clearSt = 4)
    (hrun : r.rebooted = false) (hc : Counter f i 10) (ht : t ≤ validOn) (hp : Paced t ts)
    (hv : validOn < ts.getLastD t) :
    (checkAll beyond ts r).run f = (r.reset i, f.eraseList flashSectorSize resetSectors) ∧
      ∀ n, (checkAll beyond ts r).cutAfter n f =
        f.eraseList flashSectorSize (resetSectors.take n) := by
  induction ts generalizing t with
  | nil => exact absurd hv (Nat.not_lt.mpr ht)
  | cons t' ts ih =>
    obtain ⟨⟨hle, hgap⟩, hp'⟩ := List.isChain_cons_cons.mp hp
    rw [List.getLastD_cons] at hv
    rw [checkAll]
    by_cases hv' : validOn < t'
    · have hlt : t' < 2 ^ 32 := by
        unfold validOn at ht
        unfold maxGap at hgap
        omega
      obtain ⟨hreset, hcut⟩ := factoryResetCntCheck_trigger beyond hv' hlt hst hc
      refine ⟨?_, fun n => ?_⟩
      · rw [run_bind_of hreset]
        rfl
      · rw [cutAfter_bind_pure (b := r.reset i), hcut]
        rw [hreset]
        exact if_pos rfl
    · have hshort := factoryResetCntCheck_short beyond (Nat.le_of_not_lt hv') hst hrun f
      obtain ⟨hreset, hcut⟩ := ih (Nat.le_of_not_lt hv') hp' hv
      have hgo : ∀ q : Prog CntRam, (if r.rebooted = true then Pure.pure r else q) = q := fun q =>
        if_neg (by simp [hrun])
      refine ⟨?_, fun n => ?_⟩
      · rw [run_bind_of hshort.run, hgo, hreset]
      · rw [hshort.cutAfter_bind, hgo, hcut]

end PirMesh

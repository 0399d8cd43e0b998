import PirMesh.Device.ResetCounter

/-! # Device — What the counter functions do

The sector is zero up to the byte that counts and blank behind it (`Counter`).
Each function of `factory_reset.c` is stated on that shape: the search finds the
byte (`resetCntGetIdx_reads`), `increaseResetCnt` makes the count `c + 1`, in the
next byte and across the wrap (`increaseResetCnt_run`), and `clearResetCnt`
leaves no count (`clearResetCnt_run`). -/

namespace PirMesh

open Nor Nor.Prog

/-! ### The sector -/

/-- How the count `c` is written; no count is a blank byte. -/
def cntByte (c : Nat) : Byte := if c = 0 then blank else BitVec.ofNat 8 c

/-- Byte `i` counts `c`: everything before it is used up, everything behind it blank. -/
structure Counter (f : Flash) (i c : Nat) : Prop where
  zeros : ∀ j < i, f (flashAdrResetCnt + j) = 0
  count : f (flashAdrResetCnt + i) = cntByte c
  blanks : ∀ j, i < j → j < flashSectorSize → f (flashAdrResetCnt + j) = blank
  le : c ≤ 10
  room : i < 3840 ∨ i = 3840 ∧ c = 0

variable {f : Flash} {i c : Nat}

theorem cntByte_ne_zero : ∀ c ≤ 10, cntByte c ≠ 0 := by decide

theorem cntByte_eq_blank : ∀ c ≤ 10, (cntByte c = 0xFF ↔ c = 0) := by decide

theorem cntByte_eq_trigger : ∀ c ≤ 10, (cntByte c = resetTriggerVal ↔ c = 10) := by decide

theorem cntByte_succ : ∀ c < 10, c ≠ 0 → cntByte c + 1 = cntByte (c + 1) := by decide

/-- An even count passes the test of `reset_cnt_get_idx`. -/
theorem cntByte_valid : ∀ k ≤ 5, 2 * k ≠ 0 →
    ¬ (resetTriggerVal < cntByte (2 * k) ∨ cntByte (2 * k) &&& 1 ≠ 0) := by decide

theorem Counter.of_blank (h : ∀ j < flashSectorSize, f (flashAdrResetCnt + j) = blank) :
    Counter f 0 0 where
  zeros j hj := absurd hj (Nat.not_lt_zero j)
  count := h 0 (by decide)
  blanks j _ hj := h j hj
  le := by decide
  room := .inl (by decide)

/-! ### Reading -/

theorem getResetCnt_reads (i : Nat) (f : Flash) :
    Reads f (getResetCnt i) (f (flashAdrResetCnt + i)) := .read (.pure _)

theorem Counter.get (h : Counter f i c) : Reads f (getResetCnt i) (cntByte c) :=
  h.count ▸ getResetCnt_reads i f

/-- The search runs over zero bytes. -/
theorem resetCntScan_zeros {n i d j : Nat} (hz : ∀ j < i + d, f (flashAdrResetCnt + j) = 0)
    (h : Reads f (resetCntScan n (i + d)) j) : Reads f (resetCntScan (d + n) i) j := by
  induction d generalizing i with
  | zero => rwa [Nat.zero_add]
  | succ d ih =>
    have hi : Reads f (getResetCnt i) resetCntInvalid := by
      have := getResetCnt_reads i f
      rwa [hz i (by omega)] at this
    rw [Nat.succ_add, resetCntScan]
    refine hi.bind ?_
    rw [if_pos rfl]
    refine ih (fun j hj => hz j (by omega)) ?_
    rwa [Nat.succ_add_eq_add_succ]

/-- **The search finds the counting byte**, when the count is even. -/
theorem resetCntGetIdx_reads {k : Nat} (h : Counter f i (2 * k)) : Reads f resetCntGetIdx i := by
  have hi : i ≤ 3840 := by rcases h.room with hr | ⟨hr, -⟩ <;> omega
  obtain ⟨n, hn⟩ : ∃ n, flashSectorSize = i + (n + 1) :=
    ⟨4095 - i, by simp [flashSectorSize]; omega⟩
  have hle := h.le
  rw [resetCntGetIdx, hn]
  refine resetCntScan_zeros (fun j hj => h.zeros j (by omega)) ?_
  rw [Nat.zero_add, resetCntScan]
  refine h.get.bind ?_
  rw [if_neg (show cntByte (2 * k) ≠ resetCntInvalid from cntByte_ne_zero _ hle)]
  by_cases hk : 2 * k = 0
  · rw [if_pos ((cntByte_eq_blank _ hle).mpr hk)]
    exact .pure i
  · rw [if_neg (mt (cntByte_eq_blank _ hle).mp hk), if_neg (cntByte_valid k (by omega) hk)]
    exact .pure i

/-! ### Writing -/

theorem writeResetCnt_run_lt (hi : i < 3840) (b : Byte) (f : Flash) :
    (writeResetCnt i b).run f = (i, f.write (flashAdrResetCnt + i) [b]) := by
  rw [writeResetCnt, resetCntClean, if_pos hi]
  rfl

/-- Programming one byte of the sector. -/
theorem write_byte (f : Flash) (i j : Nat) (b : Byte) :
    f.write (flashAdrResetCnt + i) [b] (flashAdrResetCnt + j) =
      if j = i then f (flashAdrResetCnt + i) &&& b else f (flashAdrResetCnt + j) := by
  split
  · rename_i hj
    rw [hj, Flash.write_head]
  · exact Flash.write_outside f (by simp only [List.length_singleton]; omega)

/-- **Clearing** uses the counting byte up. -/
theorem clearResetCnt_run (h : Counter f i c) (hc : c ≠ 0) :
    ∃ g, (clearResetCnt i).run f = (i, g) ∧ Counter g (i + 1) 0 := by
  have hi : i < 3840 := h.room.resolve_right fun hr => hc hr.2
  refine ⟨_, writeResetCnt_run_lt hi _ f, fun j hj => ?_, ?_, fun j hj hj' => ?_, by decide, ?_⟩
  · rw [write_byte]
    split
    · exact BitVec.and_zero
    · exact h.zeros j (by omega)
  · rw [write_byte, if_neg (by omega),
      h.blanks _ (Nat.lt_succ_self i) (by simp [flashSectorSize]; omega)]
    rfl
  · rw [write_byte, if_neg (by omega), h.blanks j (by omega) hj']
  · rcases Nat.lt_or_ge (i + 1) 3840 with hr | hr
    · exact .inl hr
    · exact .inr ⟨by omega, rfl⟩

/-- Writing a count to a byte that has none, behind an erase where the sector is used up. -/
theorem writeResetCnt_run (h : Counter f i 0) (hle : c ≤ 10) :
    ∃ j g, (writeResetCnt i (cntByte c)).run f = (j, g) ∧ Counter g j c := by
  -- on a byte below 3840 the write is all there is
  have hwrite : ∀ {f : Flash} {i : Nat}, Counter f i 0 → i < 3840 →
      Counter (f.write (flashAdrResetCnt + i) [cntByte c]) i c := by
    intro f i h hi
    refine ⟨fun j hj => ?_, ?_, fun j hj hj' => ?_, hle, .inl hi⟩
    · rw [write_byte, if_neg (by omega), h.zeros j hj]
    · rw [write_byte, if_pos rfl, h.count]
      exact Flash.blank_and _
    · rw [write_byte, if_neg (by omega), h.blanks j hj hj']
  rcases h.room with hi | ⟨rfl, -⟩
  · exact ⟨i, _, writeResetCnt_run_lt hi _ f, hwrite h hi⟩
  · have hblank : Counter (f.erase flashAdrResetCnt flashSectorSize) 0 0 :=
      .of_blank fun j hj => Flash.erase_inside f ⟨Nat.le_add_right _ _, Nat.add_lt_add_left hj _⟩
    exact ⟨0, _, rfl, hwrite hblank (by decide)⟩

/-- **Increasing** makes the count one more, in the next byte. -/
theorem increaseResetCnt_run (h : Counter f i c) (hc : c < 10) :
    ∃ j g, (increaseResetCnt i).run f = (j, g) ∧ Counter g j (c + 1) := by
  have hle := h.le
  rw [increaseResetCnt, run_bind_of h.get.run]
  by_cases h0 : c = 0
  · subst h0
    exact writeResetCnt_run (c := 1) h (by decide)
  · obtain ⟨g, hrun, hg⟩ := clearResetCnt_run h h0
    rw [if_neg (mt (cntByte_eq_blank c hle).mp h0), if_pos (cntByte_ne_zero c hle),
      run_bind_of hrun, cntByte_succ c hc h0]
    exact writeResetCnt_run hg hc

/-- RAM with the check time that stands at `c`. -/
def CntRam.load (r : CntRam) (c : Nat) : CntRam :=
  { r with
    resetCheckTime := (factoryResetSerials.getD c 0).setWidth 32
    serialReads := r.serialReads ++ [(c : Int)] }

/-- The check time is read inside the array. -/
theorem loadCheckTime_run (beyond : Int → Byte) {r : CntRam}
    (h : Counter f r.adrResetCntIdx (c + 1)) :
    (loadCheckTime beyond r).run f = (r.load c, f) := by
  have hle := h.le
  have hi : ((cntByte (c + 1)).toNat : Int) - 1 = c := by
    rw [cntByte, if_neg (Nat.succ_ne_zero c), BitVec.toNat_ofNat]
    omega
  have hs : serialAt beyond c = factoryResetSerials.getD c 0 := by
    rw [serialAt, if_pos ⟨by omega, by simp [factoryResetSerials]; omega⟩, Int.toNat_natCast]
  rw [loadCheckTime, run_bind_of h.get.run, run_pure, hi, hs, CntRam.load]

/-- **Handling** counts the power-on, or resets at ten. -/
theorem factoryResetHandle_run {k : Nat} (h : Counter f i (2 * k)) (hk : k < 5) (r : CntRam) :
    ∃ j g, (factoryResetHandle r).run f = ({ r with adrResetCntIdx := j }, g) ∧
      Counter g j (2 * k + 1) := by
  obtain ⟨j, g, hrun, hg⟩ := increaseResetCnt_run h (by omega)
  refine ⟨j, g, ?_, hg⟩
  rw [factoryResetHandle, run_bind_of (resetCntGetIdx_reads h).run, run_bind_of h.get.run,
    if_neg (mt (cntByte_eq_trigger _ h.le).mp (by omega)), run_bind_of hrun]
  rfl

theorem factoryResetHandle_trigger (h : Counter f i 10) (r : CntRam) :
    (factoryResetHandle r).run f = ({ r with adrResetCntIdx := i, rebooted := true },
      f.eraseList flashSectorSize resetSectors) := by
  have hreset : factoryReset.run f = ((), f.eraseList flashSectorSize resetSectors) := by
    rw [factoryReset_eq, run_eraseList]
  rw [factoryResetHandle, run_bind_of (resetCntGetIdx_reads (k := 5) h).run, run_bind_of h.get.run,
    if_pos ((cntByte_eq_trigger _ h.le).mpr rfl), run_bind_of hreset]
  rfl

theorem factoryResetHandle_trigger_cut (h : Counter f i 10) (r : CntRam) (n : Nat) :
    (factoryResetHandle r).cutAfter n f = f.eraseList flashSectorSize (resetSectors.take n) := by
  rw [factoryResetHandle, (resetCntGetIdx_reads (k := 5) h).cutAfter_bind, h.get.cutAfter_bind,
    if_pos ((cntByte_eq_trigger _ h.le).mpr rfl),
    cutAfter_bind_pure (b := { r with adrResetCntIdx := i, rebooted := true }) rfl,
    factoryReset_eq, cutAfter_eraseList]

end PirMesh

import PirMesh.Device.CounterWindow
import PirMesh.Flash.ParSpec

/-! # Device — Boot

What `main` does with the flash from reset to sleep or reboot: the joined flag
and the provisioning record decide between the report of a joined node, the
main loop of an unprovisioned one, and `kick_out`.

A boot that ends in a factory reset has erased every sector (`main_erases`),
wherever the reset came from.  Outside the counter's sector a boot programs
nothing, so what is blank stays blank wherever power fails (`main_blank`).  A
node whose joined flag is gone either kicks itself out (`main_kickOut`) or runs
the checks of the reset counter (`main_checks`). -/

namespace PirMesh

open Nor Nor.Prog

/-- `sizeof(provision_mag)` -/
def sizeofProvisionMag : Nat := 112

/-- Where `gatt_mode` is in it. -/
def gattModeOffset : Nat := 66

def gattProxyMode : Byte := 2

/-- `provision_mag` as the boot retrieves it is in proxy mode. -/
def isProvisionSuccess : Prog Bool := do
  let r ← meshParRetrieve (List.replicate sizeofProvisionMag 0) flashAdrProvisionCfgS
    flashAdrProvisionCfgS sizeofProvisionMag
  return r.out.getD gattModeOffset 0 == gattProxyMode

/-- What a boot meets. -/
structure BootEnv where
  /-- `sleepBeforSend` sleeps: motion is as reported and there is no light to report. -/
  quiet : Bool
  /-- The ticks at which the main loop checks the reset counter. -/
  checks : List Nat
  paced : Paced 0 checks

/-- Returns whether the boot ended in a factory reset. -/
def main (beyond : Int → Byte) (env : BootEnv) : Prog Bool := do
  let joinState ← flashReadJoinFlag
  if joinState = 0 ∧ env.quiet then return false
  else do
    let prov ← isProvisionSuccess
    if prov then
      if joinState = 0 then do
        -- the main loops of `sensorSendData`, then `sleepAfterSend`
        let r ← checkAll beyond env.checks {}
        return r.rebooted
      else do
        kickOut
        return true
    else if joinState = 0 then return false
    else do
      let r ← checkAll beyond env.checks {}
      return r.rebooted

variable {beyond : Int → Byte} {f : Flash}

/-! ### What a reset leaves -/

/-- Every sector `factory_reset` erases is blank, the counter's own apart. -/
def AllErased (f : Flash) : Prop :=
  ∀ b ∈ resetSectors, b ≠ flashAdrResetCnt → ∀ a, b ≤ a → a < b + flashSectorSize → f a = blank

/-- The order in which `kick_out` erases. -/
def kickOutSectors : List Nat := [nodeAdr, boxAdr, joinFlagAdr] ++ resetSectors

theorem allErased_eraseList {l : List Nat} (h : ∀ b ∈ resetSectors, b ∈ l) (f : Flash) :
    AllErased (f.eraseList flashSectorSize l) :=
  fun b hb _ _ ha ha' => Flash.eraseList_inside f (h b hb) ⟨ha, ha'⟩

theorem factoryReset_run (f : Flash) :
    factoryReset.run f = ((), f.eraseList flashSectorSize resetSectors) := by
  rw [factoryReset_eq, run_eraseList]

theorem kickOut_run (f : Flash) :
    kickOut.run f = ((), f.eraseList flashSectorSize kickOutSectors) := by
  rw [kickOut_eq, run_eraseList, kickOutSectors]

theorem kickOut_cut (n : Nat) (f : Flash) :
    kickOut.cutAfter n f = f.eraseList flashSectorSize (kickOutSectors.take n) := by
  rw [kickOut_eq, cutAfter_eraseList, kickOutSectors]

/-! ### Boots -/

theorem flashReadJoinFlag_reads (f : Flash) : Reads f flashReadJoinFlag (f joinFlagAdr) :=
  .read (.pure _)

/-- What the boot finds in the provisioning record. -/
def provisioned (f : Flash) : Bool := (isProvisionSuccess.run f).1

theorem readOnly_isProvisionSuccess : isProvisionSuccess.ReadOnly :=
  (readOnly_parRetrieveLoop ..).bind fun _ => readOnly_pure _

theorem isProvisionSuccess_reads (f : Flash) : Reads f isProvisionSuccess (provisioned f) :=
  readOnly_isProvisionSuccess.reads f

/-- A provisioned node that is not joined kicks itself out. -/
theorem main_kickOut (beyond : Int → Byte) (env : BootEnv) (hf : f joinFlagAdr ≠ 0)
    (hp : provisioned f = true) :
    (main beyond env).run f = (true, f.eraseList flashSectorSize kickOutSectors) ∧
      ∀ n, (main beyond env).cutAfter n f = kickOut.cutAfter n f := by
  refine ⟨?_, fun n => ?_⟩
  · rw [main, run_bind_of (flashReadJoinFlag_reads f).run, if_neg fun h => hf h.1,
      run_bind_of (isProvisionSuccess_reads f).run, if_pos hp, if_neg hf,
        run_bind_of (kickOut_run f)]
    rfl
  · rw [main, (flashReadJoinFlag_reads f).cutAfter_bind, if_neg fun h => hf h.1,
      (isProvisionSuccess_reads f).cutAfter_bind, if_pos hp, if_neg hf,
      cutAfter_bind_pure (b := true) rfl]

/-- An unprovisioned node that is not joined runs the checks of the reset counter. -/
theorem main_checks (beyond : Int → Byte) (env : BootEnv) (hf : f joinFlagAdr ≠ 0)
    (hp : provisioned f = false) :
    (main beyond env).run f = (((checkAll beyond env.checks {}).run f).1.rebooted,
        ((checkAll beyond env.checks {}).run f).2) ∧
      ∀ n, (main beyond env).cutAfter n f = (checkAll beyond env.checks {}).cutAfter n f := by
  have hp' : ¬ provisioned f = true := by simp [hp]
  refine ⟨?_, fun n => ?_⟩
  · rw [main, run_bind_of (flashReadJoinFlag_reads f).run, if_neg fun h => hf h.1,
      run_bind_of (isProvisionSuccess_reads f).run, if_neg hp', if_neg hf, run_bind]
    rfl
  · rw [main, (flashReadJoinFlag_reads f).cutAfter_bind, if_neg fun h => hf h.1,
      (isProvisionSuccess_reads f).cutAfter_bind, if_neg hp', if_neg hf,
      cutAfter_bind_pure (b := ((checkAll beyond env.checks {}).run f).1.rebooted) rfl]

/-! ### A reset erases -/

/-- When the program ends in a reboot, everything has been erased. -/
def ResetErases (p : Prog CntRam) : Prop :=
  ∀ f, (p.run f).1.rebooted = true → AllErased (p.run f).2

theorem factoryResetHandle_erases {r : CntRam} (hr : r.rebooted = false) :
    ResetErases (factoryResetHandle r) := by
  intro f h
  rw [factoryResetHandle, run_bind, run_bind, run_ite] at h ⊢
  split at h
  · rw [if_pos ‹_›, run_bind_of (factoryReset_run _)]
    exact allErased_eraseList (fun _ hb => hb) _
  · rw [run_bind] at h
    exact absurd h (by simp [hr])

theorem loadCheckTime_rebooted (beyond : Int → Byte) (r : CntRam) (f : Flash) :
    ((loadCheckTime beyond r).run f).1.rebooted = r.rebooted := rfl

theorem checkFirst_rebooted (beyond : Int → Byte) (r : CntRam) (f : Flash) :
    ((checkFirst beyond r).run f).1.rebooted = r.rebooted := by
  unfold checkFirst
  split <;> rfl

theorem checkOpen_rebooted (beyond : Int → Byte) (clock : BitVec 32) (r : CntRam) (f : Flash) :
    ((checkOpen beyond clock r).run f).1.rebooted = r.rebooted := by
  unfold checkOpen
  split
  · rw [run_bind, loadCheckTime_rebooted]
  · rfl

theorem checkClose_rebooted (clock : BitVec 32) (r : CntRam) (f : Flash) :
    ((checkClose clock r).run f).1.rebooted = r.rebooted := by
  unfold checkClose
  split
  · rw [run_bind]
    rfl
  · rfl

theorem factoryResetCntCheck_erases (beyond : Int → Byte) (clock : BitVec 32) {r : CntRam}
    (hr : r.rebooted = false) : ResetErases (factoryResetCntCheck beyond clock r) := by
  have hvalid : ResetErases (checkValid clock r) := by
    unfold checkValid
    split
    · exact factoryResetHandle_erases (r := { r with clearSt := 3 }) hr
    · exact fun f h => absurd h (by simp [hr])
  intro f h
  unfold factoryResetCntCheck at h ⊢
  split at h
  · exact absurd h (by simp [hr])
  rw [if_neg ‹_›]
  rw [run_bind, run_ite] at h ⊢
  split at h
  · rw [if_pos ‹_›]
    exact hvalid f ‹_›
  · rw [run_bind, run_bind, checkClose_rebooted, checkOpen_rebooted, checkFirst_rebooted] at h
    exact absurd h ‹_›

theorem checkAll_erases (beyond : Int → Byte) (ts : List Nat) {r : CntRam}
    (hr : r.rebooted = false) : ResetErases (checkAll beyond ts r) := by
  induction ts generalizing r with
  | nil => exact fun f h => absurd h (by simp [checkAll, hr])
  | cons t ts ih =>
    intro f h
    rw [checkAll, run_bind, run_ite] at h ⊢
    split at h
    · rw [if_pos ‹_›]
      exact factoryResetCntCheck_erases beyond _ hr f ‹_›
    · rw [if_neg ‹_›]
      exact ih (Bool.eq_false_iff.mpr ‹_›) _ h

/-- **A boot that ends in a reset has erased everything.** -/
theorem main_erases (beyond : Int → Byte) (env : BootEnv) (f : Flash)
    (h : ((main beyond env).run f).1 = true) : AllErased ((main beyond env).run f).2 := by
  rw [main, run_bind_of (flashReadJoinFlag_reads f).run, run_ite] at h ⊢
  split at h
  · exact absurd h (by simp)
  rw [if_neg ‹_›]
  rw [run_bind_of (isProvisionSuccess_reads f).run, run_ite, run_ite, run_ite] at h ⊢
  split at h
  · rw [if_pos ‹_›]
    split at h
    · rw [if_pos ‹_›, run_bind]
      rw [run_bind] at h
      exact checkAll_erases beyond env.checks rfl f h
    · rw [if_neg ‹_›, run_bind_of (kickOut_run f)]
      exact allErased_eraseList (by decide) f
  · rw [if_neg ‹_›]
    split at h
    · exact absurd h (by simp)
    · rw [if_neg ‹_›, run_bind]
      rw [run_bind] at h
      exact checkAll_erases beyond env.checks rfl f h

/-! ### Where a boot writes -/

/-- The sector of the reset counter. -/
def InCounter (a : Nat) : Prop := flashAdrResetCnt ≤ a ∧ a < flashAdrResetCnt + flashSectorSize

theorem writesIn_flashWritePage {i : Nat} (hi : i < 3840) (b : Byte) :
    (flashWritePage (flashAdrResetCnt + i) [b]).WritesIn InCounter := by
  refine ⟨fun j hj => ?_, trivial⟩
  simp only [List.length_singleton] at hj
  exact ⟨by omega, by simp [flashSectorSize]; omega⟩

theorem writesIn_writeResetCnt (i : Nat) (b : Byte) : (writeResetCnt i b).WritesIn InCounter := by
  unfold writeResetCnt resetCntClean
  by_cases hi : i < 3840
  · rw [if_pos hi]
    exact (writesIn_flashWritePage hi b).bind fun _ => trivial
  · rw [if_neg hi]
    exact (writesIn_flashWritePage (i := 0) (by decide) b).bind fun _ => trivial

theorem readOnly_getResetCnt (i : Nat) : (getResetCnt i).ReadOnly :=
  (readOnly_readAt _ _).bind fun _ => readOnly_pure _

theorem writesIn_getResetCnt (i : Nat) : (getResetCnt i).WritesIn InCounter :=
  (readOnly_getResetCnt i).writesIn _

theorem writesIn_pure {α : Type} (a : α) : (Pure.pure a : Prog α).WritesIn InCounter := trivial

theorem writesIn_resetCntScan (n : Nat) : ∀ i, (resetCntScan n i).WritesIn InCounter := by
  induction n with
  | zero => exact fun i => writesIn_pure i
  | succ n ih =>
    exact fun i => (writesIn_getResetCnt i).bind fun _ =>
      (ih _).ite ((writesIn_pure _).ite ((writesIn_writeResetCnt _ _).ite (writesIn_pure _)))

theorem writesIn_increaseResetCnt (i : Nat) : (increaseResetCnt i).WritesIn InCounter :=
  (writesIn_getResetCnt i).bind fun _ => (writesIn_writeResetCnt _ _).ite
    (((writesIn_writeResetCnt _ _).bind fun _ => writesIn_writeResetCnt _ _).ite
      (writesIn_writeResetCnt _ _))

theorem writesIn_factoryReset : factoryReset.WritesIn InCounter :=
  factoryReset_eq ▸ writesIn_eraseList ..

theorem writesIn_kickOut : kickOut.WritesIn InCounter := kickOut_eq ▸ writesIn_eraseList ..

theorem writesIn_factoryResetHandle (r : CntRam) : (factoryResetHandle r).WritesIn InCounter :=
  (writesIn_resetCntScan _ _).bind fun _ => (writesIn_getResetCnt _).bind fun _ =>
    (writesIn_factoryReset.bind fun _ => writesIn_pure _).ite
      ((writesIn_increaseResetCnt _).bind fun _ => writesIn_pure _)

theorem writesIn_loadCheckTime (beyond : Int → Byte) (r : CntRam) :
    (loadCheckTime beyond r).WritesIn InCounter :=
  (writesIn_getResetCnt _).bind fun _ => writesIn_pure _

theorem writesIn_factoryResetCntCheck (beyond : Int → Byte) (clock : BitVec 32) (r : CntRam) :
    (factoryResetCntCheck beyond clock r).WritesIn InCounter := by
  have hvalid : (checkValid clock r).WritesIn InCounter :=
    (writesIn_factoryResetHandle _).ite (writesIn_pure r)
  have hfirst : ∀ r, (checkFirst beyond r).WritesIn InCounter := fun r =>
    (writesIn_loadCheckTime beyond _).ite (writesIn_pure r)
  have hopen : ∀ r, (checkOpen beyond clock r).WritesIn InCounter := fun r =>
    ((writesIn_increaseResetCnt _).bind fun _ => writesIn_loadCheckTime beyond _).ite
      (writesIn_pure r)
  have hclose : ∀ r, (checkClose clock r).WritesIn InCounter := fun r =>
    ((writesIn_writeResetCnt _ _).bind fun _ => writesIn_pure _).ite (writesIn_pure r)
  exact (writesIn_pure r).ite (hvalid.bind fun _ => (writesIn_pure _).ite
    ((hfirst _).bind fun _ => (hopen _).bind fun _ => hclose _))

theorem writesIn_checkAll (beyond : Int → Byte) (ts : List Nat) : ∀ r,
    (checkAll beyond ts r).WritesIn InCounter := by
  induction ts with
  | nil => exact fun r => writesIn_pure r
  | cons t ts ih =>
    exact fun r => (writesIn_factoryResetCntCheck beyond _ r).bind fun r =>
      (writesIn_pure r).ite (ih r)

theorem readOnly_flashReadJoinFlag : flashReadJoinFlag.ReadOnly :=
  (readOnly_readAt _ _).bind fun _ => readOnly_pure _

theorem writesIn_main (beyond : Int → Byte) (env : BootEnv) :
    (main beyond env).WritesIn InCounter := by
  have hchecks : (do
      let r ← checkAll beyond env.checks {}
      return r.rebooted : Prog Bool).WritesIn InCounter :=
    (writesIn_checkAll ..).bind fun _ => writesIn_pure _
  exact (readOnly_flashReadJoinFlag.writesIn _).bind fun _ => (writesIn_pure _).ite
    ((readOnly_isProvisionSuccess.writesIn _).bind fun _ =>
      (hchecks.ite (writesIn_kickOut.bind fun _ => writesIn_pure _)).ite
        ((writesIn_pure _).ite hchecks))

/-- **What is erased stays erased** through a boot, wherever power fails. -/
theorem main_blank (beyond : Int → Byte) (env : BootEnv) (h : AllErased f) :
    Always AllErased (main beyond env) f := by
  intro n b hb hne a ha ha'
  have hout : ∀ b ∈ resetSectors, b ≠ flashAdrResetCnt →
      b + flashSectorSize ≤ flashAdrResetCnt ∨ flashAdrResetCnt + flashSectorSize ≤ b := by decide
  refine (writesIn_main beyond env).blank (fun hin => ?_) (h b hb hne a ha ha') n
  have hin' : flashAdrResetCnt ≤ a ∧ a < flashAdrResetCnt + flashSectorSize := hin
  have := hout b hb hne
  omega

end PirMesh

import PirMesh.Device.Boot
import PirMesh.Library.Run

/-! # Device — A reset that is interrupted

`kick_out` erases 25 sectors in a fixed order; power may fail between any two,
and again in the boots that redo it.  What makes a boot redo it is that the
joined flag is gone while the provisioning record is still there, or that the
reset counter stands at ten.  Neither holds once the provisioning record is
erased and the counter was not at ten, and neither holds before the joined flag
of a joined node is erased.

`CutsWell` keeps power cuts out of these two windows, and `reset_finishes` is
the result for all runs that it allows. -/

namespace PirMesh

open Nor Nor.Prog CommitLog Run

variable {beyond : Int → Byte} {f g : Flash} {n : Nat}

/-! ### What makes a boot redo it -/

def provCfg : ParCfg := ⟨flashAdrProvisionCfgS, sizeofProvisionMag, by decide, by decide⟩

/-- The provisioning sector holds a log whose record is in proxy mode. -/
def Provisioned (f : Flash) : Prop :=
  ∃ l x, Holds provCfg f l ∧ l.current = some x ∧ x.getD gattModeOffset 0 = gattProxyMode

/-- The counter stands at the value that resets. -/
def CounterPending (f : Flash) : Prop := ∃ i, Counter f i 10

/-- A later boot redoes the reset. -/
def Pending (f : Flash) : Prop := f joinFlagAdr ≠ 0 ∧ (Provisioned f ∨ CounterPending f)

theorem Provisioned.boots (h : Provisioned f) : provisioned f = true := by
  obtain ⟨l, x, hl, hx, hmode⟩ := h
  have hrun := meshParRetrieve_run hl (List.replicate sizeofProvisionMag 0) flashAdrProvisionCfgS
  rw [hx] at hrun
  have hout : (meshParRetrieve (List.replicate sizeofProvisionMag 0) flashAdrProvisionCfgS
      flashAdrProvisionCfgS sizeofProvisionMag).run f = _ := hrun
  rw [provisioned, isProvisionSuccess, run_bind_of hout, run_pure]
  exact beq_iff_eq.mpr hmode

theorem Provisioned.congr (h : Provisioned f) (hfg : ∀ a, flashAdrProvisionCfgS ≤ a →
    a < flashAdrProvisionCfgS + flashSectorSize → g a = f a) : Provisioned g := by
  obtain ⟨l, x, hl, hx⟩ := h
  exact ⟨l, x, hl.congr hfg, hx⟩

theorem CounterPending.congr (h : CounterPending f)
    (hfg : ∀ j < flashSectorSize, g (flashAdrResetCnt + j) = f (flashAdrResetCnt + j)) :
    CounterPending g := by
  obtain ⟨i, hc⟩ := h
  have hi : i < 3840 := hc.room.resolve_right fun hr => absurd hr.2 (by decide)
  refine ⟨i, fun j hj => ?_, ?_, fun j hj hj' => ?_, hc.le, hc.room⟩
  · rw [hfg j (by simp [flashSectorSize]; omega), hc.zeros j hj]
  · rw [hfg i (by simp [flashSectorSize]; omega), hc.count]
  · rw [hfg j hj', hc.blanks j hj hj']

/-- Erasing other sectors keeps what makes a boot redo the reset. -/
theorem Provisioned.erased {l : List Nat} (h : Provisioned f)
    (hl : ∀ b ∈ l, b + flashSectorSize ≤ flashAdrProvisionCfgS ∨
      flashAdrProvisionCfgS + flashSectorSize ≤ b) :
    Provisioned (f.eraseList flashSectorSize l) :=
  h.congr fun _ ha ha' => Flash.eraseList_outside f fun b hb => by
    have := hl b hb
    omega

theorem CounterPending.erased {l : List Nat} (h : CounterPending f)
    (hl : ∀ b ∈ l, b + flashSectorSize ≤ flashAdrResetCnt ∨
      flashAdrResetCnt + flashSectorSize ≤ b) :
    CounterPending (f.eraseList flashSectorSize l) :=
  h.congr fun _ hj => Flash.eraseList_outside f fun b hb => by
    have := hl b hb
    omega

theorem joinFlag_erased (l : List Nat) (h : f joinFlagAdr ≠ 0) :
    f.eraseList flashSectorSize l joinFlagAdr ≠ 0 := by
  rcases f.eraseList_or flashSectorSize joinFlagAdr l with hl | hl <;> rw [hl]
  · exact h
  · decide

/-! ### Interrupted resets -/

/-- A state in which nothing is left to do, or a boot will do it. -/
def Resumable (f : Flash) : Prop := AllErased f ∨ Pending f

/-- A call of `kick_out` may lose power after `n` erases: it was done, or the joined
flag is gone and the provisioning record (or a counter at ten) is still there. -/
def CutResumes (f : Flash) (n : Nat) : Prop :=
  kickOutSectors.length ≤ n ∨
  (3 ≤ n ∨ f joinFlagAdr ≠ 0) ∧
    (n ≤ 3 + sectorsBefore.length ∧ Provisioned f ∨ CounterPending f)

/-- **A cut that resumes** leaves a resumable state. -/
theorem kickOut_resumable (h : CutResumes f n) : Resumable (kickOut.cutAfter n f) := by
  rw [kickOut_cut]
  have hall : kickOutSectors.length ≤ n →
      AllErased (f.eraseList flashSectorSize (kickOutSectors.take n)) := fun hn => by
    rw [List.take_of_length_le hn]
    exact allErased_eraseList (by decide) f
  by_cases hn : kickOutSectors.length ≤ n
  · exact .inl (hall hn)
  obtain ⟨hflag, hpend⟩ := h.resolve_left hn
  have hlt : n ≤ kickOutSectors.length - 1 := by omega
  have hmem : ∀ {m b}, n ≤ m → b ∈ kickOutSectors.take n → b ∈ kickOutSectors.take m :=
    fun hm hb => (List.take_sublist_take_left hm).subset hb
  refine .inr ⟨?_, hpend.imp (fun hp => ?_) fun hp => ?_⟩
  · rcases hflag with h3 | hf
    · rw [Flash.eraseList_inside f (b := joinFlagAdr)
        ((List.take_sublist_take_left h3).subset (by decide)) (by decide)]
      decide
    · exact joinFlag_erased _ hf
  · have hout : ∀ b ∈ kickOutSectors.take (3 + sectorsBefore.length),
        b + flashSectorSize ≤ flashAdrProvisionCfgS ∨
          flashAdrProvisionCfgS + flashSectorSize ≤ b := by decide
    exact hp.2.erased fun b hb => hout b (hmem hp.1 hb)
  · have hout : ∀ b ∈ kickOutSectors.take (kickOutSectors.length - 1),
        b + flashSectorSize ≤ flashAdrResetCnt ∨ flashAdrResetCnt + flashSectorSize ≤ b := by decide
    exact hp.erased fun b hb => hout b (hmem hlt hb)

/-- A `factory_reset` from the counter, on a node that is not joined. -/
theorem factoryReset_resumable (hf : f joinFlagAdr ≠ 0) (hc : CounterPending f) (n : Nat) :
    Resumable (f.eraseList flashSectorSize (resetSectors.take n)) := by
  by_cases hn : resetSectors.length ≤ n
  · rw [List.take_of_length_le hn]
    exact .inl (allErased_eraseList (fun _ hb => hb) f)
  · have hout : ∀ b ∈ resetSectors.take (resetSectors.length - 1),
        b + flashSectorSize ≤ flashAdrResetCnt ∨ flashAdrResetCnt + flashSectorSize ≤ b := by decide
    have hle : n ≤ resetSectors.length - 1 := by omega
    exact .inr ⟨joinFlag_erased _ hf, .inr (hc.erased fun b hb =>
      hout b ((List.take_sublist_take_left hle).subset hb))⟩

/-! ### Runs -/

structure ResetState where
  flash : Flash
  /-- Not in the code: a reset has begun. -/
  begun : Bool

inductive ResetEvent
  /-- `kick_out` is called; power fails after `n` flash operations, if it does before the end. -/
  | kickOut (n : Nat)
  /-- A boot; power may fail after some flash operations of it. -/
  | boot (env : BootEnv) (cut : Option Nat)

section

variable (beyond : Int → Byte)

def bootFlash (env : BootEnv) (f : Flash) : Option Nat → Flash
  | none => (main beyond env).exec f
  | some n => (main beyond env).cutAfter n f

def resetNext (s : ResetState) : ResetEvent → ResetState
  | .kickOut n => { flash := kickOut.cutAfter n s.flash, begun := true }
  | .boot env cut =>
    { flash := bootFlash beyond env s.flash cut
      begun := s.begun || ((main beyond env).run s.flash).1 }

def resetSys : Sys ResetState ResetEvent := .det (fun s => s.begun = false) (resetNext beyond)

/-- Power does not fail in a window from which no boot resumes the reset. -/
def CutsWell (s : ResetState) : ResetEvent → Prop
  | .kickOut n => CutResumes s.flash n
  | .boot _ none => True
  | .boot env (some n) =>
    ((main beyond env).run s.flash).1 = true →
      (main beyond env).cutAfter n s.flash = (main beyond env).exec s.flash ∨
      (s.flash joinFlagAdr ≠ 0 ∧
        if provisioned s.flash then CutResumes s.flash n else CounterPending s.flash)

end

variable {s : ResetState}

/-- The checks of a node that has a counter at ten and is not joined. -/
theorem checks_resumable (env : BootEnv) (hf : f joinFlagAdr ≠ 0) (hp : provisioned f = false)
    (hc : CounterPending f) : Always Resumable (main beyond env) f := by
  intro n
  obtain ⟨i, hi⟩ := hc
  rw [(main_checks beyond env hf hp).2]
  by_cases hv : validOn < env.checks.getLastD 0
  · rw [(checkAll_trigger beyond rfl rfl hi (Nat.zero_le _) env.paced hv).2]
    exact factoryReset_resumable hf ⟨i, hi⟩ n
  · rw [(checkAll_short beyond rfl rfl env.paced (Nat.le_of_not_lt hv) f).cutAfter]
    exact .inr ⟨hf, .inr ⟨i, hi⟩⟩

/-- A boot keeps a resumable state, or brings the reset it ends in to one. -/
theorem boot_resumable (env : BootEnv) (cut : Option Nat)
    (hgood : CutsWell beyond s (.boot env cut))
    (hb : s.begun = true → Resumable s.flash)
    (h : s.begun = true ∨ ((main beyond env).run s.flash).1 = true) :
    Resumable (bootFlash beyond env s.flash cut) := by
  by_cases hres : ((main beyond env).run s.flash).1 = true
  · have hexec : AllErased ((main beyond env).exec s.flash) := main_erases beyond env s.flash hres
    cases cut with
    | none => exact .inl hexec
    | some n =>
      rcases hgood hres with hdone | ⟨hf, hway⟩
      · exact .inl (by rw [bootFlash, hdone]; exact hexec)
      · by_cases hp : provisioned s.flash = true
        · rw [if_pos hp] at hway
          rw [bootFlash, (main_kickOut beyond env hf hp).2]
          exact kickOut_resumable hway
        · rw [if_neg hp] at hway
          exact checks_resumable env hf (Bool.eq_false_iff.mpr hp) hway n
  · have hkeep : Always Resumable (main beyond env) s.flash := by
      rcases hb (h.resolve_right hres) with hall | ⟨hf, hpend⟩
      · exact (main_blank beyond env hall).mono fun _ => .inl
      · -- a provisioned node would have kicked itself out
        have hp : provisioned s.flash = false := by
          refine Bool.eq_false_iff.mpr fun hp => hres ?_
          rw [(main_kickOut beyond env hf hp).1]
        exact checks_resumable env hf hp (hpend.resolve_left fun hprov =>
          absurd hprov.boots (by simp [hp]))
    cases cut with
    | none => exact hkeep.exec
    | some n => exact hkeep n

/-- **A complete boot finishes a resumable reset.** -/
theorem boot_finishes (env : BootEnv) (hv : validOn < env.checks.getLastD 0) (h : Resumable f) :
    AllErased ((main beyond env).exec f) := by
  rcases h with hall | ⟨hf, hpend⟩
  · exact (main_blank beyond env hall).exec
  · refine main_erases beyond env f ?_
    by_cases hp : provisioned f = true
    · rw [(main_kickOut beyond env hf hp).1]
    · obtain ⟨i, hi⟩ : CounterPending f := hpend.resolve_left fun hprov => hp hprov.boots
      rw [(main_checks beyond env hf (Bool.eq_false_iff.mpr hp)).1,
        (checkAll_trigger beyond rfl rfl hi (Nat.zero_le _) env.paced hv).1]
      rfl

/-- A `provision_mag` in proxy mode. -/
def proxyRecord : Record provCfg :=
  ⟨List.replicate gattModeOffset 0 ++ gattProxyMode :: List.replicate 45 0, by decide⟩

/-- Something of the old network in the misc sector, and the provisioning record. -/
def networkFlash : Flash :=
  ((meshParStore meshSaveMap proxyRecord.1 (provCfg.slotAdr 0) provCfg.adrBase provCfg.size).run
    (Flash.write (fun _ => blank) 0x3d000 [saveFlag])).2

theorem provisioned_networkFlash : Provisioned networkFlash := by
  have hblank : Holds provCfg (Flash.write (fun _ => blank) 0x3d000 [saveFlag]) [] :=
    holds_nil fun _ _ ha => Flash.write_outside _ (.inl (Nat.lt_of_lt_of_le ha (by decide)))
  obtain ⟨g, hrun, hg⟩ := meshParStore_run hblank meshSaveMap proxyRecord
  have hflash : networkFlash = g := congrArg Prod.snd hrun
  exact ⟨_, proxyRecord.1, hflash ▸ hg, rfl, rfl⟩

/-- A complete boot of a node with nothing to report. -/
def plainBoot : BootEnv :=
  ⟨false, [16000000], List.isChain_cons_cons.mpr ⟨by decide, .singleton _⟩⟩

end PirMesh

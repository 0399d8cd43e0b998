import Mathlib.Algebra.GroupWithZero.Nat
import PirMesh.Library.Format
import PirMesh.Library.ProgFrame
import PirMesh.Ota.Write

/-! # Device — Backup of the boot sector (`dual_mode_adapt.c`)

A device with two firmwares keeps a copy of sector 0 while the other firmware runs.  A start with
mesh type STANDBY makes the copy, 64 bytes at a time, then writes a flag, then the sum of the
check sums.  A start with mesh type RECOVER erases sector 0, writes the copy back without the
start flag, and writes the start flag when the sum is right.

A start that is cut anywhere in the backup leaves sector 0 as it is.  A start that is cut between
the erase of sector 0 and its start flag leaves a sector whose byte 8 is blank, and so does one
that restores while the stored check sum is not the right one.  The gate of `dual_mode_en_init`
does not take a blank byte for a start flag that was cleared, so no later start restores again. -/

namespace PirMesh

open Nor Prog

namespace DualMode

/-! ### Addresses and values -/

def flashAdrDualMode4K : Nat := 0x78000

def cfgAdrDualModeEn : Nat := 0x76080

def cfgAdrDualCaliValFlag : Nat := 0x76084

def cfgAdrDualCaliVal : Nat := 0x76088

def dualModeFwAddrSigmesh : Nat := 0

def dualModeFwAddrZigbee : Nat := 0x40000

def flashAdrMeshTypeFlag : Nat := 0x73000

def caliChunkSize : Nat := 64

def dualModeCaliValFlag : Nat := 0x5A

def dualModeSaveEnable : Byte := 0x5A

def typeDualModeStandby : Nat := 0x65

def typeDualModeRecover : Nat := 0x56

inductive State where
  | notSupport
  | supportEnable
  | supportDisable
  deriving DecidableEq, Repr

/-! ### Backup -/

/-- `n` more rounds of the loop; `none` where the device starts again. -/
def backupLoop : (n addr crcTotal : Nat) → Prog (Option Nat)
  | 0, _, crcTotal => return some crcTotal
  | n + 1, addr, crcTotal => do
    let dataRead ← readAt addr caliChunkSize
    writeAt (flashAdrDualMode4K + addr) dataRead
    let dataWrite ← readAt (flashAdrDualMode4K + addr) caliChunkSize
    if dataRead ≠ dataWrite then return none
    else backupLoop n (addr + caliChunkSize) (crcTotal + (crc16 dataRead).toNat)

def backupTlk4KFw : Prog (Option Nat) := backupLoop 64 0 0

/-- Whether the backup is there; `none` where the device starts again. -/
def dualModeBackupTlk4K : Prog (Option Bool) := do
  let caliFlag ← readAt cfgAdrDualCaliValFlag 4
  if ofLE caliFlag ≠ 0 then
    if ofLE caliFlag = 0xffffffff then
      match ← backupTlk4KFw with
      | none => return none
      | some crcTotal =>
        writeAt cfgAdrDualCaliValFlag (toLE 4 dualModeCaliValFlag)
        writeAt cfgAdrDualCaliVal (toLE 4 crcTotal)
        return some true
    else if ofLE caliFlag = dualModeCaliValFlag then
      let fw4K ← readAt flashAdrDualMode4K 4
      if ofLE fw4K = 0xffffffff then
        match ← backupTlk4KFw with
        | none => return none
        | some crcTotal =>
          let crcMic ← readAt cfgAdrDualCaliVal 4
          return some (decide (crcTotal = ofLE crcMic))
      else return some true
    else
      writeAt cfgAdrDualCaliValFlag (toLE 4 0)
      return some false
  else return some false

/-! ### Restore -/

def restoreLoop : (n addr crcTotal : Nat) → Prog (Option Nat)
  | 0, _, crcTotal => return some crcTotal
  | n + 1, addr, crcTotal => do
    let dataRead ← readAt (flashAdrDualMode4K + addr) caliChunkSize
    let crcTotal := crcTotal + (crc16 dataRead).toNat
    let dataRead := if addr = 0 then dataRead.set 8 0xff else dataRead
    writeAt addr dataRead
    let dataWrite ← readAt addr caliChunkSize
    if dataRead ≠ dataWrite then return none
    else restoreLoop n (addr + caliChunkSize) crcTotal

/-- What follows the erase. -/
def restoreWrite : Prog Unit := do
  match ← restoreLoop 64 0 0 with
  | none => return ()
  | some crcTotal =>
    let crcMic ← readAt cfgAdrDualCaliVal 4
    if ofLE crcMic = crcTotal then writeAt 8 [0x4b] else return ()

/-- The device starts again in any case. -/
def dualModeRestoreTlk4K (otaProgramOffset : Nat) : Prog Unit := do
  let caliFlag ← readAt cfgAdrDualCaliValFlag 4
  if ofLE caliFlag = dualModeCaliValFlag ∧ otaProgramOffset = 0 then
    eraseAt 0 4096
    restoreWrite
  else return ()

/-! ### The start -/

/-- The part behind the enable flag: both firmwares are there, the start flag of sector 0 apart.
`none` where the device starts again. -/
def dualModeSelect (otaProgramOffset : Nat) : Prog (Option State) := do
  let startupFlag1 ← readAt (dualModeFwAddrSigmesh + 8) 4
  let startupFlag2 ← readAt (dualModeFwAddrZigbee + 8) 4
  if ofLE startupFlag1 ||| 0x4b = startUpFlag ∧ ofLE startupFlag2 = startUpFlag then
    let meshType ← readAt flashAdrMeshTypeFlag 4
    if ofLE meshType = typeDualModeStandby then
      match ← dualModeBackupTlk4K with
      | none => return none
      | some _ => return some .supportEnable
    else if ofLE meshType = typeDualModeRecover then
      dualModeRestoreTlk4K otaProgramOffset
      return none
    else return some .supportDisable
  else return some .notSupport

def dualModeEnInit (otaProgramOffset : Nat) : Prog (Option State) := do
  let en ← readAt cfgAdrDualModeEn 1
  if en = [0xff] then
    writeAt cfgAdrDualModeEn [dualModeSaveEnable]
    dualModeSelect otaProgramOffset
  else if en = [dualModeSaveEnable] then dualModeSelect otaProgramOffset
  else if en = [0] then return some .notSupport
  else
    writeAt cfgAdrDualModeEn [0]
    return some .notSupport

/-- `set_firmware_type`, by which the other firmware and the application change the mesh type. -/
def setFirmwareType (f : Flash) (sdkType : Nat) : Flash :=
  let f := if f.read flashAdrMeshTypeFlag 4 ≠ List.replicate 4 0xff then
    f.erase flashAdrMeshTypeFlag 4096 else f
  f.write flashAdrMeshTypeFlag (toLE 4 sdkType)

/-- A start: the mesh type that is set for it, where one is, and how many operations it does before
the power fails, where it fails. -/
structure Boot where
  meshType : Option Nat
  cut : Option Nat

def typed (f : Flash) (b : Boot) : Flash :=
  match b.meshType with
  | some sdkType => setFirmwareType f sdkType
  | none => f

variable (otaProgramOffset : Nat)

def afterBoot (f : Flash) (b : Boot) : Flash :=
  match b.cut with
  | some n => (dualModeEnInit otaProgramOffset).cutAfter n (typed f b)
  | none => (dualModeEnInit otaProgramOffset).exec (typed f b)

def afterBoots (f : Flash) (bs : List Boot) : Flash := bs.foldl (afterBoot otaProgramOffset) f

end DualMode

/-! ### Power failures -/

namespace DualMode

variable {image f g : Flash} {otaProgramOffset : Nat}

/-! ### Sectors -/

def SectorIs (image f : Flash) : Prop := ∀ a < 4096, f a = image a

def BackupIs (image f : Flash) : Prop := ∀ i < 4096, f (flashAdrDualMode4K + i) = image i

def caliFlag (f : Flash) : Nat := ofLE (f.read cfgAdrDualCaliValFlag 4)

/-- Where the flag says so, the copy is there. -/
def Backed (image f : Flash) : Prop := caliFlag f = dualModeCaliValFlag → BackupIs image f

/-- No start flag without the image. -/
def StartFlagRight (image f : Flash) : Prop := f 8 = 0x4b → SectorIs image f

theorem startFlagRight_of_blank (h : f 8 = blank) : StartFlagRight image f := by
  intro hflag
  rw [h] at hflag
  exact absurd hflag (by decide)

/-- The bytes that a backup is about. -/
def InCopy (a : Nat) : Prop :=
  (flashAdrDualMode4K ≤ a ∧ a < flashAdrDualMode4K + 4096) ∨
    (cfgAdrDualCaliValFlag ≤ a ∧ a < cfgAdrDualCaliValFlag + 4)

theorem caliFlag_congr (h : ∀ a, InCopy a → g a = f a) : caliFlag g = caliFlag f := by
  unfold caliFlag
  rw [Flash.read_congr fun i hi => h _ (.inr ⟨Nat.le_add_right _ _, by omega⟩)]

theorem Backed.congr (h : Backed image f) (hsame : ∀ a, InCopy a → g a = f a) :
    Backed image g := by
  intro hflag i hi
  rw [caliFlag_congr hsame] at hflag
  rw [hsame _ (.inl ⟨Nat.le_add_right _ _, by omega⟩)]
  exact h hflag i hi

/-! ### Check sums -/

/-- The sum of the check sums of `n` blocks. -/
def crcSum (f : Flash) : (n adr : Nat) → Nat
  | 0, _ => 0
  | n + 1, adr => (crc16 (f.read adr caliChunkSize)).toNat + crcSum f n (adr + caliChunkSize)

theorem crcSum_congr {n a b : Nat} (h : ∀ i < 64 * n, f (a + i) = g (b + i)) :
    crcSum f n a = crcSum g n b := by
  induction n generalizing a b with
  | zero => rfl
  | succ n ih =>
    have hhead : f.read a caliChunkSize = g.read b caliChunkSize := by
      refine List.map_congr_left fun i hi => h i ?_
      have hlt : i < 64 := List.mem_range.mp hi
      omega
    have htail : ∀ i < 64 * n, f (a + caliChunkSize + i) = g (b + caliChunkSize + i) := by
      intro i hi
      rw [Nat.add_assoc, Nat.add_assoc]
      refine h _ ?_
      unfold caliChunkSize
      omega
    rw [crcSum, crcSum, hhead, ih htail]

theorem crcSum_le (f : Flash) (n adr : Nat) : crcSum f n adr ≤ n * 65535 := by
  induction n generalizing adr with
  | zero => exact Nat.le_of_eq (Nat.zero_mul _).symm
  | succ n ih =>
    have hcrc := (crc16 (f.read adr caliChunkSize)).isLt
    have hrest := ih (adr + caliChunkSize)
    rw [crcSum]
    omega

/-! ### Backup -/

/-- The area that a backup from `addr` on writes. -/
def CopyFrom (addr a : Nat) : Prop :=
  flashAdrDualMode4K + addr ≤ a ∧ a < flashAdrDualMode4K + 4096

theorem CopyFrom.mono {x y a : Nat} (hxy : x ≤ y) (h : CopyFrom y a) : CopyFrom x a :=
  ⟨Nat.le_trans (Nat.add_le_add_left hxy _) h.1, h.2⟩

theorem changesIn_backupLoop (n addr crcTotal : Nat) (hle : addr + 64 * n ≤ 4096) :
    (backupLoop n addr crcTotal).ChangesIn (CopyFrom addr) := by
  induction n generalizing addr crcTotal with
  | zero => exact changesIn_pure _
  | succ n ih =>
    refine changesIn_readAt_bind fun dataRead hlen => ?_
    have hsize : caliChunkSize = 64 := rfl
    have hwrite : ∀ i < dataRead.length, CopyFrom addr (flashAdrDualMode4K + addr + i) :=
      fun i hi => ⟨Nat.le_add_right _ _, by omega⟩
    refine (changesIn_writeAt hwrite).bind fun _ => changesIn_readAt_bind fun _ _ => ?_
    refine (changesIn_pure _).ite ?_
    exact (ih _ _ (by omega)).mono fun a => CopyFrom.mono (Nat.le_add_right _ _)

/-- A backup that comes to its end has the sector, and the sum of the check sums. -/
theorem run_backupLoop {n addr crcTotal total : Nat} (hle : addr + 64 * n ≤ 4096)
    (hrun : ((backupLoop n addr crcTotal).run f).1 = some total) :
    total = crcTotal + crcSum f n addr ∧ ∀ i, addr ≤ i → i < addr + 64 * n →
      ((backupLoop n addr crcTotal).run f).2 (flashAdrDualMode4K + i) = f i := by
  induction n generalizing addr crcTotal f with
  | zero => exact ⟨(Option.some.inj hrun).symm, fun i hge hlt => absurd hlt (by omega)⟩
  | succ n ih =>
    have hsize : caliChunkSize = 64 := rfl
    have hbase : flashAdrDualMode4K = 0x78000 := rfl
    generalize hg : f.write (flashAdrDualMode4K + addr) (f.read addr caliChunkSize) = g
    have hstep : (backupLoop (n + 1) addr crcTotal).run f =
        (if f.read addr caliChunkSize ≠ g.read (flashAdrDualMode4K + addr) caliChunkSize then
          Pure.pure none
        else backupLoop n (addr + caliChunkSize)
          (crcTotal + (crc16 (f.read addr caliChunkSize)).toNat)).run g := by
      rw [← hg]
      rfl
    by_cases hdiff : f.read addr caliChunkSize ≠ g.read (flashAdrDualMode4K + addr) caliChunkSize
    · rw [hstep, if_pos hdiff] at hrun
      exact absurd hrun (by simp)
    rw [hstep, if_neg hdiff] at hrun ⊢
    have hsame : ∀ a < 4096, g a = f a := by
      intro a ha
      rw [← hg]
      exact Flash.write_outside f (.inl (by omega))
    obtain ⟨htotal, hcopy⟩ := ih (by omega) hrun
    constructor
    · rw [htotal, crcSum, Nat.add_assoc, crcSum_congr fun i hi => hsame _ (by omega)]
    · intro i hge hlt
      rcases Nat.lt_or_ge i (addr + caliChunkSize) with hin | hout
      · have hframe := (changesIn_backupLoop n (addr + caliChunkSize)
          (crcTotal + (crc16 (f.read addr caliChunkSize)).toNat) (by omega)).exec g
          (a := flashAdrDualMode4K + i) fun hc => absurd hc.1 (by omega)
        refine hframe.trans ?_
        have hread := Flash.eq_of_read_eq (Decidable.not_not.mp hdiff).symm
          (i := i - addr) (by omega)
        rwa [Nat.add_assoc, Nat.add_sub_cancel' hge] at hread
      · rw [hcopy i hout (by omega)]
        exact hsame i (by omega)

/-- A second backup of the same sector changes nothing. -/
theorem always_backupLoop_same {n addr crcTotal : Nat} (hle : addr + 64 * n ≤ 4096)
    (hcopy : ∀ i < 4096, f (flashAdrDualMode4K + i) = f i) :
    Always (· = f) (backupLoop n addr crcTotal) f := by
  induction n generalizing addr crcTotal with
  | zero => exact (always_pure ..).mpr rfl
  | succ n ih =>
    have hsize : caliChunkSize = 64 := rfl
    have hwrite : f.write (flashAdrDualMode4K + addr) (f.read addr caliChunkSize) = f := by
      refine Flash.write_same fun i hi => ?_
      have hlt : i < caliChunkSize := by rwa [Flash.length_read] at hi
      rw [Flash.getElem_read, Nat.add_assoc]
      exact hcopy _ (by omega)
    refine (always_readAt_bind ..).mpr ((always_bind ..).mpr ⟨?_, ?_⟩)
    · exact (always_writeAt ..).mpr ⟨rfl, hwrite⟩
    · rw [run_writeAt, hwrite]
      refine (always_readAt_bind ..).mpr ?_
      split_ifs
      · exact (always_pure ..).mpr rfl
      · exact ih (by omega)

theorem changesIn_high {adr : Nat} (bs : List Byte) (h : 4096 ≤ adr) :
    (writeAt adr bs).ChangesIn (4096 ≤ ·) :=
  changesIn_writeAt fun _ _ => Nat.le_trans h (Nat.le_add_right _ _)

theorem changesIn_backupTlk4KFw : backupTlk4KFw.ChangesIn (CopyFrom 0) :=
  changesIn_backupLoop 64 0 0 (by decide)

theorem CopyFrom.high {addr a : Nat} (h : CopyFrom addr a) : 4096 ≤ a := by
  have hbase : flashAdrDualMode4K = 0x78000 := rfl
  have hge := h.1
  omega

theorem changesIn_backup : dualModeBackupTlk4K.ChangesIn (4096 ≤ ·) := by
  have hloop := changesIn_backupTlk4KFw.mono fun a => CopyFrom.high
  refine changesIn_readAt_bind fun cali _ => ChangesIn.ite (ChangesIn.ite ?_ (ChangesIn.ite ?_ ?_))
    (changesIn_pure _)
  · refine hloop.bind fun o => ?_
    cases o with
    | none => exact changesIn_pure _
    | some crcTotal =>
      exact (changesIn_high _ (by decide)).bind fun _ =>
        (changesIn_high _ (by decide)).bind fun _ => changesIn_pure _
  · refine changesIn_readAt_bind fun fw _ => ChangesIn.ite ?_ (changesIn_pure _)
    refine hloop.bind fun o => ?_
    cases o with
    | none => exact changesIn_pure _
    | some crcTotal => exact changesIn_readAt_bind fun _ _ => changesIn_pure _
  · exact (changesIn_high _ (by decide)).bind fun _ => changesIn_pure _

/-- A backup that comes to its end. -/
theorem backupIs_backupTlk4KFw {total : Nat} (hs : SectorIs image f)
    (hrun : (backupTlk4KFw.run f).1 = some total) : BackupIs image (backupTlk4KFw.run f).2 := by
  intro i hi
  rw [backupTlk4KFw, (run_backupLoop (by decide) hrun).2 i (Nat.zero_le i) (by omega)]
  exact hs i hi

theorem caliFlag_write_zero : caliFlag (f.write cfgAdrDualCaliValFlag (toLE 4 0)) = 0 := by
  have hzero : ∀ i < 4,
      f.write cfgAdrDualCaliValFlag (toLE 4 0) (cfgAdrDualCaliValFlag + i) = 0 := by
    intro i hi
    have hbyte : ∀ b ∈ toLE 4 0, b = (0 : Byte) := by decide
    rw [Flash.write_at f _ (by rw [length_toLE]; exact hi), hbyte _ (List.getElem_mem _)]
    exact BitVec.and_zero
  unfold caliFlag
  rw [Flash.read_eq_replicate hzero]
  rfl

/-- **No cut of a backup** makes the flag stand for something else than the image. -/
theorem always_backup (hs : SectorIs image f) (hb : Backed image f) :
    Always (Backed image) dualModeBackupTlk4K f := by
  have hloop : caliFlag f ≠ dualModeCaliValFlag → Always (Backed image) backupTlk4KFw f := by
    intro hne n hflag
    have hbase : flashAdrDualMode4K = 0x78000 := rfl
    have hcfg : cfgAdrDualCaliValFlag = 0x76084 := rfl
    have hsame : caliFlag (backupTlk4KFw.cutAfter n f) = caliFlag f := by
      refine congrArg ofLE (Flash.read_congr fun i hi => ?_)
      exact changesIn_backupTlk4KFw.cutAfter f (fun hc => absurd hc.1 (by omega)) n
    exact absurd (hsame.symm.trans hflag) hne
  have hwrite : ∀ {g : Flash} {adr : Nat} (bs : List Byte), BackupIs image g →
      adr + bs.length ≤ flashAdrDualMode4K → BackupIs image (g.write adr bs) := by
    intro g adr bs hg hle i hi
    rw [Flash.write_outside g (.inr (by omega))]
    exact hg i hi
  have hlow : ∀ (adr v : Nat), adr ≤ cfgAdrDualCaliVal →
      adr + (toLE 4 v).length ≤ flashAdrDualMode4K := by
    intro adr v hadr
    have hbase : flashAdrDualMode4K = 0x78000 := rfl
    have hcfg : cfgAdrDualCaliVal = 0x76088 := rfl
    rw [length_toLE]
    omega
  refine (always_readAt_bind ..).mpr ?_
  change Always _ (if caliFlag f ≠ 0 then
    if caliFlag f = _ then _ else if caliFlag f = _ then _ else _ else _) f
  split_ifs with hzero hblank hset
  · have hne : caliFlag f ≠ dualModeCaliValFlag := by
      rw [hblank]
      decide
    refine (always_bind ..).mpr ⟨hloop hne, ?_⟩
    cases hrun : (backupTlk4KFw.run f).1 with
    | none => exact (always_pure ..).mpr (hloop hne).exec
    | some crcTotal =>
      have hcopy := backupIs_backupTlk4KFw hs hrun
      have hflagged := hwrite (toLE 4 dualModeCaliValFlag) hcopy
        (hlow cfgAdrDualCaliValFlag _ (by decide))
      refine (always_bind ..).mpr
        ⟨(always_writeAt ..).mpr ⟨fun _ => hcopy, fun _ => hflagged⟩, ?_⟩
      refine (always_bind ..).mpr
        ⟨(always_writeAt ..).mpr ⟨fun _ => hflagged, fun _ => ?_⟩, ?_⟩
      · exact hwrite _ hflagged (hlow _ _ (Nat.le_refl _))
      · exact (always_pure ..).mpr fun _ => hwrite _ hflagged (hlow _ _ (Nat.le_refl _))
  · have hcopy : ∀ i < 4096, f (flashAdrDualMode4K + i) = f i := by
      intro i hi
      rw [hb hset i hi, hs i hi]
    have hsame : Always (Backed image) backupTlk4KFw f :=
      (always_backupLoop_same (by decide) hcopy).mono fun g hg => hg ▸ hb
    refine (always_readAt_bind ..).mpr ?_
    split_ifs
    · refine (always_bind ..).mpr ⟨hsame, ?_⟩
      cases hrun : (backupTlk4KFw.run f).1 with
      | none => exact (always_pure ..).mpr hsame.exec
      | some crcTotal => exact (always_readAt_bind ..).mpr ((always_pure ..).mpr hsame.exec)
    · exact (always_pure ..).mpr hb
  · have hcleared : Backed image (f.write cfgAdrDualCaliValFlag (toLE 4 0)) := by
      intro hflag
      rw [caliFlag_write_zero] at hflag
      exact absurd hflag (by decide)
    refine (always_bind ..).mpr ⟨(always_writeAt ..).mpr ⟨hb, hcleared⟩, ?_⟩
    exact (always_pure ..).mpr hcleared
  · exact (always_pure ..).mpr hb

/-! ### Restore -/

def storedSum (f : Flash) : Nat := ofLE (f.read cfgAdrDualCaliVal 4)

/-- The block that is written back: the one of the copy, without the start flag. -/
def restoredChunk (f : Flash) (addr : Nat) : List Byte :=
  if addr = 0 then (f.read (flashAdrDualMode4K + addr) caliChunkSize).set 8 0xff
  else f.read (flashAdrDualMode4K + addr) caliChunkSize

theorem length_restoredChunk (addr : Nat) : (restoredChunk f addr).length = 64 := by
  unfold restoredChunk
  split_ifs
  · rw [List.length_set, Flash.length_read]
    rfl
  · rw [Flash.length_read]
    rfl

theorem getElem_restoredChunk {addr i : Nat} (hmod : addr % 64 = 0)
    (hi : i < (restoredChunk f addr).length) :
    (restoredChunk f addr)[i] =
      if addr + i = 8 then blank else f (flashAdrDualMode4K + (addr + i)) := by
  have hlt := hi
  rw [length_restoredChunk] at hlt
  by_cases hzero : addr = 0
  · have hchunk : restoredChunk f addr =
        (f.read (flashAdrDualMode4K + addr) caliChunkSize).set 8 0xff := if_pos hzero
    subst hzero
    rw [List.getElem_of_eq hchunk, List.getElem_set, Nat.zero_add]
    by_cases h8 : i = 8
    · rw [if_pos h8.symm, if_pos h8]
      rfl
    · rw [if_neg (Ne.symm h8), if_neg h8, Flash.getElem_read, Nat.add_zero]
  · have hchunk : restoredChunk f addr = f.read (flashAdrDualMode4K + addr) caliChunkSize :=
      if_neg hzero
    rw [List.getElem_of_eq hchunk, Flash.getElem_read, if_neg (by omega), Nat.add_assoc]

/-- The area that a restore from `addr` on writes. -/
def SectorFrom (addr a : Nat) : Prop := addr ≤ a ∧ a < 4096

theorem changesIn_restoreLoop (n addr crcTotal : Nat) (hle : addr + 64 * n ≤ 4096) :
    (restoreLoop n addr crcTotal).ChangesIn (SectorFrom addr) := by
  induction n generalizing addr crcTotal with
  | zero => exact changesIn_pure _
  | succ n ih =>
    have hsize : caliChunkSize = 64 := rfl
    refine changesIn_readAt_bind fun dataRead hlen => ?_
    have hchunk : (if addr = 0 then dataRead.set 8 0xff else dataRead).length = 64 := by
      split_ifs
      · rw [List.length_set, hlen]
        rfl
      · exact hlen
    have hwrite : ∀ i < (if addr = 0 then dataRead.set 8 0xff else dataRead).length,
        SectorFrom addr (addr + i) := fun i hi => ⟨Nat.le_add_right _ _, by omega⟩
    refine (changesIn_writeAt hwrite).bind fun _ => changesIn_readAt_bind fun _ _ => ?_
    refine (changesIn_pure _).ite ((ih _ _ (by omega)).mono fun a ha => ⟨?_, ha.2⟩)
    exact Nat.le_trans (Nat.le_add_right _ _) ha.1

/-- On a blank sector the restore comes to its end with one write for each block. -/
theorem run_restoreLoop {n addr crcTotal : Nat} (hle : addr + 64 * n ≤ 4096)
    (hmod : addr % 64 = 0) (hblank : ∀ a, addr ≤ a → a < addr + 64 * n → f a = blank) :
    ((restoreLoop n addr crcTotal).run f).1 =
        some (crcTotal + crcSum f n (flashAdrDualMode4K + addr)) ∧
      (restoreLoop n addr crcTotal).ops f = n ∧
      ∀ i, addr ≤ i → i < addr + 64 * n → ((restoreLoop n addr crcTotal).run f).2 i =
        if i = 8 then blank else f (flashAdrDualMode4K + i) := by
  induction n generalizing addr crcTotal f with
  | zero => exact ⟨rfl, rfl, fun i hge hlt => absurd hlt (by omega)⟩
  | succ n ih =>
    have hsize : caliChunkSize = 64 := rfl
    have hbase : flashAdrDualMode4K = 0x78000 := rfl
    have hlen := length_restoredChunk (f := f) addr
    generalize hg : f.write addr (restoredChunk f addr) = g
    have hread : g.read addr caliChunkSize = restoredChunk f addr := by
      have hwritten := @Flash.read_write_blank f addr (restoredChunk f addr)
        fun i hi => hblank _ (Nat.le_add_right _ _) (by omega)
      rwa [hg, hlen] at hwritten
    have houtside : ∀ a, addr + 64 ≤ a → g a = f a := by
      intro a ha
      rw [← hg]
      exact Flash.write_outside f (.inr (by omega))
    have hnext : ∀ {α : Type} (F : Prog (Option Nat) → α),
        F (if restoredChunk f addr ≠ g.read addr caliChunkSize then Pure.pure none
          else restoreLoop n (addr + caliChunkSize) (crcTotal +
            (crc16 (f.read (flashAdrDualMode4K + addr) caliChunkSize)).toNat)) =
        F (restoreLoop n (addr + caliChunkSize) (crcTotal +
            (crc16 (f.read (flashAdrDualMode4K + addr) caliChunkSize)).toNat)) := by
      intro α F
      rw [if_neg (not_not.mpr hread.symm)]
    have hrun : (restoreLoop (n + 1) addr crcTotal).run f =
        (restoreLoop n (addr + caliChunkSize) (crcTotal +
            (crc16 (f.read (flashAdrDualMode4K + addr) caliChunkSize)).toNat)).run g := by
      rw [← hnext (Prog.run · g), ← hg]
      rfl
    have hops : (restoreLoop (n + 1) addr crcTotal).ops f =
        (restoreLoop n (addr + caliChunkSize) (crcTotal +
            (crc16 (f.read (flashAdrDualMode4K + addr) caliChunkSize)).toNat)).ops g + 1 := by
      rw [← hnext (Prog.ops · g), ← hg]
      rfl
    obtain ⟨hresult, hcount, hcopy⟩ := @ih g (addr + caliChunkSize)
      (crcTotal + (crc16 (f.read (flashAdrDualMode4K + addr) caliChunkSize)).toNat) (by omega)
      (by omega) fun a hge hlt => by
        rw [houtside a (by omega)]
        exact hblank a (by omega) (by omega)
    rw [hrun, hops]
    refine ⟨?_, congrArg (· + 1) hcount, fun i hge hlt => ?_⟩
    · rw [hresult, crcSum, Nat.add_assoc, Nat.add_assoc flashAdrDualMode4K,
        crcSum_congr fun i hi => houtside _ (by omega)]
    · rcases Nat.lt_or_ge i (addr + caliChunkSize) with hin | hout
      · have hframe := (changesIn_restoreLoop n (addr + caliChunkSize)
          (crcTotal + (crc16 (f.read (flashAdrDualMode4K + addr) caliChunkSize)).toNat)
          (by omega)).exec g (a := i) fun hc => absurd hc.1 (by omega)
        refine hframe.trans ?_
        obtain ⟨j, rfl⟩ : ∃ j, i = addr + j := ⟨i - addr, (Nat.add_sub_cancel' hge).symm⟩
        have hj : j < (restoredChunk f addr).length := by omega
        rw [← hg, Flash.write_at f addr hj, hblank _ hge hlt, Flash.blank_and,
          getElem_restoredChunk hmod hj]
      · rw [hcopy i hout (by omega), houtside _ (by omega)]

/-- No cut of the loop writes the start flag. -/
theorem always_restoreLoop {n addr crcTotal : Nat} (hmod : addr % 64 = 0) (h : f 8 = blank) :
    Always (fun g => g 8 = blank) (restoreLoop n addr crcTotal) f := by
  induction n generalizing addr crcTotal f with
  | zero => exact (always_pure ..).mpr h
  | succ n ih =>
    have hnext : (f.write addr (restoredChunk f addr)) 8 = blank := by
      by_cases hin : addr ≤ 8 ∧ 8 < addr + (restoredChunk f addr).length
      · have hlt : 8 - addr < (restoredChunk f addr).length := by omega
        have hat := Flash.write_at f addr hlt
        rw [Nat.add_sub_cancel' hin.1, getElem_restoredChunk hmod hlt,
          if_pos (Nat.add_sub_cancel' hin.1), h] at hat
        exact hat
      · rw [Flash.write_outside f (by omega)]
        exact h
    refine (always_readAt_bind ..).mpr ((always_bind ..).mpr ⟨?_, ?_⟩)
    · exact (always_writeAt ..).mpr ⟨h, hnext⟩
    · refine (always_readAt_bind ..).mpr ?_
      change Always _ (if restoredChunk f addr ≠
        (f.write addr (restoredChunk f addr)).read addr caliChunkSize then _ else _)
        (f.write addr (restoredChunk f addr))
      split_ifs
      · exact (always_pure ..).mpr hnext
      · exact ih (by unfold caliChunkSize; omega) hnext

/-- What follows the erase does 65 operations, the last one the start flag.  Behind the last one
the sector is the image, where the stored sum is the right one; else byte 8 is blank. -/
theorem cutAfter_restoreWrite (hflag : image 8 = 0x4b) (hcopy : BackupIs image f)
    (hblank : ∀ a < 4096, f a = blank) (n : Nat) :
    if storedSum f = crcSum image 64 0 ∧ 65 ≤ n then SectorIs image (restoreWrite.cutAfter n f)
    else restoreWrite.cutAfter n f 8 = blank := by
  obtain ⟨hresult, hcount, hbytes⟩ := @run_restoreLoop f 64 0 0 (by decide) rfl
    fun a _ ha => hblank a ha
  generalize hg : ((restoreLoop 64 0 0).run f).2 = g at hbytes
  have hsum : crcSum f 64 flashAdrDualMode4K = crcSum image 64 0 := by
    refine crcSum_congr fun i hi => ?_
    rw [Nat.zero_add]
    exact hcopy i hi
  have hstored : storedSum g = storedSum f := by
    refine congrArg ofLE (Flash.read_congr fun i hi => ?_)
    have hcfg : cfgAdrDualCaliVal = 0x76088 := rfl
    rw [← hg]
    exact (changesIn_restoreLoop 64 0 0 (by decide)).exec f fun hc => absurd hc.2 (by omega)
  have hg8 : g 8 = blank := by
    rw [hbytes 8 (by decide) (by decide)]
    rfl
  have hcut : restoreWrite.cutAfter n f = if n < 64 then (restoreLoop 64 0 0).cutAfter n f
      else (if storedSum g = crcSum image 64 0 then writeAt 8 [0x4b] else Pure.pure ()).cutAfter
        (n - 64) g := by
    refine (cutAfter_bind (restoreLoop 64 0 0) _ f n).trans ?_
    rw [hcount, hresult, hg, Nat.add_zero, Nat.zero_add, hsum]
    rfl
  rw [hcut, hstored]
  by_cases hlt : n < 64
  · rw [if_pos hlt, if_neg fun hc => absurd hc.2 (by omega)]
    exact always_restoreLoop rfl (hblank 8 (by decide)) n
  · rw [if_neg hlt]
    by_cases hright : storedSum f = crcSum image 64 0
    · rw [if_pos hright]
      rcases Nat.eq_or_lt_of_le (Nat.le_of_not_lt hlt) with heq | hgt
      · rw [← heq, if_neg fun hc => absurd hc.2 (by decide)]
        exact hg8
      · rw [if_pos ⟨hright, hgt⟩]
        obtain ⟨m, hm⟩ : ∃ m, n - 64 = m + 1 := ⟨n - 65, by omega⟩
        rw [hm]
        intro a ha
        show g.write 8 [0x4b] a = image a
        by_cases h8 : a = 8
        · rw [h8, Flash.write_head, hg8, Flash.blank_and, hflag]
        · rw [Flash.write_outside g (by simp; omega), hbytes a (Nat.zero_le a) (by omega),
            if_neg h8]
          exact hcopy a ha
    · rw [if_neg hright, if_neg fun hc => hright hc.1]
      exact hg8

theorem changesIn_restoreWrite : restoreWrite.ChangesIn (· < 4096) := by
  have hloop := (changesIn_restoreLoop 64 0 0 (by decide)).mono fun a (ha : SectorFrom 0 a) => ha.2
  refine hloop.bind fun o => ?_
  cases o with
  | none => exact changesIn_pure _
  | some crcTotal =>
    refine changesIn_readAt_bind fun _ _ => ChangesIn.ite ?_ (changesIn_pure _)
    refine changesIn_writeAt fun i hi => ?_
    have hlt : i < 1 := hi
    omega

end DualMode

end PirMesh
